import TradingBot.Foundation.Interleaving
import TradingBot.Oms.StateMachine

/-!
# Order counters

The manager counts its active and its ended orders, but a caller that holds the handle of a
machine changes it without the manager. The counters follow the machines along exactly those
runs in which only the manager's own events end an order and no forced state moves an order
across the end of its life.
-/

open OrderedMap MachineInt Run Interleaving

namespace TradingBot.Oms.OrderCounters

open OrderStateMachine World

/-- A call on the manager or on a handle it gave out. -/
inductive ManagerCall where
  /-- `create_order`. -/
  | create
  | process (orderId : Nat) (event : StateEvent)
  /-- `cleanup_terminal_orders`. -/
  | cleanup
  | transition (handle : Nat) (event : StateEvent)
  /-- `force_transition` on a handle. -/
  | force (handle : Nat) (newState : OrderState)

/-- The world with what the counters stand for: the created orders that ever reached a terminal
state, and whether a counter was decremented at zero. -/
structure Session where
  world : World
  ended : List Bool
  underflow : Bool

/-- A session without orders. -/
def Session.new : Session := { world := .new, ended := [], underflow := false }

/-- The marks after some machines changed: an order that is over is marked for good. -/
def markEnded (ended : List Bool) (machines : List OrderStateMachine) : List Bool :=
  machines.mapIdx fun handle machine => machine.isTerminal || ended.getD handle false

/-- A session after the world changed. -/
def Session.moved (session : Session) (world : World) : Session :=
  { session with world := world, ended := markEnded session.ended world.machines }

/-- A session after a call; there is no call on a handle of no machine. -/
def step (session : Session) : ManagerCall → Option Session
  | .create => some (session.moved session.world.createOrder)
  | .process orderId event =>
    let answer := session.world.processEvent orderId event
    let counted := answer.1.any fun result => result.success && result.newState.isTerminal
    some { session.moved answer.2 with
      underflow := session.underflow || counted && session.world.manager.activeCount = 0 }
  | .cleanup => some (session.moved session.world.cleanupTerminalOrders.2)
  | .transition handle event =>
    session.world.machines[handle]?.map fun machine =>
      session.moved (session.world.setMachine handle (machine.transition event).2)
  | .force handle newState =>
    session.world.machines[handle]?.map fun machine =>
      session.moved (session.world.setMachine handle (machine.forceTransition newState))

/-- How many machines are in no terminal state. -/
def live (machines : List OrderStateMachine) : Nat :=
  machines.countP fun machine => !machine.isTerminal

/-- The counters tell the number of created orders that are not over and of those that ended,
and none was decremented at zero. -/
def Counted (session : Session) : Prop :=
  session.world.getStats.activeOrders = live session.world.machines ∧
    session.world.getStats.terminalOrders = session.ended.count true ∧
    session.underflow = false

instance (session : Session) : Decidable (Counted session) :=
  inferInstanceAs (Decidable (_ ∧ _ ∧ _))

/-- An event ends an order in a state: a rejection, the full fill, a confirmed cancellation or
the timeout of a working order. -/
def Ends : StateEvent → OrderState → Prop
  | .reject _, state => state = .submitted ∨ state = .acknowledged
  | .fullFill, state => state = .working ∨ state = .partiallyFilled
  | .cancelConfirmed, state => state = .inFlight ∨ state = .triggered
  | .timeout, state => state = .working
  | _, _ => False

instance : ∀ (event : StateEvent) (state : OrderState), Decidable (Ends event state)
  | .reject _, _ | .fullFill, _ | .cancelConfirmed, _ => inferInstanceAs (Decidable (_ ∨ _))
  | .timeout, _ => inferInstanceAs (Decidable (_ = _))
  | .submitRequested, _ | .exchangeAck, _ | .fill _ _, _ | .cancelRequested, _ | .expired, _
  | .modifyRequested, _ | .modifyConfirmed, _ | .trigger, _ | .systemEvent _, _ =>
    inferInstanceAs (Decidable False)

/-- A call that keeps the counters right: a creation or an ending event of the manager while the
counter has room, a direct transition that does not end the order, and a forced state on the
same side of the end of its life. -/
def Seen (session : Session) : ManagerCall → Prop
  | .create => session.world.manager.activeCount + 1 < u64Size
  | .process orderId event => ∀ handle, session.world.getOrder orderId = some handle →
      ∀ machine, session.world.machines[handle]? = some machine →
        Ends event machine.currentState → session.world.manager.terminalCount + 1 < u64Size
  | .cleanup => True
  | .transition handle event => ∀ machine, session.world.machines[handle]? = some machine →
      ¬Ends event machine.currentState
  | .force handle newState => ∀ machine, session.world.machines[handle]? = some machine →
      newState.isTerminal = machine.isTerminal

/-! ## Ending events -/

section Ending

variable {machine : OrderStateMachine} {event : StateEvent}

theorem ends_iff {source : OrderState} :
    Ends event source ↔ ∃ target, Leads event source target ∧ target.isTerminal = true := by
  have table : (targetState event source).any
      (fun target => isValidTransition source target && target.isTerminal) =
        decide (Ends event source) := by
    cases event <;> cases source <;> rfl
  refine decide_eq_true_iff.symm.trans ?_
  rw [← table, Option.any_eq_true]
  simp only [Leads, Bool.and_eq_true, and_assoc]

theorem transition_counted (idle : machine.isTransitioning = false) :
    ((machine.transition event).1.success && (machine.transition event).1.newState.isTerminal) =
      true ↔ Ends event machine.currentState := by
  rw [ends_iff]
  by_cases leads : ∃ target, Leads event machine.currentState target
  · obtain ⟨target, leads⟩ := leads
    rw [transition_leads idle leads]
    constructor
    · exact fun terminal => ⟨target, leads, terminal⟩
    · intro ends
      obtain ⟨other, same, terminal⟩ := ends
      have equal : other = target := Option.some.inj (same.1.symm.trans leads.1)
      exact equal ▸ terminal
  · have refusal := transition_refused idle fun target into => leads ⟨target, into⟩
    rw [refusal.1]
    constructor
    · exact fun none => absurd none (by simp)
    · exact fun ends => absurd (ends.imp fun _ => And.left) leads

theorem alive_of_ends (ends : Ends event machine.currentState) : machine.isTerminal = false := by
  obtain ⟨target, leads, _⟩ := ends_iff.mp ends
  exact Bool.eq_false_iff.mpr fun ended => not_leads_terminal ended target leads

theorem transition_ends (idle : machine.isTransitioning = false)
    (ends : Ends event machine.currentState) :
    (machine.transition event).2.isTerminal = true := by
  obtain ⟨target, leads, terminal⟩ := ends_iff.mp ends
  rw [transition_leads idle leads]
  exact terminal

theorem transition_stays (idle : machine.isTransitioning = false)
    (not : ¬Ends event machine.currentState) :
    (machine.transition event).2.isTerminal = machine.isTerminal := by
  by_cases leads : ∃ target, Leads event machine.currentState target
  · obtain ⟨target, leads⟩ := leads
    have alive : machine.isTerminal = false :=
      Bool.eq_false_iff.mpr fun ended => not_leads_terminal ended target leads
    rw [transition_leads idle leads, alive]
    exact Bool.eq_false_iff.mpr fun terminal => not (ends_iff.mpr ⟨target, leads, terminal⟩)
  · have refusal := transition_refused idle fun target into => leads ⟨target, into⟩
    rw [refusal.2.2]

end Ending

/-! ## Machines and marks -/

section Marks

variable {session : Session} {handle : Nat} {machine other : OrderStateMachine}

/-- What holds along every run in which only seen events end an order: the marked orders are
those that are over, no machine is in a transition, and the active count is a machine word. -/
structure Sound (session : Session) : Prop where
  marks : session.ended = session.world.machines.map isTerminal
  idle : ∀ machine ∈ session.world.machines, machine.isTransitioning = false
  word : session.world.manager.activeCount < u64Size

/-- No machine that is over comes back. -/
def Kept (machines changed : List OrderStateMachine) : Prop :=
  ∀ (handle : Nat) (before later : OrderStateMachine), machines[handle]? = some before →
    changed[handle]? = some later → before.isTerminal = true → later.isTerminal = true

theorem kept_same (machines : List OrderStateMachine) : Kept machines machines := by
  intro handle before later earlier now ended
  cases earlier.symm.trans now
  exact ended

theorem marks_moved (sound : Sound session) {world : World}
    (kept : Kept session.world.machines world.machines) :
    (session.moved world).ended = world.machines.map isTerminal := by
  show markEnded session.ended world.machines = _
  unfold markEnded
  apply List.ext_getElem?
  intro handle
  rw [List.getElem?_mapIdx, List.getElem?_map]
  cases found : world.machines[handle]? with
  | none => rfl
  | some later =>
    rw [Option.map_some, Option.map_some, sound.marks, List.getD_eq_getElem?_getD,
      List.getElem?_map]
    cases earlier : session.world.machines[handle]? with
    | none => simp
    | some before =>
      cases ended : before.isTerminal with
      | false => simp [ended]
      | true => simp [ended, kept handle before later earlier found ended]

theorem count_over (machines : List OrderStateMachine) :
    (machines.map isTerminal).count true = machines.countP isTerminal := by
  rw [List.count, List.countP_map]
  congr 1
  funext machine
  exact (beq_true _)

end Marks

/-! ## Calls -/

section Calls

variable {session : Session} {world : World} {handle : Nat} {machine other : OrderStateMachine}

theorem counted_moved (sound : Sound session)
    (kept : Kept session.world.machines world.machines) (underflow : Bool) :
    Counted { session.moved world with underflow := underflow } ↔
      world.manager.activeCount = live world.machines ∧
        world.manager.terminalCount = world.machines.countP isTerminal ∧ underflow = false := by
  show _ ∧ _ = (session.moved world).ended.count true ∧ _ ↔ _
  rw [marks_moved sound kept, count_over]
  rfl

theorem counted_iff (sound : Sound session) :
    Counted session ↔ session.world.manager.activeCount = live session.world.machines ∧
      session.world.manager.terminalCount = session.world.machines.countP isTerminal ∧
        session.underflow = false := by
  show _ ∧ _ = session.ended.count true ∧ _ ↔ _
  rw [sound.marks, count_over]
  rfl

theorem kept_set (found : session.world.machines[handle]? = some machine)
    (kept : machine.isTerminal = true → other.isTerminal = true) :
    Kept session.world.machines (session.world.machines.set handle other) := by
  intro place before later earlier now ended
  have inside := (List.getElem?_eq_some_iff.mp found).1
  rw [List.getElem?_set] at now
  by_cases here : handle = place
  · rw [if_pos here, if_pos inside] at now
    cases now
    rw [← here, found] at earlier
    cases earlier
    exact kept ended
  · rw [if_neg here, earlier] at now
    cases now
    exact ended

theorem live_set (found : session.world.machines[handle]? = some machine) :
    live (session.world.machines.set handle other) + (!machine.isTerminal).toNat =
      live session.world.machines + (!other.isTerminal).toNat :=
  countP_replaced (fun machine : OrderStateMachine => !machine.isTerminal) found other

theorem counted_set (sound : Sound session) (counted : Counted session)
    (found : session.world.machines[handle]? = some machine) (underflow : Bool) :
    Counted { session.moved (session.world.setMachine handle other) with underflow := underflow } ↔
      other.isTerminal = machine.isTerminal ∧ underflow = false := by
  have before := (counted_iff sound).mp counted
  have lives := @live_set session handle machine other found
  constructor
  · intro later
    have active : session.world.manager.activeCount =
        live (session.world.machines.set handle other) := later.1
    refine ⟨?_, later.2.2⟩
    rw [← active, before.1] at lives
    have same := Nat.add_left_cancel lives
    revert same
    cases machine.isTerminal <;> cases other.isTerminal <;> decide
  · intro same
    apply (counted_moved sound (kept_set found fun ended => same.1.trans ended) underflow).mpr
    have overs := countP_replaced isTerminal found other
    rw [same.1] at lives overs
    exact ⟨before.1.trans (Nat.add_right_cancel lives).symm,
      before.2.1.trans (Nat.add_right_cancel overs).symm, same.2⟩

theorem sound_set (sound : Sound session)
    (found : session.world.machines[handle]? = some machine)
    (kept : machine.isTerminal = true → other.isTerminal = true)
    (idle : other.isTransitioning = false) (underflow : Bool) :
    Sound {
      session.moved (session.world.setMachine handle other) with underflow := underflow } where
  marks := marks_moved sound (kept_set found kept)
  idle := fun machine member =>
    (List.mem_or_eq_of_mem_set member).elim (sound.idle machine) fun new => new ▸ idle
  word := sound.word

theorem kept_create : Kept session.world.machines session.world.createOrder.machines := by
  intro place before later earlier now ended
  have inside := (List.getElem?_eq_some_iff.mp earlier).1
  have same : (session.world.machines ++ [_])[place]? = some later := now
  rw [List.getElem?_append_left inside, earlier] at same
  cases same
  exact ended

theorem counted_create (sound : Sound session) (counted : Counted session) :
    Counted (session.moved session.world.createOrder) ↔
      session.world.manager.activeCount + 1 < u64Size := by
  have before := (counted_iff sound).mp counted
  have lives : live session.world.createOrder.machines = live session.world.machines + 1 :=
    List.countP_append
  have overs : session.world.createOrder.machines.countP isTerminal =
      session.world.machines.countP isTerminal := List.countP_append
  rw [show session.moved session.world.createOrder =
    { session.moved session.world.createOrder with underflow := session.underflow } from rfl,
    counted_moved sound kept_create, lives, overs, ← before.1, ← before.2.1]
  constructor
  · intro later
    exact later.1 ▸ Nat.mod_lt _ (by decide)
  · exact fun room => ⟨castU64_of_fits room, rfl, before.2.2⟩

theorem counted_terminal (sound : Sound session) (counted : Counted session)
    (found : session.world.machines[handle]? = some machine) (alive : machine.isTerminal = false)
    (ended : other.isTerminal = true) :
    Counted { session.moved (session.world.setMachine handle other).countTerminal with
        underflow := session.underflow || decide (session.world.manager.activeCount = 0) } ↔
      session.world.manager.terminalCount + 1 < u64Size := by
  have before := (counted_iff sound).mp counted
  have lives := @live_set session handle machine other found
  have overs := countP_replaced isTerminal found other
  rw [alive, ended] at lives overs
  have positive : 0 < session.world.manager.activeCount := by
    rw [before.1, ← show _ = live session.world.machines from lives]
    exact Nat.succ_pos _
  have less : castU64 (session.world.manager.activeCount + (u64Size - 1)) =
      live (session.world.machines.set handle other) := by
    have word := sound.word
    have active := before.1
    unfold castU64 u64Size at *
    simp only [Bool.not_false, Bool.toNat_true, Bool.not_true, Bool.toNat_false] at lives
    omega
  have more : (session.world.machines.set handle other).countP isTerminal =
      session.world.manager.terminalCount + 1 := by
    rw [before.2.1]
    exact overs
  rw [counted_moved sound (kept_set found fun _ => ended)]
  show _ = live (session.world.machines.set handle other) ∧
    castU64 (session.world.manager.terminalCount + 1) =
      (session.world.machines.set handle other).countP isTerminal ∧ _ ↔ _
  rw [more, before.2.2, decide_eq_false (Nat.ne_of_gt positive)]
  constructor
  · intro later
    exact later.2.1 ▸ Nat.mod_lt _ (by decide)
  · exact fun room => ⟨less, castU64_of_fits room, rfl⟩

theorem counted_same (sound : Sound session) (counted : Counted session)
    (machines : world.machines = session.world.machines)
    (active : world.manager.activeCount = session.world.manager.activeCount)
    (terminal : world.manager.terminalCount = session.world.manager.terminalCount) :
    Counted (session.moved world) ∧ Sound (session.moved world) := by
  have kept : Kept session.world.machines world.machines := machines ▸ kept_same _
  constructor
  · apply (counted_moved sound kept session.underflow).mpr
    rw [machines, active, terminal]
    exact (counted_iff sound).mp counted
  · exact ⟨marks_moved sound kept, machines ▸ sound.idle, active ▸ sound.word⟩

theorem counted_process (sound : Sound session) (counted : Counted session) {orderId : Nat}
    {event : StateEvent} {next : Session}
    (taken : step session (.process orderId event) = some next) :
    (Counted next ↔ Seen session (.process orderId event)) ∧ Sound next := by
  cases taken
  cases tracked : session.world.getOrder orderId with
  | none =>
    have same := counted_same sound counted rfl rfl rfl
    rw [processEvent_none tracked, Option.any_none, Bool.false_and, Bool.or_false]
    refine ⟨⟨fun _ handle found => ?_, fun _ => same.1⟩, same.2⟩
    cases tracked.symm.trans found
  | some handle =>
    have inside := session.world.shared _ _ tracked
    have found : session.world.machines[handle]? = some session.world.machines[handle] :=
      List.getElem?_eq_getElem inside
    have idle := sound.idle _ (List.getElem_mem inside)
    have counting := @transition_counted _ event idle
    have later := @transition_idle _ event idle
    have seen : Seen session (.process orderId event) ↔
        (Ends event session.world.machines[handle].currentState →
          session.world.manager.terminalCount + 1 < u64Size) := by
      constructor
      · exact fun seen => seen handle tracked _ found
      · intro room other also machine shared ends
        cases tracked.symm.trans also
        cases found.symm.trans shared
        exact room ends
    rw [processEvent_some tracked found, seen, Option.any_some]
    by_cases ends : Ends event session.world.machines[handle].currentState
    · have alive := alive_of_ends ends
      have ended := transition_ends idle ends
      rw [counting.mpr ends, if_pos rfl, Bool.true_and]
      refine ⟨(counted_terminal sound counted found alive ended).trans ⟨fun room _ => room,
        fun room => room ends⟩, ?_⟩
      exact ⟨marks_moved sound (kept_set found fun _ => ended),
        (sound_set sound found (fun _ => ended) later session.underflow).idle,
        Nat.mod_lt _ (by decide)⟩
    · have same := transition_stays idle ends
      rw [Bool.eq_false_iff.mpr fun counts => ends (counting.mp counts), if_neg Bool.false_ne_true,
        Bool.false_and, Bool.or_false]
      refine ⟨(counted_set sound counted found _).trans ⟨fun _ ends' => absurd ends' ends,
        fun _ => ⟨same, counted.2.2⟩⟩, ?_⟩
      exact sound_set sound found (fun ended => same.trans ended) later _

theorem counted_transition (sound : Sound session) (counted : Counted session)
    {event : StateEvent} {next : Session}
    (taken : step session (.transition handle event) = some next) :
    (Counted next ↔ Seen session (.transition handle event)) ∧
      (Seen session (.transition handle event) → Sound next) := by
  obtain ⟨machine, found, rfl⟩ := Option.map_eq_some_iff.mp taken
  have idle := sound.idle machine (List.mem_of_getElem? found)
  have exact_ := @counted_set session handle machine (machine.transition event).2 sound counted
    found session.underflow
  constructor
  · refine exact_.trans ⟨fun same other shared ends => ?_, fun seen => ⟨?_, counted.2.2⟩⟩
    · cases found.symm.trans shared
      exact Bool.false_ne_true
        ((alive_of_ends ends).symm.trans (same.1.symm.trans (transition_ends idle ends)))
    · exact transition_stays idle (seen machine found)
  · intro seen
    have same := transition_stays idle (seen machine found)
    exact sound_set sound found (fun ended => same.trans ended) (transition_idle idle) _

theorem counted_force (sound : Sound session) (counted : Counted session)
    {newState : OrderState} {next : Session}
    (taken : step session (.force handle newState) = some next) :
    (Counted next ↔ Seen session (.force handle newState)) ∧
      (Seen session (.force handle newState) → Sound next) := by
  obtain ⟨machine, found, rfl⟩ := Option.map_eq_some_iff.mp taken
  have idle := sound.idle machine (List.mem_of_getElem? found)
  have exact_ := @counted_set session handle machine (machine.forceTransition newState) sound
    counted found session.underflow
  constructor
  · refine exact_.trans ⟨fun same other shared => ?_, fun seen => ⟨?_, counted.2.2⟩⟩
    · cases found.symm.trans shared
      exact same.1
    · exact seen machine found
  · intro seen
    exact @sound_set session handle machine (machine.forceTransition newState) sound found
      (fun ended => (seen machine found).trans ended) idle session.underflow

/-- One call keeps the counters exactly when it is seen. -/
theorem counted_step (sound : Sound session) (counted : Counted session) {call : ManagerCall}
    {next : Session} (taken : step session call = some next) :
    (Counted next ↔ Seen session call) ∧ (Seen session call → Sound next) := by
  cases call with
  | create =>
    cases taken
    refine ⟨counted_create sound counted, fun _ => ?_⟩
    refine ⟨marks_moved sound kept_create, fun machine member => ?_, Nat.mod_lt _ (by decide)⟩
    cases List.mem_append.mp member with
    | inl earlier => exact sound.idle machine earlier
    | inr new =>
      cases List.mem_singleton.mp new
      rfl
  | process orderId event =>
    exact (counted_process sound counted taken).imp_right fun sound _ => sound
  | cleanup =>
    cases taken
    have same := @counted_same session session.world.cleanupTerminalOrders.2 sound counted
      rfl rfl rfl
    exact ⟨⟨fun _ => trivial, fun _ => same.1⟩, fun _ => same.2⟩
  | transition handle event => exact counted_transition sound counted taken
  | force handle newState => exact counted_force sound counted taken

end Calls

/-- In every run of calls on the manager and on the handles it gave out, the counters tell the
live and the ended orders in every state, without underflow, if and only if every call is seen:
a creation or an ending event of the manager has room in its counter, no direct transition ends
an order, and no forced state crosses the end of an order's life. -/
theorem counters_tell_orders (calls : List ManagerCall) :
    Always step Counted Session.new calls ↔ Guarded step Seen Session.new calls := by
  apply @always_iff_guarded_of _ _ step Sound Counted (fun _ _ => True) Seen
  · exact fun _ _ _ sound counted _ seen taken => (counted_step sound counted taken).2 seen
  · exact fun _ _ _ sound counted _ taken => (counted_step sound counted taken).1
  · exact ⟨rfl, fun machine member => (List.not_mem_nil member).elim, by decide⟩
  · decide
  · exact guarded_of_forall (fun _ _ => trivial) Session.new

/-- An order filled through its handle is still counted as active. -/
theorem filled_behind_manager :
    ¬Always step Counted Session.new
      [.create, .transition 0 .submitRequested, .transition 0 .exchangeAck,
        .transition 0 .exchangeAck, .transition 0 .fullFill] := by
  decide +kernel

end TradingBot.Oms.OrderCounters
