import TradingBot.Foundation.Run
import TradingBot.Venues.FailoverStateMachine

/-!
# Failover decisions and the history of an id

An id is to be decided on by its own events. A run is compared with the run of the events of one
id alone, and every decision with the last events of the id. The thresholds are compared with the
counters of id 0, so another id is decided on rightly only where these happen to agree with its
own history.
-/

open Run MachineInt

namespace TradingBot.Venues

namespace FailoverHistory

/-- An event of an id, the state in which it found the id and the one in which it left it. -/
structure Received where
  id : Nat
  event : FailoverEvent
  found : FailoverState
  left : Option FailoverState
  deriving DecidableEq, Repr

/-- The machine after the registrations, the machine now, and the events between them, newest
first. -/
structure Session where
  started : FailoverStateMachine
  machine : FailoverStateMachine
  trace : List Received

/-- A session of registered ids. -/
def Session.start (registrations : List (Nat × FailoverConfig)) : Session where
  started := .registered registrations
  machine := .registered registrations
  trace := []

/-- An event of a registered id. -/
def step (session : Session) (received : Nat × FailoverEvent) : Option Session :=
  (session.machine.getState received.1).map fun found =>
    let next := (session.machine.processEvent received.1 received.2).2
    { session with
      machine := next
      trace := ⟨received.1, received.2, found, next.getState received.1⟩ :: session.trace }

/-- The events of an id in a trace. -/
def own (id : Nat) (trace : List Received) : List Received :=
  trace.filter fun received => received.id = id

/-- The machine after the events of one id alone. -/
def alone (started : FailoverStateMachine) (id : Nat) (trace : List Received) :
    FailoverStateMachine :=
  (own id trace).foldr (fun received machine =>
    (machine.processEvent received.id received.event).2) started

/-- The state, the counters and the active venue of an id. -/
def observe (machine : FailoverStateMachine) (id : Nat) :
    Option FailoverState × Nat × Nat × Option Nat :=
  (machine.getState id, machine.getFailureCount id, machine.getSuccessCount id,
    machine.getActiveVenue id)

/-- A trace without latency spikes. -/
def Calm (trace : List Received) : Prop := ∀ received ∈ trace, received.event ≠ .latencySpike

/-- The last events, as many as a count, all have a property. -/
def LastAll (count : Nat) (property : Received → Prop) (trace : List Received) : Prop :=
  count ≤ trace.length ∧ ∀ received ∈ trace.take count, property received

/-- A failed health check. -/
def Failed (received : Received) : Prop := received.event = .healthCheckFailed

/-- A heartbeat that found the id recovering. -/
def Beat (received : Received) : Prop :=
  received.found = .recovering ∧ received.event = .heartbeatOk

instance : DecidablePred Calm := fun trace =>
  inferInstanceAs (Decidable (∀ received ∈ trace, received.event ≠ .latencySpike))

instance (count : Nat) (property : Received → Prop) [DecidablePred property] :
    DecidablePred (LastAll count property) := fun trace =>
  inferInstanceAs (Decidable (_ ∧ ∀ received ∈ trace.take count, property received))

instance : DecidablePred Failed := fun received =>
  inferInstanceAs (Decidable (received.event = .healthCheckFailed))

instance : DecidablePred Beat := fun received =>
  inferInstanceAs (Decidable (received.found = .recovering ∧ received.event = .heartbeatOk))

/-- An event is decided on by the earlier events of its id: a failed check after as many as the
threshold takes it out of the primary state, and a heartbeat after as many takes it back. -/
def RightlyDecided (config : FailoverConfig) (received : Received) (earlier : List Received) :
    Prop :=
  (received.event = .healthCheckFailed → received.found = .primary →
    LastAll config.failoverThresholdFailures Failed (own received.id earlier) →
      received.left ≠ some .primary) ∧
    (received.event = .heartbeatOk → received.found = .recovering →
      LastAll config.recoveryThresholdSuccesses Beat (own received.id earlier) →
        received.left = some .primary)

/-- Every event of a trace is decided on by the earlier events of its id. -/
def AllDecided (machine : FailoverStateMachine) : List Received → Prop
  | [] => True
  | received :: earlier =>
    (∀ config, machine.getConfig received.id = some config →
      RightlyDecided config received earlier) ∧ AllDecided machine earlier

/-- Without latency spikes every id is as after its own events alone, and every event was decided
on by the earlier events of its id. -/
def OwnHistory (session : Session) : Prop :=
  (Calm session.trace → ∀ id,
    observe session.machine id = observe (alone session.started id session.trace) id) ∧
    AllDecided session.started session.trace

/-- A count and a threshold decide as the history does: the threshold is met if the history
reached it, and it is not met as long as every id is to be as it is alone. -/
def Agrees (threshold count : Nat) (reached calm : Prop) : Prop :=
  (reached → threshold ≤ count) ∧ (calm → count < threshold)

instance (threshold count : Nat) (reached calm : Prop) [Decidable reached] [Decidable calm] :
    Decidable (Agrees threshold count reached calm) :=
  inferInstanceAs (Decidable (_ ∧ _))

/-- Where an event of an id other than 0 compares a counter of id 0 with a threshold, that counter
agrees with the history of the id. -/
def ReadsAgree (session : Session) (received : Nat × FailoverEvent) : Prop :=
  match session.machine.getConfig received.1, session.machine.getState received.1, received.2 with
  | some config, some .primary, .healthCheckFailed => received.1 ≠ 0 →
    Agrees config.failoverThresholdFailures (session.machine.getFailureCount 0)
      (LastAll config.failoverThresholdFailures Failed (own received.1 session.trace))
      (Calm session.trace)
  | some config, some .recovering, .heartbeatOk => received.1 ≠ 0 →
    Agrees config.recoveryThresholdSuccesses (session.machine.getSuccessCount 0)
      (LastAll config.recoveryThresholdSuccesses Beat (own received.1 session.trace))
      (Calm session.trace)
  | _, _, _ => True

/-! ## Traces -/

section Traces

variable {started machine : FailoverStateMachine} {id count : Nat} {received : Received}
  {trace : List Received} {property : Received → Prop}

theorem own_cons : own id (received :: trace) =
    if received.id = id then received :: own id trace else own id trace := by
  unfold own
  rw [List.filter_cons]
  simp only [decide_eq_true_eq]

theorem alone_cons : alone started id (received :: trace) =
    if received.id = id then
      ((alone started id trace).processEvent received.id received.event).2
    else alone started id trace := by
  unfold alone
  rw [own_cons]
  split <;> rfl

theorem alone_cases :
    alone started id (received :: trace) = alone started id trace ∨
      ∃ current state config, FailoverStateMachine.Moved (alone started id trace)
        (alone started id (received :: trace)) id received.event current state config := by
  rw [alone_cons]
  split
  · rename_i same
    subst same
    exact FailoverStateMachine.processEvent_cases _ _ _
  · exact .inl rfl

theorem lastAll_cons (last : LastAll count property (received :: trace)) :
    count = 0 ∨ ∃ fewer, count = fewer + 1 ∧ property received ∧ LastAll fewer property trace := by
  cases count with
  | zero => exact .inl rfl
  | succ fewer =>
    obtain ⟨enough, all⟩ := last
    refine .inr ⟨fewer, rfl, all received List.mem_cons_self, ?_, fun other member => ?_⟩
    · exact Nat.le_of_succ_le_succ enough
    · exact all other (List.mem_cons_of_mem _ member)

theorem calm_cons :
    Calm (received :: trace) ↔ received.event ≠ .latencySpike ∧ Calm trace :=
  List.forall_mem_cons

end Traces

/-! ## The invariant -/

/-- The configurations do not change and have positive thresholds, the counters of an id are at
least what its last events count, and the counters of id 0 are zero where another id is alone. -/
structure Kept (session : Session) : Prop where
  configs : session.machine.configs = session.started.configs
  configured : ∀ id state, session.machine.getState id = some state →
    ∃ config, session.started.getConfig id = some config ∧
      1 ≤ config.failoverThresholdFailures ∧ 1 ≤ config.recoveryThresholdSuccesses
  failures : ∀ id count, count ≤ u32Max → LastAll count Failed (own id session.trace) →
    count ≤ session.machine.getFailureCount id
  successes : ∀ id count, count ≤ u32Max → LastAll count Beat (own id session.trace) →
    count ≤ session.machine.getSuccessCount id
  aloneConfigs : ∀ id, (alone session.started id session.trace).configs = session.started.configs
  aloneCounts : ∀ id, id ≠ 0 →
    (alone session.started id session.trace).getFailureCount 0 = 0 ∧
      (alone session.started id session.trace).getSuccessCount 0 = 0

section Invariant

variable {session next : Session} {received : Nat × FailoverEvent}

/-- What an event does to the session. -/
theorem step_cases (stepped : step session received = some next) :
    ∃ found, session.machine.getState received.1 = some found ∧
      next.started = session.started ∧
      next.machine = (session.machine.processEvent received.1 received.2).2 ∧
      next.trace = ⟨received.1, received.2, found,
        (session.machine.processEvent received.1 received.2).2.getState received.1⟩ ::
          session.trace := by
  obtain ⟨found, state, rfl⟩ := Option.map_eq_some_iff.mp stepped
  exact ⟨found, state, rfl, rfl, rfl⟩

/-- A machine before any event: id 0 has no counts, and every id has positive thresholds. -/
structure Ready (machine : FailoverStateMachine) : Prop where
  failures : machine.getFailureCount 0 = 0
  successes : machine.getSuccessCount 0 = 0
  configured : ∀ id state, machine.getState id = some state →
    ∃ config, machine.getConfig id = some config ∧
      1 ≤ config.failoverThresholdFailures ∧ 1 ≤ config.recoveryThresholdSuccesses

theorem ready_register {machine : FailoverStateMachine} {id : Nat} {config : FailoverConfig}
    (ready : Ready machine)
    (positive : 1 ≤ config.failoverThresholdFailures ∧ 1 ≤ config.recoveryThresholdSuccesses) :
    Ready (machine.register id config) where
  failures := by
    have before := ready.failures
    dsimp only [FailoverStateMachine.getFailureCount, FailoverStateMachine.register] at before ⊢
    rw [Dict.get_put]
    split
    · rfl
    · exact before
  successes := by
    have before := ready.successes
    dsimp only [FailoverStateMachine.getSuccessCount, FailoverStateMachine.register] at before ⊢
    rw [Dict.get_put]
    split
    · rfl
    · exact before
  configured := by
    intro other state found
    have before := ready.configured other
    dsimp only [FailoverStateMachine.getState, FailoverStateMachine.getConfig,
      FailoverStateMachine.register] at before found ⊢
    rw [Dict.get_put] at found ⊢
    split
    · exact ⟨config, rfl, positive⟩
    · rename_i different
      rw [if_neg different] at found
      exact before state found

theorem ready_registered {registrations : List (Nat × FailoverConfig)}
    (positive : ∀ entry ∈ registrations,
      1 ≤ entry.2.failoverThresholdFailures ∧ 1 ≤ entry.2.recoveryThresholdSuccesses) :
    Ready (.registered registrations) :=
  FailoverStateMachine.registered_induction
    ⟨rfl, rfl, fun _ state found => absurd found (Option.some_ne_none state).symm⟩
    fun _ ready entry member => ready_register ready (positive entry member)

theorem kept_start {registrations : List (Nat × FailoverConfig)}
    (positive : ∀ entry ∈ registrations,
      1 ≤ entry.2.failoverThresholdFailures ∧ 1 ≤ entry.2.recoveryThresholdSuccesses) :
    Kept (.start registrations) := by
  have ready := ready_registered positive
  exact ⟨rfl, ready.configured, fun _ _ _ last => last.1.trans (Nat.zero_le _),
    fun _ _ _ last => last.1.trans (Nat.zero_le _), fun _ => rfl,
    fun _ _ => ⟨ready.failures, ready.successes⟩⟩

theorem count_cons {property : Received → Prop} {id count before after : Nat}
    {event : Received} {trace : List Received} (fits : count ≤ u32Max)
    (bound : ∀ fewer, fewer ≤ u32Max → LastAll fewer property (own id trace) → fewer ≤ before)
    (grows : event.id = id → property event → after = saturatingSucc before)
    (kept : event.id ≠ id → after = before)
    (last : LastAll count property (own id (event :: trace))) : count ≤ after := by
  rw [own_cons] at last
  by_cases same : event.id = id
  · rw [if_pos same] at last
    rcases lastAll_cons last with rfl | ⟨fewer, rfl, holds, rest⟩
    · exact Nat.zero_le _
    · have enough := bound fewer (by omega) rest
      rw [grows same holds, saturatingSucc]
      omega
  · rw [if_neg same] at last
    rw [kept same]
    exact bound count fits last

theorem kept_step (kept : Kept session) (stepped : step session received = some next) :
    Kept next := by
  obtain ⟨found, state, started, machine, trace⟩ := step_cases stepped
  obtain ⟨config, configured, _⟩ := kept.configured _ _ state
  rw [FailoverStateMachine.getConfig, ← kept.configs] at configured
  have moved := @FailoverStateMachine.moved_processEvent session.machine received.1 received.2
    found config state configured
  rw [← machine] at moved
  refine ⟨?_, ?_, ?_, ?_, ?_, ?_⟩
  · rw [moved.configs, started]
    exact kept.configs
  · intro id other member
    rw [started]
    rw [moved.states] at member
    by_cases same : id = received.1
    · rw [same]
      exact kept.configured _ _ state
    · rw [if_neg same] at member
      exact kept.configured id other member
  · intro id count fits last
    rw [trace] at last
    refine count_cons fits (kept.failures id) (fun same failed => ?_) (fun different => ?_) last
    · dsimp only at same
      rw [moved.failures, if_pos same.symm, ← same,
        show received.2 = .healthCheckFailed from failed]
      rfl
    · rw [moved.failures, if_neg fun same => different same.symm]
  · intro id count fits last
    rw [trace] at last
    refine count_cons fits (kept.successes id) (fun same beat => ?_) (fun different => ?_) last
    · dsimp only at same
      rw [moved.successes, if_pos same.symm, ← same, show received.2 = .heartbeatOk from beat.2]
      rfl
    · rw [moved.successes, if_neg fun same => different same.symm]
  · intro id
    rw [trace, started]
    rcases alone_cases with same | ⟨_, _, _, other⟩
    · rw [same]
      exact kept.aloneConfigs id
    · rw [other.configs]
      exact kept.aloneConfigs id
  · intro id nonzero
    have zero := kept.aloneCounts id nonzero
    rw [trace, started]
    rcases alone_cases with same | ⟨_, _, _, other⟩
    · rw [same]
      exact zero
    · rw [other.failures, other.successes, if_neg nonzero.symm, if_neg nonzero.symm]
      exact zero

end Invariant

/-! ## One event -/

section Events

variable {session next : Session} {received : Nat × FailoverEvent} {found : FailoverState}
  {config : FailoverConfig}

/-- What an event leaves to be observed. -/
theorem observe_moved {machine after : FailoverStateMachine} {id : Nat} {event : FailoverEvent}
    {current state : FailoverState}
    (moved : FailoverStateMachine.Moved machine after id event current state config) (other : Nat) :
    observe after other =
      if other = id then
        (some state, FailoverStateMachine.failuresAfter event (machine.getFailureCount id),
          FailoverStateMachine.successesAfter event (machine.getSuccessCount id),
          FailoverStateMachine.venueAfter config current state (machine.getActiveVenue id))
      else observe machine other := by
  unfold observe
  rw [moved.states, moved.failures, moved.successes, moved.venues]
  split <;> rfl

/-- Ids that are all as they are alone stay so if and only if the id of the event gets the same
state as alone. -/
theorem alone_exact (kept : Kept session) (state : session.machine.getState received.1 = some found)
    (configured : session.machine.getConfig received.1 = some config)
    (same : ∀ id, observe session.machine id =
      observe (alone session.started id session.trace) id)
    (stepped : step session received = some next) :
    (∀ id, observe next.machine id = observe (alone next.started id next.trace) id) ↔
      (session.machine.calculateTransition found received.2 config).1 =
        ((alone session.started received.1 session.trace).calculateTransition found received.2
          config).1 := by
  obtain ⟨_, _, started, machine, trace⟩ := step_cases stepped
  have here := same received.1
  simp only [observe, Prod.mk.injEq] at here
  have moved := observe_moved (@FailoverStateMachine.moved_processEvent session.machine received.1
    received.2 found config state configured)
  have aloneConfigured :
      (alone session.started received.1 session.trace).getConfig received.1 = some config := by
    rw [FailoverStateMachine.getConfig, kept.aloneConfigs, ← kept.configs]
    exact configured
  have aloneMoved := observe_moved (@FailoverStateMachine.moved_processEvent
    (alone session.started received.1 session.trace) received.1 received.2 found config
    (here.1.symm.trans state) aloneConfigured)
  rw [machine, started, trace]
  constructor
  · intro all
    have equal := all received.1
    rw [moved, if_pos rfl, alone_cons, if_pos rfl, aloneMoved, if_pos rfl] at equal
    exact Option.some.inj (congrArg Prod.fst equal)
  · intro equal id
    rw [moved, alone_cons]
    by_cases ofId : id = received.1
    · rw [if_pos ofId, if_pos ofId.symm, ofId, aloneMoved, if_pos rfl, equal, here.2.1,
        here.2.2.1, here.2.2.2]
    · rw [if_neg ofId, if_neg fun other => ofId other.symm]
      exact same id

theorem agrees_iff {threshold count aloneCount : Nat} {zero calm reached : Prop}
    (positive : 1 ≤ threshold) (other : ¬ zero → aloneCount = 0)
    (here : zero → (calm → count = aloneCount) ∧ (reached → threshold ≤ count)) :
    ((calm → (threshold ≤ count ↔ threshold ≤ aloneCount)) ∧ (reached → threshold ≤ count)) ↔
      (¬ zero → Agrees threshold count reached calm) := by
  by_cases isZero : zero
  · refine iff_of_true ⟨fun calm => ?_, (here isZero).2⟩ fun nonzero => absurd isZero nonzero
    rw [(here isZero).1 calm]
  · have none_ := other isZero
    rw [forall_prop_of_true isZero, Agrees, and_comm]
    refine and_congr_right fun _ => forall_congr' fun _ => ?_
    omega

theorem readsAgree_failing (configured : session.machine.getConfig received.1 = some config)
    (state : session.machine.getState received.1 = some .primary)
    (event : received.2 = .healthCheckFailed) :
    ReadsAgree session received ↔ (¬ received.1 = 0 →
      Agrees config.failoverThresholdFailures (session.machine.getFailureCount 0)
        (LastAll config.failoverThresholdFailures Failed (own received.1 session.trace))
        (Calm session.trace)) := by
  rw [ReadsAgree, configured, state, event]

theorem readsAgree_recovering (configured : session.machine.getConfig received.1 = some config)
    (state : session.machine.getState received.1 = some .recovering)
    (event : received.2 = .heartbeatOk) :
    ReadsAgree session received ↔ (¬ received.1 = 0 →
      Agrees config.recoveryThresholdSuccesses (session.machine.getSuccessCount 0)
        (LastAll config.recoveryThresholdSuccesses Beat (own received.1 session.trace))
        (Calm session.trace)) := by
  rw [ReadsAgree, configured, state, event]

theorem readsAgree_other (state : session.machine.getState received.1 = some found)
    (failing : ¬ (received.2 = .healthCheckFailed ∧ found = .primary))
    (recovering : ¬ (received.2 = .heartbeatOk ∧ found = .recovering)) :
    ReadsAgree session received := by
  unfold ReadsAgree
  split
  · rename_i current event
    rw [state] at current
    exact absurd ⟨event, Option.some.inj current⟩ failing
  · rename_i current event
    rw [state] at current
    exact absurd ⟨event, Option.some.inj current⟩ recovering
  · trivial

instance (session : Session) : DecidablePred (ReadsAgree session) := fun received =>
  match configured : session.machine.getConfig received.1,
    state : session.machine.getState received.1 with
  | some _, some found =>
    if failing : received.2 = .healthCheckFailed ∧ found = .primary then
      decidable_of_iff _ (readsAgree_failing configured (failing.2 ▸ state) failing.1).symm
    else if recovering : received.2 = .heartbeatOk ∧ found = .recovering then
      decidable_of_iff _ (readsAgree_recovering configured (recovering.2 ▸ state) recovering.1).symm
    else .isTrue (readsAgree_other state failing recovering)
  | some _, none => .isTrue (by rw [ReadsAgree, configured, state]; trivial)
  | none, _ => .isTrue (by rw [ReadsAgree, configured]; trivial)

theorem calculateTransition_failing (machine : FailoverStateMachine) (config : FailoverConfig) :
    (machine.calculateTransition .primary .healthCheckFailed config).1 =
      if config.failoverThresholdFailures ≤ machine.getFailureCount 0 then .failingOver
      else .primary := by
  dsimp only [FailoverStateMachine.calculateTransition]
  split <;> rfl

theorem calculateTransition_recovering (machine : FailoverStateMachine)
    (config : FailoverConfig) :
    (machine.calculateTransition .recovering .heartbeatOk config).1 =
      if config.recoveryThresholdSuccesses ≤ machine.getSuccessCount 0 then .primary
      else .recovering := by
  dsimp only [FailoverStateMachine.calculateTransition]
  split <;> rfl

theorem decided_failing {id count : Nat} {earlier : List Received} :
    RightlyDecided config ⟨id, .healthCheckFailed, .primary,
        some (if config.failoverThresholdFailures ≤ count then .failingOver else .primary)⟩
        earlier ↔
      (LastAll config.failoverThresholdFailures Failed (own id earlier) →
        config.failoverThresholdFailures ≤ count) := by
  constructor
  · intro decided reached
    by_contra few
    have stays := decided.1 rfl rfl reached
    rw [if_neg few] at stays
    exact stays rfl
  · intro met
    refine ⟨fun _ _ reached => ?_, fun event => FailoverEvent.noConfusion event⟩
    dsimp only
    rw [if_pos (met reached)]
    exact fun same => FailoverState.noConfusion (Option.some.inj same)

theorem decided_recovering {id count : Nat} {earlier : List Received} :
    RightlyDecided config ⟨id, .heartbeatOk, .recovering,
        some (if config.recoveryThresholdSuccesses ≤ count then .primary else .recovering)⟩
        earlier ↔
      (LastAll config.recoveryThresholdSuccesses Beat (own id earlier) →
        config.recoveryThresholdSuccesses ≤ count) := by
  constructor
  · intro decided reached
    by_contra few
    have stays := decided.2 rfl rfl reached
    dsimp only at stays
    rw [if_neg few] at stays
    exact FailoverState.noConfusion (Option.some.inj stays)
  · intro met
    refine ⟨fun event => FailoverEvent.noConfusion event, fun _ _ reached => ?_⟩
    dsimp only
    rw [if_pos (met reached)]

theorem ite_eq_ite_iff {α : Type*} {first second : Prop} [Decidable first] [Decidable second]
    {left right : α} (different : left ≠ right) :
    ((if first then left else right) = if second then left else right) ↔ (first ↔ second) := by
  by_cases one : first <;> by_cases other : second <;>
    simp [one, other, different, different.symm]

theorem allDecided_step {found : FailoverState} {config : FailoverConfig} {left : FailoverState}
    (earlier : AllDecided session.started session.trace)
    (configured : session.started.getConfig received.1 = some config)
    (started : next.started = session.started)
    (trace : next.trace = ⟨received.1, received.2, found, some left⟩ :: session.trace) :
    AllDecided next.started next.trace ↔
      RightlyDecided config ⟨received.1, received.2, found, some left⟩ session.trace := by
  rw [trace, started, AllDecided, and_iff_left earlier]
  constructor
  · exact fun all => all config configured
  · intro one other same
    rw [Option.some.inj (same.symm.trans configured)]
    exact one

/-- One event keeps the history exactly when its readings agree. -/
theorem step_exact (kept : Kept session) (own_ : OwnHistory session)
    (stepped : step session received = some next) :
    OwnHistory next ↔ ReadsAgree session received := by
  obtain ⟨found, state, started, machine, trace⟩ := step_cases stepped
  obtain ⟨config, configured, positive⟩ := kept.configured _ _ state
  have configuredNow : session.machine.getConfig received.1 = some config := by
    rw [FailoverStateMachine.getConfig, kept.configs]
    exact configured
  have moved := @FailoverStateMachine.moved_processEvent session.machine received.1 received.2
    found config state configuredNow
  have left := moved.states received.1
  rw [if_pos rfl] at left
  have calm : Calm next.trace ↔ received.2 ≠ .latencySpike ∧ Calm session.trace := by
    rw [trace, calm_cons]
  have alone_ : Calm next.trace → ((∀ id, observe next.machine id =
      observe (alone next.started id next.trace) id) ↔
        (session.machine.calculateTransition found received.2 config).1 =
          ((alone session.started received.1 session.trace).calculateTransition found received.2
            config).1) :=
    fun still => alone_exact kept state configuredNow (own_.1 (calm.mp still).2) stepped
  rw [left] at trace
  have decided := allDecided_step own_.2 configured started trace
  rw [OwnHistory, forall_congr' alone_, decided]
  by_cases failing : received.2 = .healthCheckFailed ∧ found = .primary
  · obtain ⟨event, rfl⟩ := failing
    have still : Calm next.trace ↔ Calm session.trace := by
      rw [calm, event]
      exact and_iff_right FailoverEvent.noConfusion
    rw [still, readsAgree_failing configuredNow state event, event, calculateTransition_failing,
      calculateTransition_failing, ite_eq_ite_iff FailoverState.noConfusion, decided_failing]
    refine agrees_iff positive.1 (fun other => (kept.aloneCounts _ other).1) fun zero => ⟨?_, ?_⟩
    · intro quiet
      have same := own_.1 quiet 0
      rw [zero]
      exact congrArg (fun seen => seen.2.1) same
    · intro reached
      have enough := kept.failures _ _ config.failuresFit reached
      rw [zero] at enough
      exact enough
  · by_cases recovering : received.2 = .heartbeatOk ∧ found = .recovering
    · obtain ⟨event, rfl⟩ := recovering
      have still : Calm next.trace ↔ Calm session.trace := by
        rw [calm, event]
        exact and_iff_right FailoverEvent.noConfusion
      rw [still, readsAgree_recovering configuredNow state event, event,
        calculateTransition_recovering, calculateTransition_recovering,
        ite_eq_ite_iff FailoverState.noConfusion, decided_recovering]
      refine agrees_iff positive.2 (fun other => (kept.aloneCounts _ other).2) fun zero => ⟨?_, ?_⟩
      · intro quiet
        have same := own_.1 quiet 0
        rw [zero]
        exact congrArg (fun seen => seen.2.2.1) same
      · intro reached
        have enough := kept.successes _ _ config.successesFit reached
        rw [zero] at enough
        exact enough
    · refine iff_of_true ⟨fun still => ?_, ?_⟩ ?_
      · exact FailoverStateMachine.calculateTransition_congr (calm.mp still).1
          (fun event current => absurd ⟨event, current⟩ failing)
          (fun event current => absurd ⟨event, current⟩ recovering)
      · exact ⟨fun event current => absurd ⟨event, current⟩ failing,
          fun event current => absurd ⟨event, current⟩ recovering⟩
      · exact readsAgree_other state failing recovering

end Events

/-- Along every run of events on registered ids with positive thresholds, every id is as it is
alone and every event is decided on by the history of its id if and only if every counter of id 0
that an event of another id reads agrees with that history. -/
theorem ownHistory_iff (registrations : List (Nat × FailoverConfig))
    (positive : ∀ entry ∈ registrations,
      1 ≤ entry.2.failoverThresholdFailures ∧ 1 ≤ entry.2.recoveryThresholdSuccesses)
    (events : List (Nat × FailoverEvent)) :
    Always step OwnHistory (.start registrations) events ↔
      Guarded step ReadsAgree (.start registrations) events :=
  @always_iff_guarded _ _ step Kept OwnHistory ReadsAgree
    (fun _ _ _ kept stepped => kept_step kept stepped)
    (fun _ _ _ kept own_ stepped => step_exact kept own_ stepped) (.start registrations)
    (kept_start positive) ⟨fun _ _ => rfl, trivial⟩ events

/-- A configuration with a threshold of one failure and one success. -/
def eager : FailoverConfig where
  primaryVenue := 1
  backupVenues := [2, 3]
  failoverThresholdFailures := 1
  recoveryThresholdSuccesses := 1
  failuresFit := by decide
  successesFit := by decide

/-- An id that recovers while the successes of id 0 agree with its heartbeats. -/
theorem ownHistory_rateLimited :
    Always step OwnHistory (.start [(0, eager), (7, eager)])
      [(7, .healthCheckFailed), (7, .rateLimitExceeded), (7, .recoveryDetected),
        (7, .heartbeatOk)] :=
  (ownHistory_iff [(0, eager), (7, eager)] (by decide) _).mpr (by decide +kernel)

/-- The second failed check of the only id, with a threshold of one, leaves it primary. -/
theorem second_failure_ignored :
    ¬ Always step OwnHistory (.start [(7, eager)])
      [(7, .healthCheckFailed), (7, .healthCheckFailed)] := by
  have decided : (exec step (.start [(7, eager)])
      [(7, .healthCheckFailed), (7, .healthCheckFailed)]).map (fun final =>
        (final.trace, (final.started.getConfig 7).map fun config =>
          config.failoverThresholdFailures)) =
        some ([⟨7, .healthCheckFailed, .primary, some .primary⟩,
          ⟨7, .healthCheckFailed, .primary, some .primary⟩], some 1) := by
    decide +kernel
  refine not_always_of_view decided fun final seen history => ?_
  obtain ⟨trace, threshold⟩ := Prod.ext_iff.mp seen
  dsimp only at trace threshold
  obtain ⟨config, configured, one⟩ := Option.map_eq_some_iff.mp threshold
  have all := history.2
  rw [trace] at all
  refine (all.1 config configured).1 rfl rfl ?_ rfl
  rw [one]
  decide

end FailoverHistory

end TradingBot.Venues
