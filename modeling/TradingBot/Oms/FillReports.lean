import TradingBot.Oms.StateMachine

/-!
# Reports on a live order

An exchange reports any number of fills on a live order, around at most one request to cancel
or to modify it, and a last report that fills or cancels the order. The machine has no row for
a fill after the first and none for a fill in flight, so it answers exactly the shortest of
these sequences.
-/

namespace TradingBot.Oms

open OrderStateMachine

/-- An executed quantity and its price. -/
structure Fill where
  size : ℚ
  price : ℚ

/-- What can be asked of a live order. -/
inductive LiveRequest where
  /-- Cancel the order. -/
  | cancel
  /-- Modify the order. -/
  | modify

/-- The event of a request. -/
def LiveRequest.event : LiveRequest → StateEvent
  | .cancel => .cancelRequested
  | .modify => .modifyRequested

/-- The event of a fill. -/
def Fill.event (fill : Fill) : StateEvent := .fill fill.size fill.price

/-- What an exchange can report on a live order, from the time it works. -/
inductive ExchangeReports where
  /-- Fills up to the full fill. -/
  | filled (fills : List Fill)
  /-- Fills around a request, up to the full fill. -/
  | filledAfter (request : LiveRequest) (before later : List Fill)
  /-- Fills around a request to cancel, up to its confirmation. -/
  | cancelled (before later : List Fill)
  /-- Fills around a request to modify and its confirmation, then more fills. -/
  | modified (before later more : List Fill) (complete : Bool)

/-- The events of some reports. -/
def ExchangeReports.events : ExchangeReports → List StateEvent
  | .filled fills => fills.map Fill.event ++ [.fullFill]
  | .filledAfter request before later =>
    before.map Fill.event ++ request.event :: (later.map Fill.event ++ [.fullFill])
  | .cancelled before later =>
    before.map Fill.event ++ .cancelRequested :: (later.map Fill.event ++ [.cancelConfirmed])
  | .modified before later more complete =>
    before.map Fill.event ++ .modifyRequested :: (later.map Fill.event ++ .modifyConfirmed ::
      (more.map Fill.event ++ if complete then [.fullFill] else []))

/-- The reports the machine answers: at most one fill before the full fill, with a request only
between the two, or the confirmation right after the request to cancel. -/
def ExchangeReports.Admitted : ExchangeReports → Prop
  | .filled fills => fills.length ≤ 1
  | .filledAfter _ before later => before.length = 1 ∧ later = []
  | .cancelled before later => before = [] ∧ later = []
  | .modified _ _ _ _ => False

/-- An event is a report: it tells what the exchange did. -/
def StateEvent.isReport : StateEvent → Bool
  | .fill _ _ | .fullFill | .cancelConfirmed | .modifyConfirmed => true
  | _ => false

/-- The quantity an event executes on its own. -/
def StateEvent.executed : StateEvent → ℚ
  | .fill size _ => size
  | _ => 0

/-- The machine after the events of a list in order. -/
def run (machine : OrderStateMachine) (events : List StateEvent) : OrderStateMachine :=
  events.foldl (fun current event => (current.transition event).2) machine

/-- The events of a list with the answers they get in order. -/
def answers : OrderStateMachine → List StateEvent → List (StateEvent × TransitionResult)
  | _, [] => []
  | machine, event :: rest =>
    (event, (machine.transition event).1) :: answers (machine.transition event).2 rest

/-- The quantity of the fills the machine accepted. -/
def acceptedQuantity (machine : OrderStateMachine) (events : List StateEvent) : ℚ :=
  (((answers machine events).filter fun answer => answer.2.success).map
    fun answer => answer.1.executed).sum

/-- A machine does justice to some events: every report is accepted, the order ends as the last
one says, and no executed quantity is dropped. -/
def Honoured (machine : OrderStateMachine) (events : List StateEvent) : Prop :=
  (∀ answer ∈ answers machine events, answer.1.isReport = true → answer.2.success = true) ∧
  (events.getLast? = some .fullFill → (run machine events).currentState = .filled) ∧
  (events.getLast? = some .cancelConfirmed →
    (run machine events).currentState = .cancelled) ∧
  acceptedQuantity machine events = (events.map StateEvent.executed).sum

instance (machine : OrderStateMachine) (events : List StateEvent) :
    Decidable (Honoured machine events) := inferInstanceAs (Decidable (_ ∧ _ ∧ _ ∧ _))

/-- The events that make a new order work. -/
def opening : List StateEvent := [.submitRequested, .exchangeAck, .exchangeAck]

/-! ## Reports by state -/

/-- The state after an event: its target where it leads to one, and the same state otherwise. -/
def after (source : OrderState) (event : StateEvent) : OrderState :=
  match targetState event source with
  | some target => if isValidTransition source target then target else source
  | none => source

instance (source : OrderState) (event : StateEvent) :
    Decidable (∃ target, Leads event source target) :=
  decidable_of_iff ((targetState event source).any (isValidTransition source) = true)
    (Option.any_eq_true _ _)

/-- Every report of a list leads somewhere from the state it finds. -/
def Accepts : OrderState → List StateEvent → Prop
  | _, [] => True
  | source, event :: rest =>
    (event.isReport = true → ∃ target, Leads event source target) ∧
      Accepts (after source event) rest

section Machine

variable {machine : OrderStateMachine} {event : StateEvent} {events : List StateEvent}

variable {source : OrderState}

theorem after_leads {target : OrderState} (leads : Leads event source target) :
    after source event = target := by
  unfold after
  rw [leads.1]
  exact if_pos leads.2

theorem after_nowhere (nowhere : ∀ target, ¬Leads event source target) :
    after source event = source := by
  unfold after
  cases row : targetState event source with
  | none => rfl
  | some target => exact if_neg fun allowed => nowhere target ⟨row, allowed⟩

theorem transition_after (idle : machine.isTransitioning = false) :
    (machine.transition event).2.currentState = after machine.currentState event := by
  by_cases leads : ∃ target, Leads event machine.currentState target
  · obtain ⟨target, leads⟩ := leads
    rw [transition_leads idle leads, after_leads leads]
  · have nowhere := fun target into => leads ⟨target, into⟩
    rw [(transition_refused idle nowhere).2.2, after_nowhere nowhere]

theorem run_state (idle : machine.isTransitioning = false) (events : List StateEvent) :
    (run machine events).currentState = events.foldl after machine.currentState := by
  induction events generalizing machine with
  | nil => rfl
  | cons event rest ih =>
    have later := ih (@transition_idle machine event idle)
    rw [transition_after idle] at later
    exact later

theorem reports_accepted (idle : machine.isTransitioning = false) :
    (∀ answer ∈ answers machine events, answer.1.isReport = true → answer.2.success = true) ↔
      Accepts machine.currentState events := by
  induction events generalizing machine with
  | nil => exact ⟨fun _ => trivial, fun _ answer member => by cases member⟩
  | cons event rest ih =>
    have later := ih (@transition_idle machine event idle)
    rw [transition_after idle] at later
    show (∀ answer ∈ _ :: answers (machine.transition event).2 rest, _) ↔ _ ∧ _
    rw [List.forall_mem_cons, later, transition_success idle]

theorem acceptedQuantity_cons (machine : OrderStateMachine) (event : StateEvent)
    (rest : List StateEvent) : acceptedQuantity machine (event :: rest) =
      (if (machine.transition event).1.success then event.executed else 0) +
        acceptedQuantity (machine.transition event).2 rest := by
  show (((_ :: answers (machine.transition event).2 rest).filter _).map _).sum = _
  rw [List.filter_cons]
  cases (machine.transition event).1.success <;> simp [acceptedQuantity]

theorem acceptedQuantity_of_accepted
    (accepted : ∀ answer ∈ answers machine events,
      answer.1.isReport = true → answer.2.success = true) :
    acceptedQuantity machine events = (events.map StateEvent.executed).sum := by
  induction events generalizing machine with
  | nil => rfl
  | cons event rest ih =>
    have first := (List.forall_mem_cons.mp accepted).1
    have later := ih (List.forall_mem_cons.mp accepted).2
    rw [acceptedQuantity_cons, later, List.map_cons, List.sum_cons]
    congr 1
    cases success : (machine.transition event).1.success with
    | true => rfl
    | false =>
      -- Only a report executes something, and every report was accepted.
      cases event <;> first | rfl | exact absurd (success.symm.trans (first rfl)) (by decide)

theorem accepts_append {front back : List StateEvent} : Accepts source (front ++ back) ↔
      Accepts source front ∧ Accepts (front.foldl after source) back := by
  induction front generalizing source with
  | nil => exact ⟨fun back => ⟨trivial, back⟩, And.right⟩
  | cons event rest ih =>
    show _ ∧ Accepts _ (rest ++ back) ↔ (_ ∧ _) ∧ _
    rw [ih, and_assoc]
    rfl

theorem accepts_last (accepts : Accepts source events) (last : events.getLast? = some event)
    (report : event.isReport = true) :
    ∃ before, Leads event before (events.foldl after source) := by
  obtain ⟨front, rfl⟩ := List.getLast?_eq_some_iff.mp last
  obtain ⟨target, leads⟩ := (accepts_append.mp accepts).2.1 report
  refine ⟨front.foldl after source, ?_⟩
  rw [List.foldl_append]
  show Leads event _ (after _ event)
  rw [after_leads leads]
  exact leads

theorem leads_fullFill {target : OrderState} (leads : Leads .fullFill source target) :
    target = .filled := by
  have row := leads.1
  cases source <;> cases row <;> rfl

theorem leads_cancelConfirmed {target : OrderState} (leads : Leads .cancelConfirmed source target) :
    target = .cancelled := by
  have row := leads.1
  cases source <;> cases row <;> rfl

theorem honoured_iff (idle : machine.isTransitioning = false) :
    Honoured machine events ↔ Accepts machine.currentState events := by
  constructor
  · exact fun honoured => (reports_accepted idle).mp honoured.1
  · intro accepts
    have accepted := (reports_accepted idle).mpr accepts
    refine ⟨accepted, ?_, ?_, acceptedQuantity_of_accepted accepted⟩
    · intro last
      obtain ⟨before, leads⟩ := accepts_last accepts last rfl
      rw [run_state idle]
      exact leads_fullFill leads
    · intro last
      obtain ⟨before, leads⟩ := accepts_last accepts last rfl
      rw [run_state idle]
      exact leads_cancelConfirmed leads

end Machine

/-! ## The sequences an exchange can report -/

section Sequences

variable {source : OrderState}

theorem accepts_fills_idle (idle : source ≠ .working) (fills : List Fill) (rest : List StateEvent) :
    Accepts source (fills.map Fill.event ++ rest) ↔ fills = [] ∧ Accepts source rest := by
  cases fills with
  | nil => exact ⟨fun accepts => ⟨rfl, accepts⟩, And.right⟩
  | cons fill more =>
    constructor
    · intro accepts
      obtain ⟨target, row, _⟩ := accepts.1 rfl
      cases source <;> first | exact absurd rfl idle | cases row
    · exact fun none => absurd none.1 (List.cons_ne_nil _ _)

theorem accepts_fills_working (fills : List Fill) (rest : List StateEvent) :
    Accepts .working (fills.map Fill.event ++ rest) ↔
      fills = [] ∧ Accepts .working rest ∨ fills.length = 1 ∧ Accepts .partiallyFilled rest := by
  cases fills with
  | nil => exact ⟨fun accepts => .inl ⟨rfl, accepts⟩, by simp⟩
  | cons fill more =>
    have first : Leads fill.event .working .partiallyFilled := ⟨rfl, rfl⟩
    have step : Accepts .working (fill.event :: (more.map Fill.event ++ rest)) ↔
        Accepts .partiallyFilled (more.map Fill.event ++ rest) :=
      ⟨And.right, fun accepts => ⟨fun _ => ⟨_, first⟩, accepts⟩⟩
    rw [List.map_cons, List.cons_append, step, accepts_fills_idle (by decide)]
    simp

theorem accepts_single {event : StateEvent} (report : event.isReport = true) :
    Accepts source [event] ↔ ∃ target, Leads event source target :=
  ⟨fun accepts => accepts.1 report, fun leads => ⟨fun _ => leads, trivial⟩⟩

theorem accepts_request (request : LiveRequest) (rest : List StateEvent) :
    Accepts source (request.event :: rest) ↔ Accepts (after source request.event) rest := by
  constructor
  · exact And.right
  · intro accepts
    refine ⟨fun report => ?_, accepts⟩
    cases request <;> cases report

theorem accepts_fullFill :
    Accepts source [.fullFill] ↔ source = .working ∨ source = .partiallyFilled := by
  rw [accepts_single rfl]
  cases source <;> decide

theorem accepts_cancelConfirmed :
    Accepts source [.cancelConfirmed] ↔ source = .inFlight ∨ source = .triggered := by
  rw [accepts_single rfl]
  cases source <;> decide

theorem not_accepts_modifyConfirmed (rest : List StateEvent) :
    ¬Accepts source (.modifyConfirmed :: rest) := by
  intro accepts
  have leads := accepts.1 rfl
  revert leads
  cases source <;> decide

theorem after_request (request : LiveRequest) :
    after .working request.event = .inFlight ∧
      after .partiallyFilled request.event = .partiallyFilled := by
  cases request <;> exact ⟨rfl, rfl⟩

theorem accepts_around (request : LiveRequest) (before later : List Fill) (rest : List StateEvent) :
    Accepts .working
        (before.map Fill.event ++ request.event :: (later.map Fill.event ++ rest)) ↔
      later = [] ∧ (before = [] ∧ Accepts .inFlight rest ∨
        before.length = 1 ∧ Accepts .partiallyFilled rest) := by
  rw [accepts_fills_working, accepts_request, accepts_request, (after_request request).1,
    (after_request request).2, accepts_fills_idle (by decide), accepts_fills_idle (by decide)]
  tauto

theorem accepts_iff (reports : ExchangeReports) :
    Accepts .working reports.events ↔ reports.Admitted := by
  cases reports with
  | filled fills =>
    show Accepts _ (_ ++ _) ↔ fills.length ≤ 1
    rw [accepts_fills_working, accepts_fullFill, accepts_fullFill, ← List.length_eq_zero_iff]
    simp only [reduceCtorEq, or_false, or_true, and_true]
    omega
  | filledAfter request before later =>
    show Accepts _ (_ ++ _) ↔ before.length = 1 ∧ later = []
    rw [accepts_around, accepts_fullFill, accepts_fullFill]
    simp [and_comm]
  | cancelled before later =>
    show Accepts _ (_ ++ LiveRequest.cancel.event :: _) ↔ before = [] ∧ later = []
    rw [accepts_around, accepts_cancelConfirmed, accepts_cancelConfirmed]
    simp [and_comm]
  | modified before later more complete =>
    show Accepts _ (_ ++ LiveRequest.modify.event :: _) ↔ False
    rw [accepts_around]
    simp [not_accepts_modifyConfirmed]

theorem working_of_driven {start : OrderStateMachine}
    (driven : ∀ answer ∈ answers start opening, answer.2.success = true) :
    (run start opening).currentState = .working ∧
      (run start opening).isTransitioning = false := by
  have idle : start.isTransitioning = false := by
    refine Bool.eq_false_iff.mpr fun busy => ?_
    have accepted := (List.forall_mem_cons.mp driven).1
    unfold transition at accepted
    rw [if_pos busy] at accepted
    exact Bool.false_ne_true accepted
  have submitted : ∃ target, Leads .submitRequested start.currentState target :=
    (transition_success idle).mp (List.forall_mem_cons.mp driven).1
  refine ⟨?_, transition_idle (transition_idle (transition_idle idle))⟩
  rw [run_state idle]
  revert submitted
  cases start.currentState <;> decide

end Sequences

/-- A machine driven to work does justice to the reports of an exchange if and only if they are
ones it admits: at most one fill before the full fill, with a request only between the two, or
the confirmation right after the request to cancel. -/
theorem honours_reports {start : OrderStateMachine}
    (driven : ∀ answer ∈ answers start opening, answer.2.success = true)
    (reports : ExchangeReports) :
    Honoured (run start opening) reports.events ↔ reports.Admitted := by
  obtain ⟨works, idle⟩ := working_of_driven driven
  rw [honoured_iff idle, works]
  exact accepts_iff reports

/-- A new order is driven to work and does justice to a fill and the full fill. -/
theorem honours_fill_then_full :
    (∀ answer ∈ answers (.new 1) opening, answer.2.success = true) ∧
      Honoured (run (.new 1) opening) (ExchangeReports.filled [⟨1 / 2, 50000⟩]).events :=
  ⟨by decide, (honours_reports (by decide) _).mpr (Nat.le_refl 1)⟩

/-- The second fill of a new order that works is refused. -/
theorem second_fill_dropped :
    (∀ answer ∈ answers (.new 1) opening, answer.2.success = true) ∧
      ¬Honoured (run (.new 1) opening)
        (ExchangeReports.filled [⟨1 / 2, 50000⟩, ⟨1 / 4, 50000⟩]).events := by
  decide +kernel

end TradingBot.Oms
