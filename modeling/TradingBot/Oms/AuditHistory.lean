import Mathlib.Data.List.Chain
import TradingBot.Foundation.Run
import TradingBot.Oms.StateMachine

/-!
# The history of an order

The history of a machine keeps the newest records. Each record starts in the state the one before it
ended in, and the last one ends in the state of the machine, forced changes among them. A state that
ends an order is left by a forced change only.
-/

open Run

namespace TradingBot.Oms

namespace AuditHistory

open OrderStateMachine

/-- One call on a machine. -/
inductive MachineCall where
  | transition (event : StateEvent)
  | forceTransition (newState : OrderState)

/-- The machine after a call. -/
def step (machine : OrderStateMachine) : MachineCall → Option OrderStateMachine
  | .transition event => some (machine.transition event).2
  | .forceTransition newState => some (machine.forceTransition newState)

/-- A record starts in the state the one before it ended in. -/
def Follows (earlier later : StateChangeRecord) : Prop := earlier.toState = later.fromState

/-- The state the history of a machine ends in. -/
def lastState (history : List StateChangeRecord) : OrderState :=
  (history.getLast?.map StateChangeRecord.toState).getD .pending

/-- The history is a chain of at most so many records as are kept, up to the current state. -/
structure Chained (machine : OrderStateMachine) : Prop where
  bounded : machine.history.length ≤ maxStateHistory
  follows : machine.history.IsChain Follows
  current : lastState machine.history = machine.currentState

/-- A refused transition changes neither the state nor the history. -/
def KeepsRefused (machine : OrderStateMachine) : Prop :=
  ∀ event, (machine.transition event).1.success = false →
    (machine.transition event).2.currentState = machine.currentState ∧
      (machine.transition event).2.history = machine.history

/-- A machine whose order is over keeps its state, whatever events follow. -/
def KeepsOver (machine : OrderStateMachine) : Prop :=
  machine.isTerminal = true → ∀ events : List StateEvent,
    Always step (fun later => later.currentState = machine.currentState) machine
      (events.map MachineCall.transition)

/-- What holds of every machine. -/
structure Audited (machine : OrderStateMachine) : Prop where
  chained : Chained machine
  refused : KeepsRefused machine
  ended : KeepsOver machine

/-! ## Records -/

section Records

variable {history : List StateChangeRecord} {record : StateChangeRecord}

theorem lastState_push : lastState (pushHistory history record) = record.toState := by
  unfold lastState pushHistory
  rw [List.getLast?_concat]
  rfl

theorem length_push (bounded : history.length ≤ maxStateHistory) :
    (pushHistory history record).length ≤ maxStateHistory := by
  have room : 0 < maxStateHistory := by decide
  unfold pushHistory
  rw [List.length_append, List.length_singleton]
  by_cases full : maxStateHistory ≤ history.length
  · rw [if_pos full, List.length_tail]
    omega
  · rw [if_neg full]
    omega

theorem follows_push (follows : history.IsChain Follows)
    (starts : lastState history = record.fromState) :
    (pushHistory history record).IsChain Follows := by
  have starting : ∀ last ∈ history.getLast?, ∀ next ∈ [record].head?, Follows last next := by
    intro last isLast next isNext
    have whole : history.getLast? = some last := isLast
    have same : record = next := Option.some.inj isNext
    rw [← same]
    show last.toState = record.fromState
    rw [← starts]
    unfold lastState
    rw [whole]
    rfl
  unfold pushHistory
  by_cases full : maxStateHistory ≤ history.length
  · rw [if_pos full]
    refine follows.tail.append (List.isChain_singleton record) fun last isLast => ?_
    have long : history.length ≠ 1 := by
      have many : 1 < maxStateHistory := by decide
      omega
    rw [List.getLast?_tail, if_neg long] at isLast
    exact starting last isLast
  · rw [if_neg full]
    exact follows.append (List.isChain_singleton record) starting

theorem Chained.push {machine : OrderStateMachine} (chained : Chained machine)
    (starts : record.fromState = machine.currentState) :
    Chained { machine with
      currentState := record.toState
      history := pushHistory machine.history record } where
  bounded := length_push chained.bounded
  follows := follows_push chained.follows (chained.current.trans starts.symm)
  current := lastState_push

end Records

/-! ## Calls -/

section Calls

variable {machine next : OrderStateMachine} {call : MachineCall}

section

variable (idle : machine.isTransitioning = false)
include idle

/-- One call ends its transition and keeps the history chained. -/
theorem chained_step (chained : Chained machine) (taken : step machine call = some next) :
    next.isTransitioning = false ∧ Chained next := by
  cases call with
  | forceTransition newState =>
    cases taken
    have forced := @Chained.push
      ⟨machine.currentState, newState, .systemEvent "Force transition"⟩ machine chained rfl
    exact ⟨idle, forced⟩
  | transition event =>
    cases taken
    refine ⟨transition_idle idle, ?_⟩
    by_cases leads : ∃ target, Leads event machine.currentState target
    · obtain ⟨target, leads⟩ := leads
      rw [transition_leads idle leads]
      exact @Chained.push ⟨machine.currentState, target, event⟩ machine chained rfl
    · rw [(transition_refused idle fun target into => leads ⟨target, into⟩).2.2]
      exact chained

theorem keepsRefused_of_idle : KeepsRefused machine := by
  intro event failed
  have nowhere : ∀ target, ¬Leads event machine.currentState target := by
    intro target leads
    have succeeded := (transition_success idle).mpr ⟨target, leads⟩
    exact Bool.false_ne_true (failed.symm.trans succeeded)
  rw [(transition_refused idle nowhere).2.2]
  exact ⟨rfl, rfl⟩

theorem transition_over (terminal : machine.isTerminal = true) (event : StateEvent) :
    (machine.transition event).2 = machine :=
  (transition_refused idle fun target => not_leads_terminal terminal target).2.2

theorem keepsOver_of_idle : KeepsOver machine := by
  intro terminal events
  induction events with
  | nil => rfl
  | cons event rest ih =>
    refine ⟨rfl, fun next taken => ?_⟩
    have same : machine = next := by
      rw [← transition_over idle terminal event]
      exact Option.some.inj taken
    rw [← same]
    exact ih

end

theorem chained_new (orderId : Nat) : Chained (.new orderId) where
  bounded := Nat.zero_le maxStateHistory
  follows := List.isChain_nil
  current := rfl

/-- Along any run of calls, forced changes among them, the history of a machine is a chain of the
newest records up to its state, a refused transition changes nothing, and no event leaves a state
that ends the order. -/
theorem history_audited (orderId : Nat) (calls : List MachineCall) :
    Always step Audited (.new orderId) calls := by
  have kept : Always step (fun machine => machine.isTransitioning = false ∧ Chained machine)
      (.new orderId) calls := by
    refine always_of_preserved (fun machine call next holds taken => ?_)
      ⟨rfl, chained_new orderId⟩ calls
    exact chained_step holds.1 holds.2 taken
  refine kept.imp fun machine holds => ?_
  exact ⟨holds.2, keepsRefused_of_idle holds.1, keepsOver_of_idle holds.1⟩

end Calls

end AuditHistory

end TradingBot.Oms
