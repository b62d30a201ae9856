import TradingBot.Foundation.MachineInt
import TradingBot.Foundation.OrderedMap

/-!
# Order state machines

Every order of the order management system has a machine that follows its lifecycle. An event
is looked up in a table of targets, and the step it asks for is checked against a second table
of allowed steps. The manager shares the machines by handle with its callers and shadows their
states in two counters.
-/

open OrderedMap MachineInt

namespace TradingBot.Oms

/-- How many state changes the history of an order keeps. -/
def maxStateHistory : Nat := 32

/-- The state of an order. -/
inductive OrderState where
  /-- Order created but not yet submitted. -/
  | pending
  /-- Order submitted to exchange, awaiting acknowledgment. -/
  | submitted
  | acknowledged
  /-- Order is live and working in the book. -/
  | working
  /-- Partially filled, remainder still working. -/
  | partiallyFilled
  | filled
  | cancelled
  /-- Order cancelled due to rejection. -/
  | rejected
  | expired
  | replaced
  /-- Synthetic order triggered, awaiting child execution. -/
  | triggered
  | inFlight
  deriving DecidableEq, Repr

/-- `is_terminal`: the order is over. -/
def OrderState.isTerminal : OrderState → Bool
  | .filled | .cancelled | .rejected | .expired => true
  | _ => false

/-- `is_active`: the order can still receive fills. -/
def OrderState.isActive : OrderState → Bool
  | .working | .partiallyFilled | .acknowledged | .submitted => true
  | _ => false

/-- `StateEvent`: what can cause a state change. -/
inductive StateEvent where
  | submitRequested
  | exchangeAck
  | fill (size price : ℚ)
  | fullFill
  | cancelRequested
  | cancelConfirmed
  | reject (reason : String)
  | expired
  | modifyRequested
  | modifyConfirmed
  | trigger
  | timeout
  | systemEvent (text : String)
  deriving DecidableEq, Repr

/-- Why a transition is refused. -/
inductive TransitionError where
  | inProgress
  /-- Invalid transition: the state has no row for the event. -/
  | invalid (previous : OrderState) (event : StateEvent)
  /-- Illegal transition: the step to the target is not allowed. -/
  | illegal (previous target : OrderState)

/-- `TransitionResult`: the outcome of an attempted transition. -/
structure TransitionResult where
  success : Bool
  previousState : OrderState
  newState : OrderState
  error : Option TransitionError

/-- `StateChangeRecord`: an entry of the audit trail. -/
structure StateChangeRecord where
  fromState : OrderState
  toState : OrderState
  event : StateEvent

/-- `OrderStateMachine`: the state of one order and the trail of its changes. -/
structure OrderStateMachine where
  currentState : OrderState
  orderId : Nat
  history : List StateChangeRecord
  isTransitioning : Bool

namespace OrderStateMachine

/-- `new`: a machine in the pending state. -/
def new (orderId : Nat) : OrderStateMachine where
  currentState := .pending
  orderId := orderId
  history := []
  isTransitioning := false

/-- The target state for an event in a state; no other pair has a row. -/
def targetState : StateEvent → OrderState → Option OrderState
  | .submitRequested, .pending => some .submitted
  | .exchangeAck, .submitted => some .acknowledged
  | .reject _, .submitted => some .rejected
  | .exchangeAck, .acknowledged => some .working
  | .reject _, .acknowledged => some .rejected
  | .fill _ _, .working => some .partiallyFilled
  | .fullFill, .working => some .filled
  | .cancelRequested, .working => some .inFlight
  | .cancelConfirmed, .inFlight => some .cancelled
  | .fullFill, .partiallyFilled => some .filled
  | .cancelConfirmed, .partiallyFilled => some .cancelled
  | .trigger, .pending => some .triggered
  | .exchangeAck, .triggered => some .working
  | .cancelConfirmed, .triggered => some .cancelled
  | .modifyRequested, .working => some .inFlight
  -- A confirmed modification goes back to the state in flight, not to the one before it.
  | .modifyConfirmed, .inFlight => some .inFlight
  | .timeout, previous => some (if previous.isActive then .expired else previous)
  | _, _ => none

/-- The steps `is_valid_transition` lists. -/
def allowedStep : OrderState → OrderState → Bool
  | .pending, .submitted => true
  | .pending, .triggered => true
  | .submitted, .acknowledged => true
  | .submitted, .rejected => true
  | .acknowledged, .working => true
  | .acknowledged, .rejected => true
  | .working, .partiallyFilled => true
  | .working, .filled => true
  | .working, .inFlight => true
  | .working, .expired => true
  | .partiallyFilled, .filled => true
  | .partiallyFilled, .inFlight => true
  | .inFlight, .cancelled => true
  | .inFlight, .working => true
  | .triggered, .working => true
  | .triggered, .cancelled => true
  | _, _ => false

/-- `is_valid_transition`: a terminal state is not left, and the step is in the table. -/
def isValidTransition (source target : OrderState) : Bool :=
  if source.isTerminal && source != target then false else allowedStep source target

/-- A history with a record more, without the oldest one when it is full. -/
def pushHistory (history : List StateChangeRecord) (record : StateChangeRecord) :
    List StateChangeRecord :=
  (if maxStateHistory ≤ history.length then history.tail else history) ++ [record]

/-- A refused transition. -/
def refused (machine : OrderStateMachine) (error : TransitionError) : TransitionResult where
  success := false
  previousState := machine.currentState
  newState := machine.currentState
  error := some error

/-- `do_transition`: the transition itself. -/
def doTransition (machine : OrderStateMachine) (event : StateEvent) :
    TransitionResult × OrderStateMachine :=
  let previous := machine.currentState
  match targetState event previous with
  | none => (machine.refused (.invalid previous event), machine)
  | some target =>
    if !isValidTransition previous target then
      (machine.refused (.illegal previous target), machine)
    else
      ({ success := true, previousState := previous, newState := target, error := none },
        { machine with
          currentState := target
          history := pushHistory machine.history
            { fromState := previous, toState := target, event := event } })

/-- `transition`: a transition, refused while another one is in progress. -/
def transition (machine : OrderStateMachine) (event : StateEvent) :
    TransitionResult × OrderStateMachine :=
  if machine.isTransitioning then (machine.refused .inProgress, machine)
  else
    let answer := { machine with isTransitioning := true }.doTransition event
    (answer.1, { answer.2 with isTransitioning := false })

/-- `is_terminal`: the order of the machine is over. -/
def isTerminal (machine : OrderStateMachine) : Bool := machine.currentState.isTerminal

/-- `force_transition`: any state, for recovery only. -/
def forceTransition (machine : OrderStateMachine) (newState : OrderState) : OrderStateMachine :=
  { machine with
    currentState := newState
    history := pushHistory machine.history
      { fromState := machine.currentState, toState := newState
        event := .systemEvent "Force transition" } }

/-- An event leads from a state to a target: the row is there and the step is allowed. -/
def Leads (event : StateEvent) (source target : OrderState) : Prop :=
  targetState event source = some target ∧ isValidTransition source target = true

instance (event : StateEvent) (source target : OrderState) :
    Decidable (Leads event source target) := inferInstanceAs (Decidable (_ ∧ _))

/-! ## What a transition does -/

section Transition

variable {machine : OrderStateMachine} {event : StateEvent} {target : OrderState}

/-- A transition of the table is made. -/
theorem transition_leads (idle : machine.isTransitioning = false)
    (leads : Leads event machine.currentState target) :
    machine.transition event =
      ({ success := true, previousState := machine.currentState, newState := target,
         error := none },
        { machine with
          currentState := target
          history := pushHistory machine.history
            { fromState := machine.currentState, toState := target, event := event } }) := by
  cases machine
  cases idle
  simp [transition, doTransition, leads.1, leads.2]

/-- A transition that the table lacks is refused. -/
theorem transition_refused (idle : machine.isTransitioning = false)
    (nowhere : ∀ target, ¬Leads event machine.currentState target) :
    (machine.transition event).1.success = false ∧
      (machine.transition event).1.newState = machine.currentState ∧
      (machine.transition event).2 = machine := by
  cases machine
  cases idle
  rename_i state orderId history
  unfold transition doTransition
  cases row : targetState event state with
  | none => simp [row, refused]
  | some target =>
    have forbidden : isValidTransition state target = false :=
      Bool.eq_false_iff.mpr fun allowed => nowhere target ⟨row, allowed⟩
    simp [row, refused, forbidden]

theorem transition_success (idle : machine.isTransitioning = false) :
    (machine.transition event).1.success = true ↔
      ∃ target, Leads event machine.currentState target := by
  by_cases leads : ∃ target, Leads event machine.currentState target
  · obtain ⟨target, leads⟩ := leads
    rw [transition_leads idle leads]
    exact ⟨fun _ => ⟨target, leads⟩, fun _ => rfl⟩
  · have refusal := transition_refused idle fun target into => leads ⟨target, into⟩
    rw [refusal.1]
    exact ⟨fun yes => absurd yes (by decide), fun yes => absurd yes leads⟩

/-- A transition leaves the machine idle. -/
theorem transition_idle (idle : machine.isTransitioning = false) :
    (machine.transition event).2.isTransitioning = false := by
  unfold transition
  rw [idle]
  rfl

theorem invalid_terminal {source : OrderState} (terminal : source.isTerminal = true)
    (target : OrderState) : isValidTransition source target = false := by
  cases source <;> first | (cases terminal; done) | (cases target <;> rfl)

theorem not_leads_terminal {source : OrderState} (terminal : source.isTerminal = true)
    (target : OrderState) : ¬Leads event source target :=
  fun leads => Bool.false_ne_true ((invalid_terminal terminal target).symm.trans leads.2)

end Transition

end OrderStateMachine

/-! ## The manager -/

/-- `OmsStateMachineManager`: the tracked orders by identifier, each with the handle of its
machine, and the counters. -/
structure OmsStateMachineManager where
  orders : OrderedMap Nat Nat
  counter : Nat
  activeCount : Nat
  terminalCount : Nat

/-- `OmsStats`: a snapshot of the statistics. -/
structure OmsStats where
  totalOrders : Nat
  activeOrders : Nat
  terminalOrders : Nat
  byState : OrderState → Nat

/-- The manager together with every machine that was created, which its callers share by
handle; the handle of a tracked order is one of a created machine. -/
structure World where
  manager : OmsStateMachineManager
  machines : List OrderStateMachine
  shared : ∀ orderId handle, manager.orders.lookup orderId = some handle →
    handle < machines.length

namespace World

/-- `new`: a manager without orders. -/
def new : World where
  manager := { orders := .empty, counter := 0, activeCount := 0, terminalCount := 0 }
  machines := []
  shared := fun _ _ found => by cases found

/-- `create_order`: a new machine, tracked under the next number. -/
def createOrder (world : World) : World where
  manager :=
    { orders := world.manager.orders.insert world.manager.counter world.machines.length
      counter := castU64 (world.manager.counter + 1)
      activeCount := castU64 (world.manager.activeCount + 1)
      terminalCount := world.manager.terminalCount }
  machines := world.machines ++ [.new world.manager.counter]
  shared := by
    intro orderId handle found
    rw [lookup_insert] at found
    rw [List.length_append]
    by_cases new : orderId = world.manager.counter
    · rw [if_pos new] at found
      cases found
      exact Nat.lt_succ_self _
    · rw [if_neg new] at found
      exact Nat.lt_succ_of_lt (world.shared orderId handle found)

/-- The world after the machine of a handle changed. -/
def setMachine (world : World) (handle : Nat) (machine : OrderStateMachine) : World where
  manager := world.manager
  machines := world.machines.set handle machine
  shared := fun orderId other found => by
    rw [List.length_set]
    exact world.shared orderId other found

/-- The world after an order that ended was counted. -/
def countTerminal (world : World) : World where
  manager :=
    { world.manager with
      activeCount := castU64 (world.manager.activeCount + (u64Size - 1))
      terminalCount := castU64 (world.manager.terminalCount + 1) }
  machines := world.machines
  shared := world.shared

/-- `get_order`: the handle of a tracked order. -/
def getOrder (world : World) (orderId : Nat) : Option Nat :=
  world.manager.orders.lookup orderId

/-- `process_event`: a transition of a tracked order, counted when it ends the order. -/
def processEvent (world : World) (orderId : Nat) (event : StateEvent) :
    Option TransitionResult × World :=
  match found : world.getOrder orderId with
  | none => (none, world)
  | some handle =>
    let answer := (world.machines.get ⟨handle, world.shared _ _ found⟩).transition event
    let changed := world.setMachine handle answer.2
    (some answer.1,
      if answer.1.success && answer.1.newState.isTerminal then changed.countTerminal else changed)

theorem processEvent_none {world : World} {orderId : Nat} (missing : world.getOrder orderId = none)
    (event : StateEvent) : world.processEvent orderId event = (none, world) := by
  unfold processEvent
  split
  · rfl
  · next found => cases missing.symm.trans found

theorem processEvent_some {world : World} {orderId handle : Nat} {machine : OrderStateMachine}
    (tracked : world.getOrder orderId = some handle)
    (shared : world.machines[handle]? = some machine) (event : StateEvent) :
    let answer := machine.transition event
    let changed := world.setMachine handle answer.2
    world.processEvent orderId event =
      (some answer.1,
        if answer.1.success && answer.1.newState.isTerminal then changed.countTerminal
        else changed) := by
  unfold processEvent
  split
  · next missing => cases tracked.symm.trans missing
  · next other found =>
    cases tracked.symm.trans found
    obtain ⟨_, rfl⟩ := List.getElem?_eq_some_iff.mp shared
    rfl

/-- The tracked machines. -/
def tracked (world : World) : List OrderStateMachine :=
  world.manager.orders.entries.filterMap fun entry => world.machines[entry.2]?

/-- `get_stats`: the number of tracked orders, the counters and the number of tracked orders in
each state. -/
def getStats (world : World) : OmsStats where
  totalOrders := world.manager.orders.size
  activeOrders := world.manager.activeCount
  terminalOrders := world.manager.terminalCount
  byState := fun state => (world.tracked.filter fun machine => machine.currentState = state).length

/-- `cleanup_terminal_orders`: tracked orders that are over are no longer tracked. -/
def cleanupTerminalOrders (world : World) : Nat × World :=
  let kept := world.manager.orders.filter fun _ handle =>
    !world.machines[handle]?.any OrderStateMachine.isTerminal
  (world.manager.orders.size - kept.size,
    { manager := { world.manager with orders := kept }
      machines := world.machines
      shared := fun orderId handle found =>
        world.shared orderId handle (lookup_of_filter found) })

end World

end TradingBot.Oms
