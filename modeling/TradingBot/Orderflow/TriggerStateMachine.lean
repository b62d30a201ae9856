import Mathlib.Algebra.Order.Ring.Rat

/-!
# Trigger state machine

`trigger_state_machine.rs`: a machine for one symbol waits for an absorption, its confirmations and
a trigger, and then gives an execution signal. Prices, volumes and percentages are exact rationals;
timestamps are nanoseconds and do not go back.
-/

namespace TradingBot.Orderflow

/-- `TriggerState`. -/
inductive TriggerState where
  | idle
  | watching
  | absorptionDetected
  | confirming
  | readyToExecute
  | executing
  | cooldown
  deriving DecidableEq, Repr

/-- `TriggerEvent`. -/
inductive TriggerEvent where
  | absorptionStart
  | absorptionConfirmed
  | divergenceDetected
  | volumeSpike
  | priceBreakout
  | exhaustionSignal
  | cancellation
  | timeout
  | executionComplete
  deriving DecidableEq, Repr

/-- `TradeDirection`. -/
inductive TradeDirection where
  | long
  | short
  deriving DecidableEq, Repr

/-- `AbsorptionType`. -/
inductive AbsorptionType where
  /-- Bullish. -/
  | bidAbsorption
  /-- Bearish. -/
  | askAbsorption
  deriving DecidableEq, Repr

/-- `ExecutionSignal`. -/
structure ExecutionSignal where
  symbol : String
  direction : TradeDirection
  entryPrice : ℚ
  stopLoss : ℚ
  takeProfit : ℚ
  positionSizePct : ℚ
  confidence : ℚ
  triggerReason : String
  timestampNs : Nat

/-- `TriggerConfig`, without the confidence that nothing reads. -/
structure TriggerConfig where
  requiredConfirmations : Nat
  cooldownNs : Nat
  confirmationTimeoutNs : Nat
  minVolume : ℚ

def TriggerConfig.default : TriggerConfig where
  requiredConfirmations := 2
  cooldownNs := 60000000000
  confirmationTimeoutNs := 5000000000
  minVolume := 1

/-- `TransitionResult`. -/
structure TransitionResult where
  fromState : TriggerState
  toState : TriggerState
  triggeredBy : TriggerEvent
  shouldExecute : Bool
  signal : Option ExecutionSignal

/-- `SymbolStateMachine`. -/
structure SymbolStateMachine where
  config : TriggerConfig
  currentState : TriggerState
  confirmationCount : Nat
  absorptionPrice : Option ℚ
  absorptionType : Option AbsorptionType
  stateEnteredNs : Nat
  lastExecutionNs : Nat

namespace SymbolStateMachine

def new (config : TriggerConfig) : SymbolStateMachine where
  config := config
  currentState := .idle
  confirmationCount := 0
  absorptionPrice := none
  absorptionType := none
  stateEnteredNs := 0
  lastExecutionNs := 0

def reset (machine : SymbolStateMachine) : SymbolStateMachine :=
  { machine with confirmationCount := 0, absorptionPrice := none, absorptionType := none }

def calculateConfidence (machine : SymbolStateMachine) : ℚ :=
  1 / 2 + min (machine.confirmationCount * (1 / 10)) (3 / 10)

/-- The remembered absorption type as a debug format shows it. -/
def showAbsorptionType : Option AbsorptionType → String
  | none => "None"
  | some .bidAbsorption => "Some(BidAbsorption)"
  | some .askAbsorption => "Some(AskAbsorption)"

def createSignal (machine : SymbolStateMachine) (symbol : String) (currentPrice : ℚ)
    (direction : TradeDirection) (ts : Nat) : ExecutionSignal where
  symbol := symbol
  direction := direction
  entryPrice := currentPrice
  stopLoss := match direction with
    | .long => currentPrice * (995 / 1000)
    | .short => currentPrice * (1005 / 1000)
  takeProfit := match direction with
    | .long => currentPrice * (1015 / 1000)
    | .short => currentPrice * (985 / 1000)
  positionSizePct := 1 / 10
  confidence := machine.calculateConfidence
  triggerReason := "Absorption " ++ showAbsorptionType machine.absorptionType ++ " with " ++
    toString machine.confirmationCount ++ " confirmations"
  timestampNs := ts

/-- The cooldown check of `process_event`: nothing while the machine cools down. -/
def wake (machine : SymbolStateMachine) (ts : Nat) : Option SymbolStateMachine :=
  if machine.currentState = .cooldown then
    if ts - machine.lastExecutionNs < machine.config.cooldownNs then none
    else some { machine with currentState := .idle, stateEnteredNs := ts }
  else some machine

/-- The timeout arms of `process_event`: back to idle when the confirmation took too long. -/
def expire (machine : SymbolStateMachine) (ts : Nat) : TriggerState × SymbolStateMachine :=
  if machine.config.confirmationTimeoutNs < ts - machine.stateEnteredNs then
    (.idle, machine.reset)
  else (machine.currentState, machine)

/-- The arm of `process_event` for a confirmation. -/
def confirm (machine : SymbolStateMachine) (volume : ℚ) : TriggerState × SymbolStateMachine :=
  if machine.config.minVolume ≤ volume then
    let counted := { machine with confirmationCount := machine.confirmationCount + 1 }
    if machine.config.requiredConfirmations ≤ counted.confirmationCount then
      (.absorptionDetected, counted)
    else (.watching, counted)
  else (.watching, machine)

/-- The state transitions of `process_event`: the new state and the other fields. -/
def transition (machine : SymbolStateMachine) (event : TriggerEvent) (currentPrice volume : ℚ)
    (ts : Nat) : TriggerState × SymbolStateMachine :=
  match machine.currentState, event with
  | .idle, .absorptionStart =>
    (.watching, { machine with absorptionPrice := some currentPrice, confirmationCount := 1 })
  | .watching, .absorptionConfirmed => machine.confirm volume
  | .watching, .timeout => machine.expire ts
  | .absorptionDetected, .divergenceDetected => (.confirming, machine)
  | .absorptionDetected, .volumeSpike => (.confirming, machine)
  | .confirming, .exhaustionSignal => (.readyToExecute, machine)
  | .confirming, .priceBreakout => (.readyToExecute, machine)
  | .confirming, .timeout => machine.expire ts
  | .readyToExecute, .cancellation => (.idle, machine.reset)
  | state, _ => (state, machine)

/-- The direction of a signal: long unless the remembered absorption is bearish. -/
def direction (machine : SymbolStateMachine) : TradeDirection :=
  match machine.absorptionType with
  | some .bidAbsorption => .long
  | some .askAbsorption => .short
  | none => .long

def processEvent (machine : SymbolStateMachine) (event : TriggerEvent) (symbol : String)
    (currentPrice volume : ℚ) (ts : Nat) : Option TransitionResult × SymbolStateMachine :=
  match machine.wake ts with
  | none => (none, machine)
  | some awake =>
    let oldState := machine.currentState
    let newState := (awake.transition event currentPrice volume ts).1
    let moved := { (awake.transition event currentPrice volume ts).2 with currentState := newState }
    let signal :=
      if oldState ≠ .readyToExecute ∧ newState = .readyToExecute then
        some (moved.createSignal symbol currentPrice moved.direction ts)
      else none
    if oldState ≠ newState then
      (some {
        fromState := oldState
        toState := newState
        triggeredBy := event
        shouldExecute := signal.isSome
        signal := signal }, moved)
    else (none, moved)

def setAbsorptionType (machine : SymbolStateMachine) (type : AbsorptionType) :
    SymbolStateMachine :=
  { machine with absorptionType := some type }

def startExecution (machine : SymbolStateMachine) (ts : Nat) : SymbolStateMachine :=
  { machine with currentState := .executing, stateEnteredNs := ts }

def completeExecution (machine : SymbolStateMachine) (ts : Nat) : SymbolStateMachine :=
  { machine with currentState := .cooldown, lastExecutionNs := ts, stateEnteredNs := ts }

end SymbolStateMachine

end TradingBot.Orderflow
