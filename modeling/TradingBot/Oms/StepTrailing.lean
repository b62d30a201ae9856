import TradingBot.Backtest.MatchingEngine
import TradingBot.Foundation.Dict
import TradingBot.Foundation.MachineInt

/-!
# Step-trailing stops

`step_trailing.rs`: a stop that moves in steps, one for every full step the price has gained since
the entry, up to a maximum. Floating-point numbers are read as rationals and prices are kept in
ticks. An unsigned operation that overflows, and a division by zero, stop the program; the times of
creation and of the last update are left to the clock.
-/

open MachineInt

namespace TradingBot.Oms.StepTrailing

/-! ## Configuration -/

/-- `StepTrailingConfig`: configuration for a step-trailing stop. -/
structure StepTrailingConfig where
  /-- Initial stop distance as a share of the entry price. -/
  initialDistancePct : ℚ
  /-- The price must move this much before the stop trails. -/
  stepSizePct : ℚ
  /-- Minimum number of steps before the first trail. -/
  minStepsBeforeTrail : UInt32
  maxSteps : UInt32
  minTickSize : ℚ
  breakEvenAfterFirstStep : Bool

/-- The default configuration. -/
def StepTrailingConfig.default : StepTrailingConfig where
  initialDistancePct := 2 / 100
  stepSizePct := 1 / 100
  minStepsBeforeTrail := 1
  maxSteps := 50
  minTickSize := 1 / 100
  breakEvenAfterFirstStep := true

/-- The ticks of a price, rounded and stopped at the ends of the type. Without a tick a positive
price is infinite and nothing is no number, which converts to zero. -/
def ticks (price tick : ℚ) : Nat :=
  if tick = 0 then if 0 < price then u64Size - 1 else 0
  else min (u64Size - 1) (f64Round (price / tick)).toNat

/-- The fields of a stop that are set once. -/
structure StepTrailingSetup where
  config : StepTrailingConfig
  /-- True for long, false for short. -/
  isLong : Bool
  entryPrice : ℚ
  quantity : ℚ
  symbol : String

namespace StepTrailingSetup

variable (setup : StepTrailingSetup)

/-- The entry price in ticks. -/
def entryFp : Nat := ticks setup.entryPrice setup.config.minTickSize

/-- The size of a step in ticks. -/
def stepThresholdFp : Nat :=
  ticks (setup.entryPrice * setup.config.stepSizePct) setup.config.minTickSize

/-- The initial distance in ticks. -/
def initialDistanceFp : Nat :=
  ticks (setup.entryPrice * setup.config.initialDistancePct) setup.config.minTickSize

/-- The initial stop in ticks, on the losing side of the entry. -/
def initialStopFp : Nat :=
  ticks
    (if setup.isLong then setup.entryPrice * (1 - setup.config.initialDistancePct)
      else setup.entryPrice * (1 + setup.config.initialDistancePct))
    setup.config.minTickSize

/-- `calculate_stop_from_steps`: the stop in ticks after a number of steps. -/
def calculateStopFromSteps (steps : Nat) : Option Nat :=
  if setup.isLong then
    if steps = 0 then some (setup.entryFp - setup.initialDistanceFp)
    else if setup.config.breakEvenAfterFirstStep then do
      -- First step brings stop to break-even
      let gained ← u64 ((steps - 1) * setup.stepThresholdFp)
      u64 (setup.entryFp + gained)
    else do
      let gained ← u64 (steps * setup.stepThresholdFp)
      u64 (setup.entryFp - setup.initialDistanceFp + gained)
  else
    if steps = 0 then u64 (setup.entryFp + setup.initialDistanceFp)
    else if setup.config.breakEvenAfterFirstStep then do
      let gained ← u64 ((steps - 1) * setup.stepThresholdFp)
      some (setup.entryFp - gained)
    else do
      let initial ← u64 (setup.entryFp + setup.initialDistanceFp)
      let gained ← u64 (steps * setup.stepThresholdFp)
      uSub initial gained

end StepTrailingSetup

/-! ## The stop -/

/-- `StepTrailingState`: state of a step-trailing stop, which the source keeps encoded. -/
inductive StepTrailingState where
  /-- Waiting for the first step to be reached. -/
  | waitingFirstStep
  /-- Actively trailing with some steps accumulated. -/
  | trailing (steps : UInt32)
  | triggered
  | cancelled
  deriving DecidableEq

/-- Whether a stop in a state is over. -/
def StepTrailingState.isOver (state : StepTrailingState) : Bool :=
  state = .triggered ∨ state = .cancelled

/-- `StepTrailingStop`: the stop of a single position, in ticks. -/
structure StepTrailingStop extends StepTrailingSetup where
  stopPriceFp : Nat
  /-- Highest price for long, lowest for short. -/
  extremePriceFp : Nat
  stepsAccumulated : Nat
  /-- The price up to which steps are counted. -/
  lastCheckPriceFp : Nat
  state : StepTrailingState

namespace StepTrailingStop

def new (setup : StepTrailingSetup) : StepTrailingStop where
  toStepTrailingSetup := setup
  stopPriceFp := setup.initialStopFp
  extremePriceFp := setup.entryFp
  stepsAccumulated := 0
  lastCheckPriceFp := setup.entryFp
  state := .waitingFirstStep

variable (stop : StepTrailingStop)

/-- The extreme price after `update_extreme_price`. -/
def nextExtreme (currentFp : Nat) : Nat :=
  if stop.isLong then
    if stop.extremePriceFp < currentFp then currentFp else stop.extremePriceFp
  else if currentFp < stop.extremePriceFp ∨ stop.extremePriceFp = 0 then currentFp
  else stop.extremePriceFp

/-- How far a price in ticks is beyond the price up to which steps are counted. -/
def priceMoveFp (currentFp : Nat) : Nat :=
  if stop.isLong then currentFp - stop.lastCheckPriceFp else stop.lastCheckPriceFp - currentFp

/-- Whether a stop moves to a new one: only in the favourable direction. -/
def shouldUpdate (newStopFp : Nat) : Bool :=
  if stop.isLong then stop.stopPriceFp < newStopFp
  else newStopFp < stop.stopPriceFp ∧ 0 < newStopFp

/-- The price up to which steps are counted, after it moved by some ticks. -/
def nextCheckFp (moved : Nat) : Option Nat :=
  if stop.isLong then u64 (stop.lastCheckPriceFp + moved)
  else some (stop.lastCheckPriceFp - moved)

/-- The part of `update` behind some new steps. -/
def takeSteps (newSteps : Nat) : Option (Option ℚ × StepTrailingStop) := do
  let moved ← u64 (newSteps * stop.stepThresholdFp)
  let newCheckFp ← stop.nextCheckFp moved
  let totalSteps ← u64 (stop.stepsAccumulated + newSteps)
  let cappedSteps := min totalSteps stop.config.maxSteps.toNat
  let newStopFp ← stop.calculateStopFromSteps cappedSteps
  let counted :=
    { stop with lastCheckPriceFp := newCheckFp, stepsAccumulated := cappedSteps }
  if stop.shouldUpdate newStopFp then
    return (some (newStopFp * stop.config.minTickSize),
      { counted with stopPriceFp := newStopFp, state := .trailing (UInt32.ofNat cappedSteps) })
  else return (none, counted)

/-- `update`: update the stop based on a new market price; it returns the new stop price if the
stop moved. -/
def update (currentPrice : ℚ) : Option (Option ℚ × StepTrailingStop) :=
  if stop.state.isOver then some (none, stop)
  else
    let currentFp := ticks currentPrice stop.config.minTickSize
    let seen := { stop with extremePriceFp := stop.nextExtreme currentFp }
    if stop.stepThresholdFp ≤ stop.priceMoveFp currentFp then
      if stop.stepThresholdFp = 0 then none
      else
        let newSteps := stop.priceMoveFp currentFp / stop.stepThresholdFp
        if 0 < newSteps then seen.takeSteps newSteps else some (none, seen)
    else some (none, seen)

/-- The stop is hit at a price. -/
def isHit (currentPrice : ℚ) : Bool :=
  let currentFp := ticks currentPrice stop.config.minTickSize
  if stop.isLong then currentFp ≤ stop.stopPriceFp
  else stop.stopPriceFp ≤ currentFp ∧ 0 < stop.stopPriceFp

/-- `check_trigger`: check if the stop is triggered by the current price. -/
def checkTrigger (currentPrice : ℚ) : Bool × StepTrailingStop :=
  (stop.isHit currentPrice,
    if stop.isHit currentPrice then { stop with state := .triggered } else stop)

def getStopPrice : ℚ := stop.stopPriceFp * stop.config.minTickSize

def getSteps : UInt32 := UInt32.ofNat stop.stepsAccumulated

/-- `get_locked_profit`: the profit at the current stop. -/
def getLockedProfit : ℚ :=
  if stop.isLong then (stop.getStopPrice - stop.entryPrice) * stop.quantity
  else (stop.entryPrice - stop.getStopPrice) * stop.quantity

/-- `cancel`: manually cancel the trailing stop. -/
def cancel : StepTrailingStop := { stop with state := .cancelled }

/-- `reset`: everything but the setup is as in a new stop. -/
def reset : StepTrailingStop := new stop.toStepTrailingSetup

end StepTrailingStop

/-! ## The manager -/

/-- `StepTrailingManager`: the stops by position, and the positions by symbol. -/
structure StepTrailingManager where
  stops : Dict String StepTrailingStop
  symbolIndex : Dict String (List String)

namespace StepTrailingManager

def new : StepTrailingManager := ⟨.empty, .empty⟩

variable (manager : StepTrailingManager)

/-- The positions of a symbol. -/
def positionsOf (symbol : String) : List String := (manager.symbolIndex.get symbol).getD []

/-- `create_stop`: a new stop for a position that has none. -/
def createStop (positionId : String) (setup : StepTrailingSetup) :
    Except String Unit × StepTrailingManager :=
  if (manager.stops.get positionId).isSome then
    (.error "Position already has a trailing stop", manager)
  else
    (.ok (), {
      stops := manager.stops.put positionId (.new setup)
      symbolIndex := manager.symbolIndex.put setup.symbol
        (manager.positionsOf setup.symbol ++ [positionId]) })

/-- The loop of `update_symbol`. -/
def updatePositions (currentPrice : ℚ) :
    List String → StepTrailingManager → Option (List (String × ℚ) × StepTrailingManager)
  | [], manager => some ([], manager)
  | positionId :: rest, manager =>
    match manager.stops.get positionId with
    | none => updatePositions currentPrice rest manager
    | some stop => do
      let (newStop, moved) ← stop.update currentPrice
      let (updates, after) ← updatePositions currentPrice rest
        { manager with stops := manager.stops.put positionId moved }
      return ((newStop.map fun price => (positionId, price)).toList ++ updates, after)

/-- `update_symbol`: update all stops of a symbol. -/
def updateSymbol (symbol : String) (currentPrice : ℚ) :
    Option (List (String × ℚ) × StepTrailingManager) :=
  updatePositions currentPrice (manager.positionsOf symbol) manager

/-- The loop of `check_triggers`. -/
def checkPositions (currentPrice : ℚ) :
    List String → StepTrailingManager → List String × StepTrailingManager
  | [], manager => ([], manager)
  | positionId :: rest, manager =>
    match manager.stops.get positionId with
    | none => checkPositions currentPrice rest manager
    | some stop =>
      let (triggered, checked) := stop.checkTrigger currentPrice
      let (listed, after) := checkPositions currentPrice rest
        { manager with stops := manager.stops.put positionId checked }
      (if triggered then positionId :: listed else listed, after)

/-- `check_triggers`: check triggers for all stops of a symbol. -/
def checkTriggers (symbol : String) (currentPrice : ℚ) : List String × StepTrailingManager :=
  checkPositions currentPrice (manager.positionsOf symbol) manager

/-- `remove_stop`: remove a completed or cancelled stop. -/
def removeStop (positionId : String) : Bool × StepTrailingManager :=
  match manager.stops.get positionId with
  | none => (false, manager)
  | some stop =>
    (true, {
      stops := manager.stops.pop positionId
      symbolIndex :=
        match manager.symbolIndex.get stop.symbol with
        | none => manager.symbolIndex
        | some positions =>
          manager.symbolIndex.put stop.symbol (positions.filter fun other => other ≠ positionId) })

def totalLockedProfit : ℚ := (manager.stops.values.map fun stop => stop.getLockedProfit).sum

end StepTrailingManager

end TradingBot.Oms.StepTrailing
