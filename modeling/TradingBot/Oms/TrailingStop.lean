import TradingBot.Backtest.MatchingEngine
import TradingBot.Oms.SyntheticRouter

/-!
# Trailing stops

`trailing_stop.rs`: a stop that follows the price of a position at a distance. A calculator derives
the distance from the price and its indicators, keeps it within two shares of the price and rounds
it to ticks. Floating-point numbers are read as rationals; the stop is kept in units of `1e-8`.
-/

open MachineInt

namespace TradingBot.Oms.Trailing

/-! ## The calculator -/

/-- `TrailingMethod`: type of trailing stop calculation method. -/
inductive TrailingMethod where
  | fixedPercentage
  | atrBased
  | volatilityBased
  | stepTrailing
  | hybrid

/-- `TrailingConfig`: configuration for trailing stop calculation, with a range of distances. -/
structure TrailingConfig where
  method : TrailingMethod
  fixedPct : ℚ
  atrMultiplier : ℚ
  volMultiplier : ℚ
  minTickSize : ℚ
  /-- Minimum distance to prevent whipsaws. -/
  minDistancePct : ℚ
  maxDistancePct : ℚ
  stepSizePct : ℚ
  minPositive : 0 < minDistancePct
  ordered : minDistancePct ≤ maxDistancePct
  belowOne : maxDistancePct < 1

/-- The default configuration. -/
def TrailingConfig.default : TrailingConfig where
  method := .atrBased
  fixedPct := 2 / 100
  atrMultiplier := 2
  volMultiplier := 5 / 2
  minTickSize := 1 / 100
  minDistancePct := 5 / 1000
  maxDistancePct := 1 / 10
  stepSizePct := 1 / 100
  minPositive := by norm_num
  ordered := by norm_num
  belowOne := by norm_num

/-- `TrailingStopCalculator`: the calculator with its indicators as the candles left them. -/
structure TrailingStopCalculator where
  config : TrailingConfig
  currentAtr : ℚ
  currentVolatility : ℚ
  /-- The last distance, unless it was not a number. -/
  lastDistance : Option ℚ
  lastTriggerPrice : ℚ
  stepAccumulator : ℚ

namespace TrailingStopCalculator

def new (config : TrailingConfig) : TrailingStopCalculator where
  config := config
  currentAtr := 0
  currentVolatility := 0
  lastDistance := some 0
  lastTriggerPrice := 0
  stepAccumulator := 0

variable (calculator : TrailingStopCalculator) (currentPrice : ℚ)

/-- `calculate_step_distance`: the step-trailing distance. -/
def calculateStepDistance : ℚ × TrailingStopCalculator :=
  let step := calculator.config.stepSizePct
  if calculator.lastTriggerPrice = 0 then
    (currentPrice * step, { calculator with lastTriggerPrice := currentPrice })
  else
    let priceMove := |currentPrice - calculator.lastTriggerPrice|
    let stepThreshold := calculator.lastTriggerPrice * step
    let moved :=
      if stepThreshold ≤ priceMove then
        -- Without a step the quotient is no number, and neither value of it adds anything.
        let stepsMoved := min (u64Size - 1) (priceMove / stepThreshold).floor.toNat
        { calculator with
          stepAccumulator := calculator.stepAccumulator + stepsMoved * step
          lastTriggerPrice := currentPrice }
      else calculator
    (currentPrice * (step + moved.stepAccumulator * step), moved)

/-- The distance of the configured method. -/
def methodDistance : ℚ × TrailingStopCalculator :=
  let atrDistance := calculator.currentAtr * calculator.config.atrMultiplier
  let volDistance :=
    currentPrice * (calculator.currentVolatility / 100) * calculator.config.volMultiplier
  match calculator.config.method with
  | .fixedPercentage => (currentPrice * calculator.config.fixedPct, calculator)
  | .atrBased => (atrDistance, calculator)
  | .volatilityBased => (volDistance, calculator)
  | .stepTrailing => calculator.calculateStepDistance currentPrice
  | .hybrid => (max atrDistance volDistance, calculator)

/-- `apply_constraints`: a distance within the minimum and the maximum share of a price. -/
def applyConstraints (distance price : ℚ) : ℚ :=
  max (price * calculator.config.minDistancePct)
    (min distance (price * calculator.config.maxDistancePct))

/-- `round_to_tick`: a distance rounded to ticks, which is not a number without a tick. -/
def roundToTick (distance : ℚ) : Option ℚ :=
  let tick := calculator.config.minTickSize
  if tick = 0 then none else some (f64Round (distance / tick) * tick)

/-- `calculate_distance`: the trailing distance based on the configured method. -/
def calculateDistance : Option ℚ × TrailingStopCalculator :=
  let (distance, moved) := calculator.methodDistance currentPrice
  let rounded := moved.roundToTick (moved.applyConstraints distance currentPrice)
  (rounded, { moved with lastDistance := rounded })

/-- `calculate_long_stop`: the trailing stop price for a long position. -/
def calculateLongStop (entryPrice : ℚ) : Option ℚ × TrailingStopCalculator :=
  let (distance, moved) := calculator.calculateDistance currentPrice
  (distance.map fun distance => max (currentPrice - distance) (entryPrice - distance), moved)

/-- `calculate_short_stop`: the trailing stop price for a short position. -/
def calculateShortStop (entryPrice : ℚ) : Option ℚ × TrailingStopCalculator :=
  let (distance, moved) := calculator.calculateDistance currentPrice
  (distance.map fun distance => min (currentPrice + distance) (entryPrice + distance), moved)

end TrailingStopCalculator

/-! ## The stop -/

theorem toUnits_lt (quantity : ℚ) : toUnits quantity < u64Size := by
  unfold toUnits
  exact lt_of_le_of_lt (Nat.min_le_left _ _) (by decide)

/-- `ActiveTrailingStop`: the trailing stop of a position, in units of `1e-8`. -/
structure ActiveTrailingStop where
  /-- True for long, false for short. -/
  isLong : Bool
  entryPrice : ℚ
  stopPrice : Nat
  /-- Highest price seen for long, lowest for short. -/
  extremePrice : Nat
  triggered : Bool
  calculator : TrailingStopCalculator
  entryPositive : 0 < entryPrice
  stopFits : stopPrice < u64Size

namespace ActiveTrailingStop

/-- `new`: a new stop, five percent below the entry on either side. -/
def new (isLong : Bool) (entryPrice : {price : ℚ // 0 < price})
    (calculator : TrailingStopCalculator) : ActiveTrailingStop where
  isLong := isLong
  entryPrice := entryPrice
  stopPrice := toUnits (entryPrice.val * (95 / 100))
  extremePrice := toUnits entryPrice.val
  triggered := false
  calculator := calculator
  entryPositive := entryPrice.property
  stopFits := toUnits_lt _

variable (stop : ActiveTrailingStop) (currentPrice : ℚ)

def getStopPrice : ℚ := stop.stopPrice / 100000000

/-- The stop price that the calculator proposes at a price. -/
def proposal : Option ℚ × TrailingStopCalculator :=
  if stop.isLong then stop.calculator.calculateLongStop currentPrice stop.entryPrice
  else stop.calculator.calculateShortStop currentPrice stop.entryPrice

/-- Whether a stop moves to a proposed one. -/
def shouldUpdate (newStop : Nat) : Bool :=
  if stop.isLong then stop.stopPrice < newStop
  else newStop < stop.stopPrice ∧ 0 < newStop

/-- The extreme price after a price is seen. -/
def nextExtreme : Nat :=
  if stop.isLong then
    if stop.extremePrice < toUnits currentPrice then toUnits currentPrice else stop.extremePrice
  else if toUnits currentPrice < stop.extremePrice ∨ stop.extremePrice = 0 then
    toUnits currentPrice
  else stop.extremePrice

/-- The units of a stop price; what is not a number converts to zero. -/
def unitsOf (newStop : Option ℚ) : Nat := (newStop.map toUnits).getD 0

theorem unitsOf_lt (newStop : Option ℚ) : unitsOf newStop < u64Size := by
  cases newStop with
  | none =>
    show 0 < u64Size
    decide
  | some price => exact toUnits_lt price

/-- `update`: update the stop price based on a new market price; it returns the new stop if it
moved. -/
def update : Option ℚ × ActiveTrailingStop :=
  if stop.triggered then (none, stop)
  else
    let (newStop, moved) := stop.proposal currentPrice
    let seen :=
      { stop with extremePrice := stop.nextExtreme currentPrice, calculator := moved }
    if stop.shouldUpdate (unitsOf newStop) then
      (newStop, { seen with stopPrice := unitsOf newStop, stopFits := unitsOf_lt newStop })
    else (none, seen)

/-- The stop is hit at a price. -/
def isHit : Bool :=
  if stop.isLong then currentPrice ≤ stop.getStopPrice else stop.getStopPrice ≤ currentPrice

/-- `check_trigger`: check if the stop is triggered. -/
def checkTrigger : Bool × ActiveTrailingStop :=
  (stop.isHit currentPrice,
    if stop.isHit currentPrice then { stop with triggered := true } else stop)

end ActiveTrailingStop

end TradingBot.Oms.Trailing
