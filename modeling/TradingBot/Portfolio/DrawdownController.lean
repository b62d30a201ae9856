import TradingBot.Foundation.MachineInt

/-!
# Drawdown controller

`drawdown_controller.rs`: the controller follows the value of the portfolio, compares its drawdown
with the limits, halts trading by a circuit breaker, and lets it resume after a cooldown. Values
and limits are exact rationals. The reading of the clock during a call is an argument in
nanoseconds; the clock does not go back.
-/

open MachineInt

namespace TradingBot.Portfolio

/-- `DrawdownConfig`, without the limits that nothing checks. -/
structure DrawdownConfig where
  maxDailyDrawdown : ℚ
  maxTotalDrawdown : ℚ
  circuitBreakerLevel : ℚ
  cooldownSeconds : Nat
  enableGradualReduction : Bool
  reductionThreshold : ℚ

def DrawdownConfig.default : DrawdownConfig where
  maxDailyDrawdown := 2 / 100
  maxTotalDrawdown := 15 / 100
  circuitBreakerLevel := 15 / 1000
  cooldownSeconds := 3600
  enableGradualReduction := true
  reductionThreshold := 1 / 100

/-- `BreachType`. -/
inductive BreachType where
  | daily
  | weekly
  | monthly
  | total
  | assetSpecific

/-- `DrawdownStatus`. -/
structure DrawdownStatus where
  totalDrawdown : ℚ
  dailyDrawdown : ℚ
  weeklyDrawdown : ℚ
  monthlyDrawdown : ℚ
  limitBreached : Bool
  breachType : Option BreachType
  circuitBreakerTriggered : Bool
  liquidationRequired : Bool
  gradualReduction : Bool

/-- `LiquidationPlan`. -/
structure LiquidationPlan where
  immediate : Bool
  reduceByPct : ℚ
  reason : String

/-- `DrawdownTracker`. -/
structure DrawdownTracker where
  peakValue : ℚ
  currentValue : ℚ
  dailyPnl : ℚ
  weeklyPnl : ℚ
  monthlyPnl : ℚ
  dailyResetNs : Nat
  weeklyResetNs : Nat
  monthlyResetNs : Nat

/-- A day in nanoseconds. -/
def dayNs : Nat := 24 * 3600 * 1000000000

namespace DrawdownTracker

def new (initialValue : ℚ) (nowNs : Nat) : DrawdownTracker where
  peakValue := initialValue
  currentValue := initialValue
  dailyPnl := 0
  weeklyPnl := 0
  monthlyPnl := 0
  dailyResetNs := nowNs
  weeklyResetNs := nowNs
  monthlyResetNs := nowNs

/-- The daily part of `check_period_resets`. -/
def resetDaily (tracker : DrawdownTracker) (nowNs : Nat) : DrawdownTracker :=
  if dayNs < nowNs - tracker.dailyResetNs then
    { tracker with dailyPnl := 0, dailyResetNs := nowNs }
  else tracker

/-- The weekly part of `check_period_resets`. -/
def resetWeekly (tracker : DrawdownTracker) (nowNs : Nat) : DrawdownTracker :=
  if 7 * dayNs < nowNs - tracker.weeklyResetNs then
    { tracker with weeklyPnl := 0, weeklyResetNs := nowNs }
  else tracker

/-- The monthly part of `check_period_resets`. -/
def resetMonthly (tracker : DrawdownTracker) (nowNs : Nat) : DrawdownTracker :=
  if 30 * dayNs < nowNs - tracker.monthlyResetNs then
    { tracker with monthlyPnl := 0, monthlyResetNs := nowNs }
  else tracker

def checkPeriodResets (tracker : DrawdownTracker) (nowNs : Nat) : DrawdownTracker :=
  ((tracker.resetDaily nowNs).resetWeekly nowNs).resetMonthly nowNs

def updateValue (tracker : DrawdownTracker) (newValue : ℚ) (nowNs : Nat) : DrawdownTracker :=
  ({ tracker with
    currentValue := newValue
    peakValue := if tracker.peakValue < newValue then newValue else tracker.peakValue
    }).checkPeriodResets nowNs

def getCurrentDrawdown (tracker : DrawdownTracker) : ℚ :=
  if tracker.peakValue ≤ 0 then 0
  else (tracker.peakValue - tracker.currentValue) / tracker.peakValue

def getDailyDrawdown (tracker : DrawdownTracker) : ℚ :=
  if tracker.peakValue ≤ 0 then 0 else max (-tracker.dailyPnl) 0 / tracker.peakValue

end DrawdownTracker

/-- `DrawdownController`, without the limits of single assets. -/
structure DrawdownController where
  config : DrawdownConfig
  tracker : DrawdownTracker
  circuitBreaker : Bool
  tripTimeNs : Nat
  tradingHalted : Bool
  liquidationActive : Bool

namespace DrawdownController

def new (config : DrawdownConfig) (initialValue : ℚ) (nowNs : Nat) : DrawdownController where
  config := config
  tracker := .new initialValue nowNs
  circuitBreaker := false
  tripTimeNs := 0
  tradingHalted := false
  liquidationActive := false

/-- The status `check_all_limits` starts from, with the check of the circuit breaker. -/
def breakerStatus (controller : DrawdownController) : DrawdownStatus where
  totalDrawdown := controller.tracker.getCurrentDrawdown
  dailyDrawdown := controller.tracker.getDailyDrawdown
  weeklyDrawdown := 0
  monthlyDrawdown := 0
  limitBreached := false
  breachType := none
  circuitBreakerTriggered :=
    controller.config.circuitBreakerLevel ≤ controller.tracker.getCurrentDrawdown &&
      !controller.circuitBreaker
  liquidationRequired := false
  gradualReduction := false

def checkAllLimits (controller : DrawdownController) : DrawdownStatus :=
  let status := controller.breakerStatus
  if controller.config.maxDailyDrawdown ≤ status.dailyDrawdown then
    { status with
      limitBreached := true
      breachType := some .daily
      liquidationRequired := true }
  else if controller.config.maxTotalDrawdown ≤ status.totalDrawdown then
    { status with
      limitBreached := true
      breachType := some .total
      liquidationRequired := true }
  else
    { status with
      gradualReduction := controller.config.enableGradualReduction &&
        controller.config.reductionThreshold ≤ status.totalDrawdown &&
        status.totalDrawdown < controller.config.circuitBreakerLevel }

def triggerCircuitBreaker (controller : DrawdownController) (nowNs : Nat) : DrawdownController :=
  { controller with circuitBreaker := true, tripTimeNs := nowNs, tradingHalted := true }

def updatePortfolioValue (controller : DrawdownController) (value : ℚ) (nowNs : Nat) :
    DrawdownStatus × DrawdownController :=
  let updated := { controller with tracker := controller.tracker.updateValue value nowNs }
  let status := updated.checkAllLimits
  (status, if status.circuitBreakerTriggered then updated.triggerCircuitBreaker nowNs else updated)

/-- The cooldown in nanoseconds, as an unsigned 64-bit number. -/
def cooldownNs (config : DrawdownConfig) : Nat := config.cooldownSeconds * 1000000000 % u64Size

def canResumeTrading (controller : DrawdownController) (nowNs : Nat) :
    Bool × DrawdownController :=
  if !controller.circuitBreaker then (true, controller)
  else if cooldownNs controller.config < nowNs - controller.tripTimeNs then
    if controller.tracker.getCurrentDrawdown < controller.config.circuitBreakerLevel * (8 / 10) then
      (true, { controller with circuitBreaker := false, tradingHalted := false })
    else (false, controller)
  else (false, controller)

def initiateLiquidation (controller : DrawdownController) :
    LiquidationPlan × DrawdownController :=
  ({ immediate := true, reduceByPct := 1, reason := "Drawdown limit breached" },
    { controller with liquidationActive := true, tradingHalted := true })

def isTradingHalted (controller : DrawdownController) : Bool := controller.tradingHalted

end DrawdownController

end TradingBot.Portfolio
