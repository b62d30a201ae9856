import TradingBot.Foundation.MachineInt

/-!
# Circuit breaker

`circuit_breaker.rs`: a breaker stops trading for a cooldown after a trip, is probed half open and
closed again by a reset, and is locked out by hand or by too many trips. A manager holds the
breaker of the whole bot. Every reading of the clock is an argument in nanoseconds; the clock does
not go back.
-/

open MachineInt

namespace TradingBot.Stress

def maxTripHistory : Nat := 100

/-- `CircuitState`. -/
inductive CircuitState where
  /-- Normal operation. -/
  | closed
  /-- Tripped, blocking trades. -/
  | opened
  /-- Testing if safe to resume. -/
  | halfOpen
  deriving DecidableEq, Repr

/-- `TripReason`. -/
inductive TripReason where
  | flashCrash
  | exchangeDisconnect
  | latencySpike
  | spreadWidening
  | riskLimitBreached
  | manualTrigger
  | systemAnomaly
  | networkPacketLoss
  | orderBookFrozen
  | correlationBreakdown
  deriving DecidableEq, Repr

/-- `CircuitBreakerConfig`, without the fields that nothing reads. -/
structure CircuitBreakerConfig where
  cooldownMs : Nat
  maxTripsBeforeLockout : Nat
  /-- The cooldown is an unsigned 64-bit number. -/
  fits : cooldownMs < u64Size

def CircuitBreakerConfig.default : CircuitBreakerConfig where
  cooldownMs := 60000
  maxTripsBeforeLockout := 3
  fits := by decide

/-- `TripEvent`. -/
structure TripEvent where
  reason : TripReason
  timestampNs : Nat
  asset : Option String
  severity : Nat
  details : String

/-- `CircuitBreaker`, without the breakers of single assets. -/
structure CircuitBreaker where
  config : CircuitBreakerConfig
  state : CircuitState
  /-- Trip timestamp in nanoseconds; zero before the first trip and after a reset. -/
  tripTimestampNs : Nat
  tripCount : Nat
  tripHistory : List TripEvent
  lastTripReason : Option TripReason
  isLockedOut : Bool

namespace CircuitBreaker

def withConfig (config : CircuitBreakerConfig) : CircuitBreaker where
  config := config
  state := .closed
  tripTimestampNs := 0
  tripCount := 0
  tripHistory := []
  lastTripReason := none
  isLockedOut := false

def new : CircuitBreaker := withConfig .default

def elapsedSinceTripMs (breaker : CircuitBreaker) (nowNs : Nat) : Nat :=
  if breaker.tripTimestampNs = 0 then u64Size - 1
  else (nowNs - breaker.tripTimestampNs) / 1000000

def isSafeToTrade (breaker : CircuitBreaker) (nowNs : Nat) : Bool :=
  if breaker.isLockedOut then false
  else
    match breaker.state with
    | .closed => true
    | .opened => breaker.config.cooldownMs ≤ breaker.elapsedSinceTripMs nowNs
    | .halfOpen => true

def trip (breaker : CircuitBreaker) (reason : TripReason) (asset : Option String) (severity : Nat)
    (nowNs : Nat) : Bool × CircuitBreaker :=
  -- An open breaker is not tripped again, also when its cooldown is over.
  if breaker.state = .opened then (false, breaker)
  else
    let event : TripEvent := {
      reason := reason
      timestampNs := nowNs
      asset := asset
      severity := severity
      details := "Circuit breaker triggered" }
    let kept :=
      if maxTripHistory ≤ breaker.tripHistory.length then breaker.tripHistory.tail
      else breaker.tripHistory
    (true, { breaker with
      state := .opened
      tripTimestampNs := nowNs
      tripCount := breaker.tripCount + 1
      isLockedOut := breaker.isLockedOut ||
        decide (breaker.config.maxTripsBeforeLockout ≤ breaker.tripCount + 1)
      lastTripReason := some reason
      tripHistory := kept ++ [event] })

def reset (breaker : CircuitBreaker) : Bool × CircuitBreaker :=
  if breaker.isLockedOut then (false, breaker)
  else (true, { breaker with state := .closed, tripTimestampNs := 0 })

def transitionToHalfOpen (breaker : CircuitBreaker) (nowNs : Nat) : Bool × CircuitBreaker :=
  if breaker.state ≠ .opened then (false, breaker)
  else if breaker.elapsedSinceTripMs nowNs < breaker.config.cooldownMs then (false, breaker)
  else (true, { breaker with state := .halfOpen })

def manualLockout (breaker : CircuitBreaker) (nowNs : Nat) : CircuitBreaker :=
  ({ breaker with isLockedOut := true }.trip .manualTrigger none 5 nowNs).2

def releaseLockout (breaker : CircuitBreaker) : CircuitBreaker :=
  { breaker with isLockedOut := false }.reset.2

variable {breaker : CircuitBreaker} {reason : TripReason} {asset : Option String}
  {severity nowNs : Nat}

/-- A locked breaker is not safe to trade. -/
theorem unsafe_of_locked (locked : breaker.isLockedOut = true) (nowNs : Nat) :
    breaker.isSafeToTrade nowNs = false := by
  unfold isSafeToTrade
  rw [if_pos locked]

/-- When it is safe to trade. -/
theorem safe_iff :
    breaker.isSafeToTrade nowNs = true ↔ breaker.isLockedOut = false ∧
      (breaker.state = .opened →
        breaker.config.cooldownMs ≤ breaker.elapsedSinceTripMs nowNs) := by
  unfold isSafeToTrade
  cases breaker.isLockedOut <;> cases breaker.state <;> simp

theorem trip_opened (state : breaker.state = .opened) :
    breaker.trip reason asset severity nowNs = (false, breaker) := by
  unfold trip
  rw [if_pos state]

theorem trip_taken (state : breaker.state ≠ .opened) :
    ∃ after, breaker.trip reason asset severity nowNs = (true, after) ∧
      after.config = breaker.config ∧ after.state = .opened ∧ after.tripTimestampNs = nowNs ∧
        (after.isLockedOut = true ↔ breaker.isLockedOut = true ∨
          breaker.config.maxTripsBeforeLockout ≤ breaker.tripCount + 1) := by
  unfold trip
  rw [if_neg state]
  refine ⟨_, rfl, rfl, rfl, rfl, ?_⟩
  rw [Bool.or_eq_true, decide_eq_true_eq]

/-- A trip keeps a locked breaker locked. -/
theorem trip_locked (locked : breaker.isLockedOut = true) :
    (breaker.trip reason asset severity nowNs).2.isLockedOut = true := by
  by_cases state : breaker.state = .opened
  · rw [trip_opened state]
    exact locked
  · obtain ⟨after, taken, _, _, _, lock⟩ := @trip_taken breaker reason asset severity nowNs state
    rw [taken]
    exact lock.mpr (.inl locked)

theorem manualLockout_locked (breaker : CircuitBreaker) (nowNs : Nat) :
    (breaker.manualLockout nowNs).isLockedOut = true :=
  trip_locked rfl

theorem reset_locked (locked : breaker.isLockedOut = true) : breaker.reset = (false, breaker) := by
  unfold reset
  rw [if_pos locked]

theorem transitionToHalfOpen_cases (breaker : CircuitBreaker) (nowNs : Nat) :
    (breaker.transitionToHalfOpen nowNs).2 = breaker ∨
      (breaker.isLockedOut = false → breaker.isSafeToTrade nowNs = true) ∧
        (breaker.transitionToHalfOpen nowNs).2.isLockedOut = breaker.isLockedOut := by
  unfold transitionToHalfOpen
  split
  · exact .inl rfl
  · split
    · exact .inl rfl
    · next late =>
      exact .inr ⟨fun free => safe_iff.mpr ⟨free, fun _ => Nat.not_lt.mp late⟩, rfl⟩

end CircuitBreaker

/-- `RiskLimits`, without the limits that nothing checks. -/
structure RiskLimits where
  maxDailyLossPct : ℚ
  maxPortfolioVar : ℚ

def RiskLimits.default : RiskLimits where
  maxDailyLossPct := 5 / 100
  maxPortfolioVar := 3 / 100

/-- `CircuitBreakerManager`. -/
structure CircuitBreakerManager where
  globalBreaker : CircuitBreaker
  riskLimits : RiskLimits

namespace CircuitBreakerManager

def new : CircuitBreakerManager where
  globalBreaker := .new
  riskLimits := .default

def setRiskLimits (manager : CircuitBreakerManager) (limits : RiskLimits) :
    CircuitBreakerManager :=
  { manager with riskLimits := limits }

def checkRiskLimits (manager : CircuitBreakerManager) (currentLossPct currentVar : ℚ)
    (nowNs : Nat) : Bool × CircuitBreakerManager :=
  if manager.riskLimits.maxDailyLossPct ≤ currentLossPct then
    (false, { manager with
      globalBreaker := (manager.globalBreaker.trip .riskLimitBreached none 5 nowNs).2 })
  else if manager.riskLimits.maxPortfolioVar ≤ currentVar then
    (false, { manager with
      globalBreaker := (manager.globalBreaker.trip .riskLimitBreached none 4 nowNs).2 })
  else (true, manager)

def emergencyStop (manager : CircuitBreakerManager) (nowNs : Nat) : CircuitBreakerManager :=
  { manager with globalBreaker := manager.globalBreaker.manualLockout nowNs }

def resumeTrading (manager : CircuitBreakerManager) (nowNs : Nat) :
    Bool × CircuitBreakerManager :=
  if !manager.globalBreaker.isSafeToTrade nowNs then (false, manager)
  else (true, { manager with globalBreaker := manager.globalBreaker.releaseLockout })

end CircuitBreakerManager

end TradingBot.Stress
