import Mathlib.Data.Rat.Floor
import TradingBot.Foundation.Dict
import TradingBot.Foundation.TokenBucket

/-!
# Rate limiter

`BinanceRateLimiter` of the exchange connectors: one token bucket for the request weight of a
minute and one for the orders of a second. Every reading of `time.time()` is an argument, and
floats are rationals. An `acquire` call is its attempts, one for each pass of its loop; other
calls may run while it sleeps between two of them. The `RAW_REQUESTS` limit has no bucket.
-/

open TokenBucket

namespace TradingBot.Exchanges

/-- `RateLimitType`: the limits that have a bucket. -/
inductive RateLimitType where
  | requestsWeight
  | orders
  deriving DecidableEq, Repr

/-- `TokenBucket.time_until_tokens`: the wait, with no value for a division by zero, and the
bucket after it. -/
def timeUntilTokens (bucket : Bucket ℚ) (tokens now : ℚ) : Option ℚ × Bucket ℚ :=
  let refilled := bucket.refill now
  if tokens ≤ refilled.tokens then (some 0, refilled)
  else if refilled.refillRate = 0 then (none, refilled)
  else (some ((tokens - refilled.tokens) / refilled.refillRate), refilled)

/-- `int` of a float: rounded toward zero. -/
def truncated (value : ℚ) : Int := if 0 ≤ value then ⌊value⌋ else ⌈value⌉

def defaultRequestWeightPerMin : Int := 1200

def defaultOrdersPerSecond : Int := 10

/-- `limit or default`: an absent limit and a zero limit give the default. -/
def orDefault (limit : Option Int) (default_ : Int) : Int :=
  match limit with
  | none => default_
  | some value => if value = 0 then default_ else value

/-- `effective_weight` of a constructor call. -/
def effectiveWeight (requestWeightLimit : Option Int) (safetyFactor : ℚ) : Int :=
  truncated (orDefault requestWeightLimit defaultRequestWeightPerMin * safetyFactor)

/-- `effective_ops` of a constructor call. -/
def effectiveOps (ordersPerSecondLimit : Option Int) (safetyFactor : ℚ) : Int :=
  truncated (orDefault ordersPerSecondLimit defaultOrdersPerSecond * safetyFactor)

/-- `_endpoint_weights` of a new limiter. -/
def endpointWeights : Dict String Int :=
  .ofList [("/api/v3/order", 1), ("/api/v3/order/test", 1), ("/api/v3/openOrders", 3),
    ("/api/v3/allOrders", 10), ("/api/v3/account", 10), ("/api/v3/myTrades", 10),
    ("/api/v3/depth", 50), ("/api/v3/trades", 50), ("/api/v3/klines", 50),
    ("/api/v3/ticker/price", 2), ("/api/v3/ticker/bookTicker", 2),
    ("/api/v3/exchangeInfo", 10), ("/api/v3/time", 1)]

/-- `BinanceRateLimiter`: its two buckets and its endpoint weights. -/
structure BinanceRateLimiter where
  requestsWeight : Bucket ℚ
  orders : Bucket ℚ
  weights : Dict String Int

namespace BinanceRateLimiter

/-- `_buckets[limit_type]`. -/
def bucket (limiter : BinanceRateLimiter) : RateLimitType → Bucket ℚ
  | .requestsWeight => limiter.requestsWeight
  | .orders => limiter.orders

/-- The limiter after a change of one bucket. -/
def withBucket (limiter : BinanceRateLimiter) (limitType : RateLimitType) (bucket : Bucket ℚ) :
    BinanceRateLimiter :=
  match limitType with
  | .requestsWeight => { limiter with requestsWeight := bucket }
  | .orders => { limiter with orders := bucket }

/-- `__init__`. The two buckets are created at readings of their own. -/
def new (requestWeightLimit ordersPerSecondLimit : Option Int)
    (safetyFactor weightCreated ordersCreated : ℚ) : BinanceRateLimiter where
  requestsWeight := {
    tokens := effectiveWeight requestWeightLimit safetyFactor
    maxTokens := effectiveWeight requestWeightLimit safetyFactor
    refillRate := effectiveWeight requestWeightLimit safetyFactor / 60
    lastRefill := weightCreated }
  orders := {
    tokens := effectiveOps ordersPerSecondLimit safetyFactor
    maxTokens := effectiveOps ordersPerSecondLimit safetyFactor
    refillRate := effectiveOps ordersPerSecondLimit safetyFactor
    lastRefill := ordersCreated }
  weights := endpointWeights

def getEndpointWeight (limiter : BinanceRateLimiter) (endpoint : String) : Int :=
  (limiter.weights.get endpoint).getD 1

/-- `tokens_needed` and `bucket_type` of a call; an empty endpoint counts as absent. -/
def tokensNeeded (limiter : BinanceRateLimiter) (endpoint : Option String) (order : Bool) :
    Int × RateLimitType :=
  if order then (1, .orders)
  else match endpoint with
    | none => (1, .requestsWeight)
    | some path =>
      if path = "" then (1, .requestsWeight) else (limiter.getEndpointWeight path, .requestsWeight)

def tryAcquire (limiter : BinanceRateLimiter) (endpoint : Option String) (order : Bool)
    (now : ℚ) : Bool × BinanceRateLimiter :=
  let needed := limiter.tokensNeeded endpoint order
  let consumed := (limiter.bucket needed.2).consume (needed.1 : ℚ) now
  (consumed.1, limiter.withBucket needed.2 consumed.2)

/-- How one pass of the loop of `acquire` ends. -/
inductive Attempt where
  /-- `return True`. -/
  | acquired
  /-- `return False`. -/
  | timedOut
  /-- Another pass follows, after a sleep if the wait is positive. -/
  | waits (seconds : ℚ)
  /-- `ZeroDivisionError`. -/
  | raised
  deriving DecidableEq, Repr

/-- The readings of the clock in one pass: by `consume`, by `time_until_tokens` and for
`elapsed`. -/
structure Readings where
  consumed : ℚ
  measured : ℚ
  checked : ℚ

/-- One pass of the loop of `acquire`, in a call made at a start time. -/
def acquireAttempt (limiter : BinanceRateLimiter) (endpoint : Option String) (order : Bool)
    (timeout : Option ℚ) (start : ℚ) (readings : Readings) : Attempt × BinanceRateLimiter :=
  let needed := limiter.tokensNeeded endpoint order
  match (limiter.bucket needed.2).consume (needed.1 : ℚ) readings.consumed with
  | (true, bucket) => (.acquired, limiter.withBucket needed.2 bucket)
  | (false, bucket) =>
    match timeUntilTokens bucket needed.1 readings.measured with
    | (none, bucket) => (.raised, limiter.withBucket needed.2 bucket)
    | (some waitTime, bucket) =>
      match timeout with
      | none => (.waits waitTime, limiter.withBucket needed.2 bucket)
      | some timeout =>
        let remaining := timeout - (readings.checked - start)
        if remaining ≤ 0 then (.timedOut, limiter.withBucket needed.2 bucket)
        else (.waits (min waitTime remaining), limiter.withBucket needed.2 bucket)

/-! ## One call -/

section Calls

variable {limiter : BinanceRateLimiter} {limitType other : RateLimitType} {bucket : Bucket ℚ}
  {endpoint : Option String} {order : Bool} {timeout : Option ℚ} {start now : ℚ}
  {readings : Readings}

theorem bucket_withBucket :
    (limiter.withBucket limitType bucket).bucket other =
      if other = limitType then bucket else limiter.bucket other := by
  cases limitType <;> cases other <;> rfl

@[simp] theorem weights_withBucket :
    (limiter.withBucket limitType bucket).weights = limiter.weights := by
  cases limitType <;> rfl

@[simp] theorem timeUntilTokens_bucket {tokens : ℚ} :
    (timeUntilTokens bucket tokens now).2 = bucket.refill now := by
  dsimp only [timeUntilTokens]
  split
  · rfl
  · split <;> rfl

/-- A pass that is granted leaves the bucket as `consume` does; every other pass refills it once
more. -/
theorem acquireAttempt_cases {granted : Bool}
    (consumed : (limiter.bucket (limiter.tokensNeeded endpoint order).2).consume
      ((limiter.tokensNeeded endpoint order).1 : ℚ) readings.consumed = (granted, bucket)) :
    ((limiter.acquireAttempt endpoint order timeout start readings).1 = .acquired ↔
        granted = true) ∧
      (limiter.acquireAttempt endpoint order timeout start readings).2 =
        limiter.withBucket (limiter.tokensNeeded endpoint order).2
          (if granted then bucket else bucket.refill readings.measured) := by
  dsimp only [acquireAttempt]
  rw [consumed]
  cases granted with
  | true => exact ⟨iff_of_true rfl rfl, rfl⟩
  | false =>
    have refilled := @timeUntilTokens_bucket bucket readings.measured
      (limiter.tokensNeeded endpoint order).1
    dsimp only
    generalize timeUntilTokens bucket (limiter.tokensNeeded endpoint order).1
      readings.measured = waiting at refilled ⊢
    obtain ⟨waitTime, after⟩ := waiting
    dsimp only at refilled
    subst refilled
    rcases waitTime with _ | waitTime
    · exact ⟨iff_of_false Attempt.noConfusion Bool.noConfusion, rfl⟩
    · rcases timeout with _ | timeout
      · exact ⟨iff_of_false Attempt.noConfusion Bool.noConfusion, rfl⟩
      · dsimp only
        split
        · exact ⟨iff_of_false Attempt.noConfusion Bool.noConfusion, rfl⟩
        · exact ⟨iff_of_false Attempt.noConfusion Bool.noConfusion, rfl⟩

theorem one_le_tokensNeeded
    (positive : ∀ path weight, limiter.weights.get path = some weight → 1 ≤ weight) :
    1 ≤ (limiter.tokensNeeded endpoint order).1 := by
  dsimp only [tokensNeeded]
  split
  · exact le_rfl
  · cases endpoint with
    | none => exact le_rfl
    | some path =>
      dsimp only
      split
      · exact le_rfl
      · dsimp only [getEndpointWeight]
        cases found : limiter.weights.get path with
        | none => exact le_rfl
        | some weight => exact positive path weight found

end Calls

theorem one_le_of_get_endpointWeights {path : String} {weight : Int}
    (found : endpointWeights.get path = some weight) : 1 ≤ weight := by
  have all : ∀ entry ∈ endpointWeights.entries, 1 ≤ entry.2 := by decide +kernel
  exact all (path, weight) (Dict.get_eq_some.mp found)

end BinanceRateLimiter

end TradingBot.Exchanges
