import TradingBot.Exchanges.RateWindows
import TradingBot.Foundation.RetryLoop

/-!
# The end of an acquisition

The loop of `acquire` without a timeout: a pass that is refused waits until the bucket would hold
the tokens, and other tasks take theirs while it sleeps. Once they stop, the next pass is granted,
if the bucket can hold the tokens at all.
-/

open TokenBucket RetryLoop

namespace TradingBot.Exchanges

namespace AcquireEnds

open BinanceRateLimiter RateWindows

/-- What another task does with the limiter. -/
inductive Competing where
  /-- A request, by `try_acquire` or by a pass of another `acquire`. -/
  | request (endpoint : Option String) (order : Bool) (now : ℚ)
  /-- `time_until_tokens` of a bucket, which refills it. -/
  | measure (limitType : RateLimitType) (now : ℚ)

/-- The reading of the clock of another task. -/
def Competing.time : Competing → ℚ
  | .request _ _ now => now
  | .measure _ now => now

/-- What other tasks do: whether one of them is granted tokens, and the limiter after them. -/
def compete (limiter : BinanceRateLimiter) : List Competing → Bool × BinanceRateLimiter
  | [] => (false, limiter)
  | .request endpoint order now :: rest =>
    let moved := limiter.tryAcquire endpoint order now
    let later := compete moved.2 rest
    (moved.1 || later.1, later.2)
  | .measure limitType now :: rest =>
    compete (limiter.withBucket limitType ((limiter.bucket limitType).refill now)) rest

/-- One round of the loop: what a pass reads from the clock, and what other tasks do before the
next one. -/
structure Round where
  readings : Readings
  others : List Competing

/-- How a call ends. -/
inductive Ending where
  | returned (answer : Bool)
  /-- `ZeroDivisionError`. -/
  | raised
  deriving DecidableEq, Repr

/-- How a pass ends its call, if it does. -/
def ending : Attempt → Option Ending
  | .acquired => some (.returned true)
  | .timedOut => some (.returned false)
  | .raised => some .raised
  | .waits _ => none

section Rounds

variable (endpoint : Option String) (order : Bool) (timeout : Option ℚ) (start : ℚ)
  (rounds : Nat → Round)

/-- The pass of a round. -/
def passIn (round : Nat) (limiter : BinanceRateLimiter) : Option Ending × BinanceRateLimiter :=
  let attempt := limiter.acquireAttempt endpoint order timeout start (rounds round).readings
  (ending attempt.1, attempt.2)

/-- What other tasks do in a round. -/
def othersIn (round : Nat) (limiter : BinanceRateLimiter) : BinanceRateLimiter :=
  (compete limiter (rounds round).others).2

/-- `acquire`, for a number of passes. -/
def acquire (passes : Nat) (limiter : BinanceRateLimiter) : Option Ending :=
  loop (passIn endpoint order timeout start rounds) (othersIn rounds) passes 0 limiter

variable (limiter : BinanceRateLimiter)

/-- The limiter before a round, where no pass before it ends the call. -/
abbrev before : Nat → BinanceRateLimiter :=
  stateAt (passIn endpoint order none start rounds) (othersIn rounds) limiter

/-- The pass of a round of a call without a timeout. -/
def pass (round : Nat) : Attempt × BinanceRateLimiter :=
  (before endpoint order start rounds limiter round).acquireAttempt endpoint order none start
    (rounds round).readings

/-- The call goes on after a round. -/
def Reached (round : Nat) : Prop :=
  ∀ earlier ≤ round,
    answerAt (passIn endpoint order none start rounds) (othersIn rounds) limiter earlier = none

/-- The surroundings of a call while it runs. -/
structure Legal : Prop where
  /-- The clock does not go back between a pass and the next one. -/
  forward : ∀ round, Reached endpoint order start rounds limiter round →
    ((rounds round).readings.measured :: (rounds round).others.map Competing.time ++
      [(rounds (round + 1)).readings.consumed]).Pairwise (· ≤ ·)
  /-- A sleep takes as long as it is asked to, at least. -/
  sleeps : ∀ round seconds, Reached endpoint order start rounds limiter round →
    (pass endpoint order start rounds limiter round).1 = .waits seconds →
      (rounds round).readings.measured + seconds ≤ (rounds (round + 1)).readings.consumed
  /-- From some round on no other task is granted anything. -/
  quiet : ∃ first, ∀ round, first ≤ round → Reached endpoint order start rounds limiter round →
    (compete (pass endpoint order start rounds limiter round).2 (rounds round).others).1 = false

end Rounds

/-- A limiter as it was built, up to what its buckets hold at the moment. -/
structure Built (requestWeightLimit ordersPerSecondLimit : Option Int) (safetyFactor : ℚ)
    (limiter : BinanceRateLimiter) : Prop where
  sized : ∀ limitType, (limiter.bucket limitType).maxTokens =
    capacity requestWeightLimit ordersPerSecondLimit safetyFactor limitType
  rated : ∀ limitType, (limiter.bucket limitType).refillRate =
    capacity requestWeightLimit ordersPerSecondLimit safetyFactor limitType / window limitType

variable {limiter next : BinanceRateLimiter} {endpoint : Option String} {order : Bool} {start : ℚ}
  {rounds : Nat → Round} {requestWeightLimit ordersPerSecondLimit : Option Int} {safetyFactor : ℚ}

theorem built_new (weightCreated ordersCreated : ℚ) :
    Built requestWeightLimit ordersPerSecondLimit safetyFactor
      (.new requestWeightLimit ordersPerSecondLimit safetyFactor weightCreated ordersCreated) where
  sized := fun limitType => by cases limitType <;> rfl
  rated := fun limitType => by
    cases limitType with
    | requestsWeight => rfl
    | orders => exact (div_one _).symm

theorem refill_refill {bucket : Bucket ℚ} {first second : ℚ} (rate : 0 ≤ bucket.refillRate)
    (forward : first ≤ second) : (bucket.refill first).refill second = bucket.refill second := by
  have gained := mul_nonneg (sub_nonneg.mpr forward) rate
  have sum : bucket.tokens + (first - bucket.lastRefill) * bucket.refillRate +
      (second - first) * bucket.refillRate =
        bucket.tokens + (second - bucket.lastRefill) * bucket.refillRate := by ring
  have tokens : min bucket.maxTokens (min bucket.maxTokens
      (bucket.tokens + (first - bucket.lastRefill) * bucket.refillRate) +
        (second - first) * bucket.refillRate) =
      min bucket.maxTokens
        (bucket.tokens + (second - bucket.lastRefill) * bucket.refillRate) := by
    rw [← min_add_add_right, ← min_assoc, sum, min_eq_left (le_add_of_nonneg_right gained)]
  unfold Bucket.refill
  dsimp only
  rw [tokens]

theorem tokens_slept {bucket : Bucket ℚ} {needed seconds now : ℚ} (rate : 0 ≤ bucket.refillRate)
    (fits : needed ≤ bucket.maxTokens)
    (enough : needed ≤ bucket.tokens + seconds * bucket.refillRate)
    (slept : bucket.lastRefill + seconds ≤ now) : needed ≤ (bucket.refill now).tokens := by
  have rest : seconds ≤ now - bucket.lastRefill := le_sub_iff_add_le'.mpr slept
  have gained := mul_le_mul_of_nonneg_right rest rate
  refine le_min fits ?_
  linarith only [enough, gained]

theorem Built.withBucket {limitType : RateLimitType} {bucket : Bucket ℚ}
    (built : Built requestWeightLimit ordersPerSecondLimit safetyFactor limiter)
    (size : bucket.maxTokens = (limiter.bucket limitType).maxTokens)
    (rate : bucket.refillRate = (limiter.bucket limitType).refillRate) :
    Built requestWeightLimit ordersPerSecondLimit safetyFactor
      (limiter.withBucket limitType bucket) := by
  constructor
  · intro other
    rw [bucket_withBucket]
    split
    next same => rw [size, same, built.sized]
    next => exact built.sized other
  · intro other
    rw [bucket_withBucket]
    split
    next same => rw [rate, same, built.rated]
    next => exact built.rated other

/-- Consuming keeps a bucket's size and rate. -/
theorem consume_frame (bucket : Bucket ℚ) (needed now : ℚ) :
    (bucket.consume needed now).2.maxTokens = bucket.maxTokens ∧
      (bucket.consume needed now).2.refillRate = bucket.refillRate ∧
      ((bucket.consume needed now).1 = false →
        (bucket.consume needed now).2 = bucket.refill now) := by
  unfold Bucket.consume
  dsimp only
  split
  · exact ⟨rfl, rfl, fun refused => nomatch refused⟩
  · exact ⟨rfl, rfl, fun _ => rfl⟩

theorem built_compete (others : List Competing)
    (built : Built requestWeightLimit ordersPerSecondLimit safetyFactor limiter) :
    Built requestWeightLimit ordersPerSecondLimit safetyFactor (compete limiter others).2 := by
  induction others generalizing limiter with
  | nil => exact built
  | cons other rest ih =>
    cases other with
    | request endpoint order now =>
      have frame := consume_frame (limiter.bucket (limiter.tokensNeeded endpoint order).2)
        ((limiter.tokensNeeded endpoint order).1 : ℚ) now
      exact ih (built.withBucket frame.1 frame.2.1)
    | measure limitType now => exact ih (built.withBucket rfl rfl)

theorem refill_compete {others : List Competing} {limitType : RateLimitType} {now : ℚ}
    (rate : 0 ≤ (limiter.bucket limitType).refillRate)
    (earlier : ∀ other ∈ others, other.time ≤ now)
    (nothing : (compete limiter others).1 = false) :
    ((compete limiter others).2.bucket limitType).refill now =
      (limiter.bucket limitType).refill now := by
  induction others generalizing limiter with
  | nil => rfl
  | cons other rest ih =>
    obtain ⟨first, later⟩ := List.forall_mem_cons.mp earlier
    -- A bucket that is refilled, or is not touched, is refilled later to the same.
    have touched : ∀ other reading, reading ≤ now →
        ((limiter.withBucket other ((limiter.bucket other).refill reading)).bucket
          limitType).refill now = (limiter.bucket limitType).refill now ∧
        ((limiter.withBucket other ((limiter.bucket other).refill reading)).bucket
          limitType).refillRate = (limiter.bucket limitType).refillRate := by
      intro other reading before
      rw [bucket_withBucket]
      split
      next same => exact ⟨same ▸ refill_refill rate before, same ▸ rfl⟩
      next => exact ⟨rfl, rfl⟩
    cases other with
    | request endpoint order reading =>
      obtain ⟨refused, quiet⟩ := Bool.or_eq_false_iff.mp nothing
      have frame := consume_frame (limiter.bucket (limiter.tokensNeeded endpoint order).2)
        ((limiter.tokensNeeded endpoint order).1 : ℚ) reading
      have refilled : (limiter.tryAcquire endpoint order reading).2 =
          limiter.withBucket (limiter.tokensNeeded endpoint order).2
            ((limiter.bucket (limiter.tokensNeeded endpoint order).2).refill reading) :=
        congrArg (limiter.withBucket _) (frame.2.2 refused)
      obtain ⟨same, sameRate⟩ := touched (limiter.tokensNeeded endpoint order).2 reading first
      rw [← refilled] at same sameRate
      exact (ih (sameRate ▸ rate) later quiet).trans same
    | measure other reading =>
      obtain ⟨same, sameRate⟩ := touched other reading first
      exact (ih (sameRate ▸ rate) later nothing).trans same

/-! ## One pass -/

/-- What a pass does, by what its bucket answers. -/
theorem attempt_eq (limiter : BinanceRateLimiter) (readings : Readings) :
    ((limiter.acquireAttempt endpoint order none start readings).1 = .acquired ↔
        ((limiter.bucket (limiter.tokensNeeded endpoint order).2).consume
          ((limiter.tokensNeeded endpoint order).1 : ℚ) readings.consumed).1 = true) ∧
      (limiter.acquireAttempt endpoint order none start readings).2 =
        limiter.withBucket (limiter.tokensNeeded endpoint order).2
          (if ((limiter.bucket (limiter.tokensNeeded endpoint order).2).consume
              ((limiter.tokensNeeded endpoint order).1 : ℚ) readings.consumed).1 then
            ((limiter.bucket (limiter.tokensNeeded endpoint order).2).consume
              ((limiter.tokensNeeded endpoint order).1 : ℚ) readings.consumed).2
          else
            ((limiter.bucket (limiter.tokensNeeded endpoint order).2).consume
              ((limiter.tokensNeeded endpoint order).1 : ℚ) readings.consumed).2.refill
                readings.measured) :=
  acquireAttempt_cases (Prod.eta _).symm

theorem attempt_acquired_iff (limiter : BinanceRateLimiter) (readings : Readings) :
    (limiter.acquireAttempt endpoint order none start readings).1 = .acquired ↔
      ((limiter.tokensNeeded endpoint order).1 : ℚ) ≤
        ((limiter.bucket (limiter.tokensNeeded endpoint order).2).refill
          readings.consumed).tokens := by
  refine (attempt_eq limiter readings).1.trans ?_
  unfold Bucket.consume
  dsimp only
  split
  next enough => exact iff_of_true rfl enough
  next short => exact iff_of_false Bool.false_ne_true short

/-- A pass of a bucket that refills is granted, or waits until the bucket would hold the tokens. -/
theorem attempt_waits (limiter : BinanceRateLimiter) (readings : Readings)
    (rate : 0 < (limiter.bucket (limiter.tokensNeeded endpoint order).2).refillRate) :
    (limiter.acquireAttempt endpoint order none start readings).1 = .acquired ∨
      ∃ seconds, ∃ bucket : Bucket ℚ,
        limiter.acquireAttempt endpoint order none start readings =
          (.waits seconds, limiter.withBucket (limiter.tokensNeeded endpoint order).2 bucket) ∧
        bucket.maxTokens =
          (limiter.bucket (limiter.tokensNeeded endpoint order).2).maxTokens ∧
        bucket.refillRate =
          (limiter.bucket (limiter.tokensNeeded endpoint order).2).refillRate ∧
        bucket.lastRefill = readings.measured ∧
        ((limiter.tokensNeeded endpoint order).1 : ℚ) ≤
          bucket.tokens + seconds * bucket.refillRate := by
  obtain ⟨size, rate_, refills⟩ :=
    consume_frame (limiter.bucket (limiter.tokensNeeded endpoint order).2)
      ((limiter.tokensNeeded endpoint order).1 : ℚ) readings.consumed
  unfold acquireAttempt
  dsimp only
  cases consumed : (limiter.bucket (limiter.tokensNeeded endpoint order).2).consume
      ((limiter.tokensNeeded endpoint order).1 : ℚ) readings.consumed with
  | mk granted bucket =>
    rw [consumed] at size rate_
    cases granted with
    | true => exact .inl rfl
    | false =>
      refine .inr ?_
      have positive : 0 < (bucket.refill readings.measured).refillRate := by
        show 0 < bucket.refillRate
        rw [rate_]
        exact rate
      dsimp only
      unfold timeUntilTokens
      dsimp only
      by_cases enough : ((limiter.tokensNeeded endpoint order).1 : ℚ) ≤
          (bucket.refill readings.measured).tokens
      · rw [if_pos enough]
        refine ⟨0, bucket.refill readings.measured, rfl, size, rate_, rfl, ?_⟩
        rw [zero_mul, add_zero]
        exact enough
      · rw [if_neg enough, if_neg positive.ne']
        refine ⟨_, bucket.refill readings.measured, rfl, size, rate_, rfl, ?_⟩
        rw [div_mul_cancel₀ _ positive.ne', add_sub_cancel]

theorem weights_attempt (limiter : BinanceRateLimiter) (readings : Readings) :
    (limiter.acquireAttempt endpoint order none start readings).2.weights = limiter.weights ∧
      ∀ others, (compete limiter others).2.weights = limiter.weights := by
  constructor
  · rw [(attempt_eq limiter readings).2]
    exact weights_withBucket
  · intro others
    induction others generalizing limiter with
    | nil => rfl
    | cons other rest ih =>
      cases other with
      | request endpoint order now => exact (ih _).trans weights_withBucket
      | measure limitType now => exact (ih _).trans weights_withBucket

theorem built_attempt (readings : Readings)
    (built : Built requestWeightLimit ordersPerSecondLimit safetyFactor limiter) :
    Built requestWeightLimit ordersPerSecondLimit safetyFactor
      (limiter.acquireAttempt endpoint order none start readings).2 := by
  have frame := consume_frame (limiter.bucket (limiter.tokensNeeded endpoint order).2)
    ((limiter.tokensNeeded endpoint order).1 : ℚ) readings.consumed
  rw [(attempt_eq limiter readings).2]
  apply built.withBucket
  · split
    · exact frame.1
    · exact frame.1
  · split
    · exact frame.2.1
    · exact frame.2.1

/-! ## The loop -/

theorem built_before (built : Built requestWeightLimit ordersPerSecondLimit safetyFactor limiter)
    (round : Nat) :
    Built requestWeightLimit ordersPerSecondLimit safetyFactor
        (before endpoint order start rounds limiter round) ∧
      (before endpoint order start rounds limiter round).weights = limiter.weights := by
  induction round with
  | zero => exact ⟨built, rfl⟩
  | succ round ih =>
    have attempted := @weights_attempt endpoint order start
      (before endpoint order start rounds limiter round) (rounds round).readings
    refine ⟨built_compete _ (built_attempt _ ih.1), ?_⟩
    exact ((@weights_attempt endpoint order start _ (rounds round).readings).2
      (rounds round).others).trans (attempted.1.trans ih.2)

theorem needed_before (built : Built requestWeightLimit ordersPerSecondLimit safetyFactor limiter)
    (round : Nat) :
    (before endpoint order start rounds limiter round).tokensNeeded endpoint order =
      limiter.tokensNeeded endpoint order := by
  unfold tokensNeeded getEndpointWeight
  rw [(built_before built round).2]

theorem refills_before (built : Built requestWeightLimit ordersPerSecondLimit safetyFactor limiter)
    (rate : 0 < capacity requestWeightLimit ordersPerSecondLimit safetyFactor
      (limiter.tokensNeeded endpoint order).2) (round : Nat) :
    0 < ((before endpoint order start rounds limiter round).bucket
      ((before endpoint order start rounds limiter round).tokensNeeded endpoint
        order).2).refillRate := by
  rw [needed_before built round, (built_before built round).1.rated]
  exact div_pos (by exact_mod_cast rate) (window_pos _)

theorem others_earlier (legal : Legal endpoint order start rounds limiter) {round : Nat}
    (reached : Reached endpoint order start rounds limiter round) :
    ∀ other ∈ (rounds round).others, other.time ≤ (rounds (round + 1)).readings.consumed := by
  intro other member
  have apart := (List.pairwise_append.mp (legal.forward round reached)).2.2
  exact apart other.time (List.mem_cons_of_mem _ (List.mem_map_of_mem member)) _
    (List.mem_singleton.mpr rfl)

theorem answerAt_eq (round : Nat) :
    answerAt (passIn endpoint order none start rounds) (othersIn rounds) limiter round =
      ending (pass endpoint order start rounds limiter round).1 := by
  unfold answerAt
  rfl

theorem ending_returned_iff (attempt : Attempt) :
    ending attempt = some (.returned true) ↔ attempt = .acquired := by
  cases attempt <;> simp [ending]

theorem never_granted (built : Built requestWeightLimit ordersPerSecondLimit safetyFactor limiter)
    (round : Nat) (granted : (pass endpoint order start rounds limiter round).1 = .acquired) :
    (limiter.tokensNeeded endpoint order).1 ≤
      capacity requestWeightLimit ordersPerSecondLimit safetyFactor
        (limiter.tokensNeeded endpoint order).2 := by
  have held := (attempt_acquired_iff _ _).mp granted
  have same := @needed_before limiter endpoint order start rounds _ _ _ built round
  have size := (@built_before limiter endpoint order start rounds _ _ _ built round).1.sized
    (limiter.tokensNeeded endpoint order).2
  rw [same] at held
  have capped := held.trans (min_le_left _ _)
  rw [size] at capped
  exact_mod_cast capped

/-- After a sleep in which no other task is granted anything, a call that fits is granted. -/
theorem granted_after_sleep
    (built : Built requestWeightLimit ordersPerSecondLimit safetyFactor limiter)
    (legal : Legal endpoint order start rounds limiter)
    (rate : 0 < capacity requestWeightLimit ordersPerSecondLimit safetyFactor
      (limiter.tokensNeeded endpoint order).2)
    (fits : (limiter.tokensNeeded endpoint order).1 ≤
      capacity requestWeightLimit ordersPerSecondLimit safetyFactor
        (limiter.tokensNeeded endpoint order).2)
    (round : Nat) (reached : Reached endpoint order start rounds limiter round)
    (quiet : (compete (pass endpoint order start rounds limiter round).2
      (rounds round).others).1 = false) :
    (pass endpoint order start rounds limiter (round + 1)).1 = .acquired := by
  have built_ := (@built_before limiter endpoint order start rounds _ _ _ built round).1
  have needed := @needed_before limiter endpoint order start rounds _ _ _ built round
  have neededLater := @needed_before limiter endpoint order start rounds _ _ _ built (round + 1)
  have positive := @refills_before limiter endpoint order start rounds _ _ _ built rate round
  have waiting := reached round (Nat.le_refl round)
  rw [answerAt_eq] at waiting
  unfold pass at waiting
  obtain granted | ⟨wait, bucket, came, size, rate_, last, enough⟩ :=
    attempt_waits _ (rounds round).readings positive
  · rw [granted] at waiting
    cases waiting
  · rw [needed] at came size rate_ enough positive
    have asleep := legal.sleeps round wait reached (congrArg Prod.fst came)
    have left : (pass endpoint order start rounds limiter round).2.bucket
        (limiter.tokensNeeded endpoint order).2 = bucket := by
      unfold pass
      rw [came, bucket_withBucket, if_pos rfl]
    have notNegative : 0 ≤ bucket.refillRate := rate_ ▸ positive.le
    have same := refill_compete (left ▸ notNegative) (others_earlier legal reached) quiet
    rw [left] at same
    refine (attempt_acquired_iff _ _).mpr ?_
    rw [neededLater]
    show _ ≤ ((((compete (pass endpoint order start rounds limiter round).2
      (rounds round).others).2).bucket _).refill _).tokens
    rw [same]
    -- The bucket has the tokens by the end of the sleep, and can hold them.
    refine tokens_slept notNegative ?_ enough (last ▸ asleep)
    rw [size, built_.sized]
    exact_mod_cast fits

/-- A limiter with positive endpoint weights grants a call without a timeout after finitely many
passes, while other tasks take their tokens and stop, exactly if its bucket can hold what the call
asks for. -/
theorem acquire_ends_iff (requestWeightLimit ordersPerSecondLimit : Option Int) (safetyFactor : ℚ)
    (limiter : BinanceRateLimiter) (endpoint : Option String) (order : Bool) (start : ℚ)
    (rounds : Nat → Round)
    (built : Built requestWeightLimit ordersPerSecondLimit safetyFactor limiter)
    (positive : ∀ path weight, limiter.weights.get path = some weight → 1 ≤ weight)
    (legal : Legal endpoint order start rounds limiter) :
    (∃ passes, acquire endpoint order none start rounds passes limiter = some (.returned true)) ↔
      (limiter.tokensNeeded endpoint order).1 ≤
        capacity requestWeightLimit ordersPerSecondLimit safetyFactor
          (limiter.tokensNeeded endpoint order).2 := by
  refine loop_iff.trans ?_
  constructor
  · rintro ⟨round, -, granted⟩
    rw [answerAt_eq, ending_returned_iff] at granted
    exact never_granted built round granted
  · intro fits
    have rate : 0 < capacity requestWeightLimit ordersPerSecondLimit safetyFactor
        (limiter.tokensNeeded endpoint order).2 :=
      lt_of_lt_of_le Int.zero_lt_one ((one_le_tokensNeeded positive).trans fits)
    -- A pass that ends the call is granted.
    have ended : ∀ round answer, answerAt (passIn endpoint order none start rounds)
        (othersIn rounds) limiter round = some answer → answer = .returned true := by
      intro round answer answered
      have refills := @refills_before limiter endpoint order start rounds _ _ _ built rate round
      rw [answerAt_eq] at answered
      unfold pass at answered
      obtain granted | ⟨seconds, bucket, came, -⟩ :=
        attempt_waits _ (rounds round).readings refills
      · rw [granted] at answered
        exact (Option.some.inj answered).symm
      · rw [came] at answered
        cases answered
    obtain ⟨first, quiet⟩ := legal.quiet
    obtain reached | ⟨last, -, none_, answer, answered⟩ :=
      none_or_first (passIn endpoint order none start rounds) (othersIn rounds) limiter first
    · refine ⟨first + 1, fun earlier below => reached earlier (Nat.le_of_lt_succ below), ?_⟩
      rw [answerAt_eq, ending_returned_iff]
      exact granted_after_sleep built legal rate fits first reached
        (quiet first (Nat.le_refl first) reached)
    · refine ⟨last, none_, ?_⟩
      rw [answered, ended last answer answered]

/-- A round for each second. -/
def everySecond (others : Nat → List Competing) (round : Nat) : Round where
  readings := ⟨round, round, round⟩
  others := others round

/-- A limiter of the default limits that has no orders left, while another order is placed after
half a second. -/
def emptied : BinanceRateLimiter :=
  let limiter := BinanceRateLimiter.new none none (4 / 5) 0 0
  { limiter with orders := { limiter.orders with tokens := 0 } }

/-- What the other task does. -/
def otherOrder (round : Nat) : List Competing :=
  if round = 0 then [.request none true (1 / 2)] else []

/-- An order of it is placed in the second round. -/
theorem acquire_ends_emptied :
    (∃ passes, acquire none true none 0 (everySecond otherOrder) passes emptied =
        some (.returned true)) ↔
      (emptied.tokensNeeded none true).1 ≤
        capacity none none (4 / 5) (emptied.tokensNeeded none true).2 := by
  have ends : answerAt (passIn none true none 0 (everySecond otherOrder))
      (othersIn (everySecond otherOrder)) emptied 1 = some (.returned true) := by decide +kernel
  have onlyFirst : ∀ round, Reached none true 0 (everySecond otherOrder) emptied round →
      round = 0 := by
    intro round reached
    by_contra later
    cases (reached 1 (Nat.one_le_iff_ne_zero.mpr later)).symm.trans ends
  refine acquire_ends_iff none none (4 / 5) emptied none true 0 (everySecond otherOrder) ?_
    (fun path weight found => one_le_of_get_endpointWeights found) ⟨?_, ?_, 1, ?_⟩
  · constructor
    · intro limitType
      cases limitType <;> decide +kernel
    · intro limitType
      cases limitType <;> decide +kernel
  · intro round reached
    rw [onlyFirst round reached]
    decide +kernel
  · intro round seconds reached waits
    obtain rfl := onlyFirst round reached
    have wait : (pass none true 0 (everySecond otherOrder) emptied 0).1 = .waits (1 / 8) := by
      decide +kernel
    cases wait.symm.trans waits
    decide +kernel
  · intro round later reached
    have first := onlyFirst round reached
    omega

/-- A limiter of one order a second has room for none after the safety factor: an order divides by
zero. -/
theorem one_order_raises :
    Legal none true 0 (everySecond fun _ => []) (.new none (some 1) (4 / 5) 0 0) ∧
      acquire none true none 0 (everySecond fun _ => []) 1 (.new none (some 1) (4 / 5) 0 0) =
        some .raised ∧
      ¬ ∃ passes, acquire none true none 0 (everySecond fun _ => []) passes
        (.new none (some 1) (4 / 5) 0 0) = some (.returned true) := by
  have raises : answerAt (passIn none true none 0 (everySecond fun _ => []))
      (othersIn (everySecond fun _ => [])) (.new none (some 1) (4 / 5) 0 0) 0 =
        some .raised := by decide +kernel
  have never : ∀ round, ¬ Reached none true 0 (everySecond fun _ => [])
      (.new none (some 1) (4 / 5) 0 0) round := by
    intro round reached
    cases (reached 0 (Nat.zero_le round)).symm.trans raises
  refine ⟨⟨fun round reached => absurd reached (never round),
    fun round _ reached => absurd reached (never round),
    0, fun round _ reached => absurd reached (never round)⟩, by decide +kernel, fun returns => ?_⟩
  obtain ⟨last, none_, granted⟩ := loop_iff.mp returns
  obtain rfl | later := Nat.eq_zero_or_pos last
  · cases raises.symm.trans granted
  · cases (none_ 0 later).symm.trans raises

end AcquireEnds

end TradingBot.Exchanges
