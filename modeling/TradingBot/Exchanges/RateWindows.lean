import TradingBot.Foundation.Run
import TradingBot.Exchanges.RateLimiter

/-!
# What a window can grant

A bucket of the limiter starts full and refills completely in the window of its limit. A burst
empties it at the start of a window, and what it regains before the window is over can be
granted in the same window: up to twice the effective limit less one.
-/

open Run TokenBucket

namespace TradingBot.Exchanges

namespace RateWindows

open BinanceRateLimiter

/-- One call, or one pass of the loop of an `acquire` call. -/
inductive Call where
  | tryAcquire (endpoint : Option String) (order : Bool) (now : ℚ)
  /-- A pass of `acquire`. -/
  | attempt (endpoint : Option String) (order : Bool) (timeout : Option ℚ) (start : ℚ)
      (readings : Readings)

/-- A limiter, the last reading of the clock and what each bucket has granted. -/
structure Session where
  limiter : BinanceRateLimiter
  clock : ℚ
  granted : RateLimitType → List (Grant ℚ)

/-- The session after a call that read the clock last at one time and took its tokens, if it was
granted, at another. -/
def Session.after (session : Session) (needed : Int × RateLimitType) (taken : Bool)
    (consumed last : ℚ) (limiter : BinanceRateLimiter) : Session where
  limiter := limiter
  clock := last
  granted := if taken then
      Function.update session.granted needed.2
        (⟨consumed, needed.1⟩ :: session.granted needed.2)
    else session.granted

/-- A session after a call; the clock does not go back. -/
def step (session : Session) : Call → Option Session
  | .tryAcquire endpoint order now =>
    if session.clock ≤ now then
      let result := session.limiter.tryAcquire endpoint order now
      some (session.after (session.limiter.tokensNeeded endpoint order) result.1 now now result.2)
    else none
  | .attempt endpoint order timeout start readings =>
    if session.clock ≤ readings.consumed ∧ readings.consumed ≤ readings.measured ∧
        readings.measured ≤ readings.checked then
      let result := session.limiter.acquireAttempt endpoint order timeout start readings
      some (session.after (session.limiter.tokensNeeded endpoint order)
        (result.1 = .acquired) readings.consumed readings.checked result.2)
    else none

/-- A session of a new limiter. -/
def Session.start (requestWeightLimit ordersPerSecondLimit : Option Int)
    (safetyFactor weightCreated ordersCreated : ℚ) : Session where
  limiter := .new requestWeightLimit ordersPerSecondLimit safetyFactor weightCreated ordersCreated
  clock := max weightCreated ordersCreated
  granted := fun _ => []

/-- The length of the window of a limit in seconds. -/
def window : RateLimitType → ℚ
  | .requestsWeight => 60
  | .orders => 1

/-- The effective limit of a bucket, which is its capacity. -/
def capacity (requestWeightLimit ordersPerSecondLimit : Option Int) (safetyFactor : ℚ) :
    RateLimitType → Int
  | .requestsWeight => effectiveWeight requestWeightLimit safetyFactor
  | .orders => effectiveOps ordersPerSecondLimit safetyFactor

/-- The limit a window is to stay within: the argument, or the default without one. -/
def limitOf (requestWeightLimit ordersPerSecondLimit : Option Int) : RateLimitType → Int
  | .requestsWeight => requestWeightLimit.getD defaultRequestWeightPerMin
  | .orders => ordersPerSecondLimit.getD defaultOrdersPerSecond

/-- What was granted in every half-open window of a limit is within the limit. -/
def KeepsWindows (limit : RateLimitType → Int) (session : Session) : Prop :=
  ∀ limitType start,
    grantedIn start (start + window limitType) (session.granted limitType) ≤ limit limitType

/-! ## The bound -/

/-- A bucket of a capacity that refills in a window, and what it has granted: nothing if it has
no capacity. -/
structure Tracked (capacity : Int) (window : ℚ) (bucket : Bucket ℚ) (log : List (Grant ℚ)) :
    Prop where
  sized : bucket.maxTokens = capacity
  rated : bucket.refillRate = capacity / window
  metered : 0 < capacity → Metered bucket log
  idle : capacity ≤ 0 → log = []

section Buckets

variable {capacity : Int} {window : ℚ} {bucket : Bucket ℚ} {log : List (Grant ℚ)} {now : ℚ}

section

variable (tracked : Tracked capacity window bucket log)
include tracked

theorem Tracked.refill (forward : bucket.lastRefill ≤ now) :
    Tracked capacity window (bucket.refill now) log where
  sized := tracked.sized
  rated := tracked.rated
  metered := fun positive => (tracked.metered positive).refill forward
  idle := tracked.idle

theorem Tracked.consume (forward : bucket.lastRefill ≤ now) {amount : Int} (positive : 1 ≤ amount) :
    Tracked capacity window (bucket.consume amount now).2
      (if (bucket.consume amount now).1 then ⟨now, amount⟩ :: log else log) := by
  rcases le_or_gt capacity 0 with empty | room
  · have large : bucket.maxTokens < amount := by
      rw [tracked.sized]
      exact_mod_cast (by omega : capacity < amount)
    rw [consume_refused large]
    exact tracked.refill forward
  · have kept := (tracked.metered room).consume forward (by omega : 0 ≤ amount)
    refine ⟨?_, ?_, fun _ => kept, fun empty => absurd room (not_lt.mpr empty)⟩
    · rw [← tracked.sized]
      dsimp only [Bucket.consume]
      split <;> rfl
    · rw [← tracked.rated]
      dsimp only [Bucket.consume]
      split <;> rfl

theorem Tracked.bound (long : 0 < window) (start : ℚ) :
    grantedIn start (start + window) log ≤ max 0 (2 * capacity - 1) := by
  rcases le_or_gt capacity 0 with empty | room
  · rw [tracked.idle empty, grantedIn_nil]
    exact le_max_left _ _
  · have below := (tracked.metered room).window start (start + window)
      (lt_add_of_pos_right start long)
    rw [tracked.sized, tracked.rated, add_sub_cancel_left, div_mul_cancel₀ _ long.ne'] at below
    have whole : grantedIn start (start + window) log < capacity + capacity := by
      exact_mod_cast below
    omega

end

end Buckets

/-- The invariant of a session: positive weights, and every bucket tracked and refilled no later
than the clock. -/
structure Kept (size : RateLimitType → Int) (session : Session) : Prop where
  weighted : ∀ path weight, session.limiter.weights.get path = some weight → 1 ≤ weight
  refilled : ∀ limitType, (session.limiter.bucket limitType).lastRefill ≤ session.clock
  tracked : ∀ limitType, Tracked (size limitType) (window limitType)
    (session.limiter.bucket limitType) (session.granted limitType)

section Runs

variable {size : RateLimitType → Int} {session next : Session} {call : Call}
  {requestWeightLimit ordersPerSecondLimit : Option Int}
  {safetyFactor weightCreated ordersCreated : ℚ}

theorem window_pos (limitType : RateLimitType) : 0 < window limitType := by
  cases limitType
  · exact (by decide : (0 : ℚ) < 60)
  · exact one_pos

theorem tracked_new {capacity : Int} {window : ℚ} {bucket : Bucket ℚ} (long : 0 < window)
    (sized : bucket.maxTokens = capacity) (rated : bucket.refillRate = capacity / window)
    (full : bucket.tokens = capacity) : Tracked capacity window bucket [] where
  sized := sized
  rated := rated
  metered := by
    intro positive
    have cast : (0 : ℚ) < capacity := Int.cast_pos.mpr positive
    refine metered_full (sized ▸ cast) ?_ (full.trans sized.symm)
    rw [rated]
    exact div_pos cast long
  idle := fun _ => rfl

theorem kept_start :
    Kept (capacity requestWeightLimit ordersPerSecondLimit safetyFactor)
      (.start requestWeightLimit ordersPerSecondLimit safetyFactor weightCreated
        ordersCreated) where
  weighted := fun _ _ found => one_le_of_get_endpointWeights found
  refilled := by
    intro limitType
    cases limitType
    · exact le_max_left _ _
    · exact le_max_right _ _
  tracked := by
    intro limitType
    refine tracked_new (window_pos limitType) ?_ ?_ ?_
    · cases limitType <;> rfl
    · cases limitType
      · rfl
      · exact (div_one _).symm
    · cases limitType <;> rfl

/-- A call that takes its tokens from one bucket, and may refill it once more, keeps the
invariant. -/
theorem kept_after (kept : Kept size session) {needed : Int × RateLimitType}
    {consumed last : ℚ} {taken : Bool} {bucket : Bucket ℚ}
    (forward : session.clock ≤ consumed) (later : bucket.lastRefill ≤ last)
    (ordered : consumed ≤ last)
    (tracked : Tracked (size needed.2) (window needed.2) bucket
      (if taken then ⟨consumed, needed.1⟩ :: session.granted needed.2
        else session.granted needed.2)) :
    Kept size (session.after needed taken consumed last
      (session.limiter.withBucket needed.2 bucket)) where
  weighted := by
    intro path weight found
    rw [Session.after, weights_withBucket] at found
    exact kept.weighted path weight found
  refilled := by
    intro limitType
    change ((session.limiter.withBucket needed.2 bucket).bucket limitType).lastRefill ≤ last
    rw [bucket_withBucket]
    split
    · exact later
    · exact (kept.refilled limitType).trans (forward.trans ordered)
  tracked := by
    intro limitType
    change Tracked _ _ ((session.limiter.withBucket needed.2 bucket).bucket limitType)
      ((if taken then Function.update session.granted needed.2
        (⟨consumed, needed.1⟩ :: session.granted needed.2) else session.granted) limitType)
    rw [bucket_withBucket]
    by_cases same : limitType = needed.2
    · subst same
      rw [if_pos rfl]
      cases taken with
      | true =>
        rw [if_pos rfl, Function.update_self]
        exact tracked
      | false => exact tracked
    · rw [if_neg same]
      cases taken with
      | true =>
        rw [if_pos rfl, Function.update_of_ne same]
        exact kept.tracked limitType
      | false => exact kept.tracked limitType

theorem lastRefill_consume {bucket : Bucket ℚ} {needed now : ℚ} :
    (bucket.consume needed now).2.lastRefill = now := by
  dsimp only [Bucket.consume]
  split <;> rfl

theorem kept_step (kept : Kept size session) (stepped : step session call = some next) :
    Kept size next := by
  cases call with
  | tryAcquire endpoint order now =>
    obtain ⟨forward, taken⟩ := Option.ite_none_right_eq_some.mp stepped
    cases taken
    have asked := @one_le_tokensNeeded session.limiter endpoint order kept.weighted
    have refilled := (kept.refilled (session.limiter.tokensNeeded endpoint order).2).trans forward
    exact kept_after kept forward lastRefill_consume.le le_rfl
      ((kept.tracked _).consume refilled asked)
  | attempt endpoint order timeout start readings =>
    obtain ⟨⟨forward, measured, checked⟩, taken⟩ := Option.ite_none_right_eq_some.mp stepped
    cases taken
    have asked := @one_le_tokensNeeded session.limiter endpoint order kept.weighted
    have refilled := (kept.refilled (session.limiter.tokensNeeded endpoint order).2).trans forward
    have tracked := (kept.tracked _).consume refilled asked
    have read := @lastRefill_consume
      (session.limiter.bucket (session.limiter.tokensNeeded endpoint order).2)
      (session.limiter.tokensNeeded endpoint order).1 readings.consumed
    generalize consumed : (session.limiter.bucket
      (session.limiter.tokensNeeded endpoint order).2).consume
      ((session.limiter.tokensNeeded endpoint order).1 : ℚ) readings.consumed = result
      at tracked read
    obtain ⟨taken, bucket⟩ := result
    obtain ⟨acquired, after⟩ := @acquireAttempt_cases session.limiter bucket endpoint order timeout
      start readings taken consumed
    dsimp only at tracked read
    have late := measured.trans checked
    simp only [after, acquired, Bool.decide_eq_true]
    cases taken with
    | true => exact kept_after kept forward (read.le.trans late) late tracked
    | false =>
      exact kept_after kept forward checked late (tracked.refill (read.le.trans measured))

theorem Kept.bound (kept : Kept size session) (limitType : RateLimitType) (start : ℚ) :
    grantedIn start (start + window limitType) (session.granted limitType) ≤
      max 0 (2 * size limitType - 1) :=
  (kept.tracked limitType).bound (window_pos limitType) start

/-! ## The burst -/

/-- A call that asks one token of the bucket of a limit. -/
def single (limitType : RateLimitType) (now : ℚ) : Call :=
  .tryAcquire none (limitType = .orders) now

/-- A request with a token to spare is granted. -/
theorem step_single {limitType : RateLimitType} {now : ℚ} (forward : session.clock ≤ now)
    (enough : 1 ≤ ((session.limiter.bucket limitType).refill now).tokens) :
    ∃ next, step session (single limitType now) = some next ∧ next.clock = now ∧
      next.granted limitType = ⟨now, 1⟩ :: session.granted limitType ∧
      next.limiter.bucket limitType =
        { (session.limiter.bucket limitType).refill now with
          tokens := ((session.limiter.bucket limitType).refill now).tokens - 1 } := by
  have needed : session.limiter.tokensNeeded none (limitType = .orders) = (1, limitType) := by
    cases limitType <;> rfl
  have taken := @consume_granted ℚ _ _ (session.limiter.bucket limitType) 1 now enough
  refine ⟨_, if_pos forward, rfl, ?_, ?_⟩
  · dsimp only [Session.after, tryAcquire]
    rw [needed]
    dsimp only
    rw [Int.cast_one, taken, if_pos rfl, Function.update_self]
  · dsimp only [Session.after, tryAcquire]
    rw [needed]
    dsimp only
    rw [Int.cast_one, taken, bucket_withBucket, if_pos rfl]

/-- A bucket grants at one time as many single tokens as it then holds. -/
theorem exec_burst {limitType : RateLimitType} {now : ℚ} (count : Nat)
    (forward : session.clock ≤ now)
    (enough : (count : ℚ) ≤ ((session.limiter.bucket limitType).refill now).tokens)
    (capped : ((session.limiter.bucket limitType).refill now).tokens ≤
      (session.limiter.bucket limitType).maxTokens) :
    ∃ final, exec step session (List.replicate count (single limitType now)) = some final ∧
      final.clock ≤ now ∧
      final.granted limitType = List.replicate count ⟨now, 1⟩ ++ session.granted limitType ∧
      (0 < count → final.limiter.bucket limitType =
        { (session.limiter.bucket limitType).refill now with
          tokens := ((session.limiter.bucket limitType).refill now).tokens - count }) := by
  induction count generalizing session with
  | zero => exact ⟨session, rfl, forward, rfl, fun none_ => absurd none_ (Nat.lt_irrefl 0)⟩
  | succ count ih =>
    rw [Nat.cast_succ] at enough
    have one : (1 : ℚ) ≤ ((session.limiter.bucket limitType).refill now).tokens :=
      (le_add_of_nonneg_left (Nat.cast_nonneg count)).trans enough
    obtain ⟨next, stepped, clock, granted, bucket⟩ := step_single forward one
    have refilled : (next.limiter.bucket limitType).refill now =
        next.limiter.bucket limitType := by
      rw [bucket]
      exact refill_again ((sub_le_self _ zero_le_one).trans capped) rfl
    obtain ⟨final, ran, last, log, left⟩ := @ih next clock.le
      (by rw [refilled, bucket]; exact le_sub_iff_add_le.mpr enough)
      (by rw [refilled, bucket]; exact (sub_le_self _ zero_le_one).trans capped)
    refine ⟨final, exec_cons.mpr ⟨next, stepped, ran⟩, last, ?_, fun _ => ?_⟩
    · rw [log, granted, List.append_cons, ← List.replicate_succ']
    · rcases Nat.eq_zero_or_pos count with rfl | more
      · cases ran
        rw [bucket, Nat.zero_add, Nat.cast_one]
      · rw [left more, refilled, bucket, Nat.cast_succ]
        dsimp only
        rw [sub_sub, add_comm (1 : ℚ)]

theorem regains {bucket : Bucket ℚ} {count : Nat} {window : ℚ} (long : 0 < window)
    (sized : bucket.maxTokens = count + 1) (rated : bucket.refillRate = (count + 1) / window)
    (drained : bucket.tokens = 0) :
    (bucket.refill (bucket.lastRefill + window * (count / (count + 1)))).tokens = count := by
  have gain : window * (count / (count + 1)) * bucket.refillRate = count := by
    rw [rated]
    field_simp
  have room : (count : ℚ) ≤ bucket.maxTokens := sized ▸ le_add_of_nonneg_right zero_le_one
  dsimp only [Bucket.refill]
  rw [drained, zero_add, add_sub_cancel_left, gain, min_eq_right room]

theorem refill_full {bucket : Bucket ℚ} {now : ℚ} (rate : 0 ≤ bucket.refillRate)
    (forward : bucket.lastRefill ≤ now) (full : bucket.tokens = bucket.maxTokens) :
    (bucket.refill now).tokens = bucket.maxTokens := by
  have gained := mul_nonneg (sub_nonneg.mpr forward) rate
  dsimp only [Bucket.refill]
  rw [full, min_eq_left (le_add_of_nonneg_right gained)]

theorem exists_burst (kept : Kept size session) {limitType : RateLimitType} {count : Nat}
    (room : size limitType = count + 1)
    (full : (session.limiter.bucket limitType).tokens = count + 1)
    (unused : session.granted limitType = []) :
    ∃ calls final start, exec step session calls = some final ∧
      grantedIn start (start + window limitType) (final.granted limitType) =
        2 * size limitType - 1 := by
  have tracked := kept.tracked limitType
  have long := window_pos limitType
  have sized : (session.limiter.bucket limitType).maxTokens = count + 1 := by
    rw [tracked.sized, room]
    push_cast
    rfl
  have rated : (session.limiter.bucket limitType).refillRate =
      (count + 1) / window limitType := by
    rw [tracked.rated, room]
    push_cast
    rfl
  have rate : 0 ≤ (session.limiter.bucket limitType).refillRate :=
    (tracked.metered (by omega)).refills.le
  have whole : ((session.limiter.bucket limitType).refill session.clock).tokens = count + 1 :=
    (refill_full rate (kept.refilled limitType) (full.trans sized.symm)).trans sized
  -- The burst empties the bucket.
  obtain ⟨emptied, burst, clock, log, bucket⟩ := @exec_burst session limitType session.clock
    (count + 1) le_rfl (by rw [whole]; push_cast; exact le_rfl) (by rw [whole, sized])
  have drained := bucket (Nat.succ_pos count)
  rw [unused, List.append_nil] at log
  -- What the bucket regains is granted before the window is over.
  let later := session.clock + window limitType * (count / (count + 1))
  have part : (0 : ℚ) ≤ count / (count + 1) := by positivity
  have early : (count / (count + 1) : ℚ) < 1 :=
    (div_lt_one (by positivity)).mpr (lt_add_one (count : ℚ))
  have forward : session.clock ≤ later := le_add_of_nonneg_right (mul_nonneg long.le part)
  have inside : later < session.clock + window limitType :=
    add_lt_add_right (mul_lt_of_lt_one_right long early) _
  have regained : ((emptied.limiter.bucket limitType).refill later).tokens = count := by
    rw [drained]
    refine regains long sized rated ?_
    dsimp only
    rw [whole]
    push_cast
    exact sub_self _
  obtain ⟨final, ran, _, grants, _⟩ := @exec_burst emptied limitType later count
    (clock.trans forward) regained.ge (by
      rw [regained, drained]
      exact sized ▸ le_add_of_nonneg_right zero_le_one)
  refine ⟨List.replicate (count + 1) (single limitType session.clock) ++
    List.replicate count (single limitType later), final, session.clock, ?_, ?_⟩
  · rw [exec_append, burst]
    exact ran
  · have first := @grantedIn_replicate _ _ session.clock (session.clock + window limitType)
      ⟨session.clock, 1⟩ [] (count + 1) ⟨le_rfl, lt_add_of_pos_right _ long⟩
    rw [List.append_nil] at first
    have second := @grantedIn_replicate _ _ session.clock (session.clock + window limitType)
      ⟨later, 1⟩ (List.replicate (count + 1) ⟨session.clock, 1⟩) count ⟨forward, inside⟩
    rw [grants, log, second, first, room, grantedIn_nil]
    push_cast
    ring

end Runs

/-- A limiter keeps every window within its limit if and only if, for both limits, the limit is
not negative and twice the effective limit exceeds it by at most one. -/
theorem keepsWindows_iff (requestWeightLimit ordersPerSecondLimit : Option Int)
    (safetyFactor weightCreated ordersCreated : ℚ) :
    (∀ calls, Always step (KeepsWindows (limitOf requestWeightLimit ordersPerSecondLimit))
        (.start requestWeightLimit ordersPerSecondLimit safetyFactor weightCreated ordersCreated)
        calls) ↔
      ∀ limitType, 0 ≤ limitOf requestWeightLimit ordersPerSecondLimit limitType ∧
        2 * capacity requestWeightLimit ordersPerSecondLimit safetyFactor limitType ≤
          limitOf requestWeightLimit ordersPerSecondLimit limitType + 1 := by
  have kept := @kept_start requestWeightLimit ordersPerSecondLimit safetyFactor weightCreated
    ordersCreated
  constructor
  · intro always limitType
    have positive : 0 ≤ limitOf requestWeightLimit ordersPerSecondLimit limitType :=
      always [] limitType 0
    refine ⟨positive, ?_⟩
    rcases le_or_gt (capacity requestWeightLimit ordersPerSecondLimit safetyFactor limitType) 0
      with empty | room
    · omega
    · obtain ⟨count, sized⟩ := Int.eq_succ_of_zero_lt room
      obtain ⟨calls, final, start, ran, burst⟩ := @exists_burst _ _ kept limitType count sized
        (by rw [← Int.cast_natCast, ← Int.cast_one, ← Int.cast_add]
            exact (by cases limitType <;> exact congrArg Int.cast sized))
        rfl
      have bound := (always calls).final ran limitType start
      rw [burst] at bound
      omega
  · intro small calls
    refine (always_of_preserved (fun _ _ _ => kept_step) kept calls).imp ?_
    intro session kept limitType start
    have bound := kept.bound limitType start
    have limit := small limitType
    omega

/-- The default limiter grants 1900 weight in one minute and 15 orders in one second. -/
def doubleBurst : List Call :=
  List.replicate 19 (.tryAcquire (some "/api/v3/depth") false 0) ++
    List.replicate 8 (.tryAcquire none true 0) ++
    List.replicate 7 (.tryAcquire (some "/api/v3/order") true (7 / 8)) ++
    List.replicate 19 (.attempt (some "/api/v3/klines") false none 59 ⟨59, 59, 59⟩)

/-- A limiter with the default limits and safety factor exceeds both. -/
theorem default_exceeds :
    ¬ Always step (KeepsWindows (limitOf (some 1200) (some 10)))
      (.start (some 1200) (some 10) (4 / 5) 0 0) doubleBurst := by
  have counted : (exec step (.start (some 1200) (some 10) (4 / 5) 0 0) doubleBurst).map
      (fun final => (grantedIn 0 60 (final.granted .requestsWeight),
        grantedIn 0 1 (final.granted .orders))) = some (1900, 15) := by
    decide +kernel
  refine not_always_of_view counted fun final granted keeps => ?_
  have kept := keeps .orders 0
  have many : grantedIn 0 1 (final.granted .orders) = 15 := congrArg Prod.snd granted
  change grantedIn 0 (0 + 1) _ ≤ 10 at kept
  rw [zero_add, many] at kept
  exact absurd kept (by decide)

end RateWindows

end TradingBot.Exchanges
