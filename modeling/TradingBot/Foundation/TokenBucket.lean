import Mathlib.Algebra.BigOperators.Group.List.Basic
import Mathlib.Algebra.Order.Field.Basic
import Mathlib.Tactic.Linarith
import Mathlib.Tactic.Ring

/-!
# Token buckets

A bucket holds tokens up to a capacity and gains them at a constant rate. A request for a whole
number of tokens is granted when the bucket holds that many. What a bucket grants in a window is
bounded by its capacity and what the window refills, wherever the window starts.
-/

namespace TokenBucket

/-- The state of a bucket. -/
structure Bucket (K : Type*) where
  /-- Tokens held at the last refill. -/
  tokens : K
  maxTokens : K
  /-- Tokens gained per unit of time. -/
  refillRate : K
  lastRefill : K

variable {K : Type*}

/-- The bucket with the tokens it has gained up to now. -/
def Bucket.refill [Field K] [LinearOrder K] (bucket : Bucket K) (now : K) : Bucket K :=
  { bucket with
    tokens := min bucket.maxTokens
      (bucket.tokens + (now - bucket.lastRefill) * bucket.refillRate)
    lastRefill := now }

/-- A request for tokens: whether it is granted, and the bucket after it. -/
def Bucket.consume [Field K] [LinearOrder K] (bucket : Bucket K) (needed now : K) :
    Bool × Bucket K :=
  let refilled := bucket.refill now
  if needed ≤ refilled.tokens then
    (true, { refilled with tokens := refilled.tokens - needed })
  else (false, refilled)

/-- One granted request. -/
structure Grant (K : Type*) where
  time : K
  amount : Int

/-- What a log of grants gives away from one time on and before another. -/
def grantedIn [LinearOrder K] (start stop : K) (log : List (Grant K)) : Int :=
  ((log.filter fun grant => start ≤ grant.time ∧ grant.time < stop).map Grant.amount).sum

/-- What a log of grants gives away from one time on. -/
def grantedSince [LinearOrder K] (start : K) (log : List (Grant K)) : Int :=
  ((log.filter fun grant => start ≤ grant.time).map Grant.amount).sum

/-! ## Windows of a log -/

section Windows

variable [LinearOrder K] {start stop : K} {grant : Grant K} {log : List (Grant K)}

@[simp] theorem grantedIn_nil : grantedIn start stop ([] : List (Grant K)) = 0 := rfl

@[simp] theorem grantedSince_nil : grantedSince start ([] : List (Grant K)) = 0 := rfl

theorem grantedIn_cons :
    grantedIn start stop (grant :: log) =
      (if start ≤ grant.time ∧ grant.time < stop then grant.amount else 0) +
        grantedIn start stop log := by
  unfold grantedIn
  by_cases inside : start ≤ grant.time ∧ grant.time < stop
  · rw [List.filter_cons_of_pos (by simpa using inside), if_pos inside]
    rfl
  · rw [List.filter_cons_of_neg (by simpa using inside), if_neg inside, zero_add]

theorem grantedIn_replicate {count : Nat} (inside : start ≤ grant.time ∧ grant.time < stop) :
    grantedIn start stop (List.replicate count grant ++ log) =
      count * grant.amount + grantedIn start stop log := by
  induction count with
  | zero => simp
  | succ count ih =>
    rw [List.replicate_succ, List.cons_append, grantedIn_cons, if_pos inside, ih]
    push_cast
    ring

theorem grantedSince_cons :
    grantedSince start (grant :: log) =
      (if start ≤ grant.time then grant.amount else 0) + grantedSince start log := by
  unfold grantedSince
  by_cases inside : start ≤ grant.time
  · rw [List.filter_cons_of_pos (by simpa using inside), if_pos inside]
    rfl
  · rw [List.filter_cons_of_neg (by simpa using inside), if_neg inside, zero_add]

theorem grantedIn_eq_since (early : ∀ grant ∈ log, grant.time < stop) :
    grantedIn start stop log = grantedSince start log := by
  unfold grantedIn grantedSince
  congr 2
  refine List.filter_congr fun grant member => ?_
  simp [early grant member]

theorem grantedSince_eq_zero (early : ∀ grant ∈ log, grant.time < start) :
    grantedSince start log = 0 := by
  unfold grantedSince
  rw [List.filter_eq_nil_iff.mpr fun grant member => by simp [early grant member]]
  rfl

end Windows

/-! ## One request -/

section Requests

variable [Field K] [LinearOrder K] {bucket : Bucket K} {needed now : K}

theorem consume_refused (large : bucket.maxTokens < needed) :
    bucket.consume needed now = (false, bucket.refill now) := by
  unfold Bucket.consume
  exact if_neg ((min_le_left _ _).trans_lt large).not_ge

theorem consume_granted (enough : needed ≤ (bucket.refill now).tokens) :
    bucket.consume needed now =
      (true, { bucket.refill now with tokens := (bucket.refill now).tokens - needed }) := by
  unfold Bucket.consume
  exact if_pos enough

theorem refill_again (capped : bucket.tokens ≤ bucket.maxTokens)
    (current : bucket.lastRefill = now) : bucket.refill now = bucket := by
  obtain ⟨tokens, maxTokens, refillRate, lastRefill⟩ := bucket
  dsimp only at capped current
  subst current
  unfold Bucket.refill
  dsimp only
  rw [sub_self, zero_mul, add_zero, min_eq_right capped]

end Requests

/-! ## The bound -/

variable [Field K] [LinearOrder K]

/-- A bucket and the log of what it granted: the tokens held and granted since any time are
within the capacity and the refill since then, and every window is strictly below the capacity
and its refill. -/
structure Metered (bucket : Bucket K) (log : List (Grant K)) : Prop where
  capacity : 0 < bucket.maxTokens
  refills : 0 < bucket.refillRate
  covered : 0 ≤ bucket.tokens
  filled : bucket.tokens ≤ bucket.maxTokens
  past : ∀ grant ∈ log, grant.time ≤ bucket.lastRefill
  since : ∀ start ≤ bucket.lastRefill,
    (grantedSince start log : K) + bucket.tokens ≤
      bucket.maxTokens + bucket.refillRate * (bucket.lastRefill - start)
  window : ∀ start stop, start < stop →
    (grantedIn start stop log : K) < bucket.maxTokens + bucket.refillRate * (stop - start)

section Bound

variable [IsStrictOrderedRing K] {bucket : Bucket K} {log : List (Grant K)} {now : K}

theorem metered_full (capacity : 0 < bucket.maxTokens) (refills : 0 < bucket.refillRate)
    (full : bucket.tokens = bucket.maxTokens) : Metered bucket [] where
  capacity := capacity
  refills := refills
  covered := full ▸ capacity.le
  filled := full.le
  past := fun _ member => absurd member List.not_mem_nil
  since := by
    intro start early
    have gained := mul_nonneg refills.le (sub_nonneg.mpr early)
    rw [grantedSince_nil, Int.cast_zero, zero_add, full]
    exact le_add_of_nonneg_right gained
  window := by
    intro start stop ordered
    have gained := mul_pos refills (sub_pos.mpr ordered)
    rw [grantedIn_nil, Int.cast_zero]
    exact add_pos capacity gained

theorem Metered.refill (metered : Metered bucket log) (forward : bucket.lastRefill ≤ now) :
    Metered (bucket.refill now) log where
  capacity := metered.capacity
  refills := metered.refills
  covered := by
    have gained := mul_nonneg (sub_nonneg.mpr forward) metered.refills.le
    exact le_min metered.capacity.le (add_nonneg metered.covered gained)
  filled := min_le_left _ _
  past := fun grant member => (metered.past grant member).trans forward
  since := by
    intro start early
    change start ≤ now at early
    change (grantedSince start log : K) + min _ _ ≤
      bucket.maxTokens + bucket.refillRate * (now - start)
    rcases le_or_gt start bucket.lastRefill with before | after
    · have held := metered.since start before
      have gained := min_le_right bucket.maxTokens
        (bucket.tokens + (now - bucket.lastRefill) * bucket.refillRate)
      linarith
    · have none_ : grantedSince start log = 0 :=
        grantedSince_eq_zero fun grant member => (metered.past grant member).trans_lt after
      have gained := mul_nonneg metered.refills.le (sub_nonneg.mpr early)
      have capped := min_le_left bucket.maxTokens
        (bucket.tokens + (now - bucket.lastRefill) * bucket.refillRate)
      rw [none_, Int.cast_zero]
      linarith
  window := metered.window

theorem Metered.grant (metered : Metered bucket log) {amount : Int} (positive : 0 ≤ amount)
    (enough : (amount : K) ≤ bucket.tokens) :
    Metered { bucket with tokens := bucket.tokens - amount }
      (⟨bucket.lastRefill, amount⟩ :: log) where
  capacity := metered.capacity
  refills := metered.refills
  covered := sub_nonneg.mpr enough
  filled := by
    have cast : (0 : K) ≤ amount := Int.cast_nonneg positive
    exact (sub_le_self _ cast).trans metered.filled
  past := by
    intro grant member
    rcases List.mem_cons.mp member with rfl | older
    · exact le_rfl
    · exact metered.past grant older
  since := by
    intro start early
    change start ≤ bucket.lastRefill at early
    have held := metered.since start early
    rw [grantedSince_cons, if_pos early, Int.cast_add]
    dsimp only
    linarith
  window := by
    intro start stop ordered
    rw [grantedIn_cons]
    by_cases inside : start ≤ bucket.lastRefill ∧ bucket.lastRefill < stop
    · have held := metered.since start inside.1
      have later := mul_lt_mul_of_pos_left (sub_lt_sub_right inside.2 start) metered.refills
      have all : grantedIn start stop log = grantedSince start log :=
        grantedIn_eq_since fun grant member =>
          (metered.past grant member).trans_lt inside.2
      rw [if_pos inside, all, Int.cast_add]
      dsimp only
      linarith
    · rw [if_neg inside, zero_add]
      exact metered.window start stop ordered

theorem Metered.consume (metered : Metered bucket log) (forward : bucket.lastRefill ≤ now)
    {amount : Int} (positive : 0 ≤ amount) :
    Metered (bucket.consume amount now).2
      (if (bucket.consume amount now).1 then ⟨now, amount⟩ :: log else log) := by
  have refilled := metered.refill forward
  unfold Bucket.consume
  by_cases enough : (amount : K) ≤ (bucket.refill now).tokens
  · rw [if_pos enough]
    exact refilled.grant positive enough
  · rw [if_neg enough]
    exact refilled

end Bound

end TokenBucket
