import Mathlib.Algebra.Group.Action.Defs
import Mathlib.Algebra.Order.BigOperators.Group.List
import TradingBot.Execution.TwapScheduler

/-!
# The total of the slices

The lower bound of a slice is never reached, since the slices are as many as it allows. The upper
bound is one of a single slice: it takes from the slices what no other slice gets, and it is not
looked at where the whole order is one slice.
-/

open MachineInt

namespace TradingBot.Execution

/-- The number of slices that the bounds of an order allow. -/
def TwapConfig.sliceCount (config : TwapConfig) (totalQuantity : Nat) : Nat :=
  min config.numSlices (totalQuantity / max config.minSliceSize 1)

namespace TwapScheduler

def isComplete (scheduler : TwapScheduler) : Bool := scheduler.state = .completed

/-- The scheduler after some fills. -/
def recordFills (scheduler : TwapScheduler) : List Nat → Option TwapScheduler
  | [] => some scheduler
  | quantity :: rest => (scheduler.recordFill quantity).bind fun next => next.recordFills rest

/-- A scheduler is made for an order, new or from an earlier one. -/
inductive Made (config : TwapConfig) (totalQuantity : Nat) : Option TwapScheduler → Prop
  | new (parentOrderId : Nat) :
      Made config totalQuantity (TwapScheduler.new config parentOrderId totalQuantity)
  | reset (earlier : TwapScheduler) (newParentId : Nat) (same : earlier.config = config) :
      Made config totalQuantity (earlier.reset newParentId totalQuantity)

/-- The slices of an order are there, each within the largest size, and add up to it, and the order
is complete after all of them are filled, whatever their order. -/
def CoversOrder (config : TwapConfig) (totalQuantity : Nat) (made : Option TwapScheduler) : Prop :=
  ∃ scheduler, made = some scheduler ∧
    scheduler.sliceQuantities ≠ [] ∧
    (∀ quantity ∈ scheduler.sliceQuantities, quantity ≤ config.maxSliceSize) ∧
    scheduler.sliceQuantities.sum = totalQuantity ∧
    ∀ fills, fills.Perm scheduler.sliceQuantities →
      ∃ filled, scheduler.recordFills fills = some filled ∧ filled.isComplete = true

section Totals

variable {config : TwapConfig} {totalQuantity count bound : Nat} {scheduler : TwapScheduler}

/-! ## Equal shares -/

theorem sum_extra (remainder count : Nat) :
    ((List.range count).map fun i => if i < remainder then 1 else 0).sum = min remainder count := by
  induction count with
  | zero => simp
  | succ count ih =>
    rw [List.range_succ, List.map_append, List.sum_append, ih]
    simp only [List.map_cons, List.map_nil, List.sum_cons, List.sum_nil]
    split <;> omega

theorem sum_shares (totalQuantity : Nat) (positive : 0 < count) :
    ((List.range count).map fun i =>
      totalQuantity / count + if i < totalQuantity % count then 1 else 0).sum = totalQuantity := by
  have less : totalQuantity % count < count := Nat.mod_lt _ positive
  have whole := Nat.div_add_mod totalQuantity count
  rw [List.sum_map_add, sum_extra]
  simp only [List.map_const', List.length_range, List.sum_replicate, smul_eq_mul]
  omega

theorem share_le (enough : totalQuantity ≤ count * bound) (i : Nat) :
    totalQuantity / count + (if i < totalQuantity % count then 1 else 0) ≤ bound := by
  by_cases extra : i < totalQuantity % count
  · have whole := Nat.div_add_mod totalQuantity count
    have less : count * (totalQuantity / count) < count * bound := by omega
    have below : totalQuantity / count < bound := Nat.lt_of_mul_lt_mul_left less
    rw [if_pos extra]
    omega
  · rw [if_neg extra]
    exact Nat.div_le_of_le_mul enough

theorem min_le_share (config : TwapConfig) (totalQuantity : Nat)
    (positive : 0 < config.sliceCount totalQuantity) :
    config.minSliceSize ≤ totalQuantity / config.sliceCount totalQuantity := by
  have allowed : config.sliceCount totalQuantity ≤ totalQuantity / max config.minSliceSize 1 :=
    Nat.min_le_right _ _
  have room : 0 < max config.minSliceSize 1 := by omega
  have reached : config.sliceCount totalQuantity * max config.minSliceSize 1 ≤ totalQuantity :=
    (Nat.le_div_iff_mul_le room).mp allowed
  rw [Nat.le_div_iff_mul_le positive]
  calc config.minSliceSize * config.sliceCount totalQuantity
      ≤ max config.minSliceSize 1 * config.sliceCount totalQuantity :=
        Nat.mul_le_mul_right _ (Nat.le_max_left _ _)
    _ = config.sliceCount totalQuantity * max config.minSliceSize 1 := Nat.mul_comm _ _
    _ ≤ totalQuantity := reached

/-! ## The slices -/

theorem slices_of_none (none_ : config.sliceCount totalQuantity = 0) :
    config.calculateSliceQuantities totalQuantity = some [totalQuantity] :=
  if_pos none_

theorem slices_of_some (ordered : config.minSliceSize ≤ config.maxSliceSize)
    (positive : 0 < config.sliceCount totalQuantity) :
    config.calculateSliceQuantities totalQuantity =
      some ((List.range (config.sliceCount totalQuantity)).map fun i =>
        min config.maxSliceSize (totalQuantity / config.sliceCount totalQuantity +
          if i < totalQuantity % config.sliceCount totalQuantity then 1 else 0)) := by
  have reached := min_le_share config totalQuantity positive
  have counted : min config.numSlices (totalQuantity / max config.minSliceSize 1) =
    config.sliceCount totalQuantity := rfl
  unfold TwapConfig.calculateSliceQuantities
  simp only [counted]
  rw [if_neg (by omega), if_neg (by omega)]
  congr 1
  apply List.map_congr_left
  intro i _
  split <;> omega

theorem slices_cover_iff (ordered : config.minSliceSize ≤ config.maxSliceSize) :
    (∃ slices, config.calculateSliceQuantities totalQuantity = some slices ∧ slices ≠ [] ∧
      (∀ quantity ∈ slices, quantity ≤ config.maxSliceSize) ∧ slices.sum = totalQuantity) ↔
      totalQuantity ≤ max 1 (config.sliceCount totalQuantity) * config.maxSliceSize := by
  by_cases none_ : config.sliceCount totalQuantity = 0
  · rw [slices_of_none none_, none_]
    simp
  · have positive : 0 < config.sliceCount totalQuantity := by omega
    have count : max 1 (config.sliceCount totalQuantity) = config.sliceCount totalQuantity := by
      omega
    rw [slices_of_some ordered positive, count]
    constructor
    · rintro ⟨slices, same, -, bounded, total⟩
      have length : slices.length = config.sliceCount totalQuantity := by
        rw [← Option.some.inj same, List.length_map, List.length_range]
      have most := List.sum_le_card_nsmul slices config.maxSliceSize bounded
      rw [total, length, smul_eq_mul] at most
      exact most
    · intro enough
      have shares : ∀ i ∈ List.range (config.sliceCount totalQuantity),
          min config.maxSliceSize (totalQuantity / config.sliceCount totalQuantity +
            if i < totalQuantity % config.sliceCount totalQuantity then 1 else 0) =
          totalQuantity / config.sliceCount totalQuantity +
            if i < totalQuantity % config.sliceCount totalQuantity then 1 else 0 :=
        fun i _ => Nat.min_eq_right (share_le enough i)
      rw [List.map_congr_left shares]
      refine ⟨_, rfl, ?_, ?_, sum_shares totalQuantity positive⟩
      · simpa using none_
      · intro quantity member
        obtain ⟨i, -, rfl⟩ := List.mem_map.mp member
        exact share_le enough i

/-! ## The fills -/

theorem recordFills_complete {fills : List Nat} (some_ : fills ≠ [])
    (reached : scheduler.totalQuantity ≤ scheduler.executedQuantity + fills.sum)
    (small : scheduler.executedQuantity + fills.sum < u64Size) :
    ∃ filled, scheduler.recordFills fills = some filled ∧ filled.isComplete = true := by
  induction fills generalizing scheduler with
  | nil => exact absurd rfl some_
  | cons quantity rest ih =>
    simp only [List.sum_cons] at reached small
    have fits : scheduler.executedQuantity + quantity < u64Size := by omega
    unfold recordFills recordFill
    simp only [fits, if_true]
    cases rest with
    | nil =>
      simp only [List.sum_nil] at reached
      rw [if_pos (by omega)]
      exact ⟨_, rfl, rfl⟩
    | cons other rest =>
      -- the order may be complete before the last fill, and stays so
      by_cases done : scheduler.totalQuantity ≤ scheduler.executedQuantity + quantity
      · rw [if_pos done, Option.bind_some]
        exact ih (List.cons_ne_nil _ _) (by simp only; omega) (by simp only; omega)
      · rw [if_neg done, Option.bind_some]
        exact ih (List.cons_ne_nil _ _) (by simp only; omega) (by simp only; omega)

theorem made_eq {made : Option TwapScheduler} (origin : Made config totalQuantity made) :
    ∃ build : List Nat → TwapScheduler,
      made = (config.calculateSliceQuantities totalQuantity).map build ∧
      ∀ slices, (build slices).sliceQuantities = slices ∧
        (build slices).totalQuantity = totalQuantity ∧ (build slices).executedQuantity = 0 := by
  cases origin with
  | new parentOrderId => exact ⟨_, rfl, fun slices => ⟨rfl, rfl, rfl⟩⟩
  | reset earlier newParentId same =>
    subst same
    exact ⟨_, rfl, fun slices => ⟨rfl, rfl, rfl⟩⟩

/-- A scheduler that is made covers its order exactly if the order is no larger than its slices may
be together. -/
theorem coversOrder_iff (config : TwapConfig) (totalQuantity : Nat) (made : Option TwapScheduler)
    (ordered : config.minSliceSize ≤ config.maxSliceSize) (small : totalQuantity < u64Size)
    (origin : Made config totalQuantity made) :
    CoversOrder config totalQuantity made ↔
      totalQuantity ≤ max 1 (config.sliceCount totalQuantity) * config.maxSliceSize := by
  obtain ⟨build, same, fields⟩ := made_eq origin
  rw [← slices_cover_iff ordered]
  constructor
  · rintro ⟨scheduler, made_, some_, bounded, total, -⟩
    rw [same] at made_
    obtain ⟨slices, cut, rfl⟩ := Option.map_eq_some_iff.mp made_
    rw [(fields slices).1] at some_ bounded total
    exact ⟨slices, cut, some_, bounded, total⟩
  · rintro ⟨slices, cut, some_, bounded, total⟩
    obtain ⟨slices_, quantity, none_⟩ := fields slices
    refine ⟨build slices, by rw [same, cut]; rfl, ?_⟩
    rw [slices_]
    refine ⟨some_, bounded, total, fun fills permuted => ?_⟩
    have sum := permuted.sum_eq
    apply recordFills_complete
    · intro empty
      rw [empty] at permuted
      exact some_ permuted.symm.eq_nil
    · rw [quantity, none_, sum, total]
      omega
    · rw [none_, sum, total]
      omega

end Totals

/-- The order of the test, with sizes that fit. -/
def fiveSlices : TwapConfig :=
  { TwapConfig.default with numSlices := 5, minSliceSize := 10, maxSliceSize := 250 }

/-- Five slices of at most 250 cover an order of 1003. -/
theorem coversOrder_five : CoversOrder fiveSlices 1003 (TwapScheduler.new fiveSlices 1 1003) :=
  (coversOrder_iff fiveSlices 1003 (TwapScheduler.new fiveSlices 1 1003) (by decide) (by decide)
    (.new 1)).mpr (by decide)

/-- Five slices of at most 250 cover 1250 of an order of 2000, and it stays open. -/
theorem leaves_quantity :
    fiveSlices.minSliceSize ≤ fiveSlices.maxSliceSize ∧
      fiveSlices.calculateSliceQuantities 2000 = some [250, 250, 250, 250, 250] ∧
      (((TwapScheduler.new fiveSlices 1 2000).bind fun scheduler =>
        scheduler.recordFills scheduler.sliceQuantities).map isComplete) = some false ∧
      ¬ CoversOrder fiveSlices 2000 (TwapScheduler.new fiveSlices 1 2000) := by
  have cut : fiveSlices.calculateSliceQuantities 2000 = some [250, 250, 250, 250, 250] := by
    decide
  refine ⟨by decide, cut, by decide, ?_⟩
  rintro ⟨scheduler, made, -, -, total, -⟩
  unfold TwapScheduler.new at made
  rw [cut] at made
  have same := Option.some.inj made
  rw [← same] at total
  exact absurd total (by decide)

end TwapScheduler

end TradingBot.Execution
