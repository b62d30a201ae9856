import TradingBot.Oms.SyntheticRouter

/-!
# The total of the children

An iceberg ends as soon as no more than the smallest child remains, or at a hundred children; an
order of equal children has none if it is below the smallest child, and its share is then a
quotient by zero. The ids of the children are readings of the clock with the numbers of the children
added.
-/

open MachineInt

namespace TradingBot.Oms

namespace SyntheticOrder

/-- The number of children that an iceberg takes at the largest size. -/
def icebergCount (config : SplitConfig) (totalQuantity : ℚ) : Nat :=
  ⌈totalQuantity / config.maxChildSize⌉₊

/-- The number of children of an order that is split without loss. -/
def wholeCount (order : SyntheticOrder) : Nat :=
  match order.orderType with
  | .iceberg => icebergCount order.config order.totalQuantity
  | .twap | .vwap => min order.config.targetChildren
      (order.totalQuantity / order.config.minChildSize).floor.toNat
  | .sniper => 1
  | .bracket => 0

/-- What an iceberg leaves for its last child is above the smallest size. -/
def LastAbove (config : SplitConfig) (totalQuantity : ℚ) : Prop :=
  config.minChildSize <
    totalQuantity - (icebergCount config totalQuantity - 1) * config.maxChildSize

/-- An iceberg takes a hundred children at most, and its last one is above the smallest size; an
order of equal children is no smaller than the smallest one. -/
def FitsChildren (order : SyntheticOrder) : Prop :=
  match order.orderType with
  | .iceberg => icebergCount order.config order.totalQuantity ≤ 100 ∧
      LastAbove order.config order.totalQuantity
  | .twap | .vwap => order.config.minChildSize ≤ order.totalQuantity
  | _ => True

/-- The ids of some children, in 64 bits, differ. -/
def IdsDiffer (nowMs : Nat → Nat) (count : Nat) : Prop :=
  ((List.range count).map fun sequence => castU64 (nowMs sequence + sequence)).Nodup

/-- An order is split without loss: nothing is divided by zero, there are children, their ids
differ and their quantities add up to the order. -/
structure SplitsWhole (order : SyntheticOrder) (nowMs : Nat → Nat) : Prop where
  divides : order.orderType ∈ [SyntheticOrderType.twap, .vwap] →
    numChildren order.config order.totalQuantity ≠ 0
  some_ : (order.generateChildren nowMs).1 ≠ []
  distinct : ((order.generateChildren nowMs).1.map fun child => castU64 child.childId).Nodup
  total : ((order.generateChildren nowMs).1.map ChildOrder.quantity).sum = order.totalQuantity

section Splits

variable {config : SplitConfig} {total : ℚ} {order : SyntheticOrder} {nowMs : Nat → Nat}
  {limit count : Nat}

/-! ## Icebergs -/

theorem icebergCount_succ (size : 0 < config.maxChildSize) (more : config.maxChildSize < total) :
    icebergCount config total = icebergCount config (total - config.maxChildSize) + 1 := by
  unfold icebergCount
  have rest : 0 ≤ (total - config.maxChildSize) / config.maxChildSize :=
    div_nonneg (by linarith) size.le
  rw [← Nat.ceil_add_one rest, sub_div, div_self size.ne', sub_add_cancel]

theorem icebergCount_one (positive : 0 < total) (fits : total ≤ config.maxChildSize) :
    icebergCount config total = 1 := by
  have size : 0 < config.maxChildSize := positive.trans_le fits
  unfold icebergCount
  rw [Nat.ceil_eq_iff one_ne_zero]
  refine ⟨?_, ?_⟩
  · simpa using div_pos positive size
  · simpa using (div_le_one size).mpr fits

theorem lastAbove_succ (size : 0 < config.maxChildSize) (more : config.maxChildSize < total) :
    LastAbove config total ↔ LastAbove config (total - config.maxChildSize) := by
  have rest : total - config.maxChildSize -
      (icebergCount config (total - config.maxChildSize) - 1 : ℚ) * config.maxChildSize =
      total - ((icebergCount config (total - config.maxChildSize) + 1 : Nat) - 1 : ℚ) *
        config.maxChildSize := by
    push_cast
    ring
  unfold LastAbove
  rw [icebergCount_succ size more, rest]

theorem lastAbove_one (positive : 0 < total) (fits : total ≤ config.maxChildSize) :
    LastAbove config total ↔ config.minChildSize < total := by
  unfold LastAbove
  rw [icebergCount_one positive fits]
  simp

theorem icebergQuantities_none (limit : Nat) (small : total ≤ config.minChildSize) :
    icebergQuantities config limit total = [] := by
  cases limit with
  | zero => rfl
  | succ limit => exact if_neg (not_lt.mpr small)

theorem icebergQuantities_one (least : 0 < config.minChildSize)
    (above : config.minChildSize < total) (fits : total ≤ config.maxChildSize) :
    icebergQuantities config (limit + 1) total = [total] := by
  have rest := icebergQuantities_none limit least.le
  unfold icebergQuantities
  simp only [if_pos above, min_eq_left fits, sub_self, rest]

section

variable (ordered : config.minChildSize ≤ config.maxChildSize)
include ordered

theorem icebergQuantities_more (more : config.maxChildSize < total) :
    icebergQuantities config (limit + 1) total =
      config.maxChildSize :: icebergQuantities config limit (total - config.maxChildSize) := by
  conv_lhs => unfold icebergQuantities
  rw [if_pos (ordered.trans_lt more), min_eq_right more.le]

theorem iceberg_whole (least : 0 < config.minChildSize) (positive : 0 < total)
    (few : icebergCount config total ≤ limit) (last : LastAbove config total) :
    (icebergQuantities config limit total).length = icebergCount config total ∧
      (icebergQuantities config limit total).sum = total := by
  have size : 0 < config.maxChildSize := least.trans_le ordered
  induction limit generalizing total with
  | zero =>
    have some_ : 0 < icebergCount config total := Nat.ceil_pos.mpr (div_pos positive size)
    omega
  | succ limit ih =>
    by_cases fits : total ≤ config.maxChildSize
    · have above := (lastAbove_one positive fits).mp last
      rw [icebergQuantities_one least above fits, icebergCount_one positive fits]
      simp
    · have more : config.maxChildSize < total := not_le.mp fits
      have count := icebergCount_succ size more
      have rest : 0 < total - config.maxChildSize := by linarith
      obtain ⟨length, sum⟩ := ih rest (by omega) ((lastAbove_succ size more).mp last)
      rw [icebergQuantities_more ordered more, List.length_cons, List.sum_cons, length, sum, count]
      exact ⟨rfl, by ring⟩

theorem fits_of_iceberg (least : 0 < config.minChildSize) (positive : 0 < total)
    (whole : (icebergQuantities config limit total).sum = total) :
    icebergCount config total ≤ limit ∧ LastAbove config total := by
  have size : 0 < config.maxChildSize := least.trans_le ordered
  induction limit generalizing total with
  | zero => exact absurd whole positive.ne
  | succ limit ih =>
    by_cases fits : total ≤ config.maxChildSize
    · rw [icebergCount_one positive fits, lastAbove_one positive fits]
      refine ⟨by omega, ?_⟩
      by_contra below
      rw [icebergQuantities_none _ (not_lt.mp below)] at whole
      exact absurd whole positive.ne
    · have more : config.maxChildSize < total := not_le.mp fits
      have rest : 0 < total - config.maxChildSize := by linarith
      rw [icebergQuantities_more ordered more, List.sum_cons] at whole
      obtain ⟨few, last⟩ := ih rest (by linarith)
      rw [icebergCount_succ size more, lastAbove_succ size more]
      exact ⟨by omega, last⟩

end

/-! ## Equal children -/

theorem numChildren_pos_iff (least : 0 < config.minChildSize) (target : 1 ≤ config.targetChildren)
    (total : ℚ) : 0 < numChildren config total ↔ config.minChildSize ≤ total := by
  have one : 0 < (total / config.minChildSize).floor.toNat ↔ config.minChildSize ≤ total := by
    have reached : (1 : ℤ) ≤ (total / config.minChildSize).floor ↔
        config.minChildSize ≤ total := by
      rw [Rat.le_floor_iff]
      exact one_le_div least
    rw [← reached]
    omega
  unfold numChildren
  rw [if_neg least.ne', lt_min_iff, one]
  exact and_iff_right target

theorem twap_whole (some_ : 0 < numChildren config total) :
    (twapQuantities config total).sum = total := by
  have count : (numChildren config total : ℚ) ≠ 0 := by exact_mod_cast some_.ne'
  unfold twapQuantities
  rw [List.sum_replicate, nsmul_eq_mul]
  field_simp

/-! ## The ids -/

theorem generated_ids (order : SyntheticOrder) (nowMs : Nat → Nat) :
    (order.generateChildren nowMs).1.map (fun child => castU64 child.childId) =
      (List.range order.splitQuantities.2.length).map fun sequence =>
        castU64 (nowMs sequence + sequence) := by
  apply List.ext_getElem
  · simp [generateChildren, childrenOf]
  · simp [generateChildren, childrenOf]

theorem generated_quantities (order : SyntheticOrder) (nowMs : Nat → Nat) :
    (order.generateChildren nowMs).1.map ChildOrder.quantity = order.splitQuantities.2 := by
  apply List.ext_getElem
  · simp [generateChildren, childrenOf]
  · simp [generateChildren, childrenOf]

theorem idsDiffer_of_steady (steady : ∀ sequence, nowMs sequence ≤ nowMs (sequence + 1))
    (small : nowMs count + count ≤ u64Size) : IdsDiffer nowMs count := by
  have ordered : Monotone nowMs := monotone_nat_of_le_succ steady
  apply List.Nodup.map_on _ List.nodup_range
  intro i below j below_ same
  have first := ordered (List.mem_range.mp below).le
  have second := ordered (List.mem_range.mp below_).le
  have small_ := List.mem_range.mp below
  have small_' := List.mem_range.mp below_
  rw [castU64_of_fits (by omega), castU64_of_fits (by omega)] at same
  rcases Nat.lt_trichotomy i j with less | equal | more
  · have later := ordered less.le
    omega
  · exact equal
  · have later := ordered more.le
    omega

/-! ## The children -/

/-- The quantities of an order that fits are as many as it takes and add up to it, without a
quotient by zero. -/
theorem quantities_of_fits (least : 0 < order.config.minChildSize)
    (ordered : order.config.minChildSize ≤ order.config.maxChildSize)
    (target : 1 ≤ order.config.targetChildren) (positive : 0 < order.totalQuantity)
    (kind : order.orderType ≠ .bracket) (fits : order.FitsChildren) :
    order.splitQuantities.2.length = order.wholeCount ∧
      order.splitQuantities.2.sum = order.totalQuantity ∧
      (order.orderType ∈ [SyntheticOrderType.twap, .vwap] →
        numChildren order.config order.totalQuantity ≠ 0) := by
  have size : order.config.minChildSize ≠ 0 := least.ne'
  unfold FitsChildren at fits
  unfold splitQuantities wholeCount
  cases type : order.orderType with
  | bracket => exact absurd type kind
  | sniper => simp
  | iceberg =>
    simp only [type] at fits
    obtain ⟨length, sum⟩ := iceberg_whole ordered least positive fits.1 fits.2
    exact ⟨length, sum, by simp⟩
  | twap | vwap =>
    simp only [type] at fits
    have some_ := (numChildren_pos_iff least target order.totalQuantity).mpr fits
    refine ⟨?_, twap_whole some_, fun _ => some_.ne'⟩
    simp only [twapQuantities, List.length_replicate, numChildren, if_neg size]

theorem fits_of_quantities (least : 0 < order.config.minChildSize)
    (ordered : order.config.minChildSize ≤ order.config.maxChildSize)
    (target : 1 ≤ order.config.targetChildren) (positive : 0 < order.totalQuantity)
    (divides : order.orderType ∈ [SyntheticOrderType.twap, .vwap] →
      numChildren order.config order.totalQuantity ≠ 0)
    (whole : order.splitQuantities.2.sum = order.totalQuantity) : order.FitsChildren := by
  unfold splitQuantities at whole
  unfold FitsChildren
  cases type : order.orderType with
  | bracket | sniper => trivial
  | iceberg =>
    simp only [type] at whole
    exact fits_of_iceberg ordered least positive whole
  | twap | vwap =>
    have some_ := divides (by simp [type])
    exact (numChildren_pos_iff least target order.totalQuantity).mp (Nat.pos_of_ne_zero some_)

/-- An order is split without loss exactly if it fits its children and their ids differ. -/
theorem splitsWhole_iff (order : SyntheticOrder) (nowMs : Nat → Nat)
    (least : 0 < order.config.minChildSize)
    (ordered : order.config.minChildSize ≤ order.config.maxChildSize)
    (target : 1 ≤ order.config.targetChildren) (positive : 0 < order.totalQuantity)
    (kind : order.orderType ≠ .bracket) :
    order.SplitsWhole nowMs ↔ order.FitsChildren ∧ IdsDiffer nowMs order.wholeCount := by
  constructor
  · rintro ⟨divides, -, distinct, total⟩
    rw [generated_quantities] at total
    have fits := fits_of_quantities least ordered target positive divides total
    have length := (quantities_of_fits least ordered target positive kind fits).1
    rw [generated_ids, length] at distinct
    exact ⟨fits, distinct⟩
  · rintro ⟨fits, differ⟩
    obtain ⟨length, sum, divides⟩ :=
      quantities_of_fits least ordered target positive kind fits
    refine ⟨divides, ?_, ?_, ?_⟩
    · intro empty
      have none_ := generated_quantities order nowMs
      rw [empty] at none_
      rw [← none_] at sum
      exact absurd sum positive.ne
    · rw [generated_ids, length]
      exact differ
    · rw [generated_quantities, sum]

end Splits

/-- The order of the test, with the type and the quantity of its own. -/
def testOrder (orderType : SyntheticOrderType) (totalQuantity : ℚ) : SyntheticOrder :=
  .new 1 orderType "ETHUSDT" "SELL" totalQuantity
    { minChildSize := 1 / 10, maxChildSize := 3 / 10, targetChildren := 5 }

/-- An iceberg that ends with a child above the smallest size is split without loss. -/
theorem splitsWhole_iceberg : (testOrder .iceberg (11 / 10)).SplitsWhole fun _ => 1700000000000 :=
  (splitsWhole_iff (testOrder .iceberg (11 / 10)) (fun _ => 1700000000000) (by decide +kernel)
    (by decide +kernel) (by decide) (by decide +kernel) (by decide)).mpr (by
      constructor
      · show icebergCount _ _ ≤ 100 ∧ _ < _
        decide +kernel
      · exact idsDiffer_of_steady (fun _ => Nat.le_refl _) (by decide +kernel))

/-- The order of the test ends with a tenth that no child takes, and an order of equal children
below the smallest size has none. -/
theorem drops_quantity :
    (((testOrder .iceberg 1).generateChildren fun _ => 1700000000000).1.map
        ChildOrder.quantity = [3 / 10, 3 / 10, 3 / 10]) ∧
      ((testOrder .twap (1 / 20)).generateChildren fun _ => 1700000000000).1 = [] ∧
      ¬ (testOrder .iceberg 1).SplitsWhole fun _ => 1700000000000 := by
  have quantities : ((testOrder .iceberg 1).generateChildren fun _ => 1700000000000).1.map
      ChildOrder.quantity = [3 / 10, 3 / 10, 3 / 10] := by decide +kernel
  refine ⟨quantities, by decide +kernel, ?_⟩
  intro whole
  have total := whole.total
  rw [quantities] at total
  exact absurd total (by decide +kernel)

end SyntheticOrder

end TradingBot.Oms
