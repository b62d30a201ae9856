import Mathlib.Tactic.NormNum
import TradingBot.Foundation.StableSort
import TradingBot.Protocols.BitwisePacker

/-!
# Priority of packed orders

Packed orders are compared by side and by the fraction of the price alone. So a sort by them puts
the buys first, but has the prices of a side in order only where the fractions are in the order of
the prices, and two orders of one side with one fraction compare as equal whatever else is in their
words. Changes of the flags and of the side leave the other bits of a word.
-/

open StableSort

namespace TradingBot.Protocols

/-! ## Bits -/

namespace PackedOrder

section Bits

variable {index : Nat}

/-- The bits of a mask are its lowest. -/
theorem getLsbD_lowest {size width : Nat} (fits : width ≤ size) :
    (BitVec.ofNat size (2 ^ width - 1)).getLsbD index = decide (index < width) := by
  rw [BitVec.getLsbD_ofNat, Nat.testBit_two_pow_sub_one, ← Bool.decide_and, decide_eq_decide]
  omega

theorem getLsbD_mask16 : (0xFFFF : BitVec 64).getLsbD index = decide (index < 16) :=
  @getLsbD_lowest index 64 16 (by decide)

theorem getLsbD_mask8 : (0xFF : BitVec 64).getLsbD index = decide (index < 8) :=
  @getLsbD_lowest index 64 8 (by decide)

theorem getLsbD_mask7 : (0x7F : BitVec 64).getLsbD index = decide (index < 7) :=
  @getLsbD_lowest index 64 7 (by decide)

theorem getLsbD_mask1 : (0x01 : BitVec 64).getLsbD index = decide (index < 1) :=
  @getLsbD_lowest index 64 1 (by decide)

theorem getLsbD_side (isSell : Bool) :
    (if isSell then 1 else 0 : BitVec 64).getLsbD index = (isSell && decide (index < 1)) := by
  cases isSell with
  | false => rw [Bool.false_and]; exact BitVec.getLsbD_zero
  | true => rw [Bool.true_and]; exact getLsbD_mask1

theorem isSell_eq (order : PackedOrder) : order.isSell = order.word.getLsbD 63 := by
  have bit : (order.word >>> sideShift) &&& sideMask =
      (BitVec.ofBool (order.word.getLsbD 63)).setWidth 64 := by
    have one : ((order.word >>> 63) &&& 1#64) = _ := BitVec.and_one_eq_setWidth_ofBool_getLsbD
    rw [BitVec.getLsbD_ushiftRight] at one
    exact one
  unfold isSell
  rw [bit]
  cases order.word.getLsbD 63 <;> rfl

end Bits

theorem flags_setFlags (order : PackedOrder) (newFlags : BitVec 16) :
    (order.setFlags newFlags).flags = newFlags := by
  unfold setFlags flags flagsMask flagsShift
  refine BitVec.eq_of_getLsbD_eq fun index inside => ?_
  simp only [BitVec.getLsbD_and, BitVec.getLsbD_or, BitVec.getLsbD_not, BitVec.getLsbD_shiftLeft,
    getLsbD_mask16, BitVec.getLsbD_setWidth, BitVec.getLsbD_ushiftRight]
  grind

theorem setFlags_beside (order : PackedOrder) (newFlags : BitVec 16) :
    (order.setFlags newFlags).word &&& ~~~(flagsMask <<< flagsShift) =
      order.word &&& ~~~(flagsMask <<< flagsShift) := by
  unfold setFlags flagsMask flagsShift
  refine BitVec.eq_of_getLsbD_eq fun index inside => ?_
  simp only [BitVec.getLsbD_and, BitVec.getLsbD_or, BitVec.getLsbD_not, BitVec.getLsbD_shiftLeft,
    getLsbD_mask16, BitVec.getLsbD_setWidth]
  grind

theorem isSell_toggleSide (order : PackedOrder) : order.toggleSide.isSell = !order.isSell := by
  rw [isSell_eq, isSell_eq]
  unfold toggleSide sideMask sideShift
  simp only [BitVec.getLsbD_xor, BitVec.getLsbD_shiftLeft, getLsbD_mask1]
  grind

theorem toggleSide_beside (order : PackedOrder) :
    order.toggleSide.word &&& ~~~(sideMask <<< sideShift) =
      order.word &&& ~~~(sideMask <<< sideShift) := by
  unfold toggleSide
  refine BitVec.eq_of_getLsbD_eq fun index inside => ?_
  simp only [BitVec.getLsbD_and, BitVec.getLsbD_xor, BitVec.getLsbD_not]
  grind

/-- The bits of a new order, by the fields they are in. -/
theorem getLsbD_new {fields : OrderFields} {order : PackedOrder} (made : new fields = some order)
    (index : Nat) : order.word.getLsbD index =
      if index < 16 then fields.priceFrac.getLsbD index
      else if index < 32 then fields.quantityFrac.getLsbD (index - 16)
      else if index < 48 then fields.flags.getLsbD (index - 32)
      else if index < 56 then fields.assetId.getLsbD (index - 48)
      else if index < 63 then fields.sequence.getLsbD (index - 56)
      else decide (index = 63) && fields.isSell := by
  unfold new at made
  split at made
  · cases made
  · split at made
    · cases made
    · cases made
      unfold priceFracShift priceFracMask quantityFracShift quantityFracMask flagsShift flagsMask
        assetShift assetMask sequenceShift sequenceMask sideShift sideMask
      simp only [BitVec.getLsbD_or, BitVec.getLsbD_and, BitVec.getLsbD_shiftLeft,
        BitVec.getLsbD_setWidth, getLsbD_mask16, getLsbD_mask8, getLsbD_mask7, getLsbD_mask1,
        getLsbD_side]
      grind

/-- The fields of a packed order are those it is made of. -/
theorem new_fields {fields : OrderFields} {order : PackedOrder} (made : new fields = some order) :
    order.priceFraction = fields.priceFrac ∧ order.quantityFraction = fields.quantityFrac ∧
      order.flags = fields.flags ∧ order.assetId = fields.assetId ∧
      order.sequence = fields.sequence &&& 0x7F ∧ order.isSell = fields.isSell := by
  have bits := getLsbD_new made
  refine ⟨?_, ?_, ?_, ?_, ?_, ?_⟩
  · refine BitVec.eq_of_getLsbD_eq fun index inside => ?_
    unfold priceFraction priceFracShift priceFracMask
    simp only [BitVec.getLsbD_and, getLsbD_mask16, BitVec.getLsbD_setWidth,
      BitVec.getLsbD_ushiftRight, bits]
    grind
  · refine BitVec.eq_of_getLsbD_eq fun index inside => ?_
    unfold quantityFraction quantityFracShift quantityFracMask
    simp only [BitVec.getLsbD_and, getLsbD_mask16, BitVec.getLsbD_setWidth,
      BitVec.getLsbD_ushiftRight, bits]
    grind
  · refine BitVec.eq_of_getLsbD_eq fun index inside => ?_
    unfold PackedOrder.flags flagsShift flagsMask
    simp only [BitVec.getLsbD_and, getLsbD_mask16, BitVec.getLsbD_setWidth,
      BitVec.getLsbD_ushiftRight, bits]
    grind
  · refine BitVec.eq_of_getLsbD_eq fun index inside => ?_
    unfold PackedOrder.assetId assetShift assetMask
    simp only [BitVec.getLsbD_and, getLsbD_mask8, BitVec.getLsbD_setWidth,
      BitVec.getLsbD_ushiftRight, bits]
    grind
  · refine BitVec.eq_of_getLsbD_eq fun index inside => ?_
    have low : (0x7F : BitVec 8).getLsbD index = decide (index < 7) :=
      @getLsbD_lowest index 8 7 (by decide)
    unfold PackedOrder.sequence sequenceShift sequenceMask
    simp only [BitVec.getLsbD_and, getLsbD_mask7, BitVec.getLsbD_setWidth,
      BitVec.getLsbD_ushiftRight, bits, low]
    grind
  · rw [isSell_eq, bits]
    grind

/-- The top bit of a sequence number is lost. -/
theorem new_fields_sample :
    (PackedOrder.mk 0xFF05270F00010002).sequence = (0xFF : BitVec 8) &&& 0x7F :=
  (@new_fields ⟨7, 2, 9, 1, 0x270F, 5, 0xFF, true⟩ _ rfl).2.2.2.2.1

/-! ## Comparison -/

section Comparison

variable {order other third : PackedOrder}

theorem isLE_cmp : (order.cmp other).isLE = true ↔
    order.isSell = false ∧ other.isSell = true ∨
      order.isSell = false ∧ other.isSell = false ∧
        other.priceFraction.toNat ≤ order.priceFraction.toNat ∨
      order.isSell = true ∧ other.isSell = true ∧
        order.priceFraction.toNat ≤ other.priceFraction.toNat := by
  unfold cmp isBuy comparePriceFrac
  cases order.isSell <;> cases other.isSell <;> simp [Nat.isLE_compare]

theorem cmp_eq_eq : order.cmp other = .eq ↔
    order.isSell = other.isSell ∧ order.priceFraction = other.priceFraction := by
  have turned : other.priceFraction = order.priceFraction ↔
      order.priceFraction = other.priceFraction := eq_comm
  unfold cmp isBuy comparePriceFrac
  cases order.isSell <;> cases other.isSell <;>
    simp [BitVec.toNat_inj, turned]

theorem cmp_swap (order other : PackedOrder) : (order.cmp other).swap = other.cmp order := by
  unfold cmp isBuy comparePriceFrac
  cases order.isSell <;> cases other.isSell <;> simp [Nat.compare_swap]

theorem cmp_trans (first : (order.cmp other).isLE = true) (second : (other.cmp third).isLE = true) :
    (order.cmp third).isLE = true := by
  rw [isLE_cmp] at first second ⊢
  grind

theorem cmp_total (order other : PackedOrder) :
    ((order.cmp other).isLE || (other.cmp order).isLE) = true := by
  rw [Bool.or_eq_true, isLE_cmp, isLE_cmp]
  cases order.isSell <;> cases other.isSell <;> simp <;> omega

end Comparison

end PackedOrder

namespace OrderPriority

/-! ## Sorting -/

/-- The orders sorted by their packed words; a sort is stable. -/
def sortOrders (orders : List FullPackedOrder) : List FullPackedOrder :=
  orders.mergeSort fun first second => (first.packed.cmp second.packed).isLE

/-- An order goes before another: no sell before a buy, a higher price before a lower one among the
buys, and a lower one before a higher one among the sells. -/
def GoesBefore (first second : FullPackedOrder) : Prop :=
  (first.packed.isSell = true → second.packed.isSell = true) ∧
  (first.packed.isBuy = true → second.packed.isBuy = true → second.getPrice ≤ first.getPrice) ∧
  (first.packed.isSell = true → second.packed.isSell = true → first.getPrice ≤ second.getPrice)

/-- A change of a word leaves the bits beside some bits. -/
def ChangesOnly (bits : BitVec 64) (change : PackedOrder → PackedOrder) : Prop :=
  ∀ order, (change order).word &&& ~~~bits = order.word &&& ~~~bits

/-- Sorting some orders puts them in the order of side and price; the comparison is a total order,
and equal for equal words of the orders only; the changes of a word keep to their bits. -/
structure Prioritised (orders : List FullPackedOrder) : Prop where
  sorted : (sortOrders orders).Pairwise GoesBefore
  equal : ∀ order ∈ orders, ∀ other ∈ orders,
    order.packed.cmp other.packed = .eq ↔ order.packed = other.packed
  swapped : ∀ order other : PackedOrder, (order.cmp other).swap = other.cmp order
  transitive : ∀ order other third : PackedOrder, (order.cmp other).isLE = true →
    (other.cmp third).isLE = true → (order.cmp third).isLE = true
  toggled : ∀ order : PackedOrder, order.toggleSide.isSell = !order.isSell
  toggledOnly : ChangesOnly (sideMask <<< sideShift) PackedOrder.toggleSide
  flagged : ∀ (order : PackedOrder) (flag : BitVec 16),
    (order.withFlag flag).flags = order.flags ||| flag ∧
      (order.withoutFlag flag).flags = order.flags &&& ~~~flag
  flaggedOnly : ∀ flag, ChangesOnly (flagsMask <<< flagsShift) (·.withFlag flag) ∧
    ChangesOnly (flagsMask <<< flagsShift) (·.withoutFlag flag)

/-- Two orders of one side, the first of which comes first in the list, have their price fractions
in the order of their prices, and with equal fractions the first has the price that goes first. -/
def FractionsTell (first second : FullPackedOrder) : Prop :=
  (first.packed.isBuy = true → second.packed.isBuy = true →
    if second.packed.priceFraction.toNat ≤ first.packed.priceFraction.toNat then
      second.priceTotal ≤ first.priceTotal
    else first.priceTotal ≤ second.priceTotal) ∧
  (first.packed.isSell = true → second.packed.isSell = true →
    if first.packed.priceFraction.toNat ≤ second.packed.priceFraction.toNat then
      first.priceTotal ≤ second.priceTotal
    else second.priceTotal ≤ first.priceTotal)

instance : DecidableRel FractionsTell := fun _ _ => inferInstanceAs (Decidable (_ ∧ _))

/-- Two orders of one side with one price fraction have the same word. -/
def SameWord (first second : FullPackedOrder) : Prop :=
  first.packed.isSell = second.packed.isSell →
    first.packed.priceFraction = second.packed.priceFraction → first.packed = second.packed

instance : DecidableRel SameWord := fun _ _ => inferInstanceAs (Decidable (_ → _ → _))

theorem getPrice_le {first second : FullPackedOrder} :
    first.getPrice ≤ second.getPrice ↔ first.priceTotal ≤ second.priceTotal := by
  unfold FullPackedOrder.getPrice
  rw [div_le_div_iff_of_pos_right (by norm_num), Nat.cast_le]

theorem agree_iff (first second : FullPackedOrder) :
    Agree (fun first second : FullPackedOrder => (first.packed.cmp second.packed).isLE) GoesBefore
      first second ↔ FractionsTell first second := by
  have atMost := @PackedOrder.isLE_cmp first.packed second.packed
  unfold Agree GoesBefore FractionsTell PackedOrder.isBuy
  rw [getPrice_le, getPrice_le]
  cases one : first.packed.isSell <;> cases two : second.packed.isSell <;>
    rw [one, two] at atMost <;> simp at atMost <;> simp [atMost]

theorem sorted_iff (orders : List FullPackedOrder) :
    (sortOrders orders).Pairwise GoesBefore ↔ orders.Pairwise FractionsTell := by
  have exact_ := @pairwise_mergeSort_iff _
    (fun first second : FullPackedOrder => (first.packed.cmp second.packed).isLE) GoesBefore orders
    (fun _ _ _ => PackedOrder.cmp_trans) fun _ _ => PackedOrder.cmp_total _ _
  exact exact_.trans (List.Pairwise.iff fun first second => agree_iff first second)

theorem equal_iff (first second : FullPackedOrder) :
    (first.packed.cmp second.packed = .eq ↔ first.packed = second.packed) ↔
      SameWord first second := by
  have same : first.packed = second.packed → first.packed.isSell = second.packed.isSell ∧
      first.packed.priceFraction = second.packed.priceFraction := fun equal => by
    rw [equal]
    exact ⟨rfl, rfl⟩
  rw [PackedOrder.cmp_eq_eq]
  exact ⟨fun both side fraction => both.mp ⟨side, fraction⟩,
    fun word => ⟨fun both => word both.1 both.2, same⟩⟩

/-- For any orders a sort by the packed words is a sort by side and price, with equal words only
compared as equal, and changes of a word keep to their bits, if and only if of any two orders of one
side the fractions tell the prices, and one fraction has one word. -/
theorem prioritised_iff (orders : List FullPackedOrder) :
    Prioritised orders ↔ orders.Pairwise FractionsTell ∧
      ∀ order ∈ orders, ∀ other ∈ orders, SameWord order other := by
  constructor
  · intro holds
    refine ⟨(sorted_iff orders).mp holds.sorted, fun order member other there => ?_⟩
    exact (equal_iff order other).mp (holds.equal order member other there)
  · rintro ⟨tell, words⟩
    exact {
      sorted := (sorted_iff orders).mpr tell
      equal := fun order member other there =>
        (equal_iff order other).mpr (words order member other there)
      swapped := PackedOrder.cmp_swap
      transitive := fun _ _ _ => PackedOrder.cmp_trans
      toggled := PackedOrder.isSell_toggleSide
      toggledOnly := PackedOrder.toggleSide_beside
      flagged := fun order _ => ⟨order.flags_setFlags _, order.flags_setFlags _⟩
      flaggedOnly := fun _ =>
        ⟨fun order => order.setFlags_beside _, fun order => order.setFlags_beside _⟩ }

/-- A buy at 50000 and a buy at 1.5. -/
def twoBuys : List OrderFields :=
  [⟨50000, 0, 1, 0, 0, 1, 1, false⟩, ⟨1, 5000, 1, 0, 0, 1, 2, false⟩]

/-- The buy at 1.5 is sorted before the one at 50000. -/
theorem lower_buy_first :
    ¬ ∀ fields : List OrderFields, Prioritised (fields.filterMap FullPackedOrder.new) := by
  intro claim
  have tell := (sorted_iff _).mp (claim twoBuys).sorted
  revert tell
  decide +kernel

end OrderPriority

end TradingBot.Protocols
