import Mathlib

/-!
# Binary64 numbers

Comparisons, minima and subtraction of floats, with infinities and NaN. They are no order: NaN is
not even equal to itself, and the difference of a float with itself is zero or NaN. The keys of a
sorted map are in the total order of their bit patterns.
-/

namespace Binary64

open Float.Model (UnpackedFloat Format)

/-! ## Comparisons -/

/-- A comparison the other way round is swapped. -/
theorem compare_swap (first second : UnpackedFloat) :
    second.compare first = (first.compare second).map Ordering.swap := by
  cases first with
  | notANumber => cases second <;> rfl
  | infinity sign =>
    cases second with
    | infinity other => cases sign <;> cases other <;> rfl
    | notANumber | zero | finite => cases sign <;> rfl
  | zero sign =>
    cases second with
    | notANumber | zero => rfl
    | infinity other | finite other => cases other <;> rfl
  | finite sign mantissa exponent =>
    cases second with
    | notANumber => rfl
    | infinity other => cases other <;> rfl
    | zero => cases sign <;> rfl
    | finite other otherMantissa otherExponent =>
      have swapped : ((compare exponent otherExponent).then (compare mantissa otherMantissa)).swap =
          (compare otherExponent exponent).then (compare otherMantissa mantissa) := by
        rw [Ordering.swap_then, Int.compare_swap, Nat.compare_swap]
      cases sign <;> cases other
      · simp only [UnpackedFloat.compare, ← swapped, Option.map_some]
      · rfl
      · rfl
      · simp only [UnpackedFloat.compare, swapped, Option.map_some]

/-- A number compares as equal with itself. -/
theorem compare_self {float : UnpackedFloat} (number : float.isNaN = false) :
    float.compare float = some .eq := by
  cases float with
  | notANumber => cases number
  | infinity sign => cases sign <;> rfl
  | zero => rfl
  | finite sign => cases sign <;> simp [UnpackedFloat.compare]

variable {first second float : Float}

theorem lt_iff : first < second ↔
    first.toModel.unpack.compare second.toModel.unpack = some .lt := by
  show decide (first.toModel < second.toModel) = true ↔ _
  rw [decide_eq_true_iff]
  exact beq_iff_eq

theorem le_iff : first ≤ second ↔
    (first.toModel.unpack.compare second.toModel.unpack).any Ordering.isLE = true :=
  decide_eq_true_iff

/-- A float that is less or equal is not greater. -/
theorem not_lt_of_le (atMost : first ≤ second) : ¬second < first := by
  intro less
  rw [le_iff, compare_swap, lt_iff.mp less] at atMost
  cases atMost

theorem le_of_lt (less : first < second) : first ≤ second := by
  rw [le_iff, lt_iff.mp less]
  rfl

/-- What is compared with another float is a number. -/
theorem isNaN_of_lt (less : first < second) : first.isNaN = false ∧ second.isNaN = false := by
  have compared := lt_iff.mp less
  show first.toModel.unpack.isNaN = false ∧ second.toModel.unpack.isNaN = false
  generalize first.toModel.unpack = left at compared
  generalize second.toModel.unpack = right at compared
  cases left with
  | notANumber => cases compared
  | infinity sign | zero sign | finite sign =>
    cases right with
    | notANumber => cases sign <;> cases compared
    | infinity | zero | finite => exact ⟨rfl, rfl⟩

/-- A number is less or equal to itself. -/
theorem le_self (number : float.isNaN = false) : float ≤ float := by
  rw [le_iff, compare_self number]
  rfl

/-- The difference of a float with itself is zero or NaN. -/
theorem not_pos_sub_self (float : Float) : ¬0 < float - float := by
  have zeroOrNaN : UnpackedFloat.sub .binary64 float.toModel.unpack float.toModel.unpack =
      .zero .positive ∨
        UnpackedFloat.sub .binary64 float.toModel.unpack float.toModel.unpack = .notANumber := by
    cases float.toModel.unpack with
    | notANumber => exact .inr rfl
    | infinity sign => exact .inr (by cases sign <;> rfl)
    | zero sign => exact .inl (by cases sign <;> rfl)
    | finite sign => exact .inl (by simp only [UnpackedFloat.sub, Int.sub_self]; rfl)
  show ¬0 < Float.ofModel (.pack (UnpackedFloat.sub .binary64 _ _))
  obtain zero | none_ := zeroOrNaN
  · rw [zero]
    decide +kernel
  · rw [none_]
    decide +kernel

/-! ## Minima -/

/-- `f64::min`: a NaN is no minimum of a number. -/
def min (first second : Float) : Float :=
  if second < first then second else if first.isNaN then second else first

theorem min_self (float : Float) : min float float = float := by
  unfold min
  split
  · rfl
  · split <;> rfl

/-- The minimum with a number is one of both, and a second one that is less. -/
theorem min_cases (number : first.isNaN = false) (second : Float) :
    second < first ∧ min first second = second ∨
      ¬second < first ∧ min first second = first := by
  unfold min
  by_cases less : second < first
  · exact .inl ⟨less, if_pos less⟩
  · rw [if_neg less, number]
    exact .inr ⟨less, rfl⟩

/-- The minimum of a minimum is itself. -/
theorem min_left_min (number : first.isNaN = false) (second : Float) :
    min (min first second) first = min first second := by
  obtain ⟨less, same⟩ | ⟨-, same⟩ := min_cases number second
  · rw [same, min, if_neg (not_lt_of_le (le_of_lt less)), (isNaN_of_lt less).1]
    rfl
  · rw [same, min_self]

/-! ## The total order -/

/-- A float as a key of a sorted map. -/
structure Key where
  float : Float

/-- The place of a key in the order `total_cmp`: the bit pattern as a signed magnitude. -/
def Key.rank (key : Key) : Int :=
  let bits := key.float.toBits.toNat
  if bits < 2 ^ 63 then bits else 2 ^ 63 - 1 - (bits : Int)

theorem Key.rank_injective : Function.Injective Key.rank := by
  rintro ⟨⟨⟨first, _⟩⟩⟩ ⟨⟨⟨second, _⟩⟩⟩ same
  have bits : first.toNat = second.toNat := by
    unfold rank Float.toBits at same
    dsimp only at same
    by_cases low : first.toNat < 2 ^ 63 <;> by_cases lower : second.toNat < 2 ^ 63
    · rw [if_pos low, if_pos lower] at same
      omega
    · rw [if_pos low, if_neg lower] at same
      omega
    · rw [if_neg low, if_pos lower] at same
      omega
    · rw [if_neg low, if_neg lower] at same
      omega
  cases UInt64.toNat_inj.mp bits
  rfl

instance : LinearOrder Key := LinearOrder.lift' Key.rank Key.rank_injective

end Binary64
