import Mathlib.Tactic.NormNum

/-!
# Machine integers

Fixed-width integers are read as unbounded ones together with what the machine does at the
edge of a type: a checked operation is refused when its result leaves the type, and a
conversion keeps the value modulo the width.
-/

namespace MachineInt

/-- The largest signed 64-bit integer. -/
def i64Max : Int := 9223372036854775807

/-- The smallest signed 64-bit integer. -/
def i64Min : Int := -9223372036854775808

/-- The number of unsigned 64-bit integers. -/
def u64Size : Nat := 18446744073709551616

/-- The largest unsigned 32-bit integer. -/
def u32Max : Nat := 4294967295

/-- The result of a checked signed 64-bit operation: refused when it leaves the type. -/
def i64 (value : Int) : Option Int :=
  if i64Min ≤ value ∧ value ≤ i64Max then some value else none

/-- The conversion of any integer to a signed 64-bit one, keeping it modulo the width. -/
def castI64 (value : Int) : Int := Int.bmod value u64Size

/-- The conversion of a natural number to an unsigned 64-bit one. -/
def castU64 (value : Nat) : Nat := value % u64Size

/-- The result of a checked unsigned 64-bit sum or product: refused when it leaves the type. -/
def u64 (value : Nat) : Option Nat := if value < u64Size then some value else none

/-- The result of a checked unsigned subtraction: refused when it would fall below zero. -/
def uSub (value less : Nat) : Option Nat := if less ≤ value then some (value - less) else none

/-- A checked value is the value itself, within the type. -/
theorem i64_eq_some {value result : Int} :
    i64 value = some result ↔ (i64Min ≤ value ∧ value ≤ i64Max) ∧ value = result := by
  unfold i64
  split <;> simp_all

theorem u64_eq_some {value result : Nat} :
    u64 value = some result ↔ value < u64Size ∧ value = result := by
  unfold u64
  split <;> simp_all

theorem u64_isSome {value : Nat} : (u64 value).isSome = true ↔ value < u64Size := by
  unfold u64
  split <;> simp_all

theorem uSub_eq_some {value less result : Nat} :
    uSub value less = some result ↔ less ≤ value ∧ value - less = result := by
  unfold uSub
  split <;> simp_all

/-- A cast keeps a value within the type. -/
theorem castI64_of_fits {value : Int} (lower : i64Min ≤ value) (upper : value ≤ i64Max) :
    castI64 value = value := by
  unfold i64Min at lower
  unfold i64Max at upper
  exact Int.bmod_eq_of_le (by unfold u64Size; omega) (by unfold u64Size; omega)

theorem castI64_bounds (value : Int) : i64Min ≤ castI64 value ∧ castI64 value ≤ i64Max := by
  have lower := Int.le_bmod (show 0 < u64Size by decide) (x := value)
  have upper := Int.bmod_lt (show 0 < u64Size by decide) (x := value)
  unfold castI64 i64Min i64Max
  unfold u64Size at *
  omega

theorem castI64_eq_self_iff {value : Int} :
    castI64 value = value ↔ i64Min ≤ value ∧ value ≤ i64Max :=
  ⟨fun same => same ▸ castI64_bounds value, fun fits => castI64_of_fits fits.1 fits.2⟩

theorem castI64_natCast {value : Nat} (fits : value < u64Size) :
    castI64 value = if (value : Int) ≤ i64Max then (value : Int) else value - u64Size := by
  unfold castI64
  rw [Int.bmod_def]
  unfold u64Size at fits ⊢
  unfold i64Max
  split <;> split <;> omega

/-- Two unsigned values differ as their signed conversions do if and only if they are in the same
half of the type. -/
theorem castI64_sub_eq_iff {first second : Nat} (firstFits : first < u64Size)
    (secondFits : second < u64Size) :
    castI64 first - castI64 second = (first : Int) - second ↔
      ((first : Int) ≤ i64Max ↔ (second : Int) ≤ i64Max) := by
  rw [castI64_natCast firstFits, castI64_natCast secondFits]
  unfold u64Size i64Max at *
  split <;> split <;> omega

@[simp] theorem castI64_castI64 (value : Int) : castI64 (castI64 value) = castI64 value :=
  Int.bmod_bmod

theorem castI64_castI64_add (value delta : Int) :
    castI64 (castI64 value + delta) = castI64 (value + delta) :=
  Int.bmod_add_bmod

theorem castI64_inj {first second : Int} (same : castI64 first = castI64 second) :
    (u64Size : Int) ∣ first - second := by
  have residue := congrArg (· % (u64Size : Int)) same
  simp only [castI64, Int.bmod_emod] at residue
  exact Int.dvd_of_emod_eq_zero (Int.emod_eq_emod_iff_emod_sub_eq_zero.mp residue)

theorem castI64_emod {divisor : Nat} (divides : divisor ∣ u64Size) (value : Int) :
    castI64 value % divisor = value % divisor := by
  have wide : (divisor : Int) ∣ (u64Size : Int) := Int.natCast_dvd_natCast.mpr divides
  rw [← Int.emod_emod_of_dvd (castI64 value) wide, castI64, Int.bmod_emod,
    Int.emod_emod_of_dvd _ wide]

theorem castU64_of_fits {value : Nat} (upper : value < u64Size) : castU64 value = value :=
  Nat.mod_eq_of_lt upper

end MachineInt
