import Mathlib.Data.List.Basic
import Std.Data.String.ToNat

/-!
# Text as bytes, and fields joined by a separator

Fields that are joined by a separator can be told apart from the left as long as the separator is
not in them, and from the right likewise. Decimal numbers and hexadecimal digests hold no colon.
-/

namespace Text

/-- `str::as_bytes`: the UTF-8 bytes of a text. -/
def asBytes (text : String) : List UInt8 := text.toUTF8.data.toList

/-- Texts of equal bytes are equal. -/
theorem asBytes_injective : Function.Injective asBytes := by
  intro first second same
  apply String.toByteArray_inj.mp
  apply ByteArray.ext
  exact Array.toList_inj.mp same

/-- The two hexadecimal digits of a byte. -/
def byteDigits (byte : UInt8) : List Char :=
  [Nat.digitChar (byte.toNat / 16), Nat.digitChar (byte.toNat % 16)]

/-- `hex::encode`: the lower-case hexadecimal text of some bytes. -/
def hexEncode (bytes : List UInt8) : String := String.ofList (bytes.flatMap byteDigits)

theorem digitChar_inj : ∀ first < 16, ∀ second < 16,
    Nat.digitChar first = Nat.digitChar second → first = second := by
  decide

theorem byteDigits_inj {first second : UInt8} (same : byteDigits first = byteDigits second) :
    first = second := by
  have firstSmall := first.toNat_lt
  have secondSmall := second.toNat_lt
  simp only [byteDigits, List.cons.injEq, and_true] at same
  have high := digitChar_inj _ (by omega) _ (by omega) same.1
  have low := digitChar_inj _ (by omega) _ (by omega) same.2
  apply UInt8.toNat_inj.mp
  omega

theorem flatMap_byteDigits_injective :
    Function.Injective fun bytes : List UInt8 => bytes.flatMap byteDigits := by
  intro first
  induction first with
  | nil =>
    intro second same
    cases second with
    | nil => rfl
    | cons byte rest => simp [byteDigits] at same
  | cons byte rest ih =>
    intro second same
    cases second with
    | nil => simp [byteDigits] at same
    | cons other others =>
      have split := List.append_inj same rfl
      rw [byteDigits_inj split.1, ih split.2]

theorem hexEncode_injective : Function.Injective hexEncode := fun _ _ same =>
  flatMap_byteDigits_injective (String.ofList_injective same)

theorem notMem_hexEncode {letter : Char} (bytes : List UInt8)
    (noDigit : ∀ digit, Nat.digitChar digit ≠ letter) : letter ∉ (hexEncode bytes).toList := by
  intro member
  simp only [hexEncode, String.toList_ofList, List.mem_flatMap, byteDigits, List.mem_cons,
    List.not_mem_nil, or_false] at member
  obtain ⟨byte, -, high | low⟩ := member
  · exact noDigit _ high.symm
  · exact noDigit _ low.symm

theorem colon_notMem_hexEncode (bytes : List UInt8) : ':' ∉ (hexEncode bytes).toList :=
  notMem_hexEncode bytes fun _ => Nat.digitChar_ne ':' rfl

theorem colon_notMem_repr (number : Nat) : ':' ∉ number.repr.toList := by
  rw [Nat.toList_repr]
  intro member
  have digit := Nat.isDigit_of_mem_toDigits (by decide) (by decide) member
  exact absurd digit (by decide)

section Joined

variable {α : Type*} {separator : α} {first second front back : List α}

theorem first_field (clearFirst : separator ∉ first) (clearSecond : separator ∉ second)
    (same : first ++ separator :: front = second ++ separator :: back) :
    first = second ∧ front = back := by
  rcases List.append_eq_append_iff.mp same with ⟨more, grown, tail⟩ | ⟨more, grown, tail⟩
  · cases more with
    | nil => simp_all
    | cons head rest =>
      have inside : separator ∈ second := by
        rw [grown, ← (List.cons.inj tail).1]
        exact List.mem_append_right _ List.mem_cons_self
      exact absurd inside clearSecond
  · cases more with
    | nil => simp_all
    | cons head rest =>
      have inside : separator ∈ first := by
        rw [grown, ← (List.cons.inj tail).1]
        exact List.mem_append_right _ List.mem_cons_self
      exact absurd inside clearFirst

theorem last_field (clearFront : separator ∉ front) (clearBack : separator ∉ back)
    (same : first ++ separator :: front = second ++ separator :: back) :
    first = second ∧ front = back := by
  have turned : front.reverse ++ separator :: first.reverse =
      back.reverse ++ separator :: second.reverse := by
    simpa using congrArg List.reverse same
  have parts := first_field (by simpa using clearFront) (by simpa using clearBack) turned
  exact ⟨List.reverse_injective parts.2, List.reverse_injective parts.1⟩

end Joined

end Text
