import Mathlib.Data.List.Forall2
import TradingBot.Foundation.Bytes

/-!
# Packed formats

A format is a list of fields of fixed size, little-endian and without padding. Packing writes one
value for each field; unpacking reads a buffer of exactly the size of the format, and refuses every
other one.
-/

namespace PackedFormat

/-- A field of a format. -/
inductive Field where
  /-- A string of bytes of a given length. -/
  | bytes (width : Nat)
  /-- An unsigned integer of a given number of bytes. -/
  | unsigned (width : Nat)
  /-- A floating-point number of eight bytes. -/
  | double

/-- A value of a field. -/
inductive Value where
  /-- A string of bytes. -/
  | bytes (content : List UInt8)
  /-- An unsigned integer. -/
  | unsigned (number : Nat)
  /-- The pattern of a floating-point number. -/
  | double (pattern : UInt64)
  deriving DecidableEq, Repr

/-- The bytes a field takes. -/
def Field.size : Field → Nat
  | .bytes width => width
  | .unsigned width => width
  | .double => 8

/-- The bytes a format takes. -/
def calcsize (format : List Field) : Nat := (format.map Field.size).sum

/-- Packs the value of a field: a string is cut or filled up with zeros, an integer must fit. -/
def packField : Field → Value → Except String (List UInt8)
  | .bytes width, .bytes content =>
    .ok (content.take width ++ List.replicate (width - content.length) 0)
  | .unsigned width, .unsigned number =>
    if number < 256 ^ width then .ok (Bytes.toLE width number)
    else .error s!"format requires 0 <= number <= {256 ^ width - 1}"
  | .double, .double pattern => .ok (Bytes.toLE 8 pattern.toNat)
  | _, _ => .error "argument of a wrong type"

/-- Packs one value for each field. -/
def pack : List Field → List Value → Except String (List UInt8)
  | [], [] => .ok []
  | field :: format, value :: values => do
    let first ← packField field value
    let rest ← pack format values
    .ok (first ++ rest)
  | _, _ => .error "pack expected another number of items for packing"

/-- The value of a field in its bytes. -/
def unpackField (field : Field) (data : List UInt8) : Value :=
  match field with
  | .bytes _ => .bytes data
  | .unsigned _ => .unsigned (Bytes.ofLE data)
  | .double => .double (UInt64.ofNat (Bytes.ofLE data))

/-- The values of the fields of a format in their bytes. -/
def unpackFields : List Field → List UInt8 → List Value
  | [], _ => []
  | field :: format, data =>
    unpackField field (data.take field.size) :: unpackFields format (data.drop field.size)

/-- Unpacks a buffer, which must have the size of the format. -/
def unpack (format : List Field) (data : List UInt8) : Except String (List Value) :=
  if data.length = calcsize format then .ok (unpackFields format data)
  else .error s!"unpack requires a buffer of {calcsize format} bytes"

/-- A value is one that its field holds in full. -/
def Fits : Field → Value → Prop
  | .bytes width, .bytes content => content.length = width
  | .unsigned width, .unsigned number => number < 256 ^ width
  | .double, .double _ => True
  | _, _ => False

theorem unpack_error {format : List Field} {data : List UInt8}
    (other : data.length ≠ calcsize format) :
    unpack format data = .error s!"unpack requires a buffer of {calcsize format} bytes" :=
  if_neg other

theorem packField_of_fits {field : Field} {value : Value} (fits : Fits field value) :
    ∃ bytes, packField field value = .ok bytes ∧ bytes.length = field.size ∧
      unpackField field bytes = value := by
  cases field with
  | bytes width =>
    cases value with
    | bytes content =>
      have width : content.length = width := fits
      subst width
      refine ⟨content, ?_, rfl, rfl⟩
      simp [packField]
    | unsigned number | double pattern => exact fits.elim
  | unsigned width =>
    cases value with
    | unsigned number =>
      refine ⟨Bytes.toLE width number, if_pos fits, Bytes.toLE_length width number, ?_⟩
      exact congrArg Value.unsigned (Bytes.ofLE_toLE_of_fits fits)
    | bytes content | double pattern => exact fits.elim
  | double =>
    cases value with
    | double pattern =>
      have inside : pattern.toNat < 256 ^ 8 := by
        have := pattern.toNat_lt
        omega
      refine ⟨Bytes.toLE 8 pattern.toNat, rfl, Bytes.toLE_length 8 pattern.toNat, ?_⟩
      simp only [unpackField, Bytes.ofLE_toLE_of_fits inside, UInt64.ofNat_toNat]
    | bytes content | unsigned number => exact fits.elim

theorem unpack_pack {format : List Field} {values : List Value}
    (fits : List.Forall₂ Fits format values) :
    ∃ bytes, pack format values = .ok bytes ∧ bytes.length = calcsize format ∧
      unpackFields format bytes = values := by
  induction fits with
  | nil => exact ⟨[], rfl, rfl, rfl⟩
  | cons fits _ ih =>
    obtain ⟨first, packedFirst, size, unpackedFirst⟩ := packField_of_fits fits
    obtain ⟨rest, packedRest, total, unpackedRest⟩ := ih
    refine ⟨first ++ rest, ?_, ?_, ?_⟩
    · simp [pack, packedFirst, packedRest, bind, Except.bind]
    · simp [calcsize, size, total]
    · simp [unpackFields, ← size, unpackedFirst, unpackedRest]

end PackedFormat
