import Mathlib.Data.List.Basic
import Mathlib.Data.List.OfFn
import Mathlib.Tactic.Ring

/-!
# Byte sequences

Words are written as little-endian base-256 digits at a declared width, signed words in two's
complement. A file is a byte list that is read at an offset and overwritten in place.
-/

namespace Bytes

/-! ## Words -/

/-- A natural number as `width` bytes, least significant first; higher digits are lost. -/
def toLE : Nat → Nat → List UInt8
  | 0, _ => []
  | width + 1, value => UInt8.ofNat value :: toLE width (value / 256)

/-- The natural number a byte list stands for, least significant byte first. -/
def ofLE : List UInt8 → Nat
  | [] => 0
  | byte :: rest => byte.toNat + 256 * ofLE rest

/-- A signed number as `width` bytes in two's complement. -/
def toSignedLE (width : Nat) (value : Int) : List UInt8 :=
  toLE width (value % (256 ^ width : Nat)).toNat

/-- The signed number a byte list stands for in two's complement. -/
def ofSignedLE (bytes : List UInt8) : Int :=
  Int.bmod (ofLE bytes) (256 ^ bytes.length)

/-- A number takes as many bytes as its width. -/
@[simp] theorem toLE_length (width value : Nat) : (toLE width value).length = width := by
  induction width generalizing value with
  | zero => rfl
  | succ width ih => simp [toLE, ih]

@[simp] theorem toSignedLE_length (width : Nat) (value : Int) :
    (toSignedLE width value).length = width :=
  toLE_length width _

theorem ofLE_toLE (width value : Nat) : ofLE (toLE width value) = value % 256 ^ width := by
  induction width generalizing value with
  | zero => simp [toLE, ofLE, Nat.mod_one]
  | succ width ih =>
    have digit : (UInt8.ofNat value).toNat = value % 256 := by simp
    have split : value % 256 ^ (width + 1) = value % 256 + 256 * (value / 256 % 256 ^ width) := by
      rw [Nat.pow_succ, Nat.mul_comm, Nat.mod_mul]
    calc
      ofLE (toLE (width + 1) value) =
          (UInt8.ofNat value).toNat + 256 * ofLE (toLE width (value / 256)) := rfl
      _ = value % 256 ^ (width + 1) := by rw [digit, ih, split]

variable {width : Nat}

/-- A number that fits is read back. -/
theorem ofLE_toLE_of_fits {value : Nat} (fits : value < 256 ^ width) :
    ofLE (toLE width value) = value := by
  rw [ofLE_toLE, Nat.mod_eq_of_lt fits]

theorem ofLE_lt (bytes : List UInt8) : ofLE bytes < 256 ^ bytes.length := by
  induction bytes with
  | nil => exact Nat.one_pos
  | cons byte rest ih =>
    have digit := byte.toNat_lt
    rw [ofLE, List.length_cons, Nat.pow_succ]
    omega

theorem toLE_ofLE (bytes : List UInt8) : toLE bytes.length (ofLE bytes) = bytes := by
  induction bytes with
  | nil => rfl
  | cons byte rest ih =>
    have digit := byte.toNat_lt
    have first : (byte.toNat + 256 * ofLE rest) % 256 = byte.toNat := by omega
    have later : (byte.toNat + 256 * ofLE rest) / 256 = ofLE rest := by omega
    have same : UInt8.ofNat (byte.toNat + 256 * ofLE rest) = byte := by
      apply UInt8.toNat_inj.mp
      rw [UInt8.toNat_ofNat']
      exact first
    rw [List.length_cons, ofLE, toLE, later, ih, same]

theorem ofSignedLE_toSignedLE {value : Int} (lower : -(256 ^ width : Nat) ≤ 2 * value)
    (upper : 2 * value < (256 ^ width : Nat)) : ofSignedLE (toSignedLE width value) = value := by
  have positive : 0 < 256 ^ width := Nat.pow_pos (by decide)
  have nonneg : 0 ≤ value % (256 ^ width : Nat) := Int.emod_nonneg _ (by omega)
  have below : value % (256 ^ width : Nat) < (256 ^ width : Nat) :=
    Int.emod_lt_of_pos _ (by omega)
  have digits : ofLE (toSignedLE width value) = (value % (256 ^ width : Nat)).toNat :=
    ofLE_toLE_of_fits (by omega)
  unfold ofSignedLE
  rw [digits, toSignedLE_length, Int.toNat_of_nonneg nonneg, Int.emod_bmod]
  exact Int.bmod_eq_of_le_mul_two (by omega) (by omega)

/-! ## Big-endian words

A word in network order has its most significant byte first: it is the little-endian word
reversed. Writing and reading undo each other, in both directions. -/

/-- A natural number as `width` bytes, most significant first; higher digits are lost. -/
def toBE (width value : Nat) : List UInt8 := (toLE width value).reverse

/-- The natural number a byte list stands for, most significant byte first. -/
def ofBE (bytes : List UInt8) : Nat := ofLE bytes.reverse

/-- A signed number as `width` bytes in two's complement, most significant first. -/
def toSignedBE (width : Nat) (value : Int) : List UInt8 := (toSignedLE width value).reverse

/-- The signed number a byte list stands for in two's complement, most significant byte first. -/
def ofSignedBE (bytes : List UInt8) : Int := ofSignedLE bytes.reverse

@[simp] theorem toBE_length (width value : Nat) : (toBE width value).length = width := by
  rw [toBE, List.length_reverse, toLE_length]

@[simp] theorem toSignedBE_length (width : Nat) (value : Int) :
    (toSignedBE width value).length = width := by
  rw [toSignedBE, List.length_reverse, toSignedLE_length]

theorem ofBE_toBE {value : Nat} (fits : value < 256 ^ width) : ofBE (toBE width value) = value := by
  rw [ofBE, toBE, List.reverse_reverse, ofLE_toLE_of_fits fits]

theorem ofBE_lt (bytes : List UInt8) : ofBE bytes < 256 ^ bytes.length := by
  have bound := ofLE_lt bytes.reverse
  rwa [List.length_reverse] at bound

theorem toBE_ofBE (bytes : List UInt8) : toBE bytes.length (ofBE bytes) = bytes := by
  have written := toLE_ofLE bytes.reverse
  rw [List.length_reverse] at written
  rw [toBE, ofBE, written, List.reverse_reverse]

theorem ofSignedBE_toSignedBE {value : Int} (lower : -(256 ^ width : Nat) ≤ 2 * value)
    (upper : 2 * value < (256 ^ width : Nat)) : ofSignedBE (toSignedBE width value) = value := by
  rw [ofSignedBE, toSignedBE, List.reverse_reverse, ofSignedLE_toSignedLE lower upper]

theorem toSignedLE_ofSignedLE (bytes : List UInt8) :
    toSignedLE bytes.length (ofSignedLE bytes) = bytes := by
  have below := ofLE_lt bytes
  have same : (ofSignedLE bytes % (256 ^ bytes.length : Nat)).toNat = ofLE bytes := by
    unfold ofSignedLE
    rw [Int.bmod_emod, ← Int.natCast_mod, Nat.mod_eq_of_lt below, Int.toNat_natCast]
  rw [toSignedLE, same, toLE_ofLE]

theorem toSignedBE_ofSignedBE (bytes : List UInt8) :
    toSignedBE bytes.length (ofSignedBE bytes) = bytes := by
  have written := toSignedLE_ofSignedLE bytes.reverse
  rw [List.length_reverse] at written
  rw [toSignedBE, ofSignedBE, written, List.reverse_reverse]

theorem ofSignedBE_bounds (bytes : List UInt8) :
    -((256 ^ bytes.length : Nat) / 2 : Int) ≤ ofSignedBE bytes ∧
      ofSignedBE bytes < ((256 ^ bytes.length : Nat) + 1 : Int) / 2 := by
  have positive : 0 < 256 ^ bytes.length := Nat.pow_pos (by decide)
  unfold ofSignedBE ofSignedLE
  rw [List.length_reverse]
  exact ⟨Int.le_bmod positive, Int.bmod_lt positive⟩

/-! ## Fields of a record and files overwritten in place -/

/-- The bytes between two positions, refused when they are not all there. -/
def slice (bytes : List UInt8) (start stop : Nat) : Option (List UInt8) :=
  if start ≤ stop ∧ stop ≤ bytes.length then some ((bytes.drop start).take (stop - start)) else none

/-- A slice inside the bytes succeeds. -/
theorem slice_inside {bytes : List UInt8} {start stop : Nat} (ordered : start ≤ stop)
    (inside : stop ≤ bytes.length) :
    slice bytes start stop = some ((bytes.drop start).take (stop - start)) :=
  if_pos ⟨ordered, inside⟩

theorem slice_middle {front part back : List UInt8} {start stop : Nat}
    (starts : start = front.length) (stops : stop = front.length + part.length) :
    slice (front ++ part ++ back) start stop = some part := by
  have ordered : start ≤ stop := by omega
  have inside : stop ≤ (front ++ part ++ back).length := by simp; omega
  rw [slice_inside ordered inside, starts, stops, Nat.add_sub_cancel_left, List.append_assoc]
  simp

/-- The number stored in the `width` bytes at an offset. -/
def word (bytes : List UInt8) (offset width : Nat) : Nat :=
  ofLE ((bytes.drop offset).take width)

theorem word_of_placed {bytes : List UInt8} {offset value : Nat}
    (placed : (bytes.drop offset).take width = toLE width value) (fits : value < 256 ^ width) :
    word bytes offset width = value := by
  rw [word, placed, ofLE_toLE_of_fits fits]

theorem toLE_word {bytes : List UInt8} {offset : Nat} (inside : offset + width ≤ bytes.length) :
    toLE width (word bytes offset width) = (bytes.drop offset).take width := by
  have length : ((bytes.drop offset).take width).length = width := by
    rw [List.length_take, List.length_drop]
    omega
  have written := toLE_ofLE ((bytes.drop offset).take width)
  rw [length] at written
  exact written

theorem word_lt (bytes : List UInt8) (offset width : Nat) :
    word bytes offset width < 256 ^ width := by
  have short : ((bytes.drop offset).take width).length ≤ width := List.length_take_le _ _
  exact (ofLE_lt _).trans_le (Nat.pow_le_pow_right (by decide) short)

theorem drop_eq_field (bytes : List UInt8) (offset width : Nat) :
    bytes.drop offset = (bytes.drop offset).take width ++ bytes.drop (offset + width) := by
  rw [← List.drop_drop, List.take_append_drop]

/-- A file after a chunk is written over it at a position. -/
def overwrite (file : List UInt8) (start : Nat) (chunk : List UInt8) : List UInt8 :=
  file.take start ++ chunk ++ file.drop (start + chunk.length)

/-- A zero-extension or truncation of a file to a length. -/
def setLen (file : List UInt8) (length : Nat) : List UInt8 :=
  file.take length ++ List.replicate (length - file.length) 0

@[simp] theorem setLen_length (file : List UInt8) (length : Nat) :
    (setLen file length).length = length := by
  simp only [setLen, List.length_append, List.length_take, List.length_replicate]
  omega

@[simp] theorem setLen_nil (length : Nat) : setLen [] length = List.replicate length 0 := by
  simp [setLen]

theorem setLen_of_length {file : List UInt8} {length : Nat} (already : file.length = length) :
    setLen file length = file := by
  subst already
  simp [setLen]

theorem overwrite_length {file chunk : List UInt8} {start : Nat}
    (inside : start + chunk.length ≤ file.length) :
    (overwrite file start chunk).length = file.length := by
  simp only [overwrite, List.length_append, List.length_take, List.length_drop]
  omega

theorem overwrite_append (written rest chunk : List UInt8) :
    overwrite (written ++ rest) written.length chunk =
      written ++ chunk ++ rest.drop chunk.length := by
  simp [overwrite, List.drop_append]

theorem drop_overwrite {file chunk : List UInt8} {start : Nat} (inside : start ≤ file.length) :
    (overwrite file start chunk).drop start = chunk ++ file.drop (start + chunk.length) := by
  have before : (file.take start).length = start := by
    rw [List.length_take]
    exact Nat.min_eq_left inside
  rw [overwrite, List.append_assoc, List.drop_append_of_le_length (Nat.le_of_eq before.symm)]
  simp

/-! ## Slots of one width -/

/-- The bytes of a slot among slots of one width. -/
def slot (bytes : List UInt8) (width index : Nat) : List UInt8 :=
  (bytes.drop (index * width)).take width

section Slot

variable {bytes chunk : List UInt8} {width index other : Nat}

theorem slot_overwrite_same (inside : index * width ≤ bytes.length)
    (fills : chunk.length = width) :
    slot (overwrite bytes (index * width) chunk) width index = chunk := by
  rw [slot, drop_overwrite inside, ← fills]
  exact List.take_left

theorem slot_overwrite_other (inside : index * width ≤ bytes.length)
    (fills : chunk.length = width) (apart : other ≠ index) :
    slot (overwrite bytes (index * width) chunk) width other = slot bytes width other := by
  have start : (bytes.take (index * width)).length = index * width := by
    rw [List.length_take]
    exact Nat.min_eq_left inside
  unfold slot overwrite
  cases Nat.lt_or_gt_of_ne apart with
  | inl before =>
    have ends : other * width + width ≤ index * width := by
      rw [← Nat.succ_mul]
      exact Nat.mul_le_mul_right width before
    rw [List.append_assoc, List.drop_append_of_le_length (by omega),
      List.take_append_of_le_length (by rw [List.length_drop]; omega), List.drop_take,
      List.take_take, Nat.min_eq_left (by omega)]
  | inr after =>
    have starts : index * width + width ≤ other * width := by
      rw [← Nat.succ_mul]
      exact Nat.mul_le_mul_right width after
    have front : (bytes.take (index * width) ++ chunk).length = index * width + width := by
      rw [List.length_append, start, fills]
    rw [List.drop_append, List.drop_eq_nil_of_le (by omega), List.nil_append, front,
      List.drop_drop, fills]
    congr 2
    omega

theorem length_overwrite_slot (inside : index * width ≤ bytes.length)
    (fills : chunk.length = width) :
    (overwrite bytes (index * width) chunk).length = max bytes.length (index * width + width) := by
  simp only [overwrite, List.length_append, List.length_take, List.length_drop, fills]
  omega

end Slot

/-! ## Records of one size -/

section Records

variable {size : Nat}

/-- A record of one size as its bytes. -/
abbrev Record (size : Nat) := Fin size → UInt8

/-- The bytes of records one after another. -/
def bytesOf (records : List (Record size)) : List UInt8 := records.flatMap List.ofFn

/-- A number of records read one after another; bytes that are not there are read as zero. -/
def recordsOf (size : Nat) : Nat → List UInt8 → List (Record size)
  | 0, _ => []
  | count + 1, bytes =>
    (fun index => (bytes[index.val]?).getD 0) :: recordsOf size count (bytes.drop size)

/-- The bytes of records take their number times the size. -/
@[simp] theorem length_bytesOf (records : List (Record size)) :
    (bytesOf records).length = records.length * size := by
  simp [bytesOf, List.length_flatMap]

theorem bytesOf_append (first second : List (Record size)) :
    bytesOf (first ++ second) = bytesOf first ++ bytesOf second :=
  List.flatMap_append

@[simp] theorem length_recordsOf (count : Nat) (bytes : List UInt8) :
    (recordsOf size count bytes).length = count := by
  induction count generalizing bytes with
  | zero => rfl
  | succ count ih => simp [recordsOf, ih]

theorem bytesOf_recordsOf {count : Nat} {bytes : List UInt8}
    (whole : bytes.length = count * size) :
    bytesOf (recordsOf size count bytes) = bytes := by
  induction count generalizing bytes with
  | zero =>
    have empty : bytes = [] := List.eq_nil_of_length_eq_zero (by omega)
    rw [empty]
    rfl
  | succ count ih =>
    have behind : (bytes.drop size).length = count * size := by
      rw [List.length_drop, whole, Nat.succ_mul, Nat.add_sub_cancel]
    have front : List.ofFn (fun index : Fin size => (bytes[index.val]?).getD 0) =
        bytes.take size := by
      apply List.ext_getElem
      · rw [List.length_ofFn, List.length_take, whole, Nat.succ_mul]
        omega
      · intro index left right
        rw [List.length_take] at right
        have inside : index < bytes.length := by omega
        simp [List.getElem?_eq_getElem inside]
    show List.ofFn _ ++ bytesOf (recordsOf size count (bytes.drop size)) = bytes
    rw [ih behind, front, List.take_append_drop]

theorem prefix_of_bytesOf (positive : 0 < size) {first second : List (Record size)}
    (begins : bytesOf first <+: bytesOf second) : first <+: second := by
  induction first generalizing second with
  | nil => exact List.nil_prefix
  | cons record rest ih =>
    cases second with
    | nil =>
      have short := begins.length_le
      rw [length_bytesOf, length_bytesOf, List.length_cons, List.length_nil, Nat.succ_mul] at short
      omega
    | cons other others =>
      obtain ⟨behind, same⟩ := begins
      have parts : List.ofFn record ++ (bytesOf rest ++ behind) =
          List.ofFn other ++ bytesOf others := by
        rw [← List.append_assoc]
        exact same
      obtain ⟨here, later⟩ := List.append_inj parts (by simp)
      rw [List.ofFn_injective here]
      exact List.cons_prefix_cons.mpr ⟨rfl, ih ⟨behind, later⟩⟩

end Records

end Bytes
