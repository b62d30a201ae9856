import TradingBot.Protocols.EndiannessHandler

/-!
# Round trips of protocol messages

What is written value by value is read back value by value. A read of a number refuses a buffer that
ends inside it; a read of a string does not compare the length in front of the string with what is
left, so that it returns a shorter string and an offset behind the end.
-/

open Bytes

namespace TradingBot.Protocols

namespace ProtocolRoundTrip

open EndiannessHandler BinaryProtocolHandler

/-- A typed value of a message. -/
inductive Value where
  | number (dtype : Dtype) (value : dtype.Scalar)
  | string (value : String)

/-- The kind of a value: which functions write it and read it. -/
inductive Kind where
  | number (dtype : Dtype)
  | string

/-- The kind of a value. -/
def Value.kind : Value → Kind
  | .number dtype _ => .number dtype
  | .string _ => .string

/-- Writes a value by the function of its kind. -/
def write (structError : StructError) (handler : BinaryProtocolHandler) :
    Value → Except ProtocolError BinaryProtocolHandler
  | .number .uint8 value => handler.writeUint8 structError value
  | .number .uint16 value => handler.writeUint16 structError value
  | .number .uint32 value => handler.writeUint32 structError value
  | .number .uint64 value => handler.writeUint64 structError value
  | .number .int64 value => handler.writeInt64 structError value
  | .number .float64 value => handler.writeFloat64 structError value
  | .string value => handler.writeString structError value

/-- Reads a value by the function of its kind. -/
def read (handler : BinaryProtocolHandler) (offset : Nat) :
    Kind → Except ProtocolError (Value × Nat)
  | .number .uint8 => (handler.readUint8 offset).map fun found =>
      (.number .uint8 found.1, found.2)
  | .number .uint16 => (handler.readUint16 offset).map fun found =>
      (.number .uint16 found.1, found.2)
  | .number .uint32 => (handler.readUint32 offset).map fun found =>
      (.number .uint32 found.1, found.2)
  | .number .uint64 => (handler.readUint64 offset).map fun found =>
      (.number .uint64 found.1, found.2)
  | .number .int64 => (handler.readInt64 offset).map fun found =>
      (.number .int64 found.1, found.2)
  | .number .float64 => (handler.readFloat64 offset).map fun found =>
      (.number .float64 found.1, found.2)
  | .string => (handler.readString offset).map fun found => (.string found.1, found.2)

/-- Writes values one after another. -/
def writeAll (structError : StructError) :
    BinaryProtocolHandler → List Value → Except ProtocolError BinaryProtocolHandler
  | handler, [] => .ok handler
  | handler, value :: rest =>
    match write structError handler value with
    | .error error => .error error
    | .ok next => writeAll structError next rest

/-- Reads values one after another, each at the offset behind the one before. -/
def readAll (handler : BinaryProtocolHandler) :
    Nat → List Kind → Except ProtocolError (List Value × Nat)
  | offset, [] => .ok ([], offset)
  | offset, kind :: rest =>
    match read handler offset kind with
    | .error error => .error error
    | .ok (value, next) => (readAll handler next rest).map fun later =>
        (value :: later.1, later.2)

/-- A value is in the range of its type; the length of a string fits its prefix. -/
def InRange : Value → Prop
  | .number .uint8 value => 0 ≤ value ∧ value < (256 ^ Dtype.uint8.size : Nat)
  | .number .uint16 value => 0 ≤ value ∧ value < (256 ^ Dtype.uint16.size : Nat)
  | .number .uint32 value => 0 ≤ value ∧ value < (256 ^ Dtype.uint32.size : Nat)
  | .number .uint64 value => 0 ≤ value ∧ value < (256 ^ Dtype.uint64.size : Nat)
  | .number .int64 value => -(2 ^ 63) ≤ value ∧ value < 2 ^ 63
  | .number .float64 _ => True
  | .string value => (encodeUtf8 value).length < 256 ^ Dtype.uint32.size

/-- Values in range that are written to a new handler are read back from its start to its end. -/
def RoundTrips (structError : StructError) : Prop :=
  ∀ values : List Value, (∀ value ∈ values, InRange value) →
    ∃ final, writeAll structError .new values = .ok final ∧
      readAll final 0 (values.map Value.kind) = .ok (values, final.buffer.length)

/-- A read raises, or it returns a value whose bytes lie in the buffer between the offset and the
new offset. -/
def ReadsInside (structError : StructError) (handler : BinaryProtocolHandler) (offset : Nat)
    (kind : Kind) : Prop :=
  ∀ value next, read handler offset kind = .ok (value, next) →
    next ≤ handler.buffer.length ∧ write structError .new value = .ok ⟨handler.slice offset next⟩

/-- A string whose length prefix is there is there too, or what is left of it is not valid
UTF-8. -/
def Contained (handler : BinaryProtocolHandler) (offset : Nat) : Kind → Prop
  | .number _ => True
  | .string => offset + 4 ≤ handler.buffer.length →
      offset + 4 + ofBE (handler.slice offset (offset + 4)) ≤ handler.buffer.length ∨
        decodeUtf8 (handler.buffer.drop (offset + 4)) = .error .unicodeDecodeError

/-! ## Scalars -/

section Scalars

variable {structError : StructError} {dtype : Dtype} {bytes : List UInt8}

theorem packUnsigned_inRange {value : Int} (low : 0 ≤ value)
    (high : value < (256 ^ dtype.size : Nat)) :
    ∃ bytes, packUnsigned structError dtype value = .ok bytes ∧ bytes.length = dtype.size ∧
      (ofBE bytes : Int) = value := by
  have fits : value.toNat < 256 ^ dtype.size := by omega
  refine ⟨toBE dtype.size value.toNat, if_pos ⟨low, high⟩, toBE_length _ _, ?_⟩
  rw [ofBE_toBE fits, Int.toNat_of_nonneg low]

theorem packUnsigned_ofBE (sized : bytes.length = dtype.size) :
    packUnsigned structError dtype (ofBE bytes : Int) = .ok bytes := by
  have bound := ofBE_lt bytes
  rw [sized] at bound
  unfold packUnsigned
  rw [if_pos ⟨Int.natCast_nonneg _, Int.ofNat_lt.mpr bound⟩, Int.toNat_natCast, ← sized, toBE_ofBE]

theorem packSigned_inRange {value : Int} (low : -(2 ^ 63) ≤ value) (high : value < 2 ^ 63) :
    ∃ bytes, pack structError .int64 value = .ok bytes ∧ bytes.length = Dtype.int64.size ∧
      ofSignedBE bytes = value :=
  ⟨toSignedBE 8 value, if_pos ⟨low, high⟩, toSignedBE_length _ _,
    ofSignedBE_toSignedBE (by omega) (by omega)⟩

theorem pack_inRange (value : dtype.Scalar) (inRange : InRange (.number dtype value)) :
    ∃ bytes, pack structError dtype value = .ok bytes ∧ bytes.length = dtype.size ∧
      unpackScalar bytes dtype = value := by
  cases dtype with
  | uint8 => exact packUnsigned_inRange inRange.1 inRange.2
  | uint16 => exact packUnsigned_inRange inRange.1 inRange.2
  | uint32 => exact packUnsigned_inRange inRange.1 inRange.2
  | uint64 => exact packUnsigned_inRange inRange.1 inRange.2
  | int64 => exact packSigned_inRange inRange.1 inRange.2
  | float64 =>
    have fits : value.toNat < 256 ^ 8 := value.toNat_lt
    refine ⟨toBE 8 value.toNat, rfl, toBE_length _ _, ?_⟩
    show UInt64.ofNat (ofBE (toBE 8 value.toNat)) = value
    rw [ofBE_toBE fits, UInt64.ofNat_toNat]

theorem pack_unpackScalar (sized : bytes.length = dtype.size) :
    pack structError dtype (unpackScalar bytes dtype) = .ok bytes := by
  cases dtype with
  | uint8 => exact packUnsigned_ofBE sized
  | uint16 => exact packUnsigned_ofBE sized
  | uint32 => exact packUnsigned_ofBE sized
  | uint64 => exact packUnsigned_ofBE sized
  | int64 =>
    have eight : bytes.length = 8 := sized
    obtain ⟨low, high⟩ := ofSignedBE_bounds bytes
    have written := toSignedBE_ofSignedBE bytes
    rw [eight] at low high written
    have inRange : -(2 ^ 63) ≤ ofSignedBE bytes ∧ ofSignedBE bytes < 2 ^ 63 := by omega
    show (if -(2 ^ 63) ≤ ofSignedBE bytes ∧ ofSignedBE bytes < 2 ^ 63 then
      Except.ok (toSignedBE 8 (ofSignedBE bytes)) else _) = _
    rw [if_pos inRange, written]
  | float64 =>
    have eight : bytes.length = 8 := sized
    have bound := ofBE_lt bytes
    have written := toBE_ofBE bytes
    rw [eight] at bound written
    show Except.ok (toBE 8 (UInt64.ofNat (ofBE bytes)).toNat) = _
    rw [UInt64.toNat_ofNat_of_lt' bound, written]

end Scalars

/-! ## Values -/

section Values

variable {structError : StructError} {handler : BinaryProtocolHandler} {dtype : Dtype}
  {offset next : Nat} {bytes front back : List UInt8} {value : Value}

theorem write_number (value : dtype.Scalar) :
    write structError handler (.number dtype value) =
      handler.writeNumber structError dtype value := by
  cases dtype <;> rfl

theorem read_number : read handler offset (.number dtype) =
    (handler.readNumber offset dtype).map fun found => (.number dtype found.1, found.2) := by
  cases dtype <;> rfl

theorem slice_middle :
    (BinaryProtocolHandler.mk (front ++ bytes ++ back)).slice front.length
      (front.length + bytes.length) = bytes := by
  unfold BinaryProtocolHandler.slice
  rw [Nat.add_sub_cancel_left, List.append_assoc, List.drop_left, List.take_left]

theorem readNumber_middle (sized : bytes.length = dtype.size) :
    (BinaryProtocolHandler.mk (front ++ bytes ++ back)).readNumber front.length dtype =
      .ok (unpackScalar bytes dtype, front.length + dtype.size) := by
  unfold readNumber unpack
  rw [← sized, slice_middle, if_neg (by omega)]
  rfl

theorem decodeUtf8_encodeUtf8 (value : String) : decodeUtf8 (encodeUtf8 value) = .ok value := by
  have decoded : String.fromUTF8? value.toUTF8 = some value := by
    unfold String.fromUTF8?
    rw [String.toUTF8_eq_toByteArray, dif_pos value.isValidUTF8]
    rfl
  unfold decodeUtf8 encodeUtf8
  rw [Array.toArray_toList]
  have packed : (⟨value.toUTF8.data⟩ : ByteArray) = value.toUTF8 := rfl
  rw [packed, decoded]

theorem encodeUtf8_of_decodeUtf8 {text : String} (decoded : decodeUtf8 bytes = .ok text) :
    encodeUtf8 text = bytes := by
  unfold decodeUtf8 String.fromUTF8? at decoded
  split at decoded
  · next found valid =>
    split at valid
    · cases decoded
      cases valid
      rfl
    · cases valid
  · cases decoded

theorem readString_middle {lead body : List UInt8} {text : String}
    (sized : lead.length = Dtype.uint32.size) (length : ofBE lead = body.length)
    (decoded : decodeUtf8 body = .ok text) :
    (BinaryProtocolHandler.mk (front ++ (lead ++ body) ++ back)).readString front.length =
      .ok (text, front.length + (lead ++ body).length) := by
  have four : lead.length = 4 := sized
  have outer : front ++ (lead ++ body) ++ back = front ++ lead ++ (body ++ back) := by
    simp only [List.append_assoc]
  have inner : front ++ lead ++ (body ++ back) = (front ++ lead) ++ body ++ back := by
    simp only [List.append_assoc]
  have prefixed : (BinaryProtocolHandler.mk (front ++ lead ++ (body ++ back))).readUint32
      front.length = .ok ((ofBE lead : Int), front.length + 4) :=
    @readNumber_middle .uint32 lead front (body ++ back) sized
  have place : (front ++ lead).length = front.length + 4 := by rw [List.length_append, four]
  have found : (BinaryProtocolHandler.mk (front ++ lead ++ (body ++ back))).slice
      (front.length + 4) (front.length + 4 + body.length) = body := by
    rw [inner, ← place]
    exact slice_middle
  unfold readString
  rw [outer, prefixed]
  dsimp only
  rw [Int.toNat_natCast, length, found, decoded, List.length_append, four, Nat.add_assoc]
  rfl

theorem value_bytes (inRange : InRange value) : ∃ bytes,
    (∀ handler, write structError handler value = .ok ⟨handler.buffer ++ bytes⟩) ∧
      ∀ front back, read ⟨front ++ bytes ++ back⟩ front.length value.kind =
        .ok (value, front.length + bytes.length) := by
  cases value with
  | number dtype value =>
    obtain ⟨bytes, packed, sized, same⟩ := @pack_inRange structError dtype value inRange
    refine ⟨bytes, fun handler => ?_, fun front back => ?_⟩
    · rw [write_number]
      unfold writeNumber
      rw [packed]
      rfl
    · show read _ _ (.number dtype) = _
      rw [read_number, readNumber_middle sized, same, sized]
      rfl
  | string value =>
    have short : (encodeUtf8 value).length < 256 ^ Dtype.uint32.size := inRange
    have fits : ((encodeUtf8 value).length : Int) < (256 ^ Dtype.uint32.size : Nat) := by
      exact_mod_cast short
    obtain ⟨lead, packed, sized, same⟩ := @packUnsigned_inRange structError .uint32 _
      (Int.natCast_nonneg _) fits
    refine ⟨lead ++ encodeUtf8 value, fun handler => ?_, fun front back => ?_⟩
    · have prefixed : handler.writeUint32 structError (encodeUtf8 value).length =
          .ok ⟨handler.buffer ++ lead⟩ := by
        have packed : pack structError .uint32 (encodeUtf8 value).length = .ok lead := packed
        unfold writeUint32 writeNumber
        rw [packed]
        rfl
      show handler.writeString structError value = _
      unfold writeString
      dsimp only
      rw [prefixed, ← List.append_assoc]
      rfl
    · have read_ := @readString_middle front back lead (encodeUtf8 value) value sized
        (Int.ofNat_inj.mp same) (decodeUtf8_encodeUtf8 value)
      show (readString _ _).map _ = _
      rw [read_]
      rfl

theorem values_bytes {values : List Value} (inRange : ∀ value ∈ values, InRange value) : ∃ bytes,
    (∀ handler, writeAll structError handler values = .ok ⟨handler.buffer ++ bytes⟩) ∧
      ∀ front back, readAll ⟨front ++ bytes ++ back⟩ front.length (values.map Value.kind) =
        .ok (values, front.length + bytes.length) := by
  induction values with
  | nil =>
    refine ⟨[], fun handler => ?_, fun front back => rfl⟩
    rw [List.append_nil]
    rfl
  | cons value rest ih =>
    obtain ⟨here, later⟩ := List.forall_mem_cons.mp inRange
    obtain ⟨first, writes, reads⟩ := @value_bytes structError value here
    obtain ⟨second, writesRest, readsRest⟩ := ih later
    refine ⟨first ++ second, fun handler => ?_, fun front back => ?_⟩
    · unfold writeAll
      rw [writes]
      dsimp only
      rw [writesRest, List.append_assoc]
    · have outer : front ++ (first ++ second) ++ back = front ++ first ++ (second ++ back) := by
        simp only [List.append_assoc]
      have inner : front ++ first ++ (second ++ back) = (front ++ first) ++ second ++ back := by
        simp only [List.append_assoc]
      have read_ := reads front (second ++ back)
      have readRest := readsRest (front ++ first) back
      rw [← inner, List.length_append] at readRest
      rw [outer, List.map_cons]
      unfold readAll
      rw [read_]
      dsimp only
      rw [readRest, List.length_append, Nat.add_assoc]
      rfl

theorem roundTrips (structError : StructError) : RoundTrips structError := by
  intro values inRange
  obtain ⟨bytes, writes, reads⟩ := @values_bytes structError values inRange
  have read_ := reads [] []
  rw [List.nil_append, List.append_nil, List.length_nil, Nat.zero_add] at read_
  exact ⟨⟨bytes⟩, writes .new, read_⟩

theorem slice_length {stop : Nat} (later : offset < stop) :
    (handler.slice offset stop).length = stop - offset ↔ stop ≤ handler.buffer.length := by
  unfold BinaryProtocolHandler.slice
  rw [List.length_take, List.length_drop]
  omega

theorem size_pos (dtype : Dtype) : 0 < dtype.size := by
  cases dtype <;> decide

theorem readNumber_iff {value : dtype.Scalar} :
    handler.readNumber offset dtype = .ok (value, next) ↔
      offset + dtype.size ≤ handler.buffer.length ∧ next = offset + dtype.size ∧
        value = unpackScalar (handler.slice offset next) dtype := by
  have positive := size_pos dtype
  have inside := @slice_length handler offset (offset + dtype.size) (by omega)
  rw [Nat.add_sub_cancel_left] at inside
  unfold readNumber unpack
  by_cases sized : (handler.slice offset (offset + dtype.size)).length = dtype.size
  · rw [if_neg (not_not_intro sized)]
    constructor
    · intro found
      cases found
      exact ⟨inside.mp sized, rfl, rfl⟩
    · rintro ⟨-, rfl, rfl⟩
      rfl
  · rw [if_pos sized]
    refine iff_of_false (fun found => ?_) fun found => sized (inside.mpr found.1)
    cases found

theorem readsInside_number (structError : StructError) (handler : BinaryProtocolHandler)
    (offset : Nat) (dtype : Dtype) : ReadsInside structError handler offset (.number dtype) := by
  intro value next found
  rw [read_number] at found
  cases outcome : handler.readNumber offset dtype with
  | error error =>
    rw [outcome] at found
    cases found
  | ok answer =>
    obtain ⟨scalar, stop⟩ := answer
    rw [outcome] at found
    cases found
    obtain ⟨inside, rfl, rfl⟩ := readNumber_iff.mp outcome
    have positive := size_pos dtype
    have sized : (handler.slice offset (offset + dtype.size)).length = dtype.size := by
      rw [(slice_length (by omega)).mpr inside, Nat.add_sub_cancel_left]
    refine ⟨inside, ?_⟩
    rw [write_number]
    unfold writeNumber
    rw [pack_unpackScalar sized]
    rfl

theorem readString_iff {text : String} :
    handler.readString offset = .ok (text, next) ↔
      offset + 4 ≤ handler.buffer.length ∧
        next = offset + 4 + ofBE (handler.slice offset (offset + 4)) ∧
        decodeUtf8 (handler.slice (offset + 4) next) = .ok text := by
  unfold readString
  cases outcome : handler.readUint32 offset with
  | error error =>
    refine iff_of_false nofun fun found => ?_
    have there : handler.readNumber offset .uint32 = .ok _ := readNumber_iff.mpr ⟨found.1, rfl, rfl⟩
    cases outcome.symm.trans there
  | ok answer =>
    obtain ⟨length, stop⟩ := answer
    obtain ⟨inside, rfl, rfl⟩ := readNumber_iff.mp outcome
    show (decodeUtf8 (handler.slice (offset + 4) (offset + 4 +
      (ofBE (handler.slice offset (offset + 4)) : Int).toNat))).map _ = _ ↔ _
    rw [Int.toNat_natCast]
    constructor
    · intro found
      cases decoded : decodeUtf8 (handler.slice (offset + 4)
          (offset + 4 + ofBE (handler.slice offset (offset + 4)))) with
      | error error =>
        rw [decoded] at found
        cases found
      | ok text =>
        rw [decoded] at found
        cases found
        exact ⟨inside, rfl, decoded⟩
    · rintro ⟨-, rfl, decoded⟩
      rw [decoded]
      rfl

theorem slice_over {stop : Nat} (beyond : handler.buffer.length ≤ stop) :
    handler.slice offset stop = handler.buffer.drop offset := by
  unfold BinaryProtocolHandler.slice
  refine List.take_of_length_le ?_
  rw [List.length_drop]
  omega

theorem slice_append {middle stop : Nat} (first : offset ≤ middle) (second : middle ≤ stop) :
    handler.slice offset middle ++ handler.slice middle stop = handler.slice offset stop := by
  unfold BinaryProtocolHandler.slice
  have whole : stop - offset = (middle - offset) + (stop - middle) := by omega
  have place : offset + (middle - offset) = middle := by omega
  rw [whole, List.take_add, List.drop_drop, place]

theorem decodeUtf8_error {error : ProtocolError} (refused : decodeUtf8 bytes = .error error) :
    decodeUtf8 bytes = .error .unicodeDecodeError := by
  unfold decodeUtf8 at refused ⊢
  split
  · next found valid =>
    rw [valid] at refused
    cases refused
  · rfl

theorem writeString_slice {text : String} {count : Nat}
    (length : ofBE (handler.slice offset (offset + 4)) = count)
    (inside : offset + 4 + count ≤ handler.buffer.length)
    (decoded : decodeUtf8 (handler.slice (offset + 4) (offset + 4 + count)) = .ok text) :
    BinaryProtocolHandler.new.writeString structError text =
      .ok ⟨handler.slice offset (offset + 4 + count)⟩ := by
  have sized : (handler.slice offset (offset + 4)).length = Dtype.uint32.size := by
    rw [(slice_length (by omega)).mpr (by omega), Nat.add_sub_cancel_left]
    rfl
  have body := encodeUtf8_of_decodeUtf8 decoded
  have counted : (encodeUtf8 text).length = count := by
    rw [body]
    unfold BinaryProtocolHandler.slice
    rw [List.length_take, List.length_drop]
    omega
  have lead : pack structError .uint32 ((encodeUtf8 text).length : Int) =
      .ok (handler.slice offset (offset + 4)) := by
    have packed := @packUnsigned_ofBE structError .uint32 _ sized
    rw [length, ← counted] at packed
    exact packed
  have whole := @slice_append handler offset (offset + 4) (offset + 4 + count) (by omega) (by omega)
  unfold writeString writeUint32 writeNumber
  dsimp only
  rw [lead, ← whole, ← body]
  rfl

theorem readsInside_string (structError : StructError) (handler : BinaryProtocolHandler)
    (offset : Nat) :
    ReadsInside structError handler offset .string ↔ Contained handler offset .string := by
  constructor
  · intro reads lead
    by_contra outside
    rw [not_or] at outside
    have rest := @slice_over handler (offset + 4) _ (Nat.le_of_lt (Nat.not_le.mp outside.1))
    cases decoded : decodeUtf8 (handler.buffer.drop (offset + 4)) with
    | error error => exact outside.2 (decodeUtf8_error decoded)
    | ok text =>
      rw [← rest] at decoded
      have found := readString_iff.mpr ⟨lead, rfl, decoded⟩
      have answer : read handler offset .string = .ok _ := congrArg (Except.map _) found
      exact outside.1 (reads _ _ answer).1
  · intro contained value next answer
    cases outcome : handler.readString offset with
    | error error =>
      have refused : read handler offset .string = .error error := congrArg (Except.map _) outcome
      rw [refused] at answer
      cases answer
    | ok found =>
      obtain ⟨text, stop⟩ := found
      have same : read handler offset .string = .ok (.string text, stop) :=
        congrArg (Except.map _) outcome
      rw [same] at answer
      cases answer
      obtain ⟨lead, ends, decoded⟩ := readString_iff.mp outcome
      have bounded := contained lead
      generalize length : ofBE (handler.slice offset (offset + 4)) = count at ends bounded
      subst ends
      by_cases fits : offset + 4 + count ≤ handler.buffer.length
      · have written := @writeString_slice structError _ _ _ _ length fits decoded
        exact ⟨fits, written⟩
      · have invalid := bounded.resolve_left fits
        rw [slice_over (Nat.le_of_lt (Nat.not_le.mp fits)), invalid] at decoded
        cases decoded

/-- Values in range are read back as they were written to the end of the buffer, and a read of any
buffer at any offset raises or stays inside, if and only if the read is of a number, or of a string
that is contained in the buffer or is not valid. -/
theorem protocol_iff (structError : StructError) (handler : BinaryProtocolHandler) (offset : Nat)
    (kind : Kind) : RoundTrips structError ∧ ReadsInside structError handler offset kind ↔
      Contained handler offset kind := by
  refine (and_iff_right (roundTrips structError)).trans ?_
  cases kind with
  | number dtype =>
    exact iff_of_true (readsInside_number structError handler offset dtype) trivial
  | string => exact readsInside_string structError handler offset

end Values

/-- A length of five and three letters. -/
def shortString : BinaryProtocolHandler := ⟨[0, 0, 0, 5, 66, 84, 67]⟩

/-- The three letters are returned with an offset behind the end. -/
theorem short_string_read : ¬∀ (structError : StructError) (handler : BinaryProtocolHandler)
    (offset : Nat) (kind : Kind),
    RoundTrips structError ∧ ReadsInside structError handler offset kind := by
  intro claim
  have inside := (claim (fun _ _ => "") shortString 0 .string).2
  have read_ : read shortString 0 .string = .ok (.string "BTC", 9) := by
    have found : shortString.readString 0 = .ok ("BTC", 9) :=
      readString_iff.mpr ⟨by decide, by decide, decodeUtf8_encodeUtf8 "BTC"⟩
    exact congrArg (Except.map fun found : String × Nat => (Value.string found.1, found.2)) found
  have bound := (inside _ _ read_).1
  revert bound
  decide

end ProtocolRoundTrip

end TradingBot.Protocols
