import TradingBot.Cqrs.EventSerializer

/-!
# The language of the event decoder

Every record that the decoder accepts is written back as the bytes it was read from. The encoder
could have written it exactly if its padding is zero and its payload is permitted: the decoder reads
the padding and the length of the payload without a check.
-/

open Bytes

namespace TradingBot.EventSerializer

/-- An accepted event is one that the encoder builds from its fields, and the bytes that were read
are those of the built event. -/
structure Canonical (crc : List UInt8 → UInt32) (buffer : List UInt8) (event : SerializedEvent) :
    Prop where
  encoded : ∃ built, SerializedEvent.new crc event.header.eventTypeId event.header.sequence
      event.header.timestampUs event.payload event.header.correlationHash = .ok built ∧
    buffer.take event.totalSize = built.toBuffer
  permitted : event.payload.length ≤ maxPayloadSize
  padding : event.header.padding = 0
  length : event.header.payloadLength.toNat = event.payload.length

section Language

variable {crc : List UInt8 → UInt32} {buffer raw : List UInt8} {event : SerializedEvent}

theorem toBytes_ofRaw (whole : raw.length = EventHeader.size) :
    (EventHeader.ofRaw raw).toBytes = raw := by
  have length : raw.length = 42 := whole
  have four (offset : Nat) (inside : offset + 4 ≤ 42) :
      toLE 4 (UInt32.ofNat (word raw offset 4)).toNat = (raw.drop offset).take 4 := by
    rw [UInt32.toNat_ofNat_of_lt' (word_lt raw offset 4), toLE_word (by omega)]
  have two (offset : Nat) (inside : offset + 2 ≤ 42) :
      toLE 2 (UInt16.ofNat (word raw offset 2)).toNat = (raw.drop offset).take 2 := by
    rw [UInt16.toNat_ofNat_of_lt' (word_lt raw offset 2), toLE_word (by omega)]
  have eight (offset : Nat) (inside : offset + 8 ≤ 42) :
      toLE 8 (UInt64.ofNat (word raw offset 8)).toNat = (raw.drop offset).take 8 := by
    rw [UInt64.toNat_ofNat_of_lt' (word_lt raw offset 8), toLE_word (by omega)]
  have one (offset : Nat) (inside : offset + 1 ≤ 42) :
      [UInt8.ofNat (word raw offset 1)] = (raw.drop offset).take 1 :=
    toLE_word (by omega : offset + 1 ≤ raw.length)
  have last : (raw.drop 38).take 4 = raw.drop 38 := by
    rw [List.take_of_length_le]
    rw [List.length_drop]
    omega
  have pair (offset : Nat) (inside : offset + 2 ≤ 42) :
      [UInt8.ofNat (word raw offset 1), UInt8.ofNat (word raw (offset + 1) 1)] =
        (raw.drop offset).take 1 ++ (raw.drop (offset + 1)).take 1 := by
    rw [← one offset (by omega), ← one (offset + 1) (by omega)]
    rfl
  unfold EventHeader.toBytes EventHeader.checkedBytes EventHeader.ofRaw
  simp only [List.append_assoc]
  rw [four 0 (by decide), two 4 (by decide), pair 6 (by decide), two 8 (by decide),
    eight 10 (by decide), eight 18 (by decide), four 26 (by decide), eight 30 (by decide),
    four 38 (by decide), last, List.append_assoc, ← drop_eq_field raw 30 8,
    ← drop_eq_field raw 26 4, ← drop_eq_field raw 18 8, ← drop_eq_field raw 10 8,
    ← drop_eq_field raw 8 2, ← drop_eq_field raw 7 1, ← drop_eq_field raw 6 1,
    ← drop_eq_field raw 4 2, ← drop_eq_field raw 0 4]
  rfl

theorem readPayload_canonical {header : EventHeader}
    (accepted : SerializedEvent.readPayload crc buffer header = some (.ok event)) :
    event.header = header ∧ header.payloadLength.toNat = event.payload.length ∧
      event.payloadChecksum = crc event.payload ∧
      ∃ rest, buffer.drop EventHeader.size =
        event.payload ++ (toLE 4 event.payloadChecksum.toNat ++ rest) := by
  let payloadEnd := EventHeader.size + header.payloadLength.toNat
  unfold SerializedEvent.readPayload at accepted
  by_cases short : buffer.length < payloadEnd + 4
  · rw [if_pos short] at accepted
    cases accepted
  have payload := @slice_inside buffer EventHeader.size payloadEnd (Nat.le_add_right _ _) (by omega)
  have checksum := @slice_inside buffer payloadEnd (payloadEnd + 4) (Nat.le_add_right _ _)
    (by omega)
  rw [Nat.add_sub_cancel_left] at payload checksum
  rw [if_neg short, payload, Option.bind_eq_bind, Option.bind_some, checksum,
    Option.bind_some] at accepted
  simp only at accepted
  split at accepted
  · cases accepted
  · next same =>
    cases accepted
    have length : ((buffer.drop EventHeader.size).take header.payloadLength.toNat).length =
        header.payloadLength.toNat := by
      rw [List.length_take, List.length_drop]
      omega
    have stored : toLE 4 (UInt32.ofNat (word buffer payloadEnd 4)).toNat =
        (buffer.drop payloadEnd).take 4 := by
      rw [UInt32.toNat_ofNat_of_lt' (word_lt buffer payloadEnd 4), toLE_word (by omega)]
    refine ⟨rfl, length.symm, not_not.mp same, buffer.drop (payloadEnd + 4), ?_⟩
    show buffer.drop EventHeader.size = (buffer.drop EventHeader.size).take _ ++
      (toLE 4 (UInt32.ofNat (word buffer payloadEnd 4)).toNat ++ _)
    rw [stored, ← drop_eq_field buffer payloadEnd 4, ← drop_eq_field]

theorem fromBuffer_canonical
    (accepted : SerializedEvent.fromBuffer crc buffer = some (.ok event)) :
    Valid crc event ∧ ∃ rest, buffer = event.toBuffer ++ rest := by
  unfold SerializedEvent.fromBuffer at accepted
  by_cases short : buffer.length < EventHeader.size
  · rw [if_pos short] at accepted
    cases accepted
  have front := @slice_inside buffer 0 EventHeader.size (Nat.zero_le _) (by omega)
  rw [if_neg short, EventHeader.fromBytes, if_neg short, front, Option.map_some,
    Option.bind_eq_bind, Option.bind_some] at accepted
  have whole : (buffer.take EventHeader.size).length = EventHeader.size := by
    rw [List.length_take]
    omega
  rw [List.drop_zero, Nat.sub_zero] at accepted
  simp only at accepted
  split at accepted
  · cases accepted
  · next metadata =>
    split at accepted
    · next checked =>
      obtain ⟨header, length, checksum, rest, behind⟩ := readPayload_canonical accepted
      rw [← header] at metadata checked length
      refine ⟨⟨metadata, checked, length, checksum⟩, rest, ?_⟩
      unfold SerializedEvent.toBuffer
      rw [header, toBytes_ofRaw whole, List.append_assoc, List.append_assoc, ← behind,
        List.take_append_drop]
    · cases accepted

theorem metadata_ok {header : EventHeader} (valid : header.validateMetadata = .ok ()) :
    header.magic = eventMagic ∧ header.version = formatVersion ∧
      header.endianMarker = littleEndianMarker := by
  unfold EventHeader.validateMetadata at valid
  by_cases magic : header.magic = eventMagic
  · by_cases version : header.version = formatVersion
    · by_cases marker : header.endianMarker = littleEndianMarker
      · exact ⟨magic, version, marker⟩
      · rw [if_neg (not_not_intro magic), if_neg (not_not_intro version), if_pos marker] at valid
        cases valid
    · rw [if_neg (not_not_intro magic), if_pos version] at valid
      cases valid
  · rw [if_pos magic] at valid
    cases valid

theorem new_of_valid (valid : Valid crc event) (padding : event.header.padding = 0)
    (permitted : event.payload.length ≤ maxPayloadSize) :
    SerializedEvent.new crc event.header.eventTypeId event.header.sequence event.header.timestampUs
      event.payload event.header.correlationHash = .ok event := by
  obtain ⟨magic, version, marker⟩ := metadata_ok valid.metadata
  have checked := eq_of_beq valid.checked
  have length : UInt32.ofNat event.payload.length = event.header.payloadLength := by
    rw [← valid.length, UInt32.ofNat_toNat]
  have checksum := valid.checksum
  rcases event with ⟨header, payload, payloadChecksum⟩
  rcases header with ⟨_, _, _, _, _, _, _, _, _, headerChecksum⟩
  simp only at magic version marker checked length checksum padding permitted ⊢
  subst magic version marker padding checksum length
  unfold SerializedEvent.new
  rw [if_neg (not_lt.mpr permitted), ← checked]
  rfl

theorem words_toBuffer (event : SerializedEvent) (rest : List UInt8) :
    word (event.toBuffer ++ rest) 7 1 = event.header.padding.toNat ∧
      word (event.toBuffer ++ rest) 26 4 = event.header.payloadLength.toNat := by
  have digit : ofLE [event.header.padding] = event.header.padding.toNat := by simp [ofLE]
  exact ⟨digit, word_of_placed rfl event.header.payloadLength.toNat_lt⟩

/-- An accepted event is one that the encoder can produce if and only if its padding is zero and
its payload is not longer than permitted, as the bytes say. -/
theorem canonical_iff (accepted : SerializedEvent.fromBuffer crc buffer = some (.ok event)) :
    Canonical crc buffer event ↔ word buffer 7 1 = 0 ∧ word buffer 26 4 ≤ maxPayloadSize := by
  obtain ⟨valid, rest, rfl⟩ := fromBuffer_canonical accepted
  obtain ⟨padding, length⟩ := words_toBuffer event rest
  rw [padding, length, valid.length]
  constructor
  · intro canonical
    exact ⟨congrArg UInt8.toNat canonical.padding, canonical.permitted⟩
  · rintro ⟨unpadded, permitted⟩
    have zero : event.header.padding = 0 := UInt8.toNat_inj.mp unpadded
    refine ⟨⟨event, new_of_valid valid zero permitted, ?_⟩, permitted, zero, valid.length⟩
    exact List.take_left' (toBuffer_length event)

/-- The record of an event with a payload of three bytes is accepted, with bytes of the next record
behind it, and the event is built from its fields. -/
theorem canonical_iff_payload :
    ∃ event, SerializedEvent.new crc32Iscsi 1 7 1000 [1, 2, 255] 42 = .ok event ∧
      Canonical crc32Iscsi (event.toBuffer ++ [90, 65]) event := by
  refine ⟨_, rfl, (canonical_iff ?_).mpr ?_⟩
  · decide +kernel
  · decide +kernel

/-- An event with a padding of one is accepted. -/
theorem padded_accepted :
    ¬∀ (crc : List UInt8 → UInt32) (buffer : List UInt8) (event : SerializedEvent),
      SerializedEvent.fromBuffer crc buffer = some (.ok event) → Canonical crc buffer event := by
  intro claim
  let header : EventHeader :=
    { EventHeader.new crc32Iscsi 1 7 1000 0 0 with padding := 1 }
  let padded : SerializedEvent :=
    { header := { header with headerChecksum := header.calculateChecksum crc32Iscsi }
      payload := []
      payloadChecksum := crc32Iscsi [] }
  have canonical := claim crc32Iscsi padded.toBuffer padded (by decide +kernel)
  exact absurd canonical.padding (by decide)

end Language

end TradingBot.EventSerializer
