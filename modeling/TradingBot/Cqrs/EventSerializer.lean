import TradingBot.Foundation.Bytes

/-!
# The event serializer

`event_serializer.rs`: records of a packed header, a payload and a checksum of each, written one
after the other to a buffer and read back by an iterator. The target is little-endian, so the
bytes of a header are its fields in order. The checksum function of the `crc` crate is a
parameter. A read outside a buffer is `none`, which the source answers with a panic.
-/

open Bytes

namespace TradingBot.EventSerializer

/-- `EVENT_MAGIC`: magic number to identify valid event records. -/
def eventMagic : UInt32 := 0x5A494400

/-- `FORMAT_VERSION`: current serialization format version. -/
def formatVersion : UInt16 := 1

/-- `MAX_PAYLOAD_SIZE`: maximum payload size. -/
def maxPayloadSize : Nat := 64 * 1024

/-- `LITTLE_ENDIAN_MARKER`: byte order marker for little-endian. -/
def littleEndianMarker : UInt8 := 1

/-- `EventHeader`: the header of a serialized event record. -/
structure EventHeader where
  magic : UInt32
  version : UInt16
  endianMarker : UInt8
  padding : UInt8
  eventTypeId : UInt16
  sequence : UInt64
  timestampUs : UInt64
  payloadLength : UInt32
  correlationHash : UInt64
  headerChecksum : UInt32
  deriving DecidableEq, Repr

/-- `SerializationError`: errors that can occur during serialization or deserialization. -/
inductive SerializationError where
  | invalidMagic (magic : UInt32)
  | unsupportedVersion (version : UInt16)
  | unsupportedEndianness (marker : UInt8)
  | checksumMismatch
  /-- Insufficient data: got and expected bytes. -/
  | insufficientData (got expected : Nat)
  | payloadTooLarge (size : Nat)
  /-- Invalid event type ID, raised nowhere. -/
  | invalidEventType (id : UInt16)
  /-- IO error, raised nowhere. -/
  | ioError (message : String)
  deriving DecidableEq, Repr

/-- One bit of the CRC-32C register. -/
def crcShift (register : UInt32) : UInt32 :=
  if register &&& 1 = 1 then (register >>> 1) ^^^ 0x82F63B78 else register >>> 1

/-- The checksum of `CRC_32_ISCSI`. -/
def crc32Iscsi (bytes : List UInt8) : UInt32 :=
  bytes.foldl (fun register byte => Nat.repeat crcShift 8 (register ^^^ byte.toUInt32))
    0xFFFFFFFF ^^^ 0xFFFFFFFF

/-- The checksum has the published check value. -/
example : crc32Iscsi [0x31, 0x32, 0x33, 0x34, 0x35, 0x36, 0x37, 0x38, 0x39] = 0xE3069283 := by
  decide +kernel

namespace EventHeader

/-- `EventHeader::SIZE`: the packed fields take 42 bytes. -/
def size : Nat := 42

/-- The bytes of the fields before the header checksum. -/
def checkedBytes (header : EventHeader) : List UInt8 :=
  toLE 4 header.magic.toNat ++ toLE 2 header.version.toNat ++
    [header.endianMarker, header.padding] ++ toLE 2 header.eventTypeId.toNat ++
    toLE 8 header.sequence.toNat ++ toLE 8 header.timestampUs.toNat ++
    toLE 4 header.payloadLength.toNat ++ toLE 8 header.correlationHash.toNat

/-- `to_bytes`: the packed fields in order. -/
def toBytes (header : EventHeader) : List UInt8 :=
  header.checkedBytes ++ toLE 4 header.headerChecksum.toNat

/-- `calculate_checksum`: the checksum of all fields except the checksum itself. -/
def calculateChecksum (crc : List UInt8 → UInt32) (header : EventHeader) : UInt32 :=
  crc header.checkedBytes

def new (crc : List UInt8 → UInt32) (eventTypeId : UInt16) (sequence timestampUs : UInt64)
    (payloadLength : UInt32) (correlationHash : UInt64) : EventHeader :=
  let header : EventHeader :=
    { magic := eventMagic, version := formatVersion, endianMarker := littleEndianMarker
      padding := 0, eventTypeId, sequence, timestampUs, payloadLength, correlationHash
      headerChecksum := 0 }
  { header with headerChecksum := header.calculateChecksum crc }

/-- `validate_checksum`: validate header checksum. -/
def validateChecksum (crc : List UInt8 → UInt32) (header : EventHeader) : Bool :=
  header.calculateChecksum crc == header.headerChecksum

/-- `validate_metadata`: validate magic number, version and endianness. -/
def validateMetadata (header : EventHeader) : Except SerializationError Unit :=
  if header.magic ≠ eventMagic then .error (.invalidMagic header.magic)
  else if header.version ≠ formatVersion then .error (.unsupportedVersion header.version)
  else if header.endianMarker ≠ littleEndianMarker then
    .error (.unsupportedEndianness header.endianMarker)
  else .ok ()

/-- The header that stands in the bytes of one. -/
def ofRaw (raw : List UInt8) : EventHeader where
  magic := UInt32.ofNat (word raw 0 4)
  version := UInt16.ofNat (word raw 4 2)
  endianMarker := UInt8.ofNat (word raw 6 1)
  padding := UInt8.ofNat (word raw 7 1)
  eventTypeId := UInt16.ofNat (word raw 8 2)
  sequence := UInt64.ofNat (word raw 10 8)
  timestampUs := UInt64.ofNat (word raw 18 8)
  payloadLength := UInt32.ofNat (word raw 26 4)
  correlationHash := UInt64.ofNat (word raw 30 8)
  headerChecksum := UInt32.ofNat (word raw 38 4)

/-- `from_bytes`: the header at the front, unless fewer bytes are left. -/
def fromBytes (bytes : List UInt8) : Option (Except SerializationError EventHeader) :=
  if bytes.length < size then some (.error (.insufficientData bytes.length size))
  else (slice bytes 0 size).map fun raw => .ok (ofRaw raw)

@[simp] theorem toBytes_length (header : EventHeader) : header.toBytes.length = size := by
  simp [toBytes, checkedBytes, size]

theorem ofRaw_toBytes (header : EventHeader) : ofRaw header.toBytes = header := by
  have byte (value : UInt8) : ofLE [value] = value.toNat := by simp [ofLE]
  have magic : word header.toBytes 0 4 = header.magic.toNat :=
    word_of_placed rfl header.magic.toNat_lt
  have version : word header.toBytes 4 2 = header.version.toNat :=
    word_of_placed rfl header.version.toNat_lt
  have marker : word header.toBytes 6 1 = header.endianMarker.toNat := byte _
  have padding : word header.toBytes 7 1 = header.padding.toNat := byte _
  have eventType : word header.toBytes 8 2 = header.eventTypeId.toNat :=
    word_of_placed rfl header.eventTypeId.toNat_lt
  have sequence : word header.toBytes 10 8 = header.sequence.toNat :=
    word_of_placed rfl header.sequence.toNat_lt
  have timestamp : word header.toBytes 18 8 = header.timestampUs.toNat :=
    word_of_placed rfl header.timestampUs.toNat_lt
  have payload : word header.toBytes 26 4 = header.payloadLength.toNat :=
    word_of_placed rfl header.payloadLength.toNat_lt
  have correlation : word header.toBytes 30 8 = header.correlationHash.toNat :=
    word_of_placed rfl header.correlationHash.toNat_lt
  have checksum : word header.toBytes 38 4 = header.headerChecksum.toNat :=
    word_of_placed rfl header.headerChecksum.toNat_lt
  simp only [ofRaw, magic, version, marker, padding, eventType, sequence, timestamp, payload,
    correlation, checksum, UInt8.ofNat_toNat, UInt16.ofNat_toNat, UInt32.ofNat_toNat,
    UInt64.ofNat_toNat]

theorem fromBytes_toBytes (header : EventHeader) (rest : List UInt8) :
    fromBytes (header.toBytes ++ rest) = some (.ok header) := by
  have enough : ¬(header.toBytes ++ rest).length < size := by simp
  have front : slice (header.toBytes ++ rest) 0 size = some header.toBytes :=
    @slice_middle [] header.toBytes rest 0 size rfl (by simp)
  rw [fromBytes, if_neg enough, front, Option.map_some, ofRaw_toBytes]

end EventHeader

/-- `SerializedEvent`: the complete serialized event record. -/
structure SerializedEvent where
  header : EventHeader
  payload : List UInt8
  payloadChecksum : UInt32
  deriving DecidableEq, Repr

namespace SerializedEvent

def new (crc : List UInt8 → UInt32) (eventTypeId : UInt16) (sequence timestampUs : UInt64)
    (payload : List UInt8) (correlationHash : UInt64) :
    Except SerializationError SerializedEvent :=
  if maxPayloadSize < payload.length then .error (.payloadTooLarge payload.length)
  else .ok {
    header := .new crc eventTypeId sequence timestampUs (UInt32.ofNat payload.length)
      correlationHash
    payload := payload
    payloadChecksum := crc payload }

/-- `total_size`: header, payload and payload checksum. -/
def totalSize (event : SerializedEvent) : Nat := EventHeader.size + event.payload.length + 4

/-- `to_buffer`: the bytes of a complete event. -/
def toBuffer (event : SerializedEvent) : List UInt8 :=
  event.header.toBytes ++ event.payload ++ toLE 4 event.payloadChecksum.toNat

/-- The part of `from_buffer` behind the checks of the header. -/
def readPayload (crc : List UInt8 → UInt32) (buffer : List UInt8) (header : EventHeader) :
    Option (Except SerializationError SerializedEvent) :=
  let payloadEnd := EventHeader.size + header.payloadLength.toNat
  if buffer.length < payloadEnd + 4 then
    some (.error (.insufficientData buffer.length (payloadEnd + 4)))
  else do
    let payload ← slice buffer EventHeader.size payloadEnd
    let checksumBytes ← slice buffer payloadEnd (payloadEnd + 4)
    let payloadChecksum := UInt32.ofNat (ofLE checksumBytes)
    if payloadChecksum ≠ crc payload then return .error .checksumMismatch
    else return .ok { header, payload, payloadChecksum }

/-- `from_buffer`: the event at the front of a buffer. -/
def fromBuffer (crc : List UInt8 → UInt32) (buffer : List UInt8) :
    Option (Except SerializationError SerializedEvent) :=
  if buffer.length < EventHeader.size then
    some (.error (.insufficientData buffer.length EventHeader.size))
  else do
    match ← EventHeader.fromBytes buffer with
    | .error refused => return .error refused
    | .ok header =>
      match header.validateMetadata with
      | .error refused => return .error refused
      | .ok () =>
        if header.validateChecksum crc then readPayload crc buffer header
        else return .error .checksumMismatch

end SerializedEvent

/-- `EventBuffer`: the bytes of a batch of events. -/
structure EventBuffer where
  buffer : List UInt8
  eventCount : Nat
  capacityHint : Nat

namespace EventBuffer

/-- `with_capacity`: an empty buffer. -/
def withCapacity (capacity : Nat) : EventBuffer where
  buffer := []
  eventCount := 0
  capacityHint := capacity

/-- `append`: one more event. -/
def append (batch : EventBuffer) (event : SerializedEvent) : EventBuffer :=
  { batch with buffer := batch.buffer ++ event.toBuffer, eventCount := batch.eventCount + 1 }

end EventBuffer

/-- `EventBufferIter`: the bytes of a buffer and how far they are read. -/
structure EventBufferIter where
  data : List UInt8
  offset : Nat

/-- `iter`: an iterator at the start of a buffer. -/
def EventBuffer.iter (batch : EventBuffer) : EventBufferIter where
  data := batch.buffer
  offset := 0

/-- An item of an iteration. -/
abbrev Item := Except SerializationError SerializedEvent

/-- `next`: the next item if there is one, and the iterator after it. -/
def EventBufferIter.next (crc : List UInt8 → UInt32) (iter : EventBufferIter) :
    Option (Option Item × EventBufferIter) :=
  if iter.data.length ≤ iter.offset then some (none, iter)
  else do
    let rest ← slice iter.data iter.offset iter.data.length
    match ← SerializedEvent.fromBuffer crc rest with
    | .ok event => return (some (.ok event), { iter with offset := iter.offset + event.totalSize })
    | .error refused => return (some (.error refused), { iter with offset := iter.data.length })

/-! ## One record -/

section Record

variable {crc : List UInt8 → UInt32} {buffer : List UInt8} {header : EventHeader}
  {event : SerializedEvent}

/-- What `SerializedEvent::new` promises of an event: its header passes every check, names the
length of the payload, and the checksum is that of the payload. -/
structure Valid (crc : List UInt8 → UInt32) (event : SerializedEvent) : Prop where
  metadata : event.header.validateMetadata = .ok ()
  checked : event.header.validateChecksum crc = true
  length : event.header.payloadLength.toNat = event.payload.length
  checksum : event.payloadChecksum = crc event.payload

theorem valid_new {eventTypeId : UInt16} {sequence timestampUs correlationHash : UInt64}
    {payload : List UInt8}
    (built : SerializedEvent.new crc eventTypeId sequence timestampUs payload correlationHash =
      .ok event) : Valid crc event := by
  unfold SerializedEvent.new at built
  split at built
  · cases built
  · next permitted =>
    cases built
    refine ⟨rfl, beq_self_eq_true (crc _), ?_, rfl⟩
    apply UInt32.toNat_ofNat_of_lt'
    unfold maxPayloadSize at permitted
    show _ < 4294967296
    omega

@[simp] theorem toBuffer_length (event : SerializedEvent) :
    event.toBuffer.length = event.totalSize := by
  simp only [SerializedEvent.toBuffer, List.length_append, EventHeader.toBytes_length,
    toLE_length, SerializedEvent.totalSize]

theorem fromBuffer_toBuffer (valid : Valid crc event) (rest : List UInt8) :
    SerializedEvent.fromBuffer crc (event.toBuffer ++ rest) = some (.ok event) := by
  let bytes := event.toBuffer ++ rest
  have length : bytes.length = event.totalSize + rest.length := by simp [bytes]
  have size : event.totalSize = EventHeader.size + event.payload.length + 4 := rfl
  have parts : bytes = event.header.toBytes ++
      (event.payload ++ toLE 4 event.payloadChecksum.toNat ++ rest) := by
    simp [bytes, SerializedEvent.toBuffer]
  have header : EventHeader.fromBytes bytes = some (.ok event.header) := by
    rw [parts]
    exact EventHeader.fromBytes_toBytes _ _
  have payload : slice bytes EventHeader.size (EventHeader.size + event.payload.length) =
      some event.payload := by
    rw [parts, List.append_assoc, ← List.append_assoc]
    exact slice_middle (by simp) (by simp)
  have checksum : slice bytes (EventHeader.size + event.payload.length)
      (EventHeader.size + event.payload.length + 4) =
        some (toLE 4 event.payloadChecksum.toNat) :=
    @slice_middle (event.header.toBytes ++ event.payload) _ rest _ _ (by simp) (by simp)
  have stored : UInt32.ofNat (ofLE (toLE 4 event.payloadChecksum.toNat)) =
      event.payloadChecksum := by
    rw [ofLE_toLE_of_fits event.payloadChecksum.toNat_lt, UInt32.ofNat_toNat]
  have read : SerializedEvent.readPayload crc bytes event.header = some (.ok event) := by
    unfold SerializedEvent.readPayload
    rw [valid.length, if_neg (by omega), payload, Option.bind_eq_bind, Option.bind_some, checksum,
      Option.bind_some, stored, if_neg (not_not_intro valid.checksum)]
    rfl
  show SerializedEvent.fromBuffer crc bytes = _
  unfold SerializedEvent.fromBuffer
  rw [if_neg (by omega), header, Option.bind_eq_bind, Option.bind_some]
  simp only [valid.metadata, valid.checked, if_true]
  exact read

theorem readPayload_total (header : EventHeader) :
    ∃ item, SerializedEvent.readPayload crc buffer header = some item ∧
      ∀ event, item = .ok event → event.totalSize ≤ buffer.length := by
  unfold SerializedEvent.readPayload
  let payloadEnd := EventHeader.size + header.payloadLength.toNat
  by_cases short : buffer.length < payloadEnd + 4
  · rw [if_pos short]
    exact ⟨_, rfl, fun event same => by cases same⟩
  · have payload := @slice_inside buffer EventHeader.size payloadEnd (Nat.le_add_right _ _)
      (by omega)
    have checksum := @slice_inside buffer payloadEnd (payloadEnd + 4) (Nat.le_add_right _ _)
      (by omega)
    rw [if_neg short, payload, Option.bind_eq_bind, Option.bind_some, checksum, Option.bind_some]
    simp only
    split
    · exact ⟨_, rfl, fun event same => by cases same⟩
    · refine ⟨_, rfl, fun event same => ?_⟩
      cases same
      simp only [SerializedEvent.totalSize, List.length_take, List.length_drop]
      omega

theorem fromBuffer_total (crc : List UInt8 → UInt32) (buffer : List UInt8) :
    ∃ item, SerializedEvent.fromBuffer crc buffer = some item ∧
      ∀ event, item = .ok event → event.totalSize ≤ buffer.length := by
  unfold SerializedEvent.fromBuffer
  by_cases short : buffer.length < EventHeader.size
  · rw [if_pos short]
    exact ⟨_, rfl, fun event same => by cases same⟩
  · have front := @slice_inside buffer 0 EventHeader.size (Nat.zero_le _) (by omega)
    rw [if_neg short, EventHeader.fromBytes, if_neg short, front, Option.map_some,
      Option.bind_eq_bind, Option.bind_some]
    simp only
    split
    · exact ⟨_, rfl, fun event same => by cases same⟩
    · split
      · exact readPayload_total _
      · exact ⟨_, rfl, fun event same => by cases same⟩

end Record

/-! ## Iteration -/

section Iteration

variable {crc : List UInt8 → UInt32} {iter later : EventBufferIter} {item : Item}

theorem next_progress (yields : iter.next crc = some (some item, later)) :
    later.data = iter.data ∧ iter.offset < iter.data.length ∧
      (iter.offset + (EventHeader.size + 4) ≤ later.offset ∨ later.offset = iter.data.length) ∧
      later.offset ≤ iter.data.length := by
  unfold EventBufferIter.next at yields
  split at yields
  · cases yields
  · next inside =>
    have rest := @slice_inside iter.data iter.offset iter.data.length (by omega) (Nat.le_refl _)
    obtain ⟨found, reads, within⟩ := fromBuffer_total crc
      ((iter.data.drop iter.offset).take (iter.data.length - iter.offset))
    rw [rest, Option.bind_eq_bind, Option.bind_some, reads, Option.bind_eq_bind,
      Option.bind_some] at yields
    cases found with
    | error refused =>
      cases yields
      exact ⟨rfl, not_le.mp inside, .inr rfl, Nat.le_refl _⟩
    | ok event =>
      cases yields
      have fits := within event rfl
      rw [List.length_take, List.length_drop] at fits
      refine ⟨rfl, not_le.mp inside, .inl ?_, ?_⟩
      · show _ ≤ iter.offset + event.totalSize
        unfold SerializedEvent.totalSize
        omega
      · show iter.offset + event.totalSize ≤ _
        omega

/-- All items an iterator yields until it ends. -/
def collect (crc : List UInt8 → UInt32) (iter : EventBufferIter) : Option (List Item) :=
  match _ : iter.next crc with
  | none => none
  | some (none, _) => some []
  | some (some item, later) => (collect crc later).map fun items => item :: items
termination_by iter.data.length - iter.offset
decreasing_by
  next yields =>
  have progress := next_progress yields
  have moved := progress.2.2.1
  rw [progress.1]
  omega

theorem collect_end (finished : iter.data.length ≤ iter.offset) : collect crc iter = some [] := by
  have next : iter.next crc = some (none, iter) := if_pos finished
  unfold collect
  split <;> simp_all

theorem collect_next (yields : iter.next crc = some (some item, later)) :
    collect crc iter = (collect crc later).map fun items => item :: items := by
  rw [collect]
  split
  · next refused => cases yields.symm.trans refused
  · next ended => cases yields.symm.trans ended
  · next other after also =>
    cases yields.symm.trans also
    rfl

theorem next_inside (inside : iter.offset < iter.data.length) :
    ∃ item later, iter.next crc = some (some item, later) ∧
      SerializedEvent.fromBuffer crc (iter.data.drop iter.offset) = some item ∧
      ∀ event, item = .ok event →
        later = { iter with offset := iter.offset + event.totalSize } := by
  have rest := @slice_inside iter.data iter.offset iter.data.length (by omega) (Nat.le_refl _)
  have all : (iter.data.drop iter.offset).take (iter.data.length - iter.offset) =
      iter.data.drop iter.offset := List.take_of_length_le (by simp)
  obtain ⟨item, reads, _⟩ := fromBuffer_total crc (iter.data.drop iter.offset)
  rw [all] at rest
  unfold EventBufferIter.next
  rw [if_neg (by omega), rest, Option.bind_eq_bind, Option.bind_some, reads, Option.bind_eq_bind,
    Option.bind_some]
  cases item with
  | error refused => exact ⟨_, _, rfl, rfl, fun event same => by cases same⟩
  | ok event =>
    refine ⟨_, _, rfl, rfl, fun other same => ?_⟩
    cases same
    rfl

/-- The smallest record is a header and the checksum of an empty payload. -/
def smallestRecord : Nat := EventHeader.size + 4

theorem collect_bounded (crc : List UInt8 → UInt32) (iter : EventBufferIter) :
    ∃ items, collect crc iter = some items ∧
      items.length ≤ (iter.data.length - iter.offset) / smallestRecord + 1 := by
  induction iter using collect.induct crc with
  | case1 iter refused =>
    by_cases inside : iter.offset < iter.data.length
    · obtain ⟨item, later, yields, _⟩ := @next_inside crc iter inside
      cases refused.symm.trans yields
    · exact ⟨[], collect_end (not_lt.mp inside), Nat.zero_le _⟩
  | case2 iter later ended =>
    by_cases inside : iter.offset < iter.data.length
    · obtain ⟨item, later, yields, _⟩ := @next_inside crc iter inside
      cases ended.symm.trans yields
    · exact ⟨[], collect_end (not_lt.mp inside), Nat.zero_le _⟩
  | case3 iter item later yields ih =>
    obtain ⟨items, rest, bounded⟩ := ih
    obtain ⟨data, inside, moved, within⟩ := next_progress yields
    refine ⟨item :: items, by rw [collect_next yields, rest]; rfl, ?_⟩
    rw [List.length_cons]
    rw [data] at bounded
    cases moved with
    | inl past =>
      unfold smallestRecord EventHeader.size at *
      omega
    | inr finished =>
      -- After an error or the last record nothing is left.
      have none : items = [] := by
        have over_ := @collect_end crc later (by rw [data, finished])
        exact Option.some.inj (rest.symm.trans over_)
      rw [none]
      exact Nat.succ_le_succ (Nat.zero_le _)

theorem collect_stream (events : List SerializedEvent) (valid : ∀ event ∈ events, Valid crc event)
    (before : List UInt8) :
    collect crc ⟨before ++ events.flatMap SerializedEvent.toBuffer, before.length⟩ =
      some (events.map Except.ok) := by
  induction events generalizing before with
  | nil => exact collect_end (by simp)
  | cons event rest ih =>
    let iter : EventBufferIter :=
      ⟨before ++ (event :: rest).flatMap SerializedEvent.toBuffer, before.length⟩
    have first := (List.forall_mem_cons.mp valid).1
    have stands : iter.data.drop iter.offset =
        event.toBuffer ++ rest.flatMap SerializedEvent.toBuffer := by
      simp [iter]
    have inside : iter.offset < iter.data.length := by
      have positive : 0 < event.totalSize := Nat.succ_pos _
      simp only [iter, List.length_append, List.flatMap_cons, toBuffer_length]
      omega
    obtain ⟨item, later, yields, reads, goes⟩ := @next_inside crc iter inside
    rw [stands, fromBuffer_toBuffer first] at reads
    cases reads
    have there : later = ⟨(before ++ event.toBuffer) ++ rest.flatMap SerializedEvent.toBuffer,
        (before ++ event.toBuffer).length⟩ := by
      rw [goes event rfl]
      simp [iter]
    show collect crc iter = _
    rw [collect_next yields, there, ih (List.forall_mem_cons.mp valid).2]
    rfl

theorem buffer_append (events : List SerializedEvent) (batch : EventBuffer) :
    (events.foldl EventBuffer.append batch).buffer =
      batch.buffer ++ events.flatMap SerializedEvent.toBuffer := by
  induction events generalizing batch with
  | nil => simp
  | cons event rest ih =>
    rw [List.foldl_cons, ih, List.flatMap_cons, ← List.append_assoc]
    rfl

end Iteration

/-- Whatever the checksum function, built events appended to a buffer are read back in order, all
of them well, and then the iteration ends; and the iteration over any bytes ends, without leaving
them, after at most one item for each smallest record of 46 bytes that fits, and one more. -/
theorem stream_round_trip (crc : List UInt8 → UInt32) (capacity : Nat)
    (events : List SerializedEvent)
    (built : ∀ event ∈ events, ∃ eventTypeId sequence timestampUs payload correlationHash,
      SerializedEvent.new crc eventTypeId sequence timestampUs payload correlationHash = .ok event)
    (bytes : List UInt8) :
    collect crc (events.foldl EventBuffer.append (.withCapacity capacity)).iter =
        some (events.map Except.ok) ∧
      ∃ items, collect crc ⟨bytes, 0⟩ = some items ∧ items.length ≤ bytes.length / 46 + 1 := by
  constructor
  · have valid : ∀ event ∈ events, Valid crc event := by
      intro event member
      obtain ⟨_, _, _, _, _, new⟩ := built event member
      exact valid_new new
    have stream := collect_stream events valid []
    unfold EventBuffer.iter
    rw [buffer_append]
    exact stream
  · exact collect_bounded crc ⟨bytes, 0⟩

/-- Two events of different payloads are read back under the checksum of the source. -/
theorem stream_round_trip_two :
    ∃ first second, SerializedEvent.new crc32Iscsi 1 0 0 [] 0 = .ok first ∧
      SerializedEvent.new crc32Iscsi 2 1 1000 [1, 2, 3] 0xABCD = .ok second ∧
      collect crc32Iscsi ([first, second].foldl EventBuffer.append (.withCapacity 1024)).iter =
        some [.ok first, .ok second] := by
  refine ⟨_, _, rfl, rfl, ?_⟩
  refine (stream_round_trip crc32Iscsi 1024 [_, _] (fun event member => ?_) []).1
  cases List.mem_pair.mp member with
  | inl first => exact ⟨1, 0, 0, [], 0, first ▸ rfl⟩
  | inr second => exact ⟨2, 1, 1000, [1, 2, 3], 0xABCD, second ▸ rfl⟩

/-- No checksum function keeps the items below one for each 48 bytes and one more: an event
without payload and a byte behind it are 47 bytes and two items. -/
theorem more_items_than_bound :
    ¬∃ crc : List UInt8 → UInt32, ∀ bytes items, collect crc ⟨bytes, 0⟩ = some items →
      items.length ≤ bytes.length / 48 + 1 := by
  rintro ⟨crc, bound⟩
  obtain ⟨event, built⟩ : ∃ event, SerializedEvent.new crc 1 7 1000 [] 0 = .ok event := ⟨_, rfl⟩
  have size : event.totalSize = 46 := by
    cases built
    rfl
  have length : (event.toBuffer ++ [0]).length = 47 := by simp [size]
  obtain ⟨item, later, yields, reads, goes⟩ := @next_inside crc ⟨event.toBuffer ++ [0], 0⟩
    (length ▸ Nat.succ_pos 46)
  have first : item = .ok event :=
    (Option.some.inj ((fromBuffer_toBuffer (valid_new built) [0]).symm.trans reads)).symm
  have inside : later.offset < later.data.length := by
    rw [goes event first]
    show 0 + event.totalSize < (event.toBuffer ++ [0]).length
    rw [size, length]
    decide
  obtain ⟨second, last, also, _, _⟩ := @next_inside crc later inside
  obtain ⟨rest, ends, _⟩ := collect_bounded crc last
  have all : collect crc ⟨event.toBuffer ++ [0], 0⟩ = some (item :: second :: rest) := by
    rw [collect_next yields, collect_next also, ends]
    rfl
  have within := bound _ _ all
  rw [length, List.length_cons, List.length_cons] at within
  omega

end TradingBot.EventSerializer
