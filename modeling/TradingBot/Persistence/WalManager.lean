import TradingBot.Foundation.Bytes

/-!
# The write-ahead log

`wal_manager.rs`: records of a fixed 32-byte header and a payload, appended to one file that is
extended with zeros to its maximal size, and archived when the next record does not fit. The
memory map and the buffered handle write the same bytes at the same place, so a file is one byte
list. The checksum function of `crc32fast`, the clock and the bytes of struct padding are
parameters; the operating system does what it is asked.
-/

open Bytes

namespace TradingBot

/-- `WalRecordType`: record types representing different state changes. -/
inductive WalRecordType where
  | orderNew
  | orderModify
  | orderCancel
  | orderFill
  | positionOpen
  | positionClose
  | balanceUpdate
  | checkpoint
  deriving DecidableEq, Repr

/-- The byte of a record type. -/
def WalRecordType.toByte : WalRecordType → UInt8
  | .orderNew => 1
  | .orderModify => 2
  | .orderCancel => 3
  | .orderFill => 4
  | .positionOpen => 5
  | .positionClose => 6
  | .balanceUpdate => 7
  | .checkpoint => 255

/-- `WalRecordType::from`: every unknown byte falls back to a new order. -/
def WalRecordType.ofByte (value : UInt8) : WalRecordType :=
  match value.toNat with
  | 1 => .orderNew
  | 2 => .orderModify
  | 3 => .orderCancel
  | 4 => .orderFill
  | 5 => .positionOpen
  | 6 => .positionClose
  | 7 => .balanceUpdate
  | 255 => .checkpoint
  | _ => .orderNew

/-- `WalHeader`: the header of a record. -/
structure WalHeader where
  recordType : UInt8
  version : UInt8
  /-- Unused flags. -/
  flags : UInt16
  /-- The four bytes the C layout leaves between the flags and the timestamp. -/
  padding : UInt32
  /-- Nanoseconds since the epoch. -/
  timestampNs : UInt64
  sequenceNum : UInt64
  payloadSize : UInt32
  checksum : UInt32
  deriving DecidableEq, Repr

namespace WalHeader

def size : Nat := 32

/-- `to_bytes`: the fields at their offsets in the C layout. -/
def toBytes (header : WalHeader) : List UInt8 :=
  [header.recordType, header.version] ++ toLE 2 header.flags.toNat ++
    toLE 4 header.padding.toNat ++ toLE 8 header.timestampNs.toNat ++
    toLE 8 header.sequenceNum.toNat ++ toLE 4 header.payloadSize.toNat ++
    toLE 4 header.checksum.toNat

/-- `from_bytes`: a header is read from the front, unless fewer bytes are left. -/
def fromBytes (bytes : List UInt8) : Option WalHeader :=
  if bytes.length < size then none
  else some {
    recordType := UInt8.ofNat (word bytes 0 1)
    version := UInt8.ofNat (word bytes 1 1)
    flags := UInt16.ofNat (word bytes 2 2)
    padding := UInt32.ofNat (word bytes 4 4)
    timestampNs := UInt64.ofNat (word bytes 8 8)
    sequenceNum := UInt64.ofNat (word bytes 16 8)
    payloadSize := UInt32.ofNat (word bytes 24 4)
    checksum := UInt32.ofNat (word bytes 28 4) }

@[simp] theorem toBytes_length (header : WalHeader) : header.toBytes.length = size := by
  simp [toBytes, size]

theorem fromBytes_toBytes (header : WalHeader) (rest : List UInt8) :
    fromBytes (header.toBytes ++ rest) = some header := by
  have enough : ¬(header.toBytes ++ rest).length < size := by simp
  have byte (value : UInt8) : ofLE [value] = value.toNat := by simp [ofLE]
  have recordType : word (header.toBytes ++ rest) 0 1 = header.recordType.toNat := byte _
  have version : word (header.toBytes ++ rest) 1 1 = header.version.toNat := byte _
  have flags : word (header.toBytes ++ rest) 2 2 = header.flags.toNat :=
    word_of_placed rfl header.flags.toNat_lt
  have padding : word (header.toBytes ++ rest) 4 4 = header.padding.toNat :=
    word_of_placed rfl header.padding.toNat_lt
  have timestamp : word (header.toBytes ++ rest) 8 8 = header.timestampNs.toNat :=
    word_of_placed rfl header.timestampNs.toNat_lt
  have sequence : word (header.toBytes ++ rest) 16 8 = header.sequenceNum.toNat :=
    word_of_placed rfl header.sequenceNum.toNat_lt
  have payload : word (header.toBytes ++ rest) 24 4 = header.payloadSize.toNat :=
    word_of_placed rfl header.payloadSize.toNat_lt
  have checksum : word (header.toBytes ++ rest) 28 4 = header.checksum.toNat :=
    word_of_placed rfl header.checksum.toNat_lt
  simp only [fromBytes, if_neg enough, recordType, version, flags, padding, timestamp, sequence,
    payload, checksum, UInt8.ofNat_toNat, UInt16.ofNat_toNat, UInt32.ofNat_toNat,
    UInt64.ofNat_toNat]

/-- `WalHeader::new`, at a clock reading and with the padding bytes it leaves unset. -/
def new (recordType : WalRecordType) (sequenceNum : UInt64) (payloadSize : UInt32)
    (timestampNs : UInt64) (padding : UInt32) : WalHeader where
  recordType := recordType.toByte
  version := 1
  flags := 0
  padding := padding
  timestampNs := timestampNs
  sequenceNum := sequenceNum
  payloadSize := payloadSize
  checksum := 0

end WalHeader

/-- `WalRecord`: a header and a payload. -/
structure WalRecord where
  header : WalHeader
  payload : List UInt8
  deriving DecidableEq, Repr

namespace WalRecord

/-- `WalRecord::new`; the payload size is kept modulo the width of its field. -/
def new (recordType : WalRecordType) (sequenceNum : UInt64) (payload : List UInt8)
    (timestampNs : UInt64) (padding : UInt32) : WalRecord where
  header := .new recordType sequenceNum (UInt32.ofNat payload.length) timestampNs padding
  payload := payload

/-- `compute_checksum`: the checksum of the header as it stands and the payload. -/
def computeChecksum (crc : List UInt8 → UInt32) (record : WalRecord) : WalRecord :=
  { record with
    header := { record.header with checksum := crc (record.header.toBytes ++ record.payload) } }

/-- `verify_checksum`: the checksum of the header, the payload and once more the header with
its checksum zeroed. -/
def verifyChecksum (crc : List UInt8 → UInt32) (record : WalRecord) : Bool :=
  crc (record.header.toBytes ++ record.payload ++ { record.header with checksum := 0 }.toBytes) ==
    record.header.checksum

/-- One bit of the CRC-32 register. -/
def crcShift (register : UInt32) : UInt32 :=
  if register &&& 1 = 1 then (register >>> 1) ^^^ 0xEDB88320 else register >>> 1

/-- One byte of the CRC-32 register. -/
def crcByte (register : UInt32) (byte : UInt8) : UInt32 :=
  Nat.repeat crcShift 8 (register ^^^ byte.toUInt32)

/-- The checksum of `crc32fast`, the CRC-32 of all bytes it was given. -/
def crc32 (bytes : List UInt8) : UInt32 :=
  bytes.foldl crcByte 0xFFFFFFFF ^^^ 0xFFFFFFFF

theorem crc32_append {first second : List UInt8} {register : UInt32}
    (reached : first.foldl crcByte 0xFFFFFFFF = register) :
    crc32 (first ++ second) = second.foldl crcByte register ^^^ 0xFFFFFFFF := by
  rw [crc32, List.foldl_append, reached]

/-- The checksum has the published check value. -/
example : crc32 [0x31, 0x32, 0x33, 0x34, 0x35, 0x36, 0x37, 0x38, 0x39] = 0xCBF43926 := by
  decide +kernel

/-- `serialize`: the bytes of a record. -/
def serialize (record : WalRecord) : List UInt8 :=
  record.header.toBytes ++ record.payload

@[simp] theorem serialize_length (record : WalRecord) :
    record.serialize.length = WalHeader.size + record.payload.length := by
  simp [serialize]

end WalRecord

/-! ## The manager -/

/-- `max_wal_size`, 100 MB in every manager. -/
def maxWalSize : Nat := 100 * 1024 * 1024

/-- `WalManager`, with the files of its directory. -/
structure WalManager where
  /-- Bytes of the file at the log's path, all of them mapped. -/
  file : List UInt8
  /-- Archived files by the second in their name. -/
  archives : List (Nat × List UInt8)
  writePosition : Nat
  /-- Sequence number of the next record. -/
  sequenceNum : UInt64
  enabled : Bool

/-- One call of `append` and what it meets: the clock and the padding of its header. -/
structure AppendCall where
  recordType : WalRecordType
  payload : List UInt8
  timestampNs : UInt64
  padding : UInt32

/-- The record a call builds at a sequence number. -/
def AppendCall.record (call : AppendCall) (sequenceNum : UInt64) : WalRecord :=
  .new call.recordType sequenceNum call.payload call.timestampNs call.padding

/-- The record a call builds at a sequence number, sealed with its checksum. -/
def AppendCall.sealedRecord (crc : List UInt8 → UInt32) (call : AppendCall)
    (sequenceNum : UInt64) : WalRecord :=
  (call.record sequenceNum).computeChecksum crc

/-- The bytes a call needs in the file. -/
def AppendCall.recordSize (call : AppendCall) : Nat := WalHeader.size + call.payload.length

/-- A sealed record is as long as it says. -/
@[simp] theorem AppendCall.sealedRecord_length (crc : List UInt8 → UInt32) (call : AppendCall)
    (sequenceNum : UInt64) :
    (call.sealedRecord crc sequenceNum).serialize.length = call.recordSize :=
  WalRecord.serialize_length _

namespace WalManager

/-- `init_mmap`: the file is extended to its maximal size and mapped. -/
def initMmap (manager : WalManager) : WalManager :=
  { manager with file := setLen manager.file maxWalSize }

def recoverSequenceNum (manager : WalManager) : WalManager :=
  { manager with sequenceNum := 0 }

/-- `WalManager::new` on a directory: the write position is the size of the existing file. -/
def new (existing : List UInt8) (archives : List (Nat × List UInt8)) : WalManager :=
  recoverSequenceNum <| initMmap {
    file := existing
    archives := archives
    writePosition := existing.length
    sequenceNum := 0
    enabled := true }

/-- `rotate`: the file is renamed after the current second and a zeroed one takes its place. -/
def rotate (manager : WalManager) (second : Nat) : WalManager :=
  initMmap { manager with
    file := setLen [] maxWalSize
    archives := (second, manager.file) :: manager.archives.filter fun entry => entry.1 ≠ second
    writePosition := 0
    sequenceNum := 0 }

/-- `append`: the record is built at the current sequence number before the rotation check. -/
def append (crc : List UInt8 → UInt32) (manager : WalManager) (call : AppendCall) :
    Except String UInt64 × WalManager :=
  if !manager.enabled then (.ok 0, manager)
  else
    let serialized := (call.sealedRecord crc manager.sequenceNum).serialize
    let ready :=
      if maxWalSize < manager.writePosition + serialized.length then
        manager.rotate (call.timestampNs.toNat / 1000000000)
      else manager
    if ready.writePosition + serialized.length ≤ ready.file.length then
      (.ok ready.sequenceNum, { ready with
        file := overwrite ready.file ready.writePosition serialized
        writePosition := ready.writePosition + serialized.length
        sequenceNum := ready.sequenceNum + 1 })
    else (.error "WAL file size exceeded", ready)

/-- `log_position`: only the two position types are accepted. -/
def logPosition (crc : List UInt8 → UInt32) (manager : WalManager) (call : AppendCall) :
    Except String UInt64 × WalManager :=
  if call.recordType ≠ .positionOpen ∧ call.recordType ≠ .positionClose then
    (.error "Invalid position record type", manager)
  else manager.append crc call

/-- `append` on a list of calls, one after another. -/
def appendAll (crc : List UInt8 → UInt32) (manager : WalManager) :
    List AppendCall → List (Except String UInt64) × WalManager
  | [] => ([], manager)
  | call :: rest =>
    let (result, next) := manager.append crc call
    let (results, final) := next.appendAll crc rest
    (result :: results, final)

theorem append_fits {crc : List UInt8 → UInt32} {manager : WalManager} {call : AppendCall}
    (enabled : manager.enabled = true) (length : manager.file.length = maxWalSize)
    (fits : manager.writePosition + call.recordSize ≤ maxWalSize) :
    manager.append crc call = (.ok manager.sequenceNum, { manager with
      file := overwrite manager.file manager.writePosition
        (call.sealedRecord crc manager.sequenceNum).serialize
      writePosition := manager.writePosition + call.recordSize
      sequenceNum := manager.sequenceNum + 1 }) := by
  have open_ : ¬(!manager.enabled) = true := by simp [enabled]
  have stays : ¬maxWalSize < manager.writePosition + call.recordSize := by omega
  have room : manager.writePosition + call.recordSize ≤ manager.file.length := by omega
  simp only [append, if_neg open_, AppendCall.sealedRecord_length, if_neg stays, if_pos room]

/-- `append` of a record that fits no longer behind the write position but fits an empty file
writes it to the start of a fresh one. -/
theorem append_rotates {crc : List UInt8 → UInt32} {manager : WalManager} {call : AppendCall}
    (enabled : manager.enabled = true)
    (full : maxWalSize < manager.writePosition + call.recordSize)
    (fits : call.recordSize ≤ maxWalSize) :
    manager.append crc call = (.ok 0,
      { manager.rotate (call.timestampNs.toNat / 1000000000) with
        file := overwrite (List.replicate maxWalSize 0) 0
          (call.sealedRecord crc manager.sequenceNum).serialize
        writePosition := call.recordSize
        sequenceNum := 1 }) := by
  have open_ : ¬(!manager.enabled) = true := by simp [enabled]
  have room : call.recordSize ≤ (List.replicate maxWalSize (0 : UInt8)).length := by
    simpa using fits
  have zeroed : setLen (setLen [] maxWalSize) maxWalSize = List.replicate maxWalSize 0 := by
    rw [setLen_of_length (setLen_length _ _), setLen_nil]
  simp only [append, if_neg open_, AppendCall.sealedRecord_length, if_pos full, rotate, initMmap,
    zeroed, Nat.zero_add, if_pos room]
  rfl

theorem append_refused {crc : List UInt8 → UInt32} {manager : WalManager} {call : AppendCall}
    (enabled : manager.enabled = true) (oversized : maxWalSize < call.recordSize) :
    manager.append crc call = (.error "WAL file size exceeded",
      manager.rotate (call.timestampNs.toNat / 1000000000)) := by
  have open_ : ¬(!manager.enabled) = true := by simp [enabled]
  have full : maxWalSize < manager.writePosition + call.recordSize := by omega
  have room : ¬0 + call.recordSize ≤ (setLen (setLen [] maxWalSize) maxWalSize).length := by
    simpa using oversized
  simp only [append, if_neg open_, AppendCall.sealedRecord_length, if_pos full, rotate, initMmap,
    if_neg room]

/-- The loop of `replay_from` over the bytes that remain and the records read so far. -/
def replayLoop (crc : List UInt8 → UInt32) (fromSeq : UInt64) (bytes : List UInt8)
    (records : List WalRecord) : Except String (List WalRecord) :=
  if bytes.length < WalHeader.size then .ok records
  else
    match WalHeader.fromBytes bytes with
    | none => .error "Invalid WAL header"
    | some header =>
      let rest := bytes.drop WalHeader.size
      let payloadSize := header.payloadSize.toNat
      if header.sequenceNum < fromSeq then
        if rest.length < payloadSize then
          .error "Failed to skip payload: failed to fill whole buffer"
        else replayLoop crc fromSeq (rest.drop payloadSize) records
      else if rest.length < payloadSize then
        .error "Failed to read payload: failed to fill whole buffer"
      else
        let record := { header, payload := rest.take payloadSize : WalRecord }
        if !record.verifyChecksum crc then
          .error s!"Checksum verification failed at seq {header.sequenceNum}"
        else replayLoop crc fromSeq (rest.drop payloadSize) (records ++ [record])
termination_by bytes.length
decreasing_by all_goals simp only [List.length_drop, WalHeader.size] at *; omega

/-- `replay_from`: the records from a sequence number on, read from the start of the file. -/
def replayFrom (crc : List UInt8 → UInt32) (manager : WalManager) (fromSeq : UInt64) :
    Except String (List WalRecord) :=
  replayLoop crc fromSeq manager.file []

end WalManager

end TradingBot
