import TradingBot.Foundation.Bytes
import TradingBot.Foundation.MachineInt

/-!
# The delta encoder

`delta_encoder.rs`: order book updates sent as differences to the last value at the same index
of the same side. One type is both ends: `process_update` writes an update as bytes and
`decode_update` reads bytes back into levels, each keeping a table of last values per side.
Signed 64-bit sums and array indices that leave their range panic, which is `none` here.
-/

open Bytes MachineInt

namespace TradingBot

/-- `MAX_LEVELS`: levels tracked per side. -/
def maxLevels : Nat := 100

/-- `DELTA_BUFFER_SIZE`: encoded updates kept. -/
def deltaBufferSize : Nat := 1024

/-- The smallest and largest `i16`, as `clamp` receives them. -/
def clampI16 (value : Int) : Int := max (-32768) (min value 32767)

/-- The smallest and largest `i32`, as `clamp` receives them. -/
def clampI32 (value : Int) : Int := max (-2147483648) (min value 2147483647)

/-- `UpdateType`. -/
inductive UpdateType where
  /-- A level at an index that had none. -/
  | add
  /-- A change of a level. -/
  | modify
  | remove
  /-- A level of a snapshot. -/
  | snapshot

/-- The byte of an update type. -/
def UpdateType.toByte : UpdateType → UInt8
  | .add => 0
  | .modify => 1
  | .remove => 2
  | .snapshot => 3

def UpdateType.fromU8 (value : UInt8) : Option UpdateType :=
  match value.toNat with
  | 0 => some .add
  | 1 => some .modify
  | 2 => some .remove
  | 3 => some .snapshot
  | _ => none

@[simp] theorem UpdateType.fromU8_toByte (updateType : UpdateType) :
    fromU8 updateType.toByte = some updateType := by
  cases updateType <;> rfl

/-- `DeltaLevel`: one level as it is sent. -/
structure DeltaLevel where
  /-- Difference to the previous price, or a price. -/
  priceDelta : Int
  /-- Difference to the previous quantity, or a quantity. -/
  quantityDelta : Int
  levelIndex : UInt8
  updateType : UpdateType

namespace DeltaLevel

def size : Nat := 9

/-- `encode`: nine bytes, the last one reserved. -/
def encode (level : DeltaLevel) : List UInt8 :=
  toSignedLE 2 level.priceDelta ++ toSignedLE 4 level.quantityDelta ++
    [level.levelIndex, level.updateType.toByte, 0]

def decode (bytes : List UInt8) : Option DeltaLevel :=
  match bytes with
  | [p0, p1, q0, q1, q2, q3, index, updateType, _] =>
    (UpdateType.fromU8 updateType).map fun updateType => {
      priceDelta := ofSignedLE [p0, p1]
      quantityDelta := ofSignedLE [q0, q1, q2, q3]
      levelIndex := index
      updateType := updateType }
  | _ => none

/-- The two differences fit their fields. -/
structure Fits (level : DeltaLevel) : Prop where
  /-- The price difference is an `i16`. -/
  price : -32768 ≤ level.priceDelta ∧ level.priceDelta ≤ 32767
  /-- The quantity difference is an `i32`. -/
  quantity : -2147483648 ≤ level.quantityDelta ∧ level.quantityDelta ≤ 2147483647

@[simp] theorem encode_length (level : DeltaLevel) : level.encode.length = size := by
  simp [encode, size]

theorem decode_encode {level : DeltaLevel} (fits : level.Fits) :
    decode level.encode = some level := by
  have price : ofSignedLE (toSignedLE 2 level.priceDelta) = level.priceDelta :=
    ofSignedLE_toSignedLE (by have := fits.price.1; omega) (by have := fits.price.2; omega)
  have quantity : ofSignedLE (toSignedLE 4 level.quantityDelta) = level.quantityDelta :=
    ofSignedLE_toSignedLE (by have := fits.quantity.1; omega) (by have := fits.quantity.2; omega)
  have parsed : decode level.encode =
      (UpdateType.fromU8 level.updateType.toByte).map fun updateType => {
        priceDelta := ofSignedLE (toSignedLE 2 level.priceDelta)
        quantityDelta := ofSignedLE (toSignedLE 4 level.quantityDelta)
        levelIndex := level.levelIndex
        updateType := updateType } := rfl
  rw [parsed, price, quantity, UpdateType.fromU8_toByte]
  rfl

end DeltaLevel

/-- The last values at one index of one side. -/
structure LevelSlot where
  price : Int
  quantity : Int
  active : Bool

/-- The last values of one side. -/
abbrev LevelTable := Fin maxLevels → LevelSlot

/-- The table of a new encoder. -/
def LevelTable.empty : LevelTable := fun _ => ⟨0, 0, false⟩

/-- `EncoderStats`. -/
structure EncoderStats where
  updatesProcessed : Nat := 0
  outOfOrderUpdates : Nat := 0
  duplicateUpdates : Nat := 0
  bytesSaved : Nat := 0
  /-- Bytes of the levels before encoding. -/
  originalBytes : Nat := 0
  /-- Bytes after encoding. -/
  compressedBytes : Nat := 0

/-- `EncoderError`. -/
inductive EncoderError where
  /-- The bytes are not an encoded update. -/
  | invalidData (message : String)
  | outOfOrderSequence (current received : UInt64)
  | bufferOverflow
  | invalidLevelIndex (index : Nat)

/-- `DeltaOfDeltaEncoder`. -/
structure DeltaOfDeltaEncoder where
  /-- `last_bid_prices`, `last_bid_quantities` and `bid_active`. -/
  bids : LevelTable
  /-- `last_ask_prices`, `last_ask_quantities` and `ask_active`. -/
  asks : LevelTable
  deltaBuffer : List (List UInt8)
  currentSequence : UInt64
  lastSequence : UInt64
  stats : EncoderStats

/-- The arguments of one `process_update`. -/
structure LevelUpdate where
  sequenceId : UInt64
  /-- Price and quantity of the bids. -/
  bids : List (Int × Int)
  asks : List (Int × Int)
  isSnapshot : Bool

namespace DeltaOfDeltaEncoder

def new : DeltaOfDeltaEncoder where
  bids := .empty
  asks := .empty
  deltaBuffer := []
  currentSequence := 0
  lastSequence := 0
  stats := {}

/-- `reset`: the sequence ids are kept. -/
def reset (encoder : DeltaOfDeltaEncoder) : DeltaOfDeltaEncoder :=
  { encoder with bids := .empty, asks := .empty, deltaBuffer := [], stats := {} }

/-- The update type `encode_level_delta` determines. -/
def levelType (slot : LevelSlot) (quantity : Int) (isSnapshot : Bool) : UpdateType :=
  if isSnapshot then .snapshot
  else if !slot.active then .add
  else if quantity = 0 then .remove
  else .modify

/-- `encode_level_delta`, from the last values at the level's index. -/
def encodeLevelDelta (slot : LevelSlot) (price quantity : Int) (levelIndex : Nat)
    (isSnapshot : Bool) : Option DeltaLevel :=
  if isSnapshot then
    some {
      priceDelta := Int.bmod price 65536
      quantityDelta := Int.bmod quantity 4294967296
      levelIndex := UInt8.ofNat levelIndex
      updateType := levelType slot quantity isSnapshot }
  else do
    let priceDelta ← i64 (price - slot.price)
    let quantityDelta ← i64 (quantity - slot.quantity)
    some {
      priceDelta := clampI16 priceDelta
      quantityDelta := clampI32 quantityDelta
      levelIndex := UInt8.ofNat levelIndex
      updateType := levelType slot quantity isSnapshot }

/-- The loop of `process_update` over the levels of one side. -/
def encodeSide (isSnapshot : Bool) :
    Nat → List (Int × Int) → LevelTable → Option (List UInt8 × LevelTable)
  | _, [], table => some ([], table)
  | index, (price, quantity) :: rest, table =>
    if inside : index < maxLevels then do
      let delta ← encodeLevelDelta (table ⟨index, inside⟩) price quantity index isSnapshot
      let (bytes, final) ← encodeSide isSnapshot (index + 1) rest
        (Function.update table ⟨index, inside⟩ ⟨price, quantity, true⟩)
      some (delta.encode ++ bytes, final)
    else none

/-- `process_update` past the check of the sequence id. -/
def encodeUpdate (encoder : DeltaOfDeltaEncoder) (update : LevelUpdate) :
    Option (List UInt8 × DeltaOfDeltaEncoder) := do
  let cleared := if update.isSnapshot then encoder.reset else encoder
  let bids := update.bids.take maxLevels
  let asks := update.asks.take maxLevels
  let (bidBytes, bidTable) ← encodeSide update.isSnapshot 0 bids cleared.bids
  let (askBytes, askTable) ← encodeSide update.isSnapshot 0 asks cleared.asks
  let encoded := toLE 8 update.sequenceId.toNat ++
    [if update.isSnapshot then 1 else 0,
      if update.isSnapshot then UpdateType.snapshot.toByte else 0, UInt8.ofNat bids.length] ++
    bidBytes ++ [UInt8.ofNat asks.length] ++ askBytes
  let originalSize := (update.bids.length + update.asks.length) * 16
  some (encoded, {
    bids := bidTable
    asks := askTable
    deltaBuffer := (if deltaBufferSize ≤ cleared.deltaBuffer.length then cleared.deltaBuffer.tail
      else cleared.deltaBuffer) ++ [encoded]
    currentSequence := update.sequenceId
    lastSequence := update.sequenceId
    stats := { cleared.stats with
      originalBytes := cleared.stats.originalBytes + originalSize
      compressedBytes := cleared.stats.compressedBytes + encoded.length
      bytesSaved := cleared.stats.bytesSaved + (originalSize - encoded.length)
      updatesProcessed := cleared.stats.updatesProcessed + 1 } })

/-- `process_update`: a duplicate is skipped, an earlier update is counted and processed. -/
def processUpdate (encoder : DeltaOfDeltaEncoder) (update : LevelUpdate) :
    Option (List UInt8 × DeltaOfDeltaEncoder) :=
  if update.sequenceId ≤ encoder.lastSequence ∧ update.isSnapshot = false then
    let stats := { encoder.stats with
      outOfOrderUpdates := encoder.stats.outOfOrderUpdates + 1 }
    if update.sequenceId = encoder.lastSequence then
      some ([], { encoder with
        stats := { stats with duplicateUpdates := stats.duplicateUpdates + 1 } })
    else encodeUpdate { encoder with stats := stats } update
  else encodeUpdate encoder update

/-- The body of the decoding loop: the level a delta stands for, if its quantity is positive,
and the last values after it. -/
def receive (slot : LevelSlot) (delta : DeltaLevel) :
    Option (Option (Int × Int) × LevelSlot) := do
  let price ← match delta.updateType with
    | .snapshot | .add => some delta.priceDelta
    | _ => i64 (slot.price + delta.priceDelta)
  let quantity ← match delta.updateType with
    | .snapshot | .add => some delta.quantityDelta
    | _ => i64 (slot.quantity + delta.quantityDelta)
  if 0 < quantity then some (some (price, quantity), ⟨price, quantity, true⟩)
  else some (none, { slot with active := false })

/-- The loop of `decode_update` over the levels of one side, with the levels read so far: the
levels and the bytes that remain, or an error, and the table. -/
def decodeSide : Nat → Nat → List UInt8 → LevelTable → List (Int × Int) →
    Option (Except EncoderError (List (Int × Int) × List UInt8) × LevelTable)
  | 0, _, bytes, table, levels => some (.ok (levels, bytes), table)
  | count + 1, index, bytes, table, levels =>
    if bytes.length < DeltaLevel.size then
      some (.error (.invalidData "Unexpected end of data"), table)
    else
      match DeltaLevel.decode (bytes.take DeltaLevel.size) with
      | none => some (.error (.invalidData "Invalid delta encoding"), table)
      | some delta =>
        if inside : index < maxLevels then do
          let (level, slot) ← receive (table ⟨index, inside⟩) delta
          decodeSide count (index + 1) (bytes.drop DeltaLevel.size)
            (Function.update table ⟨index, inside⟩ slot) (levels ++ level.toList)
        else none

/-- The bytes of a side with their count before them; a missing count is an index out of
range. -/
def decodeCounted (bytes : List UInt8) (table : LevelTable) :
    Option (Except EncoderError (List (Int × Int) × List UInt8) × LevelTable) :=
  match bytes with
  | [] => none
  | count :: rest => decodeSide count.toNat 0 rest table []

/-- `decode_update`: the levels of both sides, or an error, and the decoder after it. -/
def decodeUpdate (decoder : DeltaOfDeltaEncoder) (data : List UInt8) :
    Option (Except EncoderError (List (Int × Int) × List (Int × Int)) × DeltaOfDeltaEncoder) :=
  if data.length < 11 then some (.error (.invalidData "Data too short"), decoder)
  else do
    let updateMarker := word data 9 1
    let cleared := if updateMarker % 2 = 1 then decoder.reset else decoder
    let (bidResult, bidTable) ← decodeCounted (data.drop 10) cleared.bids
    let received := { cleared with bids := bidTable }
    match bidResult with
    | .error error => some (.error error, received)
    | .ok (bids, rest) =>
      let (askResult, askTable) ← decodeCounted rest received.asks
      let received := { received with asks := askTable }
      match askResult with
      | .error error => some (.error error, received)
      | .ok (asks, _) => some (.ok (bids, asks), received)

end DeltaOfDeltaEncoder

end TradingBot
