import Mathlib.Data.List.DropRight
import Mathlib.Data.List.Sort
import TradingBot.Foundation.CrashLogic
import TradingBot.Foundation.Dict

/-!
# Checkpoint manager

A checkpoint is two files, the data and its metadata, both named after the sequence number. The
data is written to a temporary file and renamed into place; the metadata is written directly,
before the rename. Each file operation is atomic, and a program may be stopped before any of them.
-/

open CrashLogic

namespace TradingBot

namespace CheckpointManager

def maxCheckpoints : Nat := 10

/-- `compression_level`, as `new` sets it. -/
def compressionLevel : Nat := 6

/-- `CheckpointMetadata`. -/
structure CheckpointMetadata where
  sequenceNumber : Nat
  timestampUs : Nat
  version : Nat
  compression : String
  originalSize : Nat
  compressedSize : Nat
  checksum : String
  hostname : String
  processId : Nat

/-- The checkpoint directory. A path is a kind of file with a sequence number, which the names
show with twenty digits. A metadata file holds the text of a record, which reads back as it. -/
structure Directory where
  /-- The files of `get_temp_checkpoint_path`. -/
  temporary : Dict Nat (List UInt8)
  /-- The files of `get_checkpoint_path`. -/
  checkpoints : Dict Nat (List UInt8)
  /-- The files of `get_metadata_path`. -/
  metadata : Dict Nat CheckpointMetadata

/-- A directory without files. -/
def Directory.empty : Directory := ⟨.empty, .empty, .empty⟩

/-- `CheckpointResult`, less its path and duration. -/
structure CheckpointResult where
  success : Bool
  sequenceNumber : Nat
  sizeBytes : Nat
  checksum : String
  errorMessage : Option String

/-- `CheckpointResult::success`. -/
def CheckpointResult.succeeded (sequence size : Nat) (checksum : String) : CheckpointResult :=
  ⟨true, sequence, size, checksum, none⟩

def CheckpointResult.failure (error : String) : CheckpointResult :=
  ⟨false, 0, 0, "", some error⟩

/-- `CheckpointError`. -/
inductive CheckpointError where
  | notFound (message : String)
  | ioError (message : String)
  | parseError (message : String)
  | checksumMismatch (message : String)
  | decompressionError (message : String)

/-- What the manager takes from other packages. -/
structure Codec (τ : Type) where
  /-- `bincode::serialize`. -/
  serialize : τ → Except String (List UInt8)
  /-- `bincode::deserialize`. -/
  deserialize : List UInt8 → Except String τ
  /-- Whether the feature `lz4` is compiled in. -/
  lz4 : Bool
  /-- `lz4_flex::compress_prepend_size`. -/
  compressPrependSize : List UInt8 → Except String (List UInt8)
  /-- `lz4_flex::decompress_size_prepended`. -/
  decompressSizePrepended : List UInt8 → Except String (List UInt8)
  /-- The SHA-256 digest in hexadecimal. -/
  sha256 : List UInt8 → String

/-- What is written reads back. -/
structure Codec.Lawful {τ : Type} (codec : Codec τ) : Prop where
  /-- A serialized state deserializes to itself. -/
  deserialize_serialize : ∀ state bytes, codec.serialize state = .ok bytes →
    codec.deserialize bytes = .ok state
  /-- Compressed bytes decompress to themselves. -/
  decompress_compress : ∀ bytes compressed, codec.compressPrependSize bytes = .ok compressed →
    codec.decompressSizePrepended compressed = .ok bytes

variable {τ : Type}

def compressData (codec : Codec τ) (data : List UInt8) : Except String (List UInt8) :=
  if codec.lz4 then
    (codec.compressPrependSize data).mapError fun error => s!"LZ4 compression failed: {error}"
  else .ok data

def decompressData (codec : Codec τ) (data : List UInt8) :
    Except CheckpointError (List UInt8) :=
  if codec.lz4 then
    (codec.decompressSizePrepended data).mapError fun error =>
      .decompressionError s!"LZ4 decompression failed: {error}"
  else .ok data

def calculateChecksum (codec : Codec τ) (data : List UInt8) : String := codec.sha256 data

end CheckpointManager

open CheckpointManager

/-- `CheckpointManager`, with the directory it works in. -/
structure CheckpointManager where
  /-- The files in `checkpoint_dir`. -/
  directory : Directory
  currentSequence : Nat
  checkpointInProgress : Bool
  validCheckpoints : List Nat

namespace CheckpointManager

variable {τ : Type}

/-- The sequence numbers that `scan_existing_checkpoints` finds: those of the published data
files, sorted. -/
def scanExistingCheckpoints (directory : Directory) : List Nat :=
  directory.checkpoints.keys.insertionSort (· ≤ ·)

/-- `new`, on a directory with files. -/
def new (directory : Directory) : CheckpointManager where
  directory
  currentSequence := (scanExistingCheckpoints directory).getLastD 0
  checkpointInProgress := false
  validCheckpoints := scanExistingCheckpoints directory

/-! ## File operations -/

/-- The error of an operation on a file that is not there. -/
def missing : String := "No such file or directory (os error 2)"

/-- The manager on changed files. -/
def withDirectory (manager : CheckpointManager) (directory : Directory) : CheckpointManager :=
  { manager with directory }

/-- `write_atomic` to the temporary path. -/
def writeTemporary (sequence : Nat) (data : List UInt8) :
    Program CheckpointManager (Except String Unit) :=
  Program.perform fun manager =>
    .ok (manager.withDirectory { manager.directory with
      temporary := manager.directory.temporary.put sequence data })

/-- `fs::write` to the metadata path. -/
def writeMetadata (sequence : Nat) (metadata : CheckpointMetadata) :
    Program CheckpointManager (Except String Unit) :=
  Program.perform fun manager =>
    .ok (manager.withDirectory { manager.directory with
      metadata := manager.directory.metadata.put sequence metadata })

/-- `fs::rename` of the temporary path to the checkpoint path. -/
def renameTemporary (sequence : Nat) : Program CheckpointManager (Except String Unit) :=
  Program.perform fun manager =>
    match manager.directory.temporary.get sequence with
    | none => .error missing
    | some data =>
      .ok (manager.withDirectory { manager.directory with
        temporary := manager.directory.temporary.pop sequence
        checkpoints := manager.directory.checkpoints.put sequence data })

/-- `fs::remove_file` of the temporary path. -/
def removeTemporary (sequence : Nat) : Program CheckpointManager (Except String Unit) :=
  Program.perform fun manager =>
    if (manager.directory.temporary.get sequence).isSome then
      .ok (manager.withDirectory { manager.directory with
        temporary := manager.directory.temporary.pop sequence })
    else .error missing

/-- `fs::remove_file` of the checkpoint path. -/
def removeCheckpoint (sequence : Nat) : Program CheckpointManager (Except String Unit) :=
  Program.perform fun manager =>
    if (manager.directory.checkpoints.get sequence).isSome then
      .ok (manager.withDirectory { manager.directory with
        checkpoints := manager.directory.checkpoints.pop sequence })
    else .error missing

/-- `fs::remove_file` of the metadata path. -/
def removeMetadata (sequence : Nat) : Program CheckpointManager (Except String Unit) :=
  Program.perform fun manager =>
    if (manager.directory.metadata.get sequence).isSome then
      .ok (manager.withDirectory { manager.directory with
        metadata := manager.directory.metadata.pop sequence })
    else .error missing

/-! ## Deleting -/

/-- Whether a data file is there. -/
def hasCheckpoint (manager : CheckpointManager) (sequence : Nat) : Bool :=
  (manager.directory.checkpoints.get sequence).isSome

/-- Whether a metadata file is there. -/
def hasMetadata (manager : CheckpointManager) (sequence : Nat) : Bool :=
  (manager.directory.metadata.get sequence).isSome

/-- The `retain` of `delete_checkpoint`. -/
def retainOthers (manager : CheckpointManager) (sequence : Nat) : CheckpointManager :=
  { manager with validCheckpoints := manager.validCheckpoints.filter (· ≠ sequence) }

/-- The second half of `delete_checkpoint`, from the metadata on. -/
def deleteMetadata (sequence : Nat) (removed : Bool) :
    Program CheckpointManager (Except String Unit) := do
  if ← Program.read (·.hasMetadata sequence) then
    match ← removeMetadata sequence with
    | .error error => pure (.error error)
    | .ok () =>
      Program.change (·.retainOthers sequence)
      pure (.ok ())
  else if removed then
    Program.change (·.retainOthers sequence)
    pure (.ok ())
  else pure (.ok ())

def deleteCheckpoint (sequence : Nat) : Program CheckpointManager (Except String Unit) := do
  if ← Program.read (·.hasCheckpoint sequence) then
    match ← removeCheckpoint sequence with
    | .error error => pure (.error error)
    | .ok () => deleteMetadata sequence true
  else deleteMetadata sequence false

/-- Whether the list is longer than `MAX_CHECKPOINTS`. -/
def crowded (manager : CheckpointManager) : Bool :=
  decide (maxCheckpoints < manager.validCheckpoints.length)

/-- One round of `cleanup_old_checkpoints`: the first of the list is taken off and deleted, and an
error is ignored. -/
def cleanupRound : Program CheckpointManager Unit := do
  match ← Program.read (·.validCheckpoints) with
  | [] => pure ()
  | oldest :: rest =>
    Program.change ({ · with validCheckpoints := rest })
    let _ ← deleteCheckpoint oldest
    pure ()

/-- `cleanup_old_checkpoints`. Every round shortens the list, so its length bounds the rounds. -/
def cleanupOldCheckpoints : Program CheckpointManager Unit := do
  let sequences ← Program.read (·.validCheckpoints)
  Program.whileM crowded cleanupRound sequences.length

/-! ## Creating -/

/-- What the metadata takes from the system: the clock, the host name and the process. -/
structure Environment where
  /-- The microseconds since the epoch. -/
  timestampUs : Nat
  hostname : String
  processId : Nat

/-- The metadata of a checkpoint. -/
def metadataOf (codec : Codec τ) (sequence : Nat) (environment : Environment) (originalSize : Nat)
    (compressed : List UInt8) : CheckpointMetadata where
  sequenceNumber := sequence
  timestampUs := environment.timestampUs
  version := 1
  compression := if compressionLevel > 0 then "lz4" else "none"
  originalSize
  compressedSize := compressed.length
  checksum := calculateChecksum codec compressed
  hostname := environment.hostname
  processId := environment.processId

/-- Tracks a sequence number as the newest. -/
def track (manager : CheckpointManager) (sequence : Nat) : CheckpointManager :=
  { manager with
    currentSequence := sequence
    validCheckpoints := manager.validCheckpoints ++ [sequence] }

/-- The file operations of `create_checkpoint`. -/
def publish (codec : Codec τ) (sequence : Nat) (environment : Environment) (originalSize : Nat)
    (compressed : List UInt8) : Program CheckpointManager CheckpointResult := do
  match ← writeTemporary sequence compressed with
  | .error error =>
    let _ ← removeTemporary sequence
    pure (.failure s!"Write failed: {error}")
  | .ok () =>
    match ← writeMetadata sequence
        (metadataOf codec sequence environment originalSize compressed) with
    | .error error =>
      let _ ← removeTemporary sequence
      pure (.failure s!"Metadata write failed: {error}")
    | .ok () =>
      match ← renameTemporary sequence with
      | .error error =>
        let _ ← removeTemporary sequence
        let _ ← removeMetadata sequence
        pure (.failure s!"Atomic rename failed: {error}")
      | .ok () =>
        Program.change (·.track sequence)
        cleanupOldCheckpoints
        pure (.succeeded sequence compressed.length (calculateChecksum codec compressed))

/-- The bytes of a state: serialized, then compressed if the level asks for it. -/
def encode (codec : Codec τ) (state : τ) : Except String (List UInt8 × List UInt8) :=
  match codec.serialize state with
  | .error error => .error s!"Serialization failed: {error}"
  | .ok serialized =>
    if compressionLevel > 0 then
      match compressData codec serialized with
      | .error error => .error s!"Compression failed: {error}"
      | .ok compressed => .ok (serialized, compressed)
    else .ok (serialized, serialized)

/-- Sets `checkpoint_in_progress`. -/
def setInProgress (manager : CheckpointManager) (inProgress : Bool) : CheckpointManager :=
  { manager with checkpointInProgress := inProgress }

/-- `create_checkpoint`. The flag is cleared on every path that returns. -/
def createCheckpoint (codec : Codec τ) (state : τ) (sequence : Nat) (environment : Environment) :
    Program CheckpointManager CheckpointResult := do
  if ← Program.read (·.checkpointInProgress) then
    pure (.failure "Checkpoint already in progress")
  else
    Program.change (·.setInProgress true)
    match encode codec state with
    | .error error =>
      Program.change (·.setInProgress false)
      pure (.failure error)
    | .ok (serialized, compressed) =>
      let result ← publish codec sequence environment serialized.length compressed
      Program.change (·.setInProgress false)
      pure result

/-! ## Loading -/

def loadCheckpoint (codec : Codec τ) (directory : Directory) (sequence : Nat) :
    Except CheckpointError τ :=
  match directory.checkpoints.get sequence with
  | none => .error (.notFound s!"Checkpoint {sequence} not found")
  | some compressedData =>
    match directory.metadata.get sequence with
    | none => .error (.ioError s!"Failed to read metadata: {missing}")
    | some metadata =>
      let actual := calculateChecksum codec compressedData
      if actual ≠ metadata.checksum then
        .error (.checksumMismatch s!"Expected {metadata.checksum}, got {actual}")
      else do
        let data ← if metadata.compression = "lz4" then decompressData codec compressedData
          else .ok compressedData
        match codec.deserialize data with
        | .error error => .error (.parseError s!"Deserialization failed: {error}")
        | .ok state => .ok state

def getValidSequences (manager : CheckpointManager) : List Nat := manager.validCheckpoints

def getLatestSequence (manager : CheckpointManager) : Option Nat :=
  manager.validCheckpoints.getLast?

end CheckpointManager

end TradingBot
