import Mathlib.Data.List.Sort
import Mathlib.Data.String.Basic
import TradingBot.Foundation.Dict

/-!
# Checkpoint files

A state is saved in a file named after its milliseconds and a counter of the serializer, both in
decimal without padding. The newest file is the one whose name comes last as a text.
-/

namespace TradingBot.Persistence

/-- How states are written in files. -/
structure BinaryForm (τ : Type) where
  /-- `int(state.timestamp * 1000)` of a timestamp that is not negative. -/
  milliseconds : τ → Nat
  serializeBinary : τ → Except String (List UInt8)
  deserializeBinary : List UInt8 → Except String (Option τ)

/-- A serialized state is read back. -/
def BinaryForm.Lawful {τ : Type} (form : BinaryForm τ) : Prop :=
  ∀ state bytes, form.serializeBinary state = .ok bytes →
    form.deserializeBinary bytes = .ok (some state)

/-- `StateSerializer`, with the files of its directory. -/
structure StateSerializer where
  /-- The files that match `checkpoint_*.bin`. -/
  checkpoints : Dict String (List UInt8)
  /-- The files with the suffix `.tmp`. -/
  temporary : Dict String (List UInt8)
  checkpointCounter : Nat

namespace StateSerializer

variable {τ : Type}

/-- A serializer on the files of a directory, as `__init__` makes it. -/
def init (checkpoints temporary : Dict String (List UInt8)) : StateSerializer :=
  ⟨checkpoints, temporary, 0⟩

/-- The name of a file without its suffix. -/
def stem (timestamp counter : Nat) : String := s!"checkpoint_{timestamp}_{counter}"

/-- The name of the file of a checkpoint. -/
def filename (timestamp counter : Nat) : String := stem timestamp counter ++ ".bin"

/-- Writes a temporary file. -/
def writeTemporary (serializer : StateSerializer) (path : String) (data : List UInt8) :
    StateSerializer :=
  { serializer with temporary := serializer.temporary.put path data }

/-- Renames a temporary file, and replaces a file of the new name. -/
def rename (serializer : StateSerializer) (path target : String) (data : List UInt8) :
    StateSerializer :=
  { serializer with
    temporary := serializer.temporary.pop path
    checkpoints := serializer.checkpoints.put target data }

/-- Counts a checkpoint. -/
def countCheckpoint (serializer : StateSerializer) : StateSerializer :=
  { serializer with checkpointCounter := serializer.checkpointCounter + 1 }

def saveCheckpoint (form : BinaryForm τ) (serializer : StateSerializer) (state : τ) :
    Except String (String × StateSerializer) := do
  let timestamp := form.milliseconds state
  let name := filename timestamp serializer.checkpointCounter
  let binaryData ← form.serializeBinary state
  let temporary := stem timestamp serializer.checkpointCounter ++ ".tmp"
  let written := serializer.writeTemporary temporary binaryData
  .ok (name, (written.rename temporary name binaryData).countCheckpoint)

/-- The names of the checkpoints, the last one first. -/
def sortedNames (serializer : StateSerializer) : List String :=
  serializer.checkpoints.keys.insertionSort (· ≥ ·)

def loadLatestCheckpoint (form : BinaryForm τ) (serializer : StateSerializer) : Option τ :=
  match serializer.sortedNames with
  | [] => none
  | latest :: _ =>
    match serializer.checkpoints.get latest with
    | none => none
    | some data =>
      match form.deserializeBinary data with
      | .error _ => none
      | .ok state => state

/-- `unlink` of one checkpoint. -/
def unlink (serializer : StateSerializer) (name : String) : StateSerializer :=
  { serializer with checkpoints := serializer.checkpoints.pop name }

/-- `cleanup_old_checkpoints`, with the number of checkpoints deleted. -/
def cleanupOldCheckpoints (serializer : StateSerializer) (keepCount : Nat) :
    Nat × StateSerializer :=
  if serializer.checkpoints.keys.length ≤ keepCount then (0, serializer)
  else
    let old := serializer.sortedNames.drop keepCount
    (old.length, old.foldl unlink serializer)

end StateSerializer

end TradingBot.Persistence
