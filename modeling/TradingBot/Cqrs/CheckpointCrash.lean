import TradingBot.Cqrs.CheckpointManager
import TradingBot.Foundation.Run

/-!
# Checkpoints after a crash

A new manager lists the published data files of its directory. Each of them loads, and the newest
ones are there, as long as no call is stopped with the metadata of one state beside the data of
another, and the list of the manager drops no checkpoint that is among the newest.
-/

open CrashLogic

namespace TradingBot.CheckpointCrash

open CheckpointManager

variable {τ : Type}

/-! ## Sessions -/

/-- A call of the manager, or a new manager on the same directory. -/
inductive Call (τ : Type) where
  /-- `create_checkpoint`. -/
  | create (state : τ) (sequence : Nat) (environment : Environment)
  /-- `delete_checkpoint`. -/
  | delete (sequence : Nat)
  /-- `CheckpointManager::new`. -/
  | reopen

/-- A call with what befalls its file operations. -/
structure Event (τ : Type) where
  call : Call τ
  /-- The faults of its operations. -/
  faults : List Fault

/-- The manager after a call; after a crash, a new one on the files that are left. -/
def settle {α : Type} : Outcome CheckpointManager α → CheckpointManager
  | .crashed stopped => new stopped.directory
  | .returned _ manager _ => manager

/-- The three operations of `create_checkpoint` that publish a checkpoint proceed. -/
def renames (faults : List Fault) : Bool :=
  decide (drawn faults = .proceeds ∧ drawn faults.tail = .proceeds ∧
    drawn faults.tail.tail = .proceeds)

/-- A state has bytes. -/
def encodes (codec : Codec τ) (state : τ) : Bool := (encode codec state).toBool

/-- A call of `create_checkpoint` publishes its checkpoint. -/
def publishes (codec : Codec τ) (manager : CheckpointManager) (state : τ)
    (faults : List Fault) : Bool :=
  !manager.checkpointInProgress && encodes codec state && renames faults

/-- The newest checkpoints, with one more. -/
def remember (newest : List Nat) (sequence : Nat) : List Nat :=
  (newest.filter (· ≠ sequence) ++ [sequence]).rtake maxCheckpoints

/-- A manager with the history of its directory. -/
structure Session (τ : Type) where
  manager : CheckpointManager
  /-- The states passed to `create_checkpoint`, with their sequence numbers. -/
  passed : List (Nat × τ)
  /-- The checkpoints published and not deleted since, without those that `MAX_CHECKPOINTS` newer
  ones have displaced, the newest last. -/
  newest : List Nat

/-- A session that starts in an empty directory. -/
def start : Session τ := ⟨new .empty, [], []⟩

/-- The session after a call of `create_checkpoint`. -/
def created (codec : Codec τ) (session : Session τ) (state : τ) (sequence : Nat)
    (environment : Environment) (faults : List Fault) : Session τ where
  manager := settle (createCheckpoint codec state sequence environment session.manager faults)
  passed := (sequence, state) :: session.passed
  newest :=
    if publishes codec session.manager state faults then remember session.newest sequence
    else session.newest

/-- The session after a call of `delete_checkpoint`; one whose first removal does not proceed
deletes nothing. -/
def deleted (session : Session τ) (sequence : Nat) (faults : List Fault) : Session τ where
  manager := settle (deleteCheckpoint sequence session.manager faults)
  passed := session.passed
  newest :=
    if drawn faults = .proceeds then session.newest.filter (· ≠ sequence) else session.newest

/-- The session after a call. -/
def step (codec : Codec τ) (session : Session τ) (event : Event τ) : Option (Session τ) :=
  match event.call with
  | .create state sequence environment =>
    some (created codec session state sequence environment event.faults)
  | .delete sequence => some (deleted session sequence event.faults)
  | .reopen => some { session with manager := new session.manager.directory }

/-- What a new manager finds: every sequence it lists loads as a state passed for it, and so does
every one of the newest checkpoints. -/
def Recovers (codec : Codec τ) (session : Session τ) : Prop :=
  (∀ sequence ∈ (new session.manager.directory).getValidSequences, ∃ state,
    loadCheckpoint codec session.manager.directory sequence = .ok state ∧
      (sequence, state) ∈ session.passed) ∧
  ∀ sequence ∈ session.newest, ∃ state,
    loadCheckpoint codec session.manager.directory sequence = .ok state ∧
      (sequence, state) ∈ session.passed

/-! ## The condition -/

/-- A call of `create_checkpoint` is stopped between its metadata and its rename. -/
def interrupted (faults : List Fault) : Bool :=
  decide (drawn faults = .proceeds ∧ drawn faults.tail = .proceeds ∧
    drawn faults.tail.tail ≠ .proceeds)

/-- The rename fails, and the metadata is removed after it. -/
def takesMetadata (faults : List Fault) : Bool :=
  match drawn faults.tail.tail with
  | .fails _ =>
    decide (drawn faults.tail.tail.tail ≠ .crashes ∧
      drawn faults.tail.tail.tail.tail = .proceeds)
  | .proceeds | .crashes => false

/-- The data file that is there keeps metadata with its checksum. -/
def keepsMetadata (codec : Codec τ) (directory : Directory) (state : τ) (sequence : Nat)
    (faults : List Fault) : Bool :=
  match encode codec state, directory.checkpoints.get sequence with
  | .ok (_, compressed), some old =>
    decide (calculateChecksum codec old = calculateChecksum codec compressed) &&
      !takesMetadata faults
  | _, _ => true

/-- The condition on a call: one that is stopped between its metadata and its rename finds no data
file of its sequence, or one with the same checksum and leaves the metadata; and one that
publishes finds no newest checkpoint before the last `MAX_CHECKPOINTS` places of the list. -/
def Safe (codec : Codec τ) (session : Session τ) (event : Event τ) : Prop :=
  match event.call with
  | .create state sequence _ =>
    (interrupted event.faults →
      keepsMetadata codec session.manager.directory state sequence event.faults) ∧
    (publishes codec session.manager state event.faults →
      ∀ dropped ∈ (session.manager.validCheckpoints ++ [sequence]).rdrop maxCheckpoints,
        dropped ∉ remember session.newest sequence)
  | .delete _ | .reopen => True

instance (codec : Codec τ) (session : Session τ) (event : Event τ) :
    Decidable (Safe codec session event) :=
  match called : event.call with
  | .create state sequence _ =>
    decidable_of_iff
      ((interrupted event.faults →
        keepsMetadata codec session.manager.directory state sequence event.faults) ∧
      (publishes codec session.manager state event.faults →
        ∀ dropped ∈ (session.manager.validCheckpoints ++ [sequence]).rdrop maxCheckpoints,
          dropped ∉ remember session.newest sequence)) (by simp only [Safe, called])
  | .delete _ => .isTrue (by simp only [Safe, called])
  | .reopen => .isTrue (by simp only [Safe, called])

/-! ## Directories that recover -/

/-- Bytes are those of a state. -/
def Encodes (codec : Codec τ) (state : τ) (bytes : List UInt8) : Prop :=
  ∃ serialized, encode codec state = .ok (serialized, bytes)

/-- The metadata of a sequence belongs to given bytes. -/
def Described (codec : Codec τ) (directory : Directory) (sequence : Nat)
    (bytes : List UInt8) : Prop :=
  ∃ metadata, directory.metadata.get sequence = some metadata ∧
    calculateChecksum codec bytes = metadata.checksum ∧ metadata.compression = "lz4"

/-- A directory from which a new manager recovers. -/
structure Recoverable (codec : Codec τ) (passed : List (Nat × τ)) (newest : List Nat)
    (directory : Directory) : Prop where
  /-- Every data file holds a state passed for its sequence. -/
  intact : ∀ sequence bytes, directory.checkpoints.get sequence = some bytes →
    ∃ state, Encodes codec state bytes ∧ (sequence, state) ∈ passed
  /-- Every data file has its metadata. -/
  described : ∀ sequence bytes, directory.checkpoints.get sequence = some bytes →
    Described codec directory sequence bytes
  /-- The newest data files are there. -/
  kept : ∀ sequence ∈ newest, ∃ bytes, directory.checkpoints.get sequence = some bytes

variable {codec : Codec τ}

theorem decompressData_compressData (lawful : codec.Lawful) {data compressed : List UInt8}
    (ok : compressData codec data = .ok compressed) :
    decompressData codec compressed = .ok data := by
  unfold compressData at ok
  unfold decompressData
  split at ok
  · rename_i compiled
    rw [if_pos compiled]
    cases packed : codec.compressPrependSize data with
    | error error => simp [packed, Except.mapError] at ok
    | ok bytes =>
      simp only [packed, Except.mapError, Except.ok.injEq] at ok
      subst ok
      rw [lawful.decompress_compress _ _ packed]
      rfl
  · rename_i plain
    cases ok
    exact if_neg plain

/-- An encoded state is serialized, then compressed. -/
theorem encode_cases {state : τ} {serialized bytes : List UInt8}
    (encoded : encode codec state = .ok (serialized, bytes)) :
    codec.serialize state = .ok serialized ∧ compressData codec serialized = .ok bytes := by
  have level : compressionLevel > 0 := by decide
  unfold encode at encoded
  cases read : codec.serialize state with
  | error error => simp [read] at encoded
  | ok written =>
    simp only [read, if_pos level] at encoded
    cases packed : compressData codec written with
    | error error => simp [packed] at encoded
    | ok compressed =>
      simp only [packed, Except.ok.injEq, Prod.mk.injEq] at encoded
      obtain ⟨rfl, rfl⟩ := encoded
      exact ⟨rfl, packed⟩

theorem load_encoded (lawful : codec.Lawful) {directory : Directory} {sequence : Nat}
    {bytes : List UInt8} {state : τ} (there : directory.checkpoints.get sequence = some bytes)
    (encoded : Encodes codec state bytes) (described : Described codec directory sequence bytes) :
    loadCheckpoint codec directory sequence = .ok state := by
  obtain ⟨serialized, encoded⟩ := encoded
  obtain ⟨written, packed⟩ := encode_cases encoded
  obtain ⟨metadata, found, checksum, compression⟩ := described
  unfold loadCheckpoint
  simp only [there, found, checksum, ne_eq, not_true, if_false, compression, if_true,
    decompressData_compressData lawful packed, bind, Except.bind,
    lawful.deserialize_serialize _ _ written]

theorem mem_validSequences {directory : Directory} {sequence : Nat} :
    sequence ∈ (new directory).getValidSequences ↔
      ∃ bytes, directory.checkpoints.get sequence = some bytes := by
  simp only [new, getValidSequences, scanExistingCheckpoints, List.mem_insertionSort, Dict.mem_keys]

theorem Recoverable.recovers (lawful : codec.Lawful) {session : Session τ}
    (recoverable : Recoverable codec session.passed session.newest session.manager.directory) :
    Recovers codec session := by
  have loads : ∀ sequence bytes,
      session.manager.directory.checkpoints.get sequence = some bytes → ∃ state,
        loadCheckpoint codec session.manager.directory sequence = .ok state ∧
          (sequence, state) ∈ session.passed := by
    intro sequence bytes there
    obtain ⟨state, encoded, passed⟩ := recoverable.intact sequence bytes there
    exact ⟨state, load_encoded lawful there encoded (recoverable.described sequence bytes there),
      passed⟩
  constructor
  · intro sequence listed
    obtain ⟨bytes, there⟩ := mem_validSequences.mp listed
    exact loads sequence bytes there
  · intro sequence member
    obtain ⟨bytes, there⟩ := recoverable.kept sequence member
    exact loads sequence bytes there

section Changes

variable {codec : Codec τ} {passed : List (Nat × τ)} {newest : List Nat} {directory : Directory}
  {sequence : Nat}

section

variable (recoverable : Recoverable codec passed newest directory)
include recoverable

theorem Recoverable.passed_cons (entry : Nat × τ) :
    Recoverable codec (entry :: passed) newest directory where
  intact sequence bytes there := by
    obtain ⟨state, encoded, member⟩ := recoverable.intact sequence bytes there
    exact ⟨state, encoded, List.mem_cons_of_mem entry member⟩
  described := recoverable.described
  kept := recoverable.kept

theorem Recoverable.subset {fewer : List Nat} (fewerNewest : fewer ⊆ newest) :
    Recoverable codec passed fewer directory where
  intact := recoverable.intact
  described := recoverable.described
  kept sequence member := recoverable.kept sequence (fewerNewest member)

theorem Recoverable.temporary (temporary : Dict Nat (List UInt8)) :
    Recoverable codec passed newest { directory with temporary } :=
  ⟨recoverable.intact, recoverable.described, recoverable.kept⟩

theorem Recoverable.pop_checkpoint (dropped : sequence ∉ newest) : Recoverable codec passed newest
      { directory with checkpoints := directory.checkpoints.pop sequence } where
  intact other bytes there := by
    simp only [Dict.get_pop] at there
    split at there
    · cases there
    · exact recoverable.intact other bytes there
  described other bytes there := by
    simp only [Dict.get_pop] at there
    split at there
    · cases there
    · exact recoverable.described other bytes there
  kept other member := by
    have distinct : other ≠ sequence := fun same => dropped (same ▸ member)
    simp only [Dict.get_pop, distinct, if_false]
    exact recoverable.kept other member

theorem Recoverable.change_metadata (sequence : Nat) {changed : Dict Nat CheckpointMetadata}
    (others : ∀ other, other ≠ sequence → changed.get other = directory.metadata.get other)
    (belongs : ∀ bytes, directory.checkpoints.get sequence = some bytes →
      Described codec { directory with metadata := changed } sequence bytes) :
    Recoverable codec passed newest { directory with metadata := changed } where
  intact := recoverable.intact
  described other bytes there := by
    by_cases same : other = sequence
    · subst same
      exact belongs bytes there
    · obtain ⟨metadata, found, described⟩ := recoverable.described other bytes there
      exact ⟨metadata, (others other same).trans found, described⟩
  kept := recoverable.kept

end

end Changes

/-! ## Deleting -/

section Deleting

variable {codec : Codec τ} {passed : List (Nat × τ)} {newest : List Nat} {sequence : Nat}
  {manager : CheckpointManager} {faults : List Fault}

/-- After the second half of a deletion: the directory recovers, and the list has lost at most the
sequence. -/
theorem wp_deleteMetadata
    (recoverable : Recoverable codec passed newest manager.directory)
    (absent : manager.directory.checkpoints.get sequence = none) (removed : Bool) :
    wp (deleteMetadata sequence removed)
      (fun _ final _ => Recoverable codec passed newest final.directory ∧
        (final.validCheckpoints = manager.validCheckpoints ∨
          final.validCheckpoints = manager.validCheckpoints.filter (· ≠ sequence)))
      (fun stopped => Recoverable codec passed newest stopped.directory) manager faults := by
  unfold deleteMetadata
  simp only [wp_bind, wp_read, wp_ite]
  split
  · refine wp_perform_of recoverable (fun error rest => ⟨recoverable, .inl rfl⟩) ?_
    intro next rest performed
    split at performed
    · cases performed
      refine ⟨recoverable.change_metadata sequence (fun other distinct => ?_)
        (fun bytes there => ?_), .inr rfl⟩
      · exact (Dict.get_pop _ sequence other).trans (if_neg distinct)
      · rw [absent] at there
        cases there
    · cases performed
  split
  · exact ⟨recoverable, .inr rfl⟩
  · exact ⟨recoverable, .inl rfl⟩

/-- Deleting a checkpoint that is not among the newest keeps the directory recoverable at every
point. -/
theorem wp_deleteCheckpoint
    (recoverable : Recoverable codec passed newest manager.directory)
    (dropped : sequence ∉ newest) :
    wp (deleteCheckpoint sequence)
      (fun _ final _ => Recoverable codec passed newest final.directory ∧
        (final.validCheckpoints = manager.validCheckpoints ∨
          final.validCheckpoints = manager.validCheckpoints.filter (· ≠ sequence)))
      (fun stopped => Recoverable codec passed newest stopped.directory) manager faults := by
  unfold deleteCheckpoint
  simp only [wp_bind, wp_read, wp_ite]
  split
  · refine wp_perform_of recoverable (fun error rest => ⟨recoverable, .inl rfl⟩) ?_
    intro next rest performed
    split at performed
    · cases performed
      exact wp_deleteMetadata (recoverable.pop_checkpoint dropped)
        ((Dict.get_pop _ sequence sequence).trans (if_pos rfl)) true
    · cases performed
  · rename_i missing
    refine wp_deleteMetadata recoverable ?_ false
    simpa [hasCheckpoint] using missing

theorem wp_deleteCheckpoint_stopped (there : manager.hasCheckpoint sequence = true)
    (stopped : drawn faults ≠ .proceeds) :
    wp (deleteCheckpoint sequence) (fun _ final _ => final.directory = manager.directory)
      (fun final => final.directory = manager.directory) manager faults := by
  unfold deleteCheckpoint
  simp only [wp_bind, wp_read, there, if_true]
  unfold removeCheckpoint
  rw [wp_perform]
  cases befell : drawn faults with
  | crashes | fails error => rfl
  | proceeds => exact absurd befell stopped

/-! ## Cleaning up -/

theorem mem_rdrop_of_filter {α : Type} {keep : α → Bool} {places : Nat} {value : α}
    {list : List α} (member : value ∈ (list.filter keep).rdrop places) :
    value ∈ list.rdrop places := by
  unfold List.rdrop at member ⊢
  induction list with
  | nil => simp at member
  | cons head tail ih =>
    have bound : (tail.filter keep).length ≤ tail.length := List.length_filter_le keep tail
    by_cases kept : keep head = true
    · rw [List.filter_cons_of_pos kept, List.length_cons] at member
      by_cases short : (tail.filter keep).length + 1 ≤ places
      · simp [Nat.sub_eq_zero_of_le short] at member
      · rw [show (tail.filter keep).length + 1 - places =
          (tail.filter keep).length - places + 1 by omega, List.take_succ_cons] at member
        rw [List.length_cons, show tail.length + 1 - places = tail.length - places + 1 by omega,
          List.take_succ_cons]
        rcases List.mem_cons.mp member with rfl | later
        · exact List.mem_cons_self
        · exact List.mem_cons_of_mem head (ih later)
    · rw [List.filter_cons_of_neg kept] at member
      have found := ih member
      by_cases short : tail.length ≤ places
      · simp [Nat.sub_eq_zero_of_le short] at found
      · rw [List.length_cons, show tail.length + 1 - places = tail.length - places + 1 by omega,
          List.take_succ_cons]
        exact List.mem_cons_of_mem head found

theorem mem_rdrop_of_tail {α : Type} {places : Nat} {head value : α} {tail : List α}
    (member : value ∈ tail.rdrop places) : value ∈ (head :: tail).rdrop places := by
  unfold List.rdrop at member ⊢
  by_cases short : tail.length ≤ places
  · simp [Nat.sub_eq_zero_of_le short] at member
  · rw [List.length_cons, show tail.length + 1 - places = tail.length - places + 1 by omega,
      List.take_succ_cons]
    exact List.mem_cons_of_mem head member

theorem head_mem_rdrop {α : Type} {places : Nat} {head : α} {tail : List α}
    (crowded : places < (head :: tail).length) : head ∈ (head :: tail).rdrop places := by
  unfold List.rdrop
  rw [List.length_cons] at crowded ⊢
  rw [show tail.length + 1 - places = tail.length - places + 1 by omega, List.take_succ_cons]
  exact List.mem_cons_self

/-- A manager whose directory recovers, and whose list has no newest checkpoint before its last
places. -/
def Tidy (codec : Codec τ) (passed : List (Nat × τ)) (newest : List Nat)
    (manager : CheckpointManager) : Prop :=
  Recoverable codec passed newest manager.directory ∧
    ∀ dropped ∈ manager.validCheckpoints.rdrop maxCheckpoints, dropped ∉ newest

theorem wp_cleanupRound (tidy : Tidy codec passed newest manager)
    (crowds : manager.crowded = true) :
    wp cleanupRound (fun _ final _ => Tidy codec passed newest final)
      (fun stopped => Recoverable codec passed newest stopped.directory) manager faults := by
  unfold cleanupRound
  simp only [wp_bind, wp_read]
  obtain ⟨recoverable, older⟩ := tidy
  unfold crowded at crowds
  cases listed : manager.validCheckpoints with
  | nil => simp [listed] at crowds
  | cons oldest rest =>
    rw [listed] at older crowds
    have dropped := older oldest (head_mem_rdrop (of_decide_eq_true crowds))
    simp only [wp_change, wp_bind]
    refine wp_mono (wp_deleteCheckpoint recoverable dropped) ?_ (fun _ stopped => stopped)
    rintro _ final _ ⟨after, same | filtered⟩
    · refine ⟨after, fun other member => older other (mem_rdrop_of_tail ?_)⟩
      rw [same] at member
      exact member
    · refine ⟨after, fun other member => older other (mem_rdrop_of_tail ?_)⟩
      rw [filtered] at member
      exact mem_rdrop_of_filter member

theorem wp_cleanupOldCheckpoints (tidy : Tidy codec passed newest manager) :
    wp cleanupOldCheckpoints
      (fun _ final _ => Recoverable codec passed newest final.directory)
      (fun stopped => Recoverable codec passed newest stopped.directory) manager faults := by
  unfold cleanupOldCheckpoints
  simp only [wp_bind, wp_read]
  exact wp_mono
    (wp_whileM (fun _ _ kept asked => wp_cleanupRound kept asked) _ tidy)
    (fun _ _ _ final => final.1) (fun _ stopped => stopped)

end Deleting

/-! ## Creating -/

section Creating

variable {codec : Codec τ} {passed : List (Nat × τ)} {newest : List Nat} {sequence : Nat}
  {manager : CheckpointManager} {faults : List Fault}

theorem Recoverable.describe {directory : Directory}
    (recoverable : Recoverable codec passed newest directory) (sequence : Nat)
    {metadata : CheckpointMetadata} (compression : metadata.compression = "lz4")
    (checksum : ∀ old, directory.checkpoints.get sequence = some old →
      calculateChecksum codec old = metadata.checksum) :
    Recoverable codec passed newest
      { directory with metadata := directory.metadata.put sequence metadata } := by
  refine recoverable.change_metadata sequence (fun other distinct => ?_) (fun old there => ?_)
  · exact (Dict.get_put _ sequence other metadata).trans (if_neg distinct)
  · exact ⟨metadata, Dict.get_put_self _ sequence metadata, checksum old there, compression⟩

theorem mem_remember {other : Nat} (member : other ∈ remember newest sequence) :
    other = sequence ∨ other ∈ newest := by
  unfold remember List.rtake at member
  have member := List.mem_of_mem_drop member
  simp only [List.mem_append, List.mem_filter, List.mem_singleton] at member
  rcases member with ⟨older, _⟩ | same
  · exact .inr older
  · exact .inl same

variable {compressed : List UInt8}

/-- Data and metadata of a state that was passed are a checkpoint. -/
theorem Recoverable.publish {directory : Directory}
    (recoverable : Recoverable codec passed newest directory) {state : τ}
    {metadata : CheckpointMetadata} (temporary : Dict Nat (List UInt8))
    (encoded : Encodes codec state compressed) (member : (sequence, state) ∈ passed)
    (compression : metadata.compression = "lz4")
    (checksum : calculateChecksum codec compressed = metadata.checksum) :
    Recoverable codec passed (remember newest sequence)
      { temporary
        checkpoints := directory.checkpoints.put sequence compressed
        metadata := directory.metadata.put sequence metadata } where
  intact := (Dict.forall_put recoverable.intact).mpr ⟨state, encoded, member⟩
  described other bytes there := by
    obtain ⟨rfl, rfl⟩ | ⟨distinct, before⟩ := Dict.get_put_eq_some.mp there
    · exact ⟨metadata, Dict.get_put_self _ other metadata, checksum, compression⟩
    · obtain ⟨written, found, described⟩ := recoverable.described other bytes before
      exact ⟨written, Dict.get_put_eq_some.mpr (.inr ⟨distinct, found⟩), described⟩
  kept other newer := by
    rw [Dict.get_put]
    by_cases same : other = sequence
    · exact ⟨compressed, if_pos same⟩
    · rw [if_neg same]
      exact recoverable.kept other ((mem_remember newer).resolve_left same)

theorem keepsMetadata_found {directory : Directory} {state : τ} {serialized old : List UInt8}
    (kept : keepsMetadata codec directory state sequence faults = true)
    (encoded : encode codec state = .ok (serialized, compressed))
    (there : directory.checkpoints.get sequence = some old) :
    calculateChecksum codec old = calculateChecksum codec compressed ∧
      takesMetadata faults = false := by
  simpa [keepsMetadata, encoded, there] using kept

/-- After a failed rename the two removals leave a directory that recovers, unless they take the
metadata of a data file. -/
theorem wp_withdraw (recoverable : Recoverable codec passed newest manager.directory)
    (untaken : ∀ old, manager.directory.checkpoints.get sequence = some old →
      ¬ (drawn faults ≠ .crashes ∧ drawn faults.tail = .proceeds)) (result : CheckpointResult) :
    wp (do
        let _ ← removeTemporary sequence
        let _ ← removeMetadata sequence
        pure result)
      (fun _ final _ => Recoverable codec passed newest final.directory)
      (fun stopped => Recoverable codec passed newest stopped.directory) manager faults := by
  -- The second removal, on the files that the first one leaves.
  have second : ∀ temporary : Dict Nat (List UInt8), drawn faults ≠ .crashes →
      wp (do
          let _ ← removeMetadata sequence
          pure result)
        (fun _ final _ => Recoverable codec passed newest final.directory)
        (fun stopped => Recoverable codec passed newest stopped.directory)
        (manager.withDirectory { manager.directory with temporary }) faults.tail := by
    intro temporary running
    have unchanged := recoverable.temporary temporary
    simp only [wp_bind, wp_pure, removeMetadata, wp_perform]
    cases befell : drawn faults.tail with
    | crashes | fails error => exact unchanged
    | proceeds =>
      by_cases described : (manager.directory.metadata.get sequence).isSome = true
      · simp only [withDirectory, described, if_true]
        refine unchanged.change_metadata sequence (fun other distinct => ?_) (fun old there => ?_)
        · exact (Dict.get_pop _ sequence other).trans (if_neg distinct)
        · exact absurd ⟨running, befell⟩ (untaken old there)
      · simp only [withDirectory, described]
        exact unchanged
  rw [wp_bind]
  unfold removeTemporary
  rw [wp_perform]
  cases befell : drawn faults with
  | crashes => exact recoverable
  | fails error => exact second manager.directory.temporary (by simp [befell])
  | proceeds =>
    simp only
    split <;> rename_i outcome <;> split at outcome
    · cases outcome
    · cases outcome
      exact second manager.directory.temporary (by simp [befell])
    · cases outcome
      exact second _ (by simp [befell])
    · cases outcome

theorem wp_discard (recoverable : Recoverable codec passed newest manager.directory)
    (result : CheckpointResult) :
    wp (do
        let _ ← removeTemporary sequence
        pure result)
      (fun _ final _ => Recoverable codec passed newest final.directory)
      (fun stopped => Recoverable codec passed newest stopped.directory) manager faults := by
  rw [wp_bind]
  refine wp_perform_of recoverable (fun error rest => recoverable) ?_
  intro next rest performed
  split at performed
  · cases performed
    exact recoverable.temporary _
  · cases performed

/-- The newest checkpoints after the operations of `create_checkpoint`. -/
def newestAfter (newest : List Nat) (sequence : Nat) (faults : List Fault) : List Nat :=
  if renames faults then remember newest sequence else newest

/-- The operations of `create_checkpoint` leave a directory that recovers at every point, under
the condition. -/
theorem wp_publish {state : τ} {serialized : List UInt8} (environment : Environment)
    (recoverable : Recoverable codec passed newest manager.directory)
    (encoded : encode codec state = .ok (serialized, compressed))
    (member : (sequence, state) ∈ passed)
    (kept : interrupted faults → keepsMetadata codec manager.directory state sequence faults)
    (older : renames faults →
      ∀ dropped ∈ (manager.validCheckpoints ++ [sequence]).rdrop maxCheckpoints,
        dropped ∉ remember newest sequence) :
    wp (publish codec sequence environment serialized.length compressed)
      (fun _ final _ =>
        Recoverable codec passed (newestAfter newest sequence faults) final.directory)
      (fun stopped =>
        Recoverable codec passed (newestAfter newest sequence faults) stopped.directory)
      manager faults := by
  have unpublished : renames faults = false → newestAfter newest sequence faults = newest :=
    fun stopped => if_neg (by simp [stopped])
  unfold publish
  rw [wp_bind]
  unfold writeTemporary
  rw [wp_perform]
  cases first : drawn faults with
  | crashes =>
    rw [unpublished (by simp [renames, first])]
    exact recoverable
  | fails error =>
    rw [unpublished (by simp [renames, first])]
    exact wp_discard recoverable _
  | proceeds =>
  have staged := recoverable.temporary
    (manager.directory.temporary.put sequence compressed)
  simp only [wp_bind]
  unfold writeMetadata
  rw [wp_perform]
  cases second : drawn faults.tail with
  | crashes =>
    rw [unpublished (by simp [renames, second])]
    exact staged
  | fails error =>
    rw [unpublished (by simp [renames, second])]
    exact wp_discard staged _
  | proceeds =>
  simp only [wp_bind]
  unfold renameTemporary
  rw [wp_perform]
  cases third : drawn faults.tail.tail with
  | crashes =>
    -- The metadata is the new one; the data file that is there has its checksum.
    rw [unpublished (by simp [renames, third])]
    have met := kept (by simp [interrupted, first, second, third])
    exact staged.describe sequence rfl fun old there =>
      (keepsMetadata_found met encoded there).1
  | fails error =>
    rw [unpublished (by simp [renames, third])]
    have met := kept (by simp [interrupted, first, second, third])
    have described := @Recoverable.describe _ _ _ _ _ staged sequence
      (metadataOf codec sequence environment serialized.length compressed) rfl
      fun old there => (keepsMetadata_found met encoded there).1
    refine wp_withdraw described (fun old there taken => ?_) _
    have untaken := (keepsMetadata_found met encoded there).2
    simp [takesMetadata, third, taken] at untaken
  | proceeds =>
    have published : renames faults = true := by simp [renames, first, second, third]
    have found : (manager.directory.temporary.put sequence compressed).get sequence =
        some compressed := Dict.get_put_self _ sequence compressed
    simp only [withDirectory, found, wp_bind, wp_change]
    rw [newestAfter, if_pos published]
    exact wp_cleanupOldCheckpoints
      ⟨recoverable.publish _ ⟨serialized, encoded⟩ member rfl rfl, older published⟩

/-- `create_checkpoint` leaves a directory that recovers at every point, under the condition. -/
theorem wp_createCheckpoint {state : τ} (environment : Environment)
    (recoverable : Recoverable codec passed newest manager.directory)
    (member : (sequence, state) ∈ passed)
    (kept : interrupted faults → keepsMetadata codec manager.directory state sequence faults)
    (older : publishes codec manager state faults →
      ∀ dropped ∈ (manager.validCheckpoints ++ [sequence]).rdrop maxCheckpoints,
        dropped ∉ remember newest sequence) :
    wp (createCheckpoint codec state sequence environment)
      (fun _ final _ => Recoverable codec passed
        (if publishes codec manager state faults then remember newest sequence else newest)
        final.directory)
      (fun stopped => Recoverable codec passed
        (if publishes codec manager state faults then remember newest sequence else newest)
        stopped.directory) manager faults := by
  unfold createCheckpoint
  simp only [wp_bind, wp_read, wp_ite, wp_pure]
  split
  · rename_i busy
    rw [if_neg (by simp [publishes, busy])]
    exact recoverable
  · rename_i free
    rw [wp_change]
    cases encoded : encode codec state with
    | error error =>
      rw [if_neg (by simp [publishes, encodes, encoded, Except.toBool])]
      exact recoverable
    | ok bytes =>
      obtain ⟨serialized, compressed⟩ := bytes
      have same : publishes codec manager state faults = renames faults := by
        simp [publishes, encodes, encoded, Except.toBool, free]
      rw [same] at older ⊢
      simp only [wp_bind]
      exact wp_publish environment recoverable encoded member kept older

end Creating

/-! ## Runs -/

theorem settle_of_wp {α : Type} {program : Program CheckpointManager α}
    {property : Directory → Prop} {manager : CheckpointManager} {faults : List Fault}
    (met : wp program (fun _ final _ => property final.directory)
      (fun stopped => property stopped.directory) manager faults) :
    property (settle (program manager faults)).directory := by
  rcases wp_outcome met with ⟨stopped, ended, holds⟩ | ⟨value, final, rest, ended, holds⟩
  · rw [ended]
    exact holds
  · rw [ended]
    exact holds

/-- A session whose directory recovers. -/
def Sound (codec : Codec τ) (session : Session τ) : Prop :=
  Recoverable codec session.passed session.newest session.manager.directory

theorem deleted_sound {session : Session τ} (sound : Sound codec session) (sequence : Nat)
    (faults : List Fault) : Sound codec (deleted session sequence faults) := by
  by_cases proceeds : drawn faults = .proceeds
  · have recoverable : Recoverable codec session.passed
        (session.newest.filter (· ≠ sequence)) session.manager.directory :=
      Recoverable.subset sound (List.filter_subset_self _)
    have dropped : sequence ∉ session.newest.filter (· ≠ sequence) := by simp
    unfold Sound deleted
    rw [if_pos proceeds]
    exact settle_of_wp (wp_mono (wp_deleteCheckpoint recoverable dropped)
      (fun _ _ _ final => final.1) (fun _ stopped => stopped))
  · unfold Sound deleted
    rw [if_neg proceeds]
    by_cases there : session.manager.hasCheckpoint sequence = true
    · exact settle_of_wp (wp_mono (wp_deleteCheckpoint_stopped there proceeds)
        (fun _ _ _ same => same ▸ sound) (fun _ same => same ▸ sound))
    · have dropped : sequence ∉ session.newest := by
        intro member
        obtain ⟨bytes, found⟩ := sound.kept sequence member
        exact there (by simp [hasCheckpoint, found])
      exact settle_of_wp (wp_mono (wp_deleteCheckpoint sound dropped)
        (fun _ _ _ final => final.1) (fun _ stopped => stopped))

/-- Each event within the bounds keeps the directory sound. -/
theorem step_sound {session next : Session τ} {event : Event τ} (sound : Sound codec session)
    (safe : Safe codec session event) (stepped : step codec session event = some next) :
    Sound codec next := by
  unfold step at stepped
  unfold Safe at safe
  cases called : event.call with
  | create state sequence environment =>
    simp only [called, Option.some.injEq] at stepped safe
    subst stepped
    exact settle_of_wp (wp_createCheckpoint environment
      (Recoverable.passed_cons sound (sequence, state)) List.mem_cons_self safe.1 safe.2)
  | delete sequence =>
    simp only [called, Option.some.injEq] at stepped
    subst stepped
    exact deleted_sound sound sequence event.faults
  | reopen =>
    simp only [called, Option.some.injEq] at stepped
    subst stepped
    exact sound

theorem start_sound (codec : Codec τ) : Sound codec start where
  intact _ _ there := nomatch there
  described _ _ there := nomatch there
  kept _ member := nomatch member

/-- In every run from an empty directory whose calls all meet the condition, a new manager
recovers in every state: each sequence it lists loads as a state passed for it, and the newest
checkpoints are all there. -/
theorem recovers_always {codec : Codec τ} (lawful : codec.Lawful) (events : List (Event τ))
    (safe : Run.Guarded (step codec) (Safe codec) start events) :
    Run.Always (step codec) (Recovers codec) start events :=
  (Run.always_guarded (fun _ _ _ sound met stepped => step_sound sound met stepped)
    (start_sound codec) events safe).imp fun _ sound => Recoverable.recovers lawful sound

/-- States of one byte: `bincode` writes the byte, nothing is compressed without the feature, and
the digests are those of the two states of the runs below. -/
def sample : Codec UInt8 where
  serialize byte := .ok [byte]
  deserialize
    | [] => .error "io error: unexpected end of file"
    | byte :: _ => .ok byte
  lz4 := false
  compressPrependSize := .ok
  decompressSizePrepended := .ok
  sha256 bytes :=
    if bytes = [7] then "ca358758f6d27e6cf45272937977a748fd88391db679ceda7dc7bf1f005ee879"
    else if bytes = [9] then "2b4c342f5433ebe591a1da77e013d1b72475562d48578dca8b84bac6651c3cb9"
    else ""

theorem sample_lawful : sample.Lawful where
  deserialize_serialize state bytes written := by
    cases written
    rfl
  decompress_compress bytes compressed packed := by
    cases packed
    rfl

/-- The system at the time of the runs below. -/
def host : Environment := ⟨1700000000000000, "trader", 4242⟩

/-- A failed write and a crash before the rename of a new sequence leave the first checkpoint. -/
theorem recovers_stopped :
    Run.Always (step sample) (Recovers sample) start
      [⟨.create 7 1 host, []⟩, ⟨.create 9 2 host, [.proceeds, .proceeds, .crashes]⟩,
        ⟨.create 9 1 host, [.fails "No space left on device (os error 28)"]⟩,
        ⟨.create 9 3 host, []⟩, ⟨.delete 1, []⟩, ⟨.reopen, []⟩] :=
  recovers_always sample_lawful _ (by decide +kernel)

theorem not_always_of_lost {events : List (Event UInt8)}
    (decided : (Run.exec (step sample) start events).map (fun final =>
      (final.newest, (loadCheckpoint sample final.manager.directory 1).toBool)) =
        some ([1], false)) :
    ¬ Run.Always (step sample) (Recovers sample) start events := by
  refine Run.not_always_of_view decided fun final seen recovers => ?_
  obtain ⟨newest, refused⟩ := Prod.ext_iff.mp seen
  dsimp only at newest refused
  obtain ⟨state, loaded, _⟩ := recovers.2 1 (by simp [newest])
  simp [loaded, Except.toBool] at refused

/-- A second checkpoint of sequence 1 that crashes before its rename leaves the first one with a
wrong checksum, and eleven checkpoints of sequence 1 leave none. -/
theorem checkpoint_lost :
    sample.Lawful ∧
      ¬ Run.Always (step sample) (Recovers sample) start
        [⟨.create 7 1 host, []⟩, ⟨.create 9 1 host, [.proceeds, .proceeds, .crashes]⟩] ∧
      ¬ Run.Always (step sample) (Recovers sample) start
        (List.replicate 11 ⟨.create 7 1 host, []⟩) :=
  ⟨sample_lawful, not_always_of_lost (by decide +kernel), not_always_of_lost (by decide +kernel)⟩

end TradingBot.CheckpointCrash
