import TradingBot.Cqrs.CheckpointCrash
import TradingBot.Foundation.Largest

/-!
# Retention of checkpoints

A manager is to keep the checkpoints with the largest sequence numbers. It lists them in the order
of their creation, takes the first of the list for the oldest and the last for the latest, and does
not look whether a number is listed already; a new manager sorts the numbers of the files. The two
agree as long as every checkpoint has a larger number than those that are kept.
-/

open CrashLogic Run Largest

namespace TradingBot

namespace CheckpointRetention

open CheckpointManager CheckpointCrash

variable {τ : Type}

/-- A manager with the sequence numbers that were created and not deleted by a call since. -/
structure Session where
  manager : CheckpointManager
  live : Finset Nat

/-- A session that starts in an empty directory. -/
def Session.start : Session := ⟨new .empty, ∅⟩

/-- The sequence numbers that are live after a deletion; one that fails deletes nothing. -/
def liveAfter (live : Finset Nat) (sequence : Nat) : Except String Unit → Finset Nat
  | .error _ => live
  | .ok () => live.erase sequence

/-- A session after a call. No call is stopped by a crash, and those of `create_checkpoint`
succeed; its cleanup, and a deletion, may meet faults. -/
def step (codec : Codec τ) (session : Session) (event : CheckpointCrash.Event τ) : Option Session :=
  match event.call with
  | .create state sequence environment =>
    match createCheckpoint codec state sequence environment session.manager event.faults with
    | .crashed _ => none
    | .returned result manager _ =>
      if result.success then some ⟨manager, insert sequence session.live⟩ else none
  | .delete sequence =>
    match deleteCheckpoint sequence session.manager event.faults with
    | .crashed _ => none
    | .returned result manager _ => some ⟨manager, liveAfter session.live sequence result⟩
  | .reopen => some ⟨new session.manager.directory, session.live⟩

/-- A manager lists no sequence twice, those whose data files are there, and they are the largest
ones. The latest is the greatest of them, also for a new manager on the same files. -/
structure Retains (session : Session) : Prop where
  distinct : session.manager.getValidSequences.Nodup
  onDisk : ∀ sequence, sequence ∈ session.manager.getValidSequences ↔
    session.manager.hasCheckpoint sequence = true
  newest : session.manager.getValidSequences.toFinset = largest maxCheckpoints session.live
  latest : session.manager.getLatestSequence = session.manager.getValidSequences.max?
  reopened : (new session.manager.directory).getLatestSequence = session.manager.getLatestSequence

/-- The condition on a call: a new checkpoint has a larger number than those listed, and if the list
is full the removal of the oldest data file proceeds; a deletion that removes a data file removes
the metadata too, and nothing displaced was to take its place. -/
def InOrder (session : Session) (event : CheckpointCrash.Event τ) : Prop :=
  match event.call with
  | .create _ sequence _ =>
    (∀ kept ∈ session.manager.getValidSequences, kept < sequence) ∧
      (session.manager.getValidSequences.length = maxCheckpoints →
        drawn (event.faults.drop 3) = .proceeds)
  | .delete sequence =>
    session.manager.hasCheckpoint sequence = true → drawn event.faults = .proceeds →
      drawn event.faults.tail = .proceeds ∧ session.live.card ≤ maxCheckpoints
  | .reopen => True

instance (session : Session) : DecidablePred (@InOrder τ session) := fun event =>
  match event with
  | ⟨.create .., _⟩ => inferInstanceAs (Decidable (_ ∧ (_ → _)))
  | ⟨.delete _, _⟩ => inferInstanceAs (Decidable (_ → _ → _ ∧ _))
  | ⟨.reopen, _⟩ => inferInstanceAs (Decidable True)

/-- What every call keeps of a manager that retains its checkpoints: it is idle, its list is sorted,
and every data file has its metadata. -/
structure Kept (session : Session) : Prop where
  idle : session.manager.checkpointInProgress = false
  sorted : session.manager.validCheckpoints.Pairwise (· < ·)
  described : ∀ sequence, session.manager.hasCheckpoint sequence = true →
    session.manager.hasMetadata sequence = true

/-! ## Programs -/

section Programs

variable {manager : CheckpointManager} {sequence : Nat} {faults : List Fault}

/-- A manager whose data file of a sequence is removed. -/
def unlinked (manager : CheckpointManager) (sequence : Nat) : CheckpointManager :=
  manager.withDirectory { manager.directory with
    checkpoints := manager.directory.checkpoints.pop sequence }

/-- A manager whose files of a sequence are removed, and its entry in the list. -/
def erased (manager : CheckpointManager) (sequence : Nat) : CheckpointManager :=
  retainOthers (manager.withDirectory { manager.directory with
    checkpoints := manager.directory.checkpoints.pop sequence
    metadata := manager.directory.metadata.pop sequence }) sequence

/-- How the deletion of a checkpoint that is there ends. -/
inductive DeleteEnds (manager : CheckpointManager) (sequence : Nat) (faults : List Fault) :
    Except String Unit → CheckpointManager → Prop where
  /-- The data file is not removed. -/
  | refused (error : String) (stopped : drawn faults ≠ .proceeds) :
    DeleteEnds manager sequence faults (.error error) manager
  /-- The data file is removed, its metadata is not. -/
  | partly (error : String) (first : drawn faults = .proceeds)
    (stopped : drawn faults.tail ≠ .proceeds) :
    DeleteEnds manager sequence faults (.error error) (unlinked manager sequence)
  /-- Both are removed. -/
  | wholly (first : drawn faults = .proceeds) (second : drawn faults.tail = .proceeds) :
    DeleteEnds manager sequence faults (.ok ()) (erased manager sequence)

theorem wp_delete_there (there : manager.hasCheckpoint sequence = true)
    (described : manager.hasMetadata sequence = true) :
    wp (deleteCheckpoint sequence)
      (fun result final _ => DeleteEnds manager sequence faults result final) (fun _ => True)
      manager faults := by
  have present : (manager.directory.checkpoints.get sequence).isSome = true := there
  have metadata : (manager.directory.metadata.get sequence).isSome = true := described
  unfold deleteCheckpoint
  simp only [wp_bind, wp_read, there, if_true]
  unfold removeCheckpoint
  rw [wp_perform]
  cases befell : drawn faults with
  | crashes => trivial
  | fails error => exact .refused error (by simp [befell])
  | proceeds =>
    simp only [present, if_true]
    unfold deleteMetadata
    simp only [wp_bind, wp_read, hasMetadata, withDirectory, metadata, if_true]
    unfold removeMetadata
    rw [wp_perform]
    cases later : drawn faults.tail with
    | crashes => trivial
    | fails error => exact .partly error befell (by simp [later])
    | proceeds =>
      simp only [metadata, if_true]
      exact .wholly befell later

theorem wp_delete_absent (absent : manager.hasCheckpoint sequence = false) :
    wp (deleteCheckpoint sequence)
      (fun _ final _ => final.directory.checkpoints = manager.directory.checkpoints ∧
        (∀ other, other ≠ sequence → final.hasMetadata other = manager.hasMetadata other) ∧
        final.checkpointInProgress = manager.checkpointInProgress ∧
        (final.validCheckpoints = manager.validCheckpoints ∨
          final.validCheckpoints = manager.validCheckpoints.filter (· ≠ sequence)))
      (fun _ => True) manager faults := by
  unfold deleteCheckpoint deleteMetadata
  simp only [wp_bind, wp_read, absent, Bool.false_eq_true, if_false, wp_ite]
  split
  · refine wp_perform_of trivial (fun error rest => ⟨rfl, fun _ _ => rfl, rfl, .inl rfl⟩) ?_
    intro next rest performed
    split at performed
    · cases performed
      refine ⟨rfl, fun other differs => ?_, rfl, .inr rfl⟩
      show ((manager.directory.metadata.pop sequence).get other).isSome = _
      rw [Dict.get_pop, if_neg differs]
      rfl
    · cases performed
  · exact ⟨rfl, fun _ _ => rfl, rfl, .inl rfl⟩

theorem wp_cleanup_room {post : Unit → CheckpointManager → List Fault → Prop}
    (room : manager.validCheckpoints.length ≤ maxCheckpoints) (same : post () manager faults) :
    wp cleanupOldCheckpoints post (fun _ => True) manager faults := by
  have calm : crowded manager = false := decide_eq_false (Nat.not_lt.mpr room)
  unfold cleanupOldCheckpoints
  simp only [wp_bind, wp_read]
  cases manager.validCheckpoints.length with
  | zero => exact same
  | succ rounds =>
    unfold Program.whileM
    simp only [wp_bind, wp_read, calm, Bool.false_eq_true, if_false]
    exact same

theorem wp_cleanup_full {post : CheckpointManager → Prop} {oldest : Nat} {rest : List Nat}
    (listed : manager.validCheckpoints = oldest :: rest) (full : rest.length = maxCheckpoints)
    (round : wp (deleteCheckpoint oldest)
      (fun _ final _ => final.validCheckpoints.length ≤ maxCheckpoints ∧ post final)
      (fun _ => True) { manager with validCheckpoints := rest } faults) :
    wp cleanupOldCheckpoints (fun _ final _ => post final) (fun _ => True) manager faults := by
  have crowds : crowded manager = true := by
    refine decide_eq_true ?_
    rw [listed, List.length_cons]
    omega
  unfold cleanupOldCheckpoints
  simp only [wp_bind, wp_read, listed, List.length_cons]
  unfold Program.whileM
  simp only [wp_bind, wp_read, crowds, if_true]
  unfold cleanupRound
  simp only [wp_bind, wp_read, listed, wp_change]
  refine wp_mono round ?_ (fun _ _ => trivial)
  rintro _ final left ⟨short, holds⟩
  simp only [wp_pure]
  -- The next test of the loop finds the list short enough.
  have calm : crowded final = false := decide_eq_false (Nat.not_lt.mpr short)
  cases rest.length with
  | zero => exact holds
  | succ rounds =>
    unfold Program.whileM
    simp only [wp_bind, wp_read, calm, Bool.false_eq_true, if_false]
    exact holds

/-- A manager after its three operations on a new checkpoint. -/
def published (manager : CheckpointManager) (sequence : Nat) (compressed : List UInt8)
    (metadata : CheckpointMetadata) : CheckpointManager :=
  { manager with
    directory := {
      temporary := (manager.directory.temporary.put sequence compressed).pop sequence
      checkpoints := manager.directory.checkpoints.put sequence compressed
      metadata := manager.directory.metadata.put sequence metadata }
    currentSequence := sequence
    validCheckpoints := manager.validCheckpoints ++ [sequence] }

theorem wp_failure {post : CheckpointManager → Prop} {α : Type} (withdraw : Program _ α)
    (error : String) :
    wp (withdraw >>= fun _ => pure (CheckpointResult.failure error))
      (fun result final _ => result.success = true → post final) (fun _ => True) manager
      faults := by
  rw [wp_bind]
  refine wp_mono (wp_true withdraw manager faults) (fun _ _ _ _ => ?_) (fun _ _ => trivial)
  exact fun success => absurd success Bool.false_ne_true

theorem wp_published {codec : Codec τ} {environment : Environment} {originalSize : Nat}
    {compressed : List UInt8} {post : CheckpointManager → Prop}
    (cleaned : ∀ metadata, wp cleanupOldCheckpoints (fun _ final _ => post final) (fun _ => True)
      (published manager sequence compressed metadata) (faults.drop 3)) :
    wp (publish codec sequence environment originalSize compressed)
      (fun result final _ => result.success = true → post final) (fun _ => True) manager
      faults := by
  have left : faults.drop 3 = faults.tail.tail.tail := by
    rw [← List.drop_one, ← List.drop_one, ← List.drop_one, List.drop_drop, List.drop_drop]
  have found : (manager.directory.temporary.put sequence compressed).get sequence =
      some compressed := Dict.get_put_self _ sequence compressed
  unfold publish
  rw [wp_bind]
  unfold writeTemporary
  rw [wp_perform]
  cases drawn faults with
  | crashes => trivial
  | fails error => exact wp_failure _ _
  | proceeds =>
    simp only [wp_bind]
    unfold writeMetadata
    rw [wp_perform]
    cases drawn faults.tail with
    | crashes => trivial
    | fails error => exact wp_failure _ _
    | proceeds =>
      simp only [wp_bind]
      unfold renameTemporary
      rw [wp_perform]
      cases drawn faults.tail.tail with
      | crashes => trivial
      | fails error =>
        dsimp only
        rw [wp_bind]
        exact wp_mono (wp_true _ _ _) (fun _ _ _ _ => wp_failure _ _) (fun _ _ => trivial)
      | proceeds =>
        simp only [withDirectory, found, wp_bind, wp_change]
        have whole := cleaned (metadataOf codec sequence environment originalSize compressed)
        rw [left] at whole
        exact wp_mono whole (fun _ _ _ holds _ => holds) (fun _ _ => trivial)

theorem wp_create {codec : Codec τ} {state : τ} {environment : Environment}
    (idle : manager.checkpointInProgress = false) {post : CheckpointManager → Prop}
    (cleaned : ∀ compressed metadata,
      wp cleanupOldCheckpoints (fun _ final _ => post (final.setInProgress false)) (fun _ => True)
        (published (manager.setInProgress true) sequence compressed metadata) (faults.drop 3)) :
    wp (createCheckpoint codec state sequence environment)
      (fun result final _ => result.success = true → post final) (fun _ => True) manager
      faults := by
  unfold createCheckpoint
  simp only [wp_bind, wp_read, idle, Bool.false_eq_true, if_false, wp_change]
  cases encode codec state with
  | error error => exact fun failed => absurd failed Bool.false_ne_true
  | ok encoded =>
    obtain ⟨serialized, compressed⟩ := encoded
    simp only [wp_bind]
    exact @wp_published τ (manager.setInProgress true) sequence faults codec environment
      serialized.length compressed (fun final => post (final.setInProgress false))
      (cleaned compressed)

end Programs

variable {manager : CheckpointManager}

theorem has_published {sequence other : Nat} {compressed : List UInt8}
    {metadata : CheckpointMetadata} :
    (published manager sequence compressed metadata).hasCheckpoint other = true ↔
      other = sequence ∨ manager.hasCheckpoint other = true := by
  show ((manager.directory.checkpoints.put sequence compressed).get other).isSome = true ↔ _
  rw [Dict.get_put]
  by_cases same : other = sequence
  · rw [if_pos same]
    exact iff_of_true rfl (.inl same)
  · rw [if_neg same]
    exact (or_iff_right same).symm

theorem described_published {sequence other : Nat} {compressed : List UInt8}
    {metadata : CheckpointMetadata}
    (described : manager.hasCheckpoint other = true → manager.hasMetadata other = true)
    (there : (published manager sequence compressed metadata).hasCheckpoint other = true) :
    (published manager sequence compressed metadata).hasMetadata other = true := by
  show ((manager.directory.metadata.put sequence metadata).get other).isSome = true
  rw [Dict.get_put]
  by_cases same : other = sequence
  · rw [if_pos same]
    rfl
  · rw [if_neg same]
    exact described ((has_published.mp there).resolve_left same)

theorem has_unlinked {sequence other : Nat} :
    (unlinked manager sequence).hasCheckpoint other = true ↔
      other ≠ sequence ∧ manager.hasCheckpoint other = true := by
  show ((manager.directory.checkpoints.pop sequence).get other).isSome = true ↔ _
  rw [Dict.get_pop]
  by_cases same : other = sequence
  · rw [if_pos same]
    exact iff_of_false Bool.false_ne_true fun both => both.1 same
  · rw [if_neg same]
    exact (and_iff_right same).symm

theorem described_erased {sequence other : Nat} (differs : other ≠ sequence) :
    (erased manager sequence).hasMetadata other = manager.hasMetadata other := by
  show ((manager.directory.metadata.pop sequence).get other).isSome = _
  rw [Dict.get_pop, if_neg differs]
  rfl

/-- What a creation leaves that has no more to clean up than one checkpoint. -/
structure Stored (manager : CheckpointManager) (sequence : Nat) (faults : List Fault)
    (final : CheckpointManager) : Prop where
  idle : final.checkpointInProgress = false
  described : ∀ other, final.hasCheckpoint other = true → final.hasMetadata other = true
  room : manager.validCheckpoints.length < maxCheckpoints →
    final.validCheckpoints = manager.validCheckpoints ++ [sequence] ∧
      ∀ other, final.hasCheckpoint other = true ↔
        other = sequence ∨ manager.hasCheckpoint other = true
  stuck : ∀ oldest rest, manager.validCheckpoints = oldest :: rest →
    rest.length + 1 = maxCheckpoints → drawn (faults.drop 3) ≠ .proceeds →
      final.validCheckpoints = rest ++ [sequence] ∧
        ∀ other, final.hasCheckpoint other = true ↔
          other = sequence ∨ manager.hasCheckpoint other = true
  displaced : ∀ oldest rest, manager.validCheckpoints = oldest :: rest →
    rest.length + 1 = maxCheckpoints → drawn (faults.drop 3) = .proceeds →
      (final.validCheckpoints = rest ++ [sequence] ∨
        final.validCheckpoints = (rest ++ [sequence]).filter (· ≠ oldest)) ∧
        ∀ other, final.hasCheckpoint other = true ↔
          other ≠ oldest ∧ (other = sequence ∨ manager.hasCheckpoint other = true)

/-- What a creation leaves where the list was full. -/
theorem stored_full {final : CheckpointManager} {sequence oldest : Nat} {rest : List Nat}
    {faults : List Fault} (listed : manager.validCheckpoints = oldest :: rest)
    (full : rest.length + 1 = maxCheckpoints) (idle : final.checkpointInProgress = false)
    (described : ∀ other, final.hasCheckpoint other = true → final.hasMetadata other = true)
    (stuck : drawn (faults.drop 3) ≠ .proceeds → final.validCheckpoints = rest ++ [sequence] ∧
      ∀ other, final.hasCheckpoint other = true ↔
        other = sequence ∨ manager.hasCheckpoint other = true)
    (displaced : drawn (faults.drop 3) = .proceeds →
      (final.validCheckpoints = rest ++ [sequence] ∨
        final.validCheckpoints = (rest ++ [sequence]).filter (· ≠ oldest)) ∧
      ∀ other, final.hasCheckpoint other = true ↔
        other ≠ oldest ∧ (other = sequence ∨ manager.hasCheckpoint other = true)) :
    Stored manager sequence faults final := by
  refine ⟨idle, described, fun room => ?_, ?_, ?_⟩
  · rw [listed, List.length_cons] at room
    omega
  · intro first others whole _ stopped
    rw [listed] at whole
    cases whole
    exact stuck stopped
  · intro first others whole _ proceeds
    rw [listed] at whole
    cases whole
    exact displaced proceeds

/-- A creation that succeeds on a manager whose listed checkpoints are there. -/
theorem wp_stored {codec : Codec τ} {state : τ} {environment : Environment} {sequence : Nat}
    {faults : List Fault} (idle : manager.checkpointInProgress = false)
    (described : ∀ other, manager.hasCheckpoint other = true → manager.hasMetadata other = true)
    (present : ∀ other ∈ manager.validCheckpoints, manager.hasCheckpoint other = true)
    (bounded : manager.validCheckpoints.length ≤ maxCheckpoints) :
    wp (createCheckpoint codec state sequence environment)
      (fun result final _ => result.success = true → Stored manager sequence faults final)
      (fun _ => True) manager faults := by
  refine wp_create idle fun compressed metadata => ?_
  let running := manager.setInProgress true
  have has : ∀ other, (published running sequence compressed metadata).hasCheckpoint other = true ↔
      other = sequence ∨ manager.hasCheckpoint other = true := fun other => has_published
  have known : ∀ other, (published running sequence compressed metadata).hasCheckpoint other =
      true → (published running sequence compressed metadata).hasMetadata other = true :=
    fun other => described_published (described other)
  obtain room | full := Nat.lt_or_eq_of_le bounded
  · refine wp_cleanup_room ?_ ⟨rfl, known, fun _ => ⟨rfl, has⟩, ?_, ?_⟩
    · show (manager.validCheckpoints ++ [sequence]).length ≤ maxCheckpoints
      rw [List.length_append, List.length_singleton]
      omega
    · intro oldest rest listed full
      rw [listed, List.length_cons] at room
      omega
    · intro oldest rest listed full
      rw [listed, List.length_cons] at room
      omega
  · cases listed : manager.validCheckpoints with
    | nil =>
      rw [listed] at full
      exact absurd full (by decide)
    | cons oldest rest =>
      rw [listed, List.length_cons] at full
      have long : (rest ++ [sequence]).length = maxCheckpoints := by
        rw [List.length_append, List.length_singleton]
        exact full
      let crowd := published running sequence compressed metadata
      let shortened : CheckpointManager := { crowd with validCheckpoints := rest ++ [sequence] }
      have there : shortened.hasCheckpoint oldest = true :=
        (has oldest).mpr (.inr (present oldest (listed ▸ List.mem_cons_self)))
      refine @wp_cleanup_full crowd (faults.drop 3) (fun final =>
        Stored manager sequence faults (final.setInProgress false)) oldest (rest ++ [sequence])
        (by show manager.validCheckpoints ++ [sequence] = _; rw [listed]; rfl) long ?_
      refine wp_mono (wp_delete_there there (known oldest there)) ?_ (fun _ _ => trivial)
      rintro result final _ (⟨error, stopped⟩ | ⟨error, first, -⟩ | ⟨first, -⟩)
      · refine ⟨long.le, stored_full listed full rfl known ?_ ?_⟩
        · exact fun _ => ⟨rfl, has⟩
        · exact fun proceeds => absurd proceeds stopped
      · refine ⟨long.le, stored_full listed full rfl ?_ ?_ ?_⟩
        · exact fun other still => known other (has_unlinked.mp still).2
        · exact fun stuck => absurd first stuck
        · exact fun _ => ⟨.inl rfl, fun other =>
            has_unlinked.trans (and_congr_right fun _ => has other)⟩
      · refine ⟨(List.length_filter_le _ _).trans long.le, stored_full listed full rfl ?_ ?_ ?_⟩
        · intro other still
          obtain ⟨differs, before⟩ := has_unlinked.mp still
          exact (described_erased differs).trans (known other before)
        · exact fun stuck => absurd first stuck
        · exact fun _ => ⟨.inr rfl, fun other =>
            has_unlinked.trans (and_congr_right fun _ => has other)⟩

/-! ## Sorted lists -/

section Lists

variable {list : List Nat} {last : Nat}

theorem getLast_eq_max (bounded : ∀ other ∈ list, other ≤ last) :
    (list ++ [last]).getLast? = (list ++ [last]).max? := by
  rw [List.getLast?_concat]
  refine (List.max?_eq_some_iff.mpr ⟨List.mem_append_right list List.mem_cons_self, ?_⟩).symm
  intro other member
  obtain before | here := List.mem_append.mp member
  · exact bounded other before
  · exact (List.mem_singleton.mp here).le

theorem getLast_of_sorted (sorted : list.Pairwise (· < ·)) : list.getLast? = list.max? := by
  obtain rfl | ⟨front, last, rfl⟩ := list.eq_nil_or_concat
  · rfl
  · rw [List.concat_eq_append] at sorted ⊢
    refine getLast_eq_max fun other member => ?_
    exact ((List.pairwise_append.mp sorted).2.2 other member last List.mem_cons_self).le

theorem bounded_of_getLast (greatest : (list ++ [last]).getLast? = (list ++ [last]).max?) :
    ∀ other ∈ list, other ≤ last := by
  rw [List.getLast?_concat] at greatest
  have all := (List.max?_eq_some_iff.mp greatest.symm).2
  exact fun other member => all other (List.mem_append_left [last] member)

theorem scan_eq {directory : Directory} (sorted : list.Pairwise (· < ·))
    (listed : ∀ sequence, sequence ∈ list ↔
      (directory.checkpoints.get sequence).isSome = true) :
    scanExistingCheckpoints directory = list := by
  have members : ∀ sequence, sequence ∈ directory.checkpoints.keys ↔ sequence ∈ list := by
    intro sequence
    rw [listed, Dict.mem_keys, Option.isSome_iff_exists]
  have distinct : list.Nodup := sorted.imp fun less => less.ne
  have rearranged : directory.checkpoints.keys.Perm list :=
    (List.perm_ext_iff_of_nodup directory.checkpoints.nodup distinct).mpr members
  refine List.Perm.eq_of_pairwise' (List.pairwise_insertionSort (· ≤ ·) _)
    (sorted.imp fun less => less.le) ((List.perm_insertionSort (· ≤ ·) _).trans rearranged)

end Lists

/-! ## Runs -/

section Runs

variable {session next : Session} {manager final : CheckpointManager} {live : Finset Nat}
  {sequence : Nat} {faults : List Fault}

theorem retains_of (sorted : manager.validCheckpoints.Pairwise (· < ·))
    (onDisk : ∀ sequence, sequence ∈ manager.validCheckpoints ↔
      manager.hasCheckpoint sequence = true)
    (newest : manager.validCheckpoints.toFinset = largest maxCheckpoints live) :
    Retains ⟨manager, live⟩ where
  distinct := sorted.imp fun less => less.ne
  onDisk := onDisk
  newest := newest
  latest := getLast_of_sorted sorted
  reopened := by
    show (scanExistingCheckpoints manager.directory).getLast? = manager.validCheckpoints.getLast?
    rw [scan_eq sorted onDisk]

theorem length_eq (retains : Retains session) :
    session.manager.validCheckpoints.length = (largest maxCheckpoints session.live).card := by
  rw [← retains.newest]
  exact (List.toFinset_card_of_nodup retains.distinct).symm

/-- The listed checkpoints are the newest of the live ones. -/
theorem mem_listed (retains : Retains session) :
    sequence ∈ session.manager.validCheckpoints ↔
      sequence ∈ largest maxCheckpoints session.live := by
  rw [← retains.newest]
  exact List.mem_toFinset.symm

theorem above_live (retains : Retains session)
    (above : ∀ kept ∈ session.manager.validCheckpoints, kept < sequence) :
    ∀ other ∈ session.live, other < sequence := by
  intro other there
  obtain ⟨top, among, bounded⟩ := @exists_largest _ _ maxCheckpoints _ _ (by decide) there
  exact bounded.trans_lt (above top ((mem_listed retains).mpr among))

theorem newest_room (retains : Retains session)
    (room : session.manager.validCheckpoints.length < maxCheckpoints) :
    (session.manager.validCheckpoints ++ [sequence]).toFinset =
      largest maxCheckpoints (insert sequence session.live) := by
  have counted := length_eq retains
  have all : largest maxCheckpoints session.live = session.live :=
    largest_eq_self_of_short (by omega)
  have small : (insert sequence session.live).card ≤ maxCheckpoints := by
    have grown := Finset.card_insert_le sequence session.live
    rw [all] at counted
    omega
  have listed : session.manager.validCheckpoints.toFinset = session.live :=
    retains.newest.trans all
  rw [largest_eq_self small, List.toFinset_append, listed, List.toFinset_cons, List.toFinset_nil,
    insert_empty_eq, Finset.union_comm, ← Finset.insert_eq]

theorem newest_full (kept : Kept session) (retains : Retains session) {oldest : Nat}
    {rest : List Nat} (listed : session.manager.validCheckpoints = oldest :: rest)
    (full : rest.length + 1 = maxCheckpoints)
    (above : ∀ kept ∈ session.manager.validCheckpoints, kept < sequence) :
    (rest ++ [sequence]).toFinset = largest maxCheckpoints (insert sequence session.live) := by
  have sorted := kept.sorted
  rw [listed] at sorted
  obtain ⟨less, -⟩ := List.pairwise_cons.mp sorted
  have members : ∀ other, other ∈ largest (9 + 1) session.live ↔ other ∈ oldest :: rest :=
    fun other => by
      rw [← listed]
      exact (mem_listed retains).symm
  have filled : (largest (9 + 1) session.live).card = 9 + 1 := by
    have counted := length_eq retains
    rw [listed, List.length_cons, full] at counted
    exact counted.symm
  have grown : largest (9 + 1) (insert sequence session.live) = _ :=
    largest_insert 9 (above_live retains above)
  have taken := @largest_pred _ _ 9 session.live oldest filled
    ((members oldest).mpr List.mem_cons_self) fun other among => by
      obtain rfl | later := List.mem_cons.mp ((members other).mp among)
      · exact le_refl other
      · exact (less other later).le
  show _ = largest (9 + 1) (insert sequence session.live)
  rw [grown, taken]
  ext other
  simp only [List.mem_toFinset, List.mem_append, Finset.mem_insert, Finset.mem_erase, members,
    List.mem_cons, List.not_mem_nil, or_false]
  constructor
  · rintro (later | rfl)
    · exact .inr ⟨(less other later).ne', .inr later⟩
    · exact .inl rfl
  · rintro (rfl | ⟨differs, rfl | later⟩)
    · exact .inr rfl
    · exact absurd rfl differs
    · exact .inl later

theorem sorted_concat {list : List Nat} (sorted : list.Pairwise (· < ·))
    (above : ∀ kept ∈ list, kept < sequence) : (list ++ [sequence]).Pairwise (· < ·) := by
  refine List.pairwise_append.mpr ⟨sorted, List.pairwise_singleton _ _, ?_⟩
  intro kept member last here
  rw [List.mem_singleton.mp here]
  exact above kept member

theorem full_list (kept : Kept session)
    (full : session.manager.validCheckpoints.length = maxCheckpoints) :
    ∃ oldest rest, session.manager.validCheckpoints = oldest :: rest ∧
      rest.length + 1 = maxCheckpoints ∧ (∀ other ∈ rest, oldest < other) ∧
        rest.Pairwise (· < ·) := by
  have sorted := kept.sorted
  cases listed : session.manager.validCheckpoints with
  | nil =>
    rw [listed] at full
    exact absurd full (by decide)
  | cons oldest rest =>
    rw [listed] at full sorted
    obtain ⟨less, later⟩ := List.pairwise_cons.mp sorted
    exact ⟨oldest, rest, rfl, full, less, later⟩

theorem filter_greater {list : List Nat} {oldest : Nat} (less : ∀ other ∈ list, oldest < other) :
    list.filter (· ≠ oldest) = list :=
  List.filter_eq_self.mpr fun other member => decide_eq_true (less other member).ne'

theorem stored_in_order (kept : Kept session) (retains : Retains session)
    (stored : Stored session.manager sequence faults final)
    (above : ∀ kept ∈ session.manager.validCheckpoints, kept < sequence)
    (proceeds : session.manager.validCheckpoints.length = maxCheckpoints →
      drawn (faults.drop 3) = .proceeds) :
    Kept ⟨final, insert sequence session.live⟩ ∧ Retains ⟨final, insert sequence session.live⟩ := by
  have bounded := length_eq retains
  have most := card_largest_le maxCheckpoints session.live
  suffices sorted : final.validCheckpoints.Pairwise (· < ·) ∧
      (∀ other, other ∈ final.validCheckpoints ↔ final.hasCheckpoint other = true) ∧
      final.validCheckpoints.toFinset = largest maxCheckpoints (insert sequence session.live) from
    ⟨⟨stored.idle, sorted.1, stored.described⟩, retains_of sorted.1 sorted.2.1 sorted.2.2⟩
  by_cases room : session.manager.validCheckpoints.length < maxCheckpoints
  · obtain ⟨list, has⟩ := stored.room room
    rw [list]
    refine ⟨sorted_concat kept.sorted above, fun other => ?_, newest_room retains room⟩
    rw [has, List.mem_append, List.mem_singleton, or_comm]
    exact or_congr_right (retains.onDisk other)
  · have full : session.manager.validCheckpoints.length = maxCheckpoints := by omega
    obtain ⟨oldest, rest, listed, long, less, later⟩ := full_list kept full
    have newer : oldest < sequence := above oldest (listed ▸ List.mem_cons_self)
    obtain ⟨list, has⟩ := stored.displaced oldest rest listed long (proceeds full)
    have plain : final.validCheckpoints = rest ++ [sequence] := by
      obtain same | filtered := list
      · exact same
      · rw [filtered]
        refine filter_greater fun other member => ?_
        obtain before | here := List.mem_append.mp member
        · exact less other before
        · exact List.mem_singleton.mp here ▸ newer
    rw [plain]
    refine ⟨sorted_concat later fun other member => above other
      (listed ▸ List.mem_cons_of_mem oldest member), fun other => ?_,
      newest_full kept retains listed long above⟩
    have before : other ∈ session.manager.validCheckpoints ↔ _ := retains.onDisk other
    rw [listed, List.mem_cons] at before
    rw [has, ← before, List.mem_append, List.mem_singleton]
    constructor
    · rintro (inside | rfl)
      · exact ⟨(less other inside).ne', .inr (.inr inside)⟩
      · exact ⟨newer.ne', .inl rfl⟩
    · rintro ⟨differs, rfl | rfl | inside⟩
      · exact .inr rfl
      · exact absurd rfl differs
      · exact .inl inside

theorem below_of_retains {list : List Nat} (retains : Retains ⟨final, live⟩)
    (listed : final.validCheckpoints = list ++ [sequence]) : ∀ other ∈ list, other < sequence := by
  have greatest : final.validCheckpoints.getLast? = final.validCheckpoints.max? := retains.latest
  have distinct : final.validCheckpoints.Nodup := retains.distinct
  rw [listed] at greatest distinct
  intro other member
  refine lt_of_le_of_ne (bounded_of_getLast greatest other member) fun same => ?_
  exact (List.nodup_append.mp distinct).2.2 other member sequence List.mem_cons_self same

theorem above_of_replaced {oldest : Nat} {rest : List Nat}
    (listed : session.manager.validCheckpoints = oldest :: rest)
    (long : rest.length + 1 = maxCheckpoints) (less : ∀ other ∈ rest, oldest < other)
    (after : Retains ⟨final, live⟩) (shape : final.validCheckpoints = rest ++ [sequence]) :
    ∀ kept ∈ session.manager.validCheckpoints, kept < sequence := by
  -- The second of the list is between the oldest and the new one.
  obtain ⟨second, member⟩ : ∃ second, second ∈ rest :=
    List.exists_mem_of_length_pos (by
      have ten : maxCheckpoints = 10 := rfl
      omega)
  have below := below_of_retains after shape
  intro other inside
  rw [listed] at inside
  obtain rfl | inside := List.mem_cons.mp inside
  · exact (less second member).trans (below second member)
  · exact below other inside

theorem ne_oldest_of_displaced {oldest : Nat} {rest : List Nat} (retains : Retains session)
    (listed : session.manager.validCheckpoints = oldest :: rest)
    (gone : ¬final.hasCheckpoint oldest = true)
    (after : Retains ⟨final, insert sequence session.live⟩) : sequence ≠ oldest := by
  rintro rfl
  have live : sequence ∈ largest maxCheckpoints session.live :=
    (mem_listed retains).mp (listed ▸ List.mem_cons_self)
  have known : insert sequence session.live = session.live :=
    Finset.insert_eq_self.mpr (largest_subset _ _ live)
  have newest := after.newest
  dsimp only at newest
  rw [known] at newest
  have inside : sequence ∈ final.validCheckpoints := List.mem_toFinset.mp (newest.symm ▸ live)
  exact gone ((after.onDisk sequence).mp inside)

theorem in_order_of_stored (kept : Kept session) (retains : Retains session)
    (stored : Stored session.manager sequence faults final)
    (after : Retains ⟨final, insert sequence session.live⟩) :
    (∀ kept ∈ session.manager.validCheckpoints, kept < sequence) ∧
      (session.manager.validCheckpoints.length = maxCheckpoints →
        drawn (faults.drop 3) = .proceeds) := by
  have bounded := length_eq retains
  have most := card_largest_le maxCheckpoints session.live
  by_cases room : session.manager.validCheckpoints.length < maxCheckpoints
  · obtain ⟨list, -⟩ := stored.room room
    exact ⟨below_of_retains after list, fun full => absurd full room.ne⟩
  · have full : session.manager.validCheckpoints.length = maxCheckpoints := by omega
    obtain ⟨oldest, rest, listed, long, less, -⟩ := full_list kept full
    by_cases proceeds : drawn (faults.drop 3) = .proceeds
    · refine ⟨?_, fun _ => proceeds⟩
      obtain ⟨shape, has⟩ := stored.displaced oldest rest listed long proceeds
      have gone : ¬final.hasCheckpoint oldest = true := fun still => ((has oldest).mp still).1 rfl
      have other := ne_oldest_of_displaced retains listed gone after
      obtain same | filtered := shape
      · exact above_of_replaced listed long less after same
      · rw [List.filter_append, filter_greater less,
          List.filter_cons_of_pos (by simpa using other), List.filter_nil] at filtered
        exact above_of_replaced listed long less after filtered
    · -- The oldest file is there and not listed.
      obtain ⟨shape, has⟩ := stored.stuck oldest rest listed long proceeds
      have first : oldest ∈ session.manager.validCheckpoints := listed ▸ List.mem_cons_self
      have there : session.manager.hasCheckpoint oldest = true :=
        (retains.onDisk oldest).mp first
      have inside : oldest ∈ final.validCheckpoints :=
        (after.onDisk oldest).mpr ((has oldest).mpr (.inr there))
      rw [shape] at inside
      obtain early | here := List.mem_append.mp inside
      · exact absurd (less oldest early) (lt_irrefl oldest)
      · have below := above_of_replaced listed long less after shape oldest first
        rw [List.mem_singleton.mp here] at below
        exact absurd below (lt_irrefl sequence)

/-- A manager with the data files and, up to one that is not there, the list and the metadata of
one that retains its checkpoints retains them too. -/
theorem deleted_absent (kept : Kept session) (retains : Retains session)
    (absent : session.manager.hasCheckpoint sequence = false)
    (checkpoints : final.directory.checkpoints = session.manager.directory.checkpoints)
    (metadata : ∀ other, other ≠ sequence →
      final.hasMetadata other = session.manager.hasMetadata other)
    (idle : final.checkpointInProgress = session.manager.checkpointInProgress)
    (list : final.validCheckpoints = session.manager.validCheckpoints ∨
      final.validCheckpoints = session.manager.validCheckpoints.filter (· ≠ sequence))
    (less : live = session.live ∨ live = session.live.erase sequence) :
    Kept ⟨final, live⟩ ∧ Retains ⟨final, live⟩ := by
  have unlisted : sequence ∉ session.manager.validCheckpoints := fun member => by
    rw [(retains.onDisk sequence).mp member] at absent
    cases absent
  have same : final.validCheckpoints = session.manager.validCheckpoints := by
    obtain same | filtered := list
    · exact same
    · rw [filtered]
      refine List.filter_eq_self.mpr fun other member => decide_eq_true ?_
      rintro rfl
      exact unlisted member
  have has : ∀ other, final.hasCheckpoint other = session.manager.hasCheckpoint other :=
    fun other => by
      unfold hasCheckpoint
      rw [checkpoints]
  have newest : largest maxCheckpoints live = largest maxCheckpoints session.live := by
    obtain rfl | rfl := less
    · rfl
    · exact largest_erase_outside (mt (mem_listed retains).mpr unlisted)
  have sorted : final.validCheckpoints.Pairwise (· < ·) := same ▸ kept.sorted
  refine ⟨⟨idle.trans kept.idle, sorted, fun other there => ?_⟩,
    retains_of sorted (fun other => ?_) ?_⟩
  · have there : final.hasCheckpoint other = true := there
    rw [has] at there
    have differs : other ≠ sequence := by
      rintro rfl
      rw [there] at absent
      cases absent
    exact (metadata other differs).trans (kept.described other there)
  · rw [same, has]
    exact retains.onDisk other
  · rw [same, newest]
    exact retains.newest

theorem not_retains_unlinked (retains : Retains session)
    (there : session.manager.hasCheckpoint sequence = true) (live : Finset Nat) :
    ¬ Retains ⟨unlinked session.manager sequence, live⟩ := by
  intro after
  have listed := (retains.onDisk sequence).mpr there
  exact absurd rfl (has_unlinked.mp ((after.onDisk sequence).mp listed)).1

theorem erased_retains (kept : Kept session) (retains : Retains session)
    (there : session.manager.hasCheckpoint sequence = true) :
    Kept ⟨erased session.manager sequence, session.live.erase sequence⟩ ∧
      (Retains ⟨erased session.manager sequence, session.live.erase sequence⟩ ↔
        session.live.card ≤ maxCheckpoints) := by
  have inside : sequence ∈ largest maxCheckpoints session.live :=
    (mem_listed retains).mp ((retains.onDisk sequence).mpr there)
  have sorted : (erased session.manager sequence).validCheckpoints.Pairwise (· < ·) :=
    kept.sorted.filter _
  have left : (erased session.manager sequence).validCheckpoints.toFinset =
      (largest maxCheckpoints session.live).erase sequence := by
    rw [← retains.newest]
    ext other
    show other ∈ (session.manager.validCheckpoints.filter (· ≠ sequence)).toFinset ↔ _
    simp only [List.mem_toFinset, List.mem_filter, Finset.mem_erase, decide_eq_true_eq]
    exact and_comm
  refine ⟨⟨kept.idle, sorted, fun other still => ?_⟩, ?_⟩
  · obtain ⟨differs, before⟩ := has_unlinked.mp still
    exact (described_erased differs).trans (kept.described other before)
  · rw [← largest_erase_inside inside, eq_comm, ← left]
    constructor
    · exact fun after => after.newest
    · intro newest
      refine retains_of sorted (fun other => ?_) newest
      have listed : other ∈ session.manager.validCheckpoints ↔ _ := retains.onDisk other
      show other ∈ session.manager.validCheckpoints.filter (· ≠ sequence) ↔ _
      rw [List.mem_filter, decide_eq_true_eq, listed, and_comm]
      exact has_unlinked.symm

/-- What a deletion leaves of the live numbers. -/
theorem delete_step {codec : Codec τ} (taken : step codec session ⟨.delete sequence, faults⟩ =
    some next) : ∃ result left,
      deleteCheckpoint sequence session.manager faults = .returned result next.manager left ∧
        next.live = liveAfter session.live sequence result := by
  unfold step at taken
  dsimp only at taken
  split at taken
  · cases taken
  · next result manager left ended =>
    cases taken
    exact ⟨result, left, ended, rfl⟩

theorem wp_returned {α : Type} {program : Program CheckpointManager α} {value : α}
    {left : List Fault} {post : α → CheckpointManager → List Fault → Prop}
    (met : wp program post (fun _ => True) manager faults)
    (ended : program manager faults = .returned value final left) : post value final left := by
  unfold wp at met
  rw [ended] at met
  exact met

theorem reopen_retains (kept : Kept session) (retains : Retains session) :
    Kept ⟨new session.manager.directory, session.live⟩ ∧
      Retains ⟨new session.manager.directory, session.live⟩ := by
  have same : scanExistingCheckpoints session.manager.directory =
      session.manager.validCheckpoints := scan_eq kept.sorted retains.onDisk
  have sorted : (new session.manager.directory).validCheckpoints.Pairwise (· < ·) := by
    show (scanExistingCheckpoints session.manager.directory).Pairwise (· < ·)
    rw [same]
    exact kept.sorted
  refine ⟨⟨rfl, sorted, kept.described⟩, retains_of sorted (fun other => ?_) ?_⟩
  · show other ∈ scanExistingCheckpoints session.manager.directory ↔ _
    rw [same]
    exact retains.onDisk other
  · show (scanExistingCheckpoints session.manager.directory).toFinset = _
    rw [same]
    exact retains.newest

theorem delete_exact {codec : Codec τ} (kept : Kept session) (retains : Retains session)
    (there : session.manager.hasCheckpoint sequence = true)
    (taken : step codec session ⟨.delete sequence, faults⟩ = some next) :
    (InOrder session (⟨.delete sequence, faults⟩ : CheckpointCrash.Event τ) → Kept next) ∧
      (Retains next ↔ InOrder session (⟨.delete sequence, faults⟩ : CheckpointCrash.Event τ)) := by
  obtain ⟨result, left, ended, live⟩ := delete_step taken
  obtain ⟨manager, _⟩ := next
  dsimp only at ended live
  subst live
  have ends := wp_returned (wp_delete_there there (kept.described sequence there)) ended
  cases ends with
  | refused error stopped =>
    exact ⟨fun _ => kept, iff_of_true retains fun _ first => absurd first stopped⟩
  | partly error first stopped =>
    have lost := not_retains_unlinked retains there session.live
    refine ⟨fun ordered => ?_, iff_of_false lost fun ordered => ?_⟩
    · exact absurd (ordered there first).1 stopped
    · exact absurd (ordered there first).1 stopped
  | wholly first second =>
    obtain ⟨after, exact_⟩ := erased_retains kept retains there
    refine ⟨fun _ => after, exact_.trans ?_⟩
    exact ⟨fun small _ _ => ⟨second, small⟩, fun ordered => (ordered there first).2⟩

/-- One event keeps the retention exactly when its number is in order. -/
theorem step_exact {codec : Codec τ} {event : CheckpointCrash.Event τ} (kept : Kept session)
    (retains : Retains session) (taken : step codec session event = some next) :
    (InOrder session event → Kept next) ∧ (Retains next ↔ InOrder session event) := by
  obtain ⟨call, faults⟩ := event
  cases call with
  | reopen =>
    cases taken
    have after := reopen_retains kept retains
    exact ⟨fun _ => after.1, iff_of_true after.2 trivial⟩
  | delete sequence =>
    cases there : session.manager.hasCheckpoint sequence with
    | true => exact delete_exact kept retains there taken
    | false =>
      obtain ⟨result, left, ended, live⟩ := delete_step taken
      obtain ⟨manager, _⟩ := next
      dsimp only at ended live
      subst live
      obtain ⟨checkpoints, metadata, idle, list⟩ := wp_returned (wp_delete_absent there) ended
      have less : liveAfter session.live sequence result = session.live ∨
          liveAfter session.live sequence result = session.live.erase sequence := by
        cases result with
        | error _ => exact .inl rfl
        | ok _ => exact .inr rfl
      have after := deleted_absent kept retains there checkpoints metadata idle list less
      refine ⟨fun _ => after.1, iff_of_true after.2 fun present => ?_⟩
      rw [there] at present
      cases present
  | create state sequence environment =>
    unfold step at taken
    dsimp only at taken
    split at taken
    · cases taken
    · next result manager left ended =>
      split at taken
      · next success =>
        cases taken
        have bounded : session.manager.validCheckpoints.length ≤ maxCheckpoints :=
          (length_eq retains).trans_le (card_largest_le maxCheckpoints session.live)
        have stored := wp_returned (wp_stored kept.idle kept.described
          (fun other => (retains.onDisk other).mp) bounded) ended success
        have ordered : InOrder session ⟨Call.create state sequence environment, faults⟩ →
            Kept ⟨manager, insert sequence session.live⟩ ∧
              Retains ⟨manager, insert sequence session.live⟩ := fun ordered =>
          stored_in_order kept retains stored ordered.1 ordered.2
        exact ⟨fun met => (ordered met).1,
          fun after => in_order_of_stored kept retains stored after, fun met => (ordered met).2⟩
      · cases taken

theorem start_retains : Kept Session.start ∧ Retains Session.start := by
  constructor
  · exact ⟨rfl, List.Pairwise.nil, nofun⟩
  · exact retains_of List.Pairwise.nil (fun _ => iff_of_false nofun nofun) rfl

/-- In every run from an empty directory in which the creations succeed, the manager retains the
largest checkpoints in every state if and only if every call is in order. -/
theorem retention_iff (codec : Codec τ) (events : List (CheckpointCrash.Event τ)) :
    Always (step codec) Retains .start events ↔ Guarded (step codec) InOrder .start events := by
  obtain ⟨kept, retains⟩ := start_retains
  refine @always_iff_guarded_of _ _ (step codec) Kept Retains (fun _ _ => True) InOrder ?_ ?_ _ kept
    retains events (guarded_of_forall (fun _ _ => trivial) _)
  · exact fun _ _ _ kept retains _ ordered taken => (step_exact kept retains taken).1 ordered
  · exact fun _ _ _ kept retains _ taken => (step_exact kept retains taken).2

/-- A checkpoint 1 after a checkpoint 2 is taken for the latest. -/
theorem later_smaller_checkpoint : ¬∀ events : List (CheckpointCrash.Event UInt8),
    Always (step sample) Retains .start events := by
  intro claim
  let events : List (CheckpointCrash.Event UInt8) :=
    [⟨.create 7 2 host, []⟩, ⟨.create 9 1 host, []⟩]
  refine @not_always_of_view _ _ (step sample) _ (fun final =>
    (final.manager.getLatestSequence, final.manager.getValidSequences.max?)) (some 1, some 2)
    Retains .start events (by decide +kernel) ?_ (claim events)
  intro final seen retains
  have latest : final.manager.getLatestSequence = some 1 := congrArg Prod.fst seen
  have greatest : final.manager.getValidSequences.max? = some 2 := congrArg Prod.snd seen
  have agree := retains.latest
  rw [latest, greatest] at agree
  cases agree

end Runs

end CheckpointRetention

end TradingBot
