import TradingBot.Events.DeadLetterAccounts
import TradingBot.Foundation.Locks

/-!
# The locks of the dead letter queue

`dead_letter_queue.rs` with its file and its locks: the queue and the handle of the file are behind
a mutex, whose only guards write, and the statistics behind a lock for reading and writing. What the
file system, the serializer and the allocator answer is left open, and a lock is not poisoned.
Without its locks a call is one of the queue in memory.
-/

open Locks MachineInt

namespace TradingBot.Events

def maxDlqFileSize : Nat := 100 * 1024 * 1024

/-- The locks of the queue. -/
inductive DlqLock where
  | queue
  | stats
  | file
  deriving DecidableEq, Repr

/-- What a call is answered by its surroundings. -/
structure Surroundings (τ : Type) where
  /-- `serde_json::to_string`. -/
  serialize : DeadLetterEntry τ → Except String String
  tryClone : Except String Unit
  write : String → Except String Unit
  metadata : Option Nat
  rename : Except String Unit
  create : Except String Unit
  /-- The file opened for truncation, and its size if that is told. -/
  truncate : Option (Option Nat)
  /-- There is memory for a number of entries. -/
  allocates : Nat → Bool

/-- The queue in memory with what it keeps of its file. -/
structure PersistentQueue (τ : Type) where
  dlq : DeadLetterQueue τ
  persistenceEnabled : Bool
  /-- There is a handle of the file. -/
  file : Bool
  fileSizeBytes : Nat

namespace PersistentQueue

variable {τ : Type}

/-- The statistics are changed; a sum that leaves its type stops the thread. -/
def changeStats (change : DLQStats → Option DLQStats) :
    Locked DlqLock (PersistentQueue τ) Unit :=
  compute fun state => (change state.dlq.stats).map fun stats =>
    ((), { state with dlq := { state.dlq with stats } })

/-- The entries are changed. -/
def changeQueue (change : List (DeadLetterEntry τ) → List (DeadLetterEntry τ)) :
    Locked DlqLock (PersistentQueue τ) Unit :=
  update fun state => { state with dlq := { state.dlq with queue := change state.dlq.queue } }

/-- The size of the file is kept. -/
def storeFileSize (size : Nat) : Locked DlqLock (PersistentQueue τ) Unit :=
  guarded exclusive .stats .write (update fun state => { state with fileSizeBytes := size })

def rotateFile (around : Surroundings τ) :
    Locked DlqLock (PersistentQueue τ) (Except String Unit) :=
  match around.rename, around.create with
  | .error e, _ => pure (.error ("Failed to rotate file: " ++ e))
  | .ok (), .error e => pure (.error ("Failed to create new DLQ file: " ++ e))
  | .ok (), .ok () => guarded exclusive .file .write do
    update fun state => { state with file := true }
    storeFileSize 0
    pure (.ok ())

/-- The part of `persist_entry` under the guard of the file: whether the file is to be rotated when
the guard is dropped. -/
def writeEntry (around : Surroundings τ) (entry : DeadLetterEntry τ) :
    Locked DlqLock (PersistentQueue τ) (Except String Bool) := do
  let state ← view id
  if state.file then
    match around.serialize entry with
    | .error e => pure (.error ("Serialization error: " ++ e))
    | .ok json =>
      match around.tryClone, around.write json, around.metadata with
      | .error e, _, _ => pure (.error ("File clone error: " ++ e))
      | .ok (), .error e, _ => pure (.error ("Write error: " ++ e))
      | .ok (), .ok (), none => pure (.ok false)
      | .ok (), .ok (), some size =>
        if maxDlqFileSize < size then pure (.ok true)
        else do
          storeFileSize size
          pure (.ok false)
  else pure (.ok false)

def persistEntry (around : Surroundings τ) (entry : DeadLetterEntry τ) :
    Locked DlqLock (PersistentQueue τ) (Except String Unit) := do
  match ← guarded exclusive .file .write (writeEntry around entry) with
  | .error e => pure (.error e)
  | .ok true => rotateFile around
  | .ok false => pure (.ok ())

/-- The loop of `push` that purges the oldest entries, for a number of rounds. -/
def evict : Nat → Locked DlqLock (PersistentQueue τ) Unit
  | 0 => endless
  | fuel + 1 => do
    let state ← view id
    if state.dlq.maxMemoryEntries ≤ state.dlq.queue.length then
      match state.dlq.queue with
      | [] => evict fuel
      | _ :: rest => do
        changeQueue fun _ => rest
        guarded exclusive .stats .write (changeStats fun stats =>
          (u64 (stats.totalPurged + 1)).map fun totalPurged => { stats with totalPurged })
        evict fuel
    else pure ()

/-- The statistics after an entry was pushed, with the number of the entries. -/
def recordPush (length : Nat) (entry : DeadLetterEntry τ) (nowNs : Nat) (stats : DLQStats) :
    Option DLQStats :=
  (DeadLetterQueue.countReason stats.entriesByReason entry.reason).map fun entriesByReason =>
    { stats with
      totalEntries := length
      entriesByReason
      oldestEntryTs := if stats.oldestEntryTs = 0 ∨ nowNs < stats.oldestEntryTs then nowNs
        else stats.oldestEntryTs
      newestEntryTs := max stats.newestEntryTs nowNs
      lastWriteTs := nowNs }

/-- `push`, with its loop for a number of rounds. -/
def push (fuel : Nat) (around : Surroundings τ) (entry : DeadLetterEntry τ) (nowNs : Nat) :
    Locked DlqLock (PersistentQueue τ) (Except String Unit) := do
  let state ← view id
  if state.dlq.isShutdown then pure (.error "DLQ is shut down")
  else
    let entry := { entry with sequence := state.dlq.entryCount, dlqTimestampNs := nowNs }
    update fun state => { state with dlq := { state.dlq with
      entryCount := castU64 (state.dlq.entryCount + 1) } }
    guarded exclusive .queue .write do
      evict fuel
      changeQueue fun queue => queue ++ [entry]
      let state ← view id
      guarded exclusive .stats .write
        (changeStats (recordPush state.dlq.queue.length entry nowNs))
    if state.persistenceEnabled then persistEntry around entry else pure (.ok ())

def popForReplay (around : Surroundings τ) (count : Nat) :
    Locked DlqLock (PersistentQueue τ) (List (DeadLetterEntry τ)) :=
  guarded exclusive .queue .write do
    compute fun state => if around.allocates count then some ((), state) else none
    let result ← view fun state => state.dlq.queue.take count
    changeQueue fun queue => queue.drop count
    let state ← view id
    guarded exclusive .stats .write (changeStats fun stats =>
      (u64 (stats.totalReplayed + result.length)).map fun totalReplayed =>
        { stats with totalEntries := state.dlq.queue.length, totalReplayed })
    pure result

def clear (around : Surroundings τ) : Locked DlqLock (PersistentQueue τ) Nat :=
  guarded exclusive .queue .write do
    let count ← view fun state => state.dlq.queue.length
    changeQueue fun _ => []
    guarded exclusive .stats .write do
      changeStats fun stats => (u64 (stats.totalPurged + count)).map fun totalPurged =>
        { stats with totalEntries := 0, totalPurged, oldestEntryTs := 0, newestEntryTs := 0 }
      let state ← view id
      if state.persistenceEnabled then
        match around.truncate with
        | none => pure ()
        | some size => storeFileSize (size.getD state.fileSizeBytes)
    pure count

def purgeStale (maxAgeNs : Nat) (readings : Nat → Nat) :
    Locked DlqLock (PersistentQueue τ) Nat :=
  guarded exclusive .queue .write do
    let original ← view fun state => state.dlq.queue.length
    compute fun state => (DeadLetterQueue.retain maxAgeNs readings state.dlq.queue).map fun queue =>
      ((), { state with dlq := { state.dlq with queue } })
    let state ← view id
    let purged := original - state.dlq.queue.length
    if 0 < purged then
      guarded exclusive .stats .write (changeStats fun stats =>
        (u64 (stats.totalPurged + purged)).map fun totalPurged => { stats with
          totalEntries := state.dlq.queue.length
          totalPurged
          oldestEntryTs := (state.dlq.queue.head?.map fun front =>
            front.dlqTimestampNs).getD stats.oldestEntryTs })
    pure purged

/-! ## What a call comes to -/

section Ends

variable {state : PersistentQueue τ} {held : List (DlqLock × Mode)} {around : Surroundings τ}
  {post : Unit → Thread DlqLock (PersistentQueue τ) → Prop}

@[simp] theorem ends_changeStats {change : DLQStats → Option DLQStats} :
    Ends (changeStats change) post ⟨held, state⟩ ↔ ∃ stats, change state.dlq.stats = some stats ∧
      post () ⟨held, { state with dlq := { state.dlq with stats } }⟩ := by
  simp [changeStats, Unique.exists_iff]

@[simp] theorem ends_changeQueue {change : List (DeadLetterEntry τ) → List (DeadLetterEntry τ)} :
    Ends (changeQueue change) post ⟨held, state⟩ ↔ post ()
      ⟨held, { state with dlq := { state.dlq with queue := change state.dlq.queue } }⟩ := Iff.rfl

@[simp] theorem ends_storeFileSize {size : Nat} :
    Ends (storeFileSize size) post ⟨held, state⟩ ↔
      ¬ Blocked exclusive DlqLock.stats .write (⟨held, state⟩ : Thread _ (PersistentQueue τ)) ∧
        post () ⟨held, { state with fileSizeBytes := size }⟩ := by
  simp [storeFileSize]

theorem ends_rotateFile :
    Ends (rotateFile around) (fun _ next => next.held = []) ⟨[], state⟩ := by
  unfold rotateFile
  cases around.rename with
  | error e => simp
  | ok => cases around.create with
    | error e => simp
    | ok => simp

theorem ends_writeEntry (entry : DeadLetterEntry τ) :
    Ends (writeEntry around entry) (fun _ next => next.held = [(.file, .write)])
      ⟨[(.file, .write)], state⟩ := by
  unfold writeEntry
  cases file : state.file with
  | false => simp [file]
  | true => cases around.serialize entry with
    | error e => simp [file]
    | ok json => cases around.tryClone with
      | error e => simp [file]
      | ok => cases written : around.write json with
        | error e => simp [written]
        | ok => cases around.metadata with
          | none => simp [written]
          | some size => simp [file, written]

theorem ends_persistEntry (entry : DeadLetterEntry τ) :
    Ends (persistEntry around entry) (fun _ next => next.held = []) ⟨[], state⟩ := by
  unfold persistEntry
  rw [ends_bind, ends_guarded]
  refine ⟨not_blocked_nil, ends_mono (ends_writeEntry entry) fun written next holding => ?_⟩
  obtain ⟨held, after⟩ := next
  cases holding
  cases written with
  | error e => simp
  | ok rotates => cases rotates with
    | true => exact ends_rotateFile
    | false => simp

/-- The queue after some of its entries were purged. -/
def evicted (state : PersistentQueue τ) (left : List (DeadLetterEntry τ) × Nat) :
    PersistentQueue τ :=
  { state with dlq := { state.dlq with
    queue := left.1
    stats := { state.dlq.stats with totalPurged := left.2 } } }

@[simp] theorem ends_evict (fuel : Nat) :
    Ends (evict fuel) post ⟨[(.queue, .write)], state⟩ ↔
      ∃ left, DeadLetterQueue.evict state.dlq.maxMemoryEntries fuel state.dlq.queue
        state.dlq.stats.totalPurged = some left ∧
          post () ⟨[(.queue, .write)], state.evicted left⟩ := by
  induction fuel generalizing state with
  | zero => simp [evict, DeadLetterQueue.evict]
  | succ fuel ih =>
    simp only [evict, DeadLetterQueue.evict, ends_bind, ends_view, id_eq, ends_ite]
    by_cases full : state.dlq.maxMemoryEntries ≤ state.dlq.queue.length
    · simp only [if_pos full]
      cases parts : state.dlq.queue with
      | nil => simp [ih, parts]
      | cons first rest =>
        cases counted : u64 (state.dlq.stats.totalPurged + 1) with
        | none => simp [counted]
        | some purged => simp [counted, ih, evicted]
    · simp [full, evicted]

theorem ends_popForReplay {count : Nat}
    {after : List (DeadLetterEntry τ) → Thread DlqLock (PersistentQueue τ) → Prop} :
    Ends (popForReplay around count) after ⟨[], state⟩ ↔ around.allocates count = true ∧
      ∃ popped, state.dlq.popForReplay count = some popped ∧
        after popped.1 ⟨[], { state with dlq := popped.2 }⟩ := by
  cases allocates : around.allocates count with
  | false => simp [popForReplay, allocates]
  | true =>
    cases counted : u64 (state.dlq.stats.totalReplayed + min count state.dlq.queue.length) with
    | none => simp [popForReplay, DeadLetterQueue.popForReplay, allocates, counted]
    | some replayed => simp [popForReplay, DeadLetterQueue.popForReplay, allocates, counted]

theorem ends_clear {after : Nat → Thread DlqLock (PersistentQueue τ) → Prop} :
    Ends (clear around) after ⟨[], state⟩ ↔
      ¬(state.persistenceEnabled = true ∧ around.truncate.isSome = true) ∧
        ∃ cleared, state.dlq.clear = some cleared ∧
          after cleared.1 ⟨[], { state with dlq := cleared.2 }⟩ := by
  cases counted : u64 (state.dlq.stats.totalPurged + state.dlq.queue.length) with
  | none => simp [clear, DeadLetterQueue.clear, counted]
  | some purged =>
    cases persistent : state.persistenceEnabled with
    | false => simp [clear, DeadLetterQueue.clear, counted, persistent]
    | true => cases truncated : around.truncate with
      | none => simp [clear, DeadLetterQueue.clear, counted, persistent, truncated]
      | some size =>
        simp [clear, DeadLetterQueue.clear, counted, persistent, truncated, exclusive]

theorem ends_purgeStale {maxAgeNs : Nat} {readings : Nat → Nat}
    {after : Nat → Thread DlqLock (PersistentQueue τ) → Prop} :
    Ends (purgeStale maxAgeNs readings) after ⟨[], state⟩ ↔
      ∃ purged, state.dlq.purgeStale maxAgeNs readings = some purged ∧
        after purged.1 ⟨[], { state with dlq := purged.2 }⟩ := by
  cases kept : DeadLetterQueue.retain maxAgeNs readings state.dlq.queue with
  | none => simp [purgeStale, DeadLetterQueue.purgeStale, kept]
  | some queue =>
    by_cases some_ : queue.length < state.dlq.queue.length
    · cases counted : u64 (state.dlq.stats.totalPurged +
          (state.dlq.queue.length - queue.length)) with
      | none => simp [purgeStale, DeadLetterQueue.purgeStale, kept, some_, counted]
      | some total => simp [purgeStale, DeadLetterQueue.purgeStale, kept, some_, counted]
    · simp [purgeStale, DeadLetterQueue.purgeStale, kept, some_]

theorem ends_push {fuel nowNs : Nat} {entry : DeadLetterEntry τ}
    {after : Except String Unit → Thread DlqLock (PersistentQueue τ) → Prop} :
    Ends (push fuel around entry nowNs) after ⟨[], state⟩ ↔
      ∃ pushed, state.dlq.push fuel entry nowNs = some pushed ∧
        if state.persistenceEnabled = true ∧ state.dlq.isShutdown = false then
          Ends (persistEntry around
            { entry with sequence := state.dlq.entryCount, dlqTimestampNs := nowNs }) after
            ⟨[], { state with dlq := pushed.2 }⟩
        else after pushed.1 ⟨[], { state with dlq := pushed.2 }⟩ := by
  cases shut : state.dlq.isShutdown with
  | true => simp [push, DeadLetterQueue.push, shut]
  | false =>
    cases left : DeadLetterQueue.evict state.dlq.maxMemoryEntries fuel state.dlq.queue
      state.dlq.stats.totalPurged with
    | none => simp [push, DeadLetterQueue.push, shut, left]
    | some left_ =>
      cases counted : DeadLetterQueue.countReason state.dlq.stats.entriesByReason entry.reason with
      | none => simp [push, DeadLetterQueue.push, shut, left, counted, recordPush, evicted]
      | some counts => simp [push, DeadLetterQueue.push, shut, left, counted, recordPush, evicted]

end Ends

/-! ## What completes -/

/-- No entry is newer than the reading of the clock at which it is met. -/
def Dated : (Nat → Nat) → List (DeadLetterEntry τ) → Prop
  | _, [] => True
  | readings, entry :: rest =>
    entry.dlqTimestampNs ≤ readings 0 ∧ Dated (fun index => readings (index + 1)) rest

/-- The number of the entries that are too old at the reading at which they are met. -/
def staleCount (maxAgeNs : Nat) : (Nat → Nat) → List (DeadLetterEntry τ) → Nat
  | _, [] => 0
  | readings, entry :: rest =>
    staleCount maxAgeNs (fun index => readings (index + 1)) rest +
      if castU64 maxAgeNs < readings 0 - entry.dlqTimestampNs then 1 else 0

/-- A call completes, the loop of a push within some rounds. -/
def CallCompletes (around : Surroundings τ) (state : PersistentQueue τ) : DlqCall τ → Prop
  | .push entry nowNs => ∃ fuel, Completes (push fuel around entry nowNs) state
  | .popForReplay count => Completes (popForReplay around count) state
  | .purgeStale maxAgeNs readings _ => Completes (purgeStale maxAgeNs readings) state
  | .clear => Completes (clear around) state

/-- A push is refused or finds some room, the sums of a call fit, a replay finds memory, no entry is
newer than its reading, and no file is there to truncate. -/
def CallAllowed (around : Surroundings τ) (state : PersistentQueue τ) : DlqCall τ → Prop
  | .push entry _ => state.dlq.isShutdown = true ∨
      (0 < state.dlq.maxMemoryEntries ∧
        (state.dlq.maxMemoryEntries ≤ state.dlq.queue.length → state.dlq.stats.totalPurged +
          (state.dlq.queue.length + 1 - state.dlq.maxMemoryEntries) < u64Size)) ∧
      ∀ count ∈ state.dlq.stats.entriesByReason[entry.reason.index]?, count + 1 < u64Size
  | .popForReplay count => around.allocates count = true ∧
      state.dlq.stats.totalReplayed + min count state.dlq.queue.length < u64Size
  | .purgeStale maxAgeNs readings _ => Dated readings state.dlq.queue ∧
      (0 < staleCount maxAgeNs readings state.dlq.queue →
        state.dlq.stats.totalPurged + staleCount maxAgeNs readings state.dlq.queue < u64Size)
  | .clear => ¬(state.persistenceEnabled = true ∧ around.truncate.isSome = true) ∧
      state.dlq.stats.totalPurged + state.dlq.queue.length < u64Size

section Completes

variable {state : PersistentQueue τ} {around : Surroundings τ} {maxMemoryEntries totalPurged : Nat}
  {queue : List (DeadLetterEntry τ)}

theorem evict_full {first : DeadLetterEntry τ}
    (full : maxMemoryEntries ≤ (first :: queue).length) (fuel : Nat) :
    DeadLetterQueue.evict maxMemoryEntries (fuel + 1) (first :: queue) totalPurged =
      (u64 (totalPurged + 1)).bind fun purged =>
        DeadLetterQueue.evict maxMemoryEntries fuel queue purged := by
  rw [DeadLetterQueue.evict, if_pos full]
  rfl

theorem evict_done (room : queue.length < maxMemoryEntries) :
    (DeadLetterQueue.evict maxMemoryEntries 1 queue totalPurged).isSome = true := by
  unfold DeadLetterQueue.evict
  rw [if_neg (Nat.not_le.mpr room)]
  rfl

theorem evict_ends_iff :
    (∃ fuel, (DeadLetterQueue.evict maxMemoryEntries fuel queue totalPurged).isSome = true) ↔
      0 < maxMemoryEntries ∧ (maxMemoryEntries ≤ queue.length →
        totalPurged + (queue.length + 1 - maxMemoryEntries) < u64Size) := by
  rcases Nat.eq_zero_or_pos maxMemoryEntries with none_ | room
  · subst none_
    simp [DeadLetterQueue.evict_zero]
  · rw [and_iff_right room]
    induction queue generalizing totalPurged with
    | nil =>
      have vacuous : maxMemoryEntries ≤ ([] : List (DeadLetterEntry τ)).length →
          totalPurged + (([] : List (DeadLetterEntry τ)).length + 1 - maxMemoryEntries) < u64Size :=
        fun full => absurd full (Nat.not_le.mpr room)
      exact iff_of_true ⟨1, evict_done room⟩ vacuous
    | cons first rest ih =>
      by_cases full : maxMemoryEntries ≤ (first :: rest).length
      · have length : (first :: rest).length = rest.length + 1 := List.length_cons
        constructor
        · rintro ⟨fuel, ended⟩ -
          cases fuel with
          | zero => cases ended
          | succ fuel =>
            rw [evict_full full] at ended
            cases counted : u64 (totalPurged + 1) with
            | none => simp [counted] at ended
            | some purged =>
              obtain ⟨one, rfl⟩ := u64_eq_some.mp counted
              rw [counted] at ended
              have later := (@ih (totalPurged + 1)).mp ⟨fuel, ended⟩
              omega
        · intro fits
          have sum := fits full
          have one : u64 (totalPurged + 1) = some (totalPurged + 1) :=
            u64_eq_some.mpr ⟨by omega, rfl⟩
          obtain ⟨fuel, ended⟩ := (@ih (totalPurged + 1)).mpr fun _ => by omega
          refine ⟨fuel + 1, ?_⟩
          rw [evict_full full, one]
          exact ended
      · exact iff_of_true ⟨1, evict_done (Nat.lt_of_not_le full)⟩ fun full_ => absurd full_ full

theorem countReason_isSome {counts : List Nat} {reason : FailureReason} :
    (DeadLetterQueue.countReason counts reason).isSome = true ↔
      ∀ count ∈ counts[reason.index]?, count + 1 < u64Size := by
  unfold DeadLetterQueue.countReason
  cases counts[reason.index]? with
  | none => simp
  | some count => simp [u64_isSome]

theorem retain_of_dated {maxAgeNs : Nat} {readings : Nat → Nat} (dated : Dated readings queue) :
    ∃ kept, DeadLetterQueue.retain maxAgeNs readings queue = some kept ∧
      kept.length + staleCount maxAgeNs readings queue = queue.length := by
  induction queue generalizing readings with
  | nil => exact ⟨[], rfl, rfl⟩
  | cons entry rest ih =>
    obtain ⟨kept, retained, length⟩ := ih dated.2
    have age : uSub (readings 0) entry.dlqTimestampNs =
        some (readings 0 - entry.dlqTimestampNs) := uSub_eq_some.mpr ⟨dated.1, rfl⟩
    simp only [DeadLetterQueue.retain, DeadLetterEntry.isStale, age, retained, staleCount,
      Option.map_some, Option.bind_eq_bind, Option.bind_some, Option.pure_def, List.length_cons]
    by_cases stale : castU64 maxAgeNs < readings 0 - entry.dlqTimestampNs
    · exact ⟨kept, by simp [stale], by rw [if_pos stale]; omega⟩
    · exact ⟨entry :: kept, by simp [stale], by rw [if_neg stale, List.length_cons]; omega⟩

theorem retain_of_not_dated {maxAgeNs : Nat} {readings : Nat → Nat}
    (newer : ¬Dated readings queue) : DeadLetterQueue.retain maxAgeNs readings queue = none := by
  induction queue generalizing readings with
  | nil => exact absurd trivial newer
  | cons entry rest ih =>
    by_cases first : entry.dlqTimestampNs ≤ readings 0
    · have later := ih fun dated => newer ⟨first, dated⟩
      simp [DeadLetterQueue.retain, later]
    · simp [DeadLetterQueue.retain, DeadLetterEntry.isStale, uSub, first]

variable {dlq : DeadLetterQueue τ}

theorem popForReplay_isSome {count : Nat} : (dlq.popForReplay count).isSome = true ↔
      dlq.stats.totalReplayed + min count dlq.queue.length < u64Size := by
  rw [← u64_isSome]
  cases counted : u64 (dlq.stats.totalReplayed + min count dlq.queue.length) with
  | none => simp [DeadLetterQueue.popForReplay, counted]
  | some replayed => simp [DeadLetterQueue.popForReplay, counted]

theorem clear_isSome :
    dlq.clear.isSome = true ↔ dlq.stats.totalPurged + dlq.queue.length < u64Size := by
  rw [← u64_isSome]
  cases counted : u64 (dlq.stats.totalPurged + dlq.queue.length) with
  | none => simp [DeadLetterQueue.clear, counted]
  | some purged => simp [DeadLetterQueue.clear, counted]

theorem purgeStale_isSome {maxAgeNs : Nat} {readings : Nat → Nat} :
    (dlq.purgeStale maxAgeNs readings).isSome = true ↔ Dated readings dlq.queue ∧
      (0 < staleCount maxAgeNs readings dlq.queue →
        dlq.stats.totalPurged + staleCount maxAgeNs readings dlq.queue < u64Size) := by
  by_cases dated : Dated readings dlq.queue
  · obtain ⟨kept, retained, length⟩ := @retain_of_dated _ _ maxAgeNs readings dated
    have purged : dlq.queue.length - kept.length = staleCount maxAgeNs readings dlq.queue := by
      omega
    simp only [DeadLetterQueue.purgeStale, retained, purged, Option.bind_eq_bind,
      Option.bind_some, and_iff_right dated]
    by_cases some_ : 0 < staleCount maxAgeNs readings dlq.queue
    · rw [if_pos some_, ← u64_isSome]
      cases u64 (dlq.stats.totalPurged + staleCount maxAgeNs readings dlq.queue) with
      | none => simp [some_]
      | some total => simp
    · simp [some_]
  · simp [DeadLetterQueue.purgeStale, retain_of_not_dated dated, dated]

theorem push_isSome {entry : DeadLetterEntry τ} {nowNs : Nat} :
    (∃ fuel, (dlq.push fuel entry nowNs).isSome = true) ↔ dlq.isShutdown = true ∨
      (∃ fuel, (DeadLetterQueue.evict dlq.maxMemoryEntries fuel dlq.queue
        dlq.stats.totalPurged).isSome = true) ∧
      (DeadLetterQueue.countReason dlq.stats.entriesByReason entry.reason).isSome = true := by
  cases shut : dlq.isShutdown with
  | true => simp [DeadLetterQueue.push, shut]
  | false =>
    rw [← exists_and_right]
    simp only [Bool.false_eq_true, false_or]
    refine exists_congr fun fuel => ?_
    cases left : DeadLetterQueue.evict dlq.maxMemoryEntries fuel dlq.queue
      dlq.stats.totalPurged with
    | none => simp [DeadLetterQueue.push, shut, left]
    | some left_ =>
      cases counted : DeadLetterQueue.countReason dlq.stats.entriesByReason entry.reason with
      | none => simp [DeadLetterQueue.push, shut, left, counted]
      | some counts => simp [DeadLetterQueue.push, shut, left, counted]

theorem completes_push {fuel nowNs : Nat} {entry : DeadLetterEntry τ} :
    Completes (push fuel around entry nowNs) state ↔
      (state.dlq.push fuel entry nowNs).isSome = true := by
  rw [Completes, ends_push, Option.isSome_iff_exists]
  refine exists_congr fun pushed => and_iff_left_of_imp fun _ => ?_
  split
  · exact ends_persistEntry _
  · rfl

theorem callCompletes_iff (call : DlqCall τ) :
    CallCompletes around state call ↔ CallAllowed around state call := by
  cases call with
  | push entry nowNs =>
    simp only [CallCompletes, CallAllowed, completes_push]
    rw [push_isSome, evict_ends_iff, countReason_isSome]
  | popForReplay count =>
    simp only [CallCompletes, CallAllowed, Completes, ends_popForReplay, and_true]
    rw [← popForReplay_isSome, Option.isSome_iff_exists]
  | purgeStale maxAgeNs readings lastNs =>
    simp only [CallCompletes, CallAllowed, Completes, ends_purgeStale, and_true]
    rw [← purgeStale_isSome, Option.isSome_iff_exists]
  | clear =>
    simp only [CallCompletes, CallAllowed, Completes, ends_clear, and_true]
    rw [← clear_isSome, @Option.isSome_iff_exists _ state.dlq.clear]

end Completes

end PersistentQueue

end TradingBot.Events
