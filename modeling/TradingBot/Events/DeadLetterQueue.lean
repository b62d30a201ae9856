import TradingBot.Foundation.MachineInt

/-!
# The dead letter queue

`dead_letter_queue.rs` without its file: persistence is not enabled. Every reading of the clock is
an argument. A sum that leaves its type and a loop that does not end are none.
-/

open MachineInt

namespace TradingBot.Events

/-- `MAX_DLQ_SIZE`: the maximum number of messages. -/
def maxDlqSize : Nat := 100000

/-- `FailureReason`. -/
inductive FailureReason where
  | expired
  | queueFull
  | processingError
  | invalidFormat
  | timeout
  | subscriberUnavailable
  | serializationError
  | deserializationError
  | circuitBreakerOpen
  | rateLimitExceeded

/-- The discriminant of a reason. -/
def FailureReason.index : FailureReason → Nat
  | .expired => 0
  | .queueFull => 1
  | .processingError => 2
  | .invalidFormat => 3
  | .timeout => 4
  | .subscriberUnavailable => 5
  | .serializationError => 6
  | .deserializationError => 7
  | .circuitBreakerOpen => 8
  | .rateLimitExceeded => 9

/-- `DeadLetterEntry`. -/
structure DeadLetterEntry (τ : Type) where
  payload : τ
  reason : FailureReason
  errorMessage : String
  originalTimestampNs : Nat
  dlqTimestampNs : Nat
  sourceId : Nat
  sequence : Nat
  retryCount : Nat

/-- `DLQStats`, without what is told of the file. -/
structure DLQStats where
  totalEntries : Nat
  /-- The number of entries of each reason, at its discriminant. -/
  entriesByReason : List Nat
  oldestEntryTs : Nat
  newestEntryTs : Nat
  totalReplayed : Nat
  totalPurged : Nat
  lastWriteTs : Nat

def DLQStats.default : DLQStats where
  totalEntries := 0
  entriesByReason := List.replicate 10 0
  oldestEntryTs := 0
  newestEntryTs := 0
  totalReplayed := 0
  totalPurged := 0
  lastWriteTs := 0

/-- `DeadLetterQueue`. -/
structure DeadLetterQueue (τ : Type) where
  queue : List (DeadLetterEntry τ)
  stats : DLQStats
  isShutdown : Bool
  entryCount : Nat
  maxMemoryEntries : Nat

variable {τ : Type}

/-- `is_stale`, at a reading of the clock. -/
def DeadLetterEntry.isStale (entry : DeadLetterEntry τ) (maxAgeNs nowNs : Nat) : Option Bool :=
  (uSub nowNs entry.dlqTimestampNs).map fun age => castU64 maxAgeNs < age

namespace DeadLetterQueue

/-- `new`, with persistence disabled. -/
def new (maxMemoryEntries : Nat) : DeadLetterQueue τ where
  queue := []
  stats := .default
  isShutdown := false
  entryCount := 0
  maxMemoryEntries := min maxMemoryEntries maxDlqSize

/-- The loop of `push` that purges the oldest entries, for a number of rounds: the queue and the
total of purged entries after it. -/
def evict (maxMemoryEntries : Nat) :
    Nat → List (DeadLetterEntry τ) → Nat → Option (List (DeadLetterEntry τ) × Nat)
  | 0, _, _ => none
  | fuel + 1, queue, totalPurged =>
    if maxMemoryEntries ≤ queue.length then
      match queue with
      | [] => evict maxMemoryEntries fuel [] totalPurged
      | _ :: rest => do
        let purged ← u64 (totalPurged + 1)
        evict maxMemoryEntries fuel rest purged
    else some (queue, totalPurged)

/-- The counts of entries by reason after one more. -/
def countReason (entriesByReason : List Nat) (reason : FailureReason) : Option (List Nat) :=
  match entriesByReason[reason.index]? with
  | none => some entriesByReason
  | some count => (u64 (count + 1)).map fun count => entriesByReason.set reason.index count

/-- `push`, with its loop for a number of rounds. -/
def push (fuel : Nat) (dlq : DeadLetterQueue τ) (entry : DeadLetterEntry τ) (nowNs : Nat) :
    Option (Except String Unit × DeadLetterQueue τ) :=
  if dlq.isShutdown then some (.error "DLQ is shut down", dlq)
  else do
    let evicted ← evict dlq.maxMemoryEntries fuel dlq.queue dlq.stats.totalPurged
    let queue := evicted.1 ++ [{ entry with sequence := dlq.entryCount, dlqTimestampNs := nowNs }]
    let entriesByReason ← countReason dlq.stats.entriesByReason entry.reason
    let oldestEntryTs := dlq.stats.oldestEntryTs
    return (.ok (), { dlq with
      queue
      entryCount := castU64 (dlq.entryCount + 1)
      stats := { dlq.stats with
        totalEntries := queue.length
        entriesByReason
        oldestEntryTs := if oldestEntryTs = 0 ∨ nowNs < oldestEntryTs then nowNs else oldestEntryTs
        newestEntryTs := max dlq.stats.newestEntryTs nowNs
        totalPurged := evicted.2
        lastWriteTs := nowNs } })

/-- `pop_for_replay`, where there is memory for `count` entries: the entries, and the queue after
they are removed. -/
def popForReplay (dlq : DeadLetterQueue τ) (count : Nat) :
    Option (List (DeadLetterEntry τ) × DeadLetterQueue τ) := do
  let result := dlq.queue.take count
  let queue := dlq.queue.drop count
  let totalReplayed ← u64 (dlq.stats.totalReplayed + result.length)
  return (result, { dlq with
    queue
    stats := { dlq.stats with totalEntries := queue.length, totalReplayed } })

/-- `clear`: the number of entries, and the queue without them. -/
def clear (dlq : DeadLetterQueue τ) : Option (Nat × DeadLetterQueue τ) := do
  let totalPurged ← u64 (dlq.stats.totalPurged + dlq.queue.length)
  return (dlq.queue.length, { dlq with
    queue := []
    stats := { dlq.stats with
      totalEntries := 0
      totalPurged
      oldestEntryTs := 0
      newestEntryTs := 0 } })

/-- The entries that are not stale, each at a reading of the clock of its own. -/
def retain (maxAgeNs : Nat) :
    (Nat → Nat) → List (DeadLetterEntry τ) → Option (List (DeadLetterEntry τ))
  | _, [] => some []
  | readings, entry :: rest => do
    let stale ← entry.isStale maxAgeNs (readings 0)
    let kept ← retain maxAgeNs (fun index => readings (index + 1)) rest
    return if stale then kept else entry :: kept

/-- `purge_stale`: the number of stale entries, and the queue without them. -/
def purgeStale (dlq : DeadLetterQueue τ) (maxAgeNs : Nat) (readings : Nat → Nat) :
    Option (Nat × DeadLetterQueue τ) := do
  let queue ← retain maxAgeNs readings dlq.queue
  let purged := dlq.queue.length - queue.length
  if 0 < purged then
    let totalPurged ← u64 (dlq.stats.totalPurged + purged)
    return (purged, { dlq with
      queue
      stats := { dlq.stats with
        totalEntries := queue.length
        totalPurged
        oldestEntryTs :=
          (queue.head?.map fun front => front.dlqTimestampNs).getD dlq.stats.oldestEntryTs } })
  else return (purged, { dlq with queue })

/-! ## The loop of a push -/

section Evict

variable {maxMemoryEntries fuel totalPurged : Nat} {queue : List (DeadLetterEntry τ)}

/-- With no room and no letter the eviction never ends. -/
theorem evict_zero (fuel totalPurged : Nat) (queue : List (DeadLetterEntry τ)) :
    evict 0 fuel queue totalPurged = none := by
  induction fuel generalizing queue totalPurged with
  | zero => rfl
  | succ fuel ih =>
    unfold evict
    rw [if_pos (Nat.zero_le _)]
    cases queue with
    | nil => exact ih totalPurged []
    | cons first rest =>
      refine Option.bind_eq_none_iff.mpr fun purged _ => ?_
      exact ih purged rest

theorem evict_room (room : 0 < maxMemoryEntries) (rounds : queue.length < fuel)
    (small : totalPurged + queue.length < u64Size) :
    evict maxMemoryEntries fuel queue totalPurged =
      some (queue.drop (queue.length + 1 - maxMemoryEntries),
        totalPurged + (queue.length + 1 - maxMemoryEntries)) := by
  induction fuel generalizing queue totalPurged with
  | zero => omega
  | succ fuel ih =>
    unfold evict
    by_cases full : maxMemoryEntries ≤ queue.length
    · rw [if_pos full]
      cases queue with
      | nil =>
        rw [List.length_nil] at full
        omega
      | cons first rest =>
        rw [List.length_cons] at rounds small full ⊢
        have counted : u64 (totalPurged + 1) = some (totalPurged + 1) :=
          u64_eq_some.mpr ⟨by omega, rfl⟩
        have later := @ih (totalPurged + 1) rest (by omega) (by omega)
        simp only [counted, Option.bind_eq_bind, Option.bind_some]
        have behind : rest.length + 1 + 1 - maxMemoryEntries =
            rest.length + 1 - maxMemoryEntries + 1 := by omega
        rw [later, behind, List.drop_succ_cons]
        congr 2
        omega
    · rw [if_neg full]
      have none_ : queue.length + 1 - maxMemoryEntries = 0 := by omega
      rw [none_]
      rfl

theorem evict_enough {result : List (DeadLetterEntry τ) × Nat}
    (ended : evict maxMemoryEntries fuel queue totalPurged = some result) :
    evict maxMemoryEntries (queue.length + 1) queue totalPurged = some result := by
  induction fuel generalizing queue totalPurged with
  | zero => cases ended
  | succ fuel ih =>
    unfold evict at ended ⊢
    by_cases full : maxMemoryEntries ≤ queue.length
    · rw [if_pos full] at ended ⊢
      cases queue with
      | nil =>
        have none_ : maxMemoryEntries = 0 := Nat.le_zero.mp full
        simp only [none_, evict_zero, reduceCtorEq] at ended
      | cons first rest =>
        obtain ⟨purged, counted, later⟩ := Option.bind_eq_some_iff.mp ended
        exact Option.bind_eq_some_iff.mpr ⟨purged, counted, ih later⟩
    · rw [if_neg full] at ended ⊢
      exact ended

end Evict

theorem push_enough {fuel nowNs : Nat} {dlq : DeadLetterQueue τ} {entry : DeadLetterEntry τ}
    {result : Except String Unit × DeadLetterQueue τ}
    (returned : dlq.push fuel entry nowNs = some result) :
    dlq.push (dlq.queue.length + 1) entry nowNs = some result := by
  unfold push at returned ⊢
  by_cases shut : dlq.isShutdown = true
  · rw [if_pos shut] at returned ⊢
    exact returned
  · rw [if_neg shut] at returned ⊢
    obtain ⟨evicted, ended, later⟩ := Option.bind_eq_some_iff.mp returned
    exact Option.bind_eq_some_iff.mpr ⟨evicted, evict_enough ended, later⟩

end DeadLetterQueue

end TradingBot.Events
