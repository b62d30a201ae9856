import TradingBot.Foundation.Run
import TradingBot.Events.DeadLetterQueue

/-!
# The accounts of the dead letter queue

The numbers of entries that were pushed, purged, replayed and are left agree along every run. The
time of the oldest entry does not: an eviction and a replay remove the oldest entry and leave its
time, and a time of zero counts as none. And without any room no push returns.
-/

open MachineInt Run

namespace TradingBot.Events

variable {τ : Type}

/-- A queue, the number of pushes it accepted, and the last reading of the clock. -/
structure DlqSession (τ : Type) where
  dlq : DeadLetterQueue τ
  accepted : Nat
  clockNs : Nat

/-- A call on the queue, with its readings of the clock. -/
inductive DlqCall (τ : Type) where
  | push (entry : DeadLetterEntry τ) (nowNs : Nat)
  | popForReplay (count : Nat)
  | purgeStale (maxAgeNs : Nat) (readings : Nat → Nat) (lastNs : Nat)
  | clear

namespace DlqSession

open DeadLetterQueue

/-- A new queue, at a reading of the clock. -/
def new (maxMemoryEntries clockNs : Nat) : DlqSession τ where
  dlq := .new maxMemoryEntries
  accepted := 0
  clockNs := clockNs

/-- The session after a call. A push has the rounds that suffice to every push that returns. -/
def step (session : DlqSession τ) : DlqCall τ → Option (DlqSession τ)
  | .push entry nowNs =>
    (session.dlq.push (session.dlq.queue.length + 1) entry nowNs).map fun result =>
      { dlq := result.2
        accepted := session.accepted + if result.1.isOk then 1 else 0
        clockNs := nowNs }
  | .popForReplay count =>
    (session.dlq.popForReplay count).map fun result => { session with dlq := result.2 }
  | .purgeStale maxAgeNs readings lastNs =>
    (session.dlq.purgeStale maxAgeNs readings).map fun result =>
      { session with dlq := result.2, clockNs := lastNs }
  | .clear => session.dlq.clear.map fun result => { session with dlq := result.2 }

/-- The readings of the clock do not decrease from one on. -/
def Clocked : Nat → List (DlqCall τ) → Prop
  | _, [] => True
  | clockNs, .push _ nowNs :: rest => clockNs ≤ nowNs ∧ Clocked nowNs rest
  | clockNs, .purgeStale _ readings lastNs :: rest =>
    (Monotone readings ∧ ∀ index, clockNs ≤ readings index ∧ readings index ≤ lastNs) ∧
      Clocked lastNs rest
  | clockNs, .popForReplay _ :: rest | clockNs, .clear :: rest => Clocked clockNs rest

/-- The number of pushes in some calls. -/
def pushes : List (DlqCall τ) → Nat
  | [] => 0
  | .push .. :: rest => pushes rest + 1
  | .popForReplay _ :: rest | .purgeStale .. :: rest | .clear :: rest => pushes rest

/-- The accounts of a queue are right. -/
structure Accounted (session : DlqSession τ) : Prop where
  balance : session.accepted = session.dlq.queue.length + session.dlq.stats.totalPurged +
    session.dlq.stats.totalReplayed
  entries : session.dlq.stats.totalEntries = session.dlq.queue.length
  increasing : (session.dlq.queue.map DeadLetterEntry.sequence).Pairwise (· < ·)
  oldest : ∀ front ∈ session.dlq.queue.head?,
    session.dlq.stats.oldestEntryTs = front.dlqTimestampNs

/-- The entries that a push does not evict. -/
def spared (dlq : DeadLetterQueue τ) : List (DeadLetterEntry τ) :=
  dlq.queue.drop (dlq.queue.length + 1 - dlq.maxMemoryEntries)

/-- A push finds room, is not the last of all sequence numbers, and the first entry it spares, or
the new one, is of the time that is kept as the oldest, if there is one, and of its own time
otherwise; and a replay leaves an entry of the oldest time in front. -/
def Keeps (session : DlqSession τ) : DlqCall τ → Prop
  | .push _ nowNs =>
    0 < session.dlq.maxMemoryEntries ∧ session.accepted + 1 < u64Size ∧
      ((spared session.dlq).head?.map DeadLetterEntry.dlqTimestampNs).getD nowNs =
        if session.dlq.stats.oldestEntryTs = 0 then nowNs else session.dlq.stats.oldestEntryTs
  | .popForReplay count =>
    ∀ front ∈ (session.dlq.queue.drop count).head?,
      session.dlq.stats.oldestEntryTs = front.dlqTimestampNs
  | .purgeStale .. | .clear => True

instance (session : DlqSession τ) : DecidablePred (Keeps session)
  | .push .. => inferInstanceAs (Decidable (_ ∧ _ ∧ _))
  | .popForReplay count => inferInstanceAs (Decidable (∀ front ∈
      (session.dlq.queue.drop count).head?,
        session.dlq.stats.oldestEntryTs = front.dlqTimestampNs))
  | .purgeStale .. | .clear => .isTrue trivial

/-- The time that is kept as the oldest is that of the front entry. -/
def Front (session : DlqSession τ) : Prop :=
  ∀ front ∈ session.dlq.queue.head?, session.dlq.stats.oldestEntryTs = front.dlqTimestampNs

/-- The accounts apart from the oldest time: no entry is newer than the clock or has a later number,
and no count is above that of the pushes. -/
structure Sound (session : DlqSession τ) : Prop where
  balance : session.accepted = session.dlq.queue.length + session.dlq.stats.totalPurged +
    session.dlq.stats.totalReplayed
  entries : session.dlq.stats.totalEntries = session.dlq.queue.length
  increasing : (session.dlq.queue.map DeadLetterEntry.sequence).Pairwise (· < ·)
  numbered : ∀ entry ∈ session.dlq.queue, entry.sequence < session.accepted
  past : ∀ entry ∈ session.dlq.queue, entry.dlqTimestampNs ≤ session.clockNs
  oldestPast : session.dlq.stats.oldestEntryTs ≤ session.clockNs
  reasons : ∀ count ∈ session.dlq.stats.entriesByReason, count ≤ session.accepted
  counted : session.dlq.entryCount = session.accepted
  small : session.accepted < u64Size
  running : session.dlq.isShutdown = false

section Calls

variable {session next : DlqSession τ}

theorem accounted_iff (sound : Sound session) : Accounted session ↔ Front session :=
  ⟨fun accounted => accounted.oldest,
    fun front => ⟨sound.balance, sound.entries, sound.increasing, front⟩⟩

theorem sound_new (maxMemoryEntries clockNs : Nat) :
    Sound (new maxMemoryEntries clockNs : DlqSession τ) where
  balance := rfl
  entries := rfl
  increasing := List.Pairwise.nil
  numbered := nofun
  past := nofun
  oldestPast := Nat.zero_le _
  reasons := by
    show ∀ count ∈ List.replicate 10 0, count ≤ 0
    decide
  counted := rfl
  small := by
    show 0 < u64Size
    decide
  running := rfl

theorem countReason_total {counts : List Nat} {accepted : Nat}
    (below : ∀ count ∈ counts, count ≤ accepted) (small : accepted + 1 < u64Size)
    (reason : FailureReason) :
    ∃ next, countReason counts reason = some next ∧ ∀ count ∈ next, count ≤ accepted + 1 := by
  unfold countReason
  cases found : counts[reason.index]? with
  | none => exact ⟨counts, rfl, fun count member => Nat.le_succ_of_le (below count member)⟩
  | some count =>
    have bounded := below count (List.mem_of_getElem? found)
    have counted : u64 (count + 1) = some (count + 1) := u64_eq_some.mpr ⟨by omega, rfl⟩
    simp only [counted, Option.map_some]
    refine ⟨_, rfl, fun other member => ?_⟩
    rcases List.mem_or_eq_of_mem_set member with old | new
    · exact Nat.le_succ_of_le (below other old)
    · omega

/-- A session after a push that found room, with its counts by reason. -/
def pushed (session : DlqSession τ) (entry : DeadLetterEntry τ) (nowNs : Nat)
    (entriesByReason : List Nat) : DlqSession τ where
  dlq := { session.dlq with
    queue := spared session.dlq ++
      [{ entry with sequence := session.accepted, dlqTimestampNs := nowNs }]
    entryCount := session.accepted + 1
    stats := { session.dlq.stats with
      totalEntries := (spared session.dlq).length + 1
      entriesByReason
      oldestEntryTs := if session.dlq.stats.oldestEntryTs = 0 then nowNs
        else session.dlq.stats.oldestEntryTs
      newestEntryTs := max session.dlq.stats.newestEntryTs nowNs
      totalPurged := session.dlq.stats.totalPurged +
        (session.dlq.queue.length + 1 - session.dlq.maxMemoryEntries)
      lastWriteTs := nowNs } }
  accepted := session.accepted + 1
  clockNs := nowNs

section Push

variable (sound : Sound session) (entry : DeadLetterEntry τ) {nowNs : Nat}
  (later : session.clockNs ≤ nowNs) (room : 0 < session.dlq.maxMemoryEntries)
  (small : session.accepted + 1 < u64Size)

include sound later room small

/-- A push keeps no reason counted above the accepted letters. -/
theorem step_push :
    ∃ entriesByReason, step session (.push entry nowNs) =
        some (pushed session entry nowNs entriesByReason) ∧
      ∀ count ∈ entriesByReason, count ≤ session.accepted + 1 := by
  have balance := sound.balance
  have evicted := @evict_room τ session.dlq.maxMemoryEntries (session.dlq.queue.length + 1)
    session.dlq.stats.totalPurged session.dlq.queue room (Nat.lt_succ_self _) (by omega)
  obtain ⟨reasons, counted, below⟩ := countReason_total sound.reasons small entry.reason
  have oldestPast := sound.oldestPast
  have newer : ¬nowNs < session.dlq.stats.oldestEntryTs := by omega
  have nextCount : castU64 (session.accepted + 1) = session.accepted + 1 :=
    castU64_of_fits small
  refine ⟨reasons, ?_, below⟩
  unfold step DeadLetterQueue.push
  simp only [sound.counted, evicted, counted, nextCount, newer, or_false, Option.bind_eq_bind,
    Option.bind_some, List.length_append, List.length_singleton]
  rw [if_neg (ne_true_of_eq_false sound.running)]
  rfl

theorem sound_pushed {entriesByReason : List Nat}
    (below : ∀ count ∈ entriesByReason, count ≤ session.accepted + 1) :
    Sound (pushed session entry nowNs entriesByReason) := by
  have balance := sound.balance
  have oldestPast := sound.oldestPast
  have kept {entry : DeadLetterEntry τ} (member : entry ∈ spared session.dlq) :
      entry ∈ session.dlq.queue := List.mem_of_mem_drop member
  have length : (spared session.dlq).length =
      session.dlq.queue.length - (session.dlq.queue.length + 1 - session.dlq.maxMemoryEntries) :=
    List.length_drop
  refine {
    balance := ?_, entries := ?_, increasing := ?_, numbered := ?_, past := ?_, oldestPast := ?_
    reasons := below, counted := rfl, small := small, running := sound.running }
  · show session.accepted + 1 = (spared session.dlq ++ [_]).length +
      (session.dlq.stats.totalPurged + _) + session.dlq.stats.totalReplayed
    rw [List.length_append, List.length_singleton]
    omega
  · show (spared session.dlq).length + 1 = (spared session.dlq ++ [_]).length
    rw [List.length_append, List.length_singleton]
  · show ((spared session.dlq ++ [_]).map DeadLetterEntry.sequence).Pairwise (· < ·)
    rw [List.map_append, List.pairwise_append]
    refine ⟨?_, List.pairwise_singleton _ _, fun first member second last => ?_⟩
    · unfold spared
      rw [List.map_drop]
      exact sound.increasing.drop
    · obtain ⟨entry, there, rfl⟩ := List.mem_map.mp member
      rw [List.mem_singleton.mp last]
      exact sound.numbered entry (kept there)
  · intro other member
    rcases List.mem_append.mp member with old | new
    · exact (sound.numbered other (kept old)).trans (Nat.lt_succ_self _)
    · rw [List.mem_singleton.mp new]
      exact Nat.lt_succ_self _
  · intro other member
    rcases List.mem_append.mp member with old | new
    · exact (sound.past other (kept old)).trans later
    · rw [List.mem_singleton.mp new]
      exact Nat.le_refl nowNs
  · show (if session.dlq.stats.oldestEntryTs = 0 then nowNs
      else session.dlq.stats.oldestEntryTs) ≤ nowNs
    split <;> omega

end Push

theorem front_pushed (entry : DeadLetterEntry τ) (nowNs : Nat) (entriesByReason : List Nat) :
    Front (pushed session entry nowNs entriesByReason) ↔
      ((spared session.dlq).head?.map DeadLetterEntry.dlqTimestampNs).getD nowNs =
        if session.dlq.stats.oldestEntryTs = 0 then nowNs
        else session.dlq.stats.oldestEntryTs := by
  have front : (pushed session entry nowNs entriesByReason).dlq.queue =
      spared session.dlq ++
        [{ entry with sequence := session.accepted, dlqTimestampNs := nowNs }] := rfl
  unfold Front
  rw [front]
  cases spared session.dlq with
  | nil =>
    constructor
    · exact fun right => (right _ rfl).symm
    · intro right front same
      cases same
      exact right.symm
  | cons first rest =>
    constructor
    · exact fun right => (right _ rfl).symm
    · intro right front same
      cases same
      exact right.symm

/-- What a call that returns leaves for the calls after it. -/
structure Returns (session : DlqSession τ) (call : DlqCall τ) (rest : List (DlqCall τ))
    (next : DlqSession τ) : Prop where
  taken : step session call = some next
  sound : Sound next
  clocked : Clocked next.clockNs rest
  accepted : next.accepted + pushes rest = session.accepted + pushes (call :: rest)
  front : Front next ↔ Keeps session call

theorem Sound.removed (sound : Sound session) {queue : List (DeadLetterEntry τ)} {stats : DLQStats}
    {clockNs : Nat} (left : queue.Sublist session.dlq.queue) (later : session.clockNs ≤ clockNs)
    (balance : session.accepted = queue.length + stats.totalPurged + stats.totalReplayed)
    (entries : stats.totalEntries = queue.length) (oldestPast : stats.oldestEntryTs ≤ clockNs)
    (reasons : stats.entriesByReason = session.dlq.stats.entriesByReason) :
    Sound { session with dlq := { session.dlq with queue, stats }, clockNs } where
  balance := balance
  entries := entries
  increasing := sound.increasing.sublist (left.map DeadLetterEntry.sequence)
  numbered := fun entry member => sound.numbered entry (left.subset member)
  past := fun entry member => (sound.past entry (left.subset member)).trans later
  oldestPast := oldestPast
  reasons := by
    rw [reasons]
    exact sound.reasons
  counted := sound.counted
  small := sound.small
  running := sound.running

section Returns

variable (sound : Sound session) {rest : List (DlqCall τ)}

include sound

theorem push_returns {entry : DeadLetterEntry τ} {nowNs : Nat}
    (clocked : Clocked session.clockNs (.push entry nowNs :: rest))
    (room : 0 < session.dlq.maxMemoryEntries) (small : session.accepted + 1 < u64Size) :
    ∃ next, Returns session (.push entry nowNs) rest next := by
  obtain ⟨reasons, taken, below⟩ := step_push sound entry clocked.1 room small
  have front := @front_pushed τ session entry nowNs reasons
  refine ⟨_, taken, sound_pushed sound entry clocked.1 room small below, clocked.2, ?_, ?_⟩
  · show session.accepted + 1 + pushes rest = session.accepted + (pushes rest + 1)
    omega
  · exact front.trans ⟨fun right => ⟨room, small, right⟩, fun keeps => keeps.2.2⟩

theorem pop_returns {count : Nat}
    (clocked : Clocked session.clockNs (.popForReplay count :: rest)) :
    ∃ next, Returns session (.popForReplay count) rest next := by
  have balance := sound.balance
  have small := sound.small
  have parts : (session.dlq.queue.take count).length + (session.dlq.queue.drop count).length =
      session.dlq.queue.length := by
    rw [List.length_take, List.length_drop]
    omega
  have replayed : u64 (session.dlq.stats.totalReplayed + (session.dlq.queue.take count).length) =
      some (session.dlq.stats.totalReplayed + (session.dlq.queue.take count).length) :=
    u64_eq_some.mpr ⟨by omega, rfl⟩
  have kept := @Sound.removed τ session sound (session.dlq.queue.drop count)
    { session.dlq.stats with
      totalEntries := (session.dlq.queue.drop count).length
      totalReplayed := session.dlq.stats.totalReplayed + (session.dlq.queue.take count).length }
    session.clockNs (List.drop_sublist count _) (Nat.le_refl _) (by simp only; omega) rfl
    sound.oldestPast rfl
  refine ⟨_, ?_, kept, clocked, rfl, Iff.rfl⟩
  unfold step DeadLetterQueue.popForReplay
  simp only [replayed, Option.bind_eq_bind, Option.bind_some]
  rfl

theorem clear_returns (clocked : Clocked session.clockNs (.clear :: rest)) :
    ∃ next, Returns session .clear rest next := by
  have balance := sound.balance
  have small := sound.small
  have purged : u64 (session.dlq.stats.totalPurged + session.dlq.queue.length) =
      some (session.dlq.stats.totalPurged + session.dlq.queue.length) :=
    u64_eq_some.mpr ⟨by omega, rfl⟩
  have kept := @Sound.removed τ session sound []
    { session.dlq.stats with
      totalEntries := 0
      totalPurged := session.dlq.stats.totalPurged + session.dlq.queue.length
      oldestEntryTs := 0
      newestEntryTs := 0 }
    session.clockNs (List.nil_sublist _) (Nat.le_refl _) (by simp only [List.length_nil]; omega) rfl
    (Nat.zero_le _) rfl
  refine ⟨_, ?_, kept, clocked, rfl, fun _ => trivial, fun _ front same => ?_⟩
  · unfold step DeadLetterQueue.clear
    simp only [purged, Option.bind_eq_bind, Option.bind_some]
    rfl
  · cases same

omit sound in
theorem retain_total (maxAgeNs : Nat) {queue : List (DeadLetterEntry τ)} {readings : Nat → Nat}
    (past : ∀ entry ∈ queue, ∀ index, entry.dlqTimestampNs ≤ readings index) :
    ∃ kept, retain maxAgeNs readings queue = some kept ∧ kept.Sublist queue := by
  induction queue generalizing readings with
  | nil => exact ⟨[], rfl, List.Sublist.slnil⟩
  | cons entry later ih =>
    obtain ⟨kept, retained, left⟩ := @ih (fun index => readings (index + 1))
      fun other member index => past other (List.mem_cons_of_mem entry member) (index + 1)
    have age : uSub (readings 0) entry.dlqTimestampNs =
        some (readings 0 - entry.dlqTimestampNs) :=
      uSub_eq_some.mpr ⟨past entry List.mem_cons_self 0, rfl⟩
    unfold retain DeadLetterEntry.isStale
    simp only [age, retained, Option.map_some, Option.bind_eq_bind, Option.bind_some]
    refine ⟨_, rfl, ?_⟩
    split
    · exact left.cons entry
    · exact left.cons_cons entry

theorem purge_returns (front : Front session) {maxAgeNs lastNs : Nat} {readings : Nat → Nat}
    (clocked : Clocked session.clockNs (.purgeStale maxAgeNs readings lastNs :: rest)) :
    ∃ next, Returns session (.purgeStale maxAgeNs readings lastNs) rest next := by
  have balance := sound.balance
  have small := sound.small
  have bounded := clocked.1.2
  have later : session.clockNs ≤ lastNs := (bounded 0).1.trans (bounded 0).2
  have oldestPast := sound.oldestPast.trans later
  obtain ⟨queue, retained, left⟩ := retain_total maxAgeNs
    fun entry member index => (sound.past entry member).trans (bounded index).1
  have shorter := left.length_le
  by_cases some_ : 0 < session.dlq.queue.length - queue.length
  · have purged : u64 (session.dlq.stats.totalPurged +
        (session.dlq.queue.length - queue.length)) =
        some (session.dlq.stats.totalPurged + (session.dlq.queue.length - queue.length)) :=
      u64_eq_some.mpr ⟨by omega, rfl⟩
    have first : (queue.head?.map fun front => front.dlqTimestampNs).getD
        session.dlq.stats.oldestEntryTs ≤ lastNs := by
      cases queue with
      | nil => exact oldestPast
      | cons entry others =>
        exact (sound.past entry (left.subset List.mem_cons_self)).trans later
    have kept := @Sound.removed τ session sound queue
      { session.dlq.stats with
        totalEntries := queue.length
        totalPurged := session.dlq.stats.totalPurged +
          (session.dlq.queue.length - queue.length)
        oldestEntryTs := (queue.head?.map fun front => front.dlqTimestampNs).getD
          session.dlq.stats.oldestEntryTs }
      lastNs left later (by simp only; omega) rfl first rfl
    refine ⟨_, ?_, kept, clocked.2, rfl, fun _ => trivial, fun _ first same => ?_⟩
    · unfold step DeadLetterQueue.purgeStale
      simp only [retained, purged, some_, if_true, Option.bind_eq_bind, Option.bind_some]
      rfl
    · simp only [Option.mem_def] at same
      simp only [same, Option.map_some, Option.getD_some]
  · have same : queue = session.dlq.queue := left.eq_of_length (by omega)
    subst same
    have kept := @Sound.removed τ session sound session.dlq.queue session.dlq.stats lastNs left
      later balance sound.entries oldestPast rfl
    refine ⟨_, ?_, kept, clocked.2, rfl, fun _ => trivial, fun _ => front⟩
    unfold step DeadLetterQueue.purgeStale
    simp only [retained, some_, if_false, Option.bind_eq_bind, Option.bind_some]
    rfl

theorem keeps_returns (front : Front session) {call : DlqCall τ}
    (clocked : Clocked session.clockNs (call :: rest)) (keeps : Keeps session call) :
    ∃ next, Returns session call rest next := by
  cases call with
  | push entry nowNs => exact push_returns sound clocked keeps.1 keeps.2.1
  | popForReplay count => exact pop_returns sound clocked
  | purgeStale maxAgeNs readings lastNs => exact purge_returns sound front clocked
  | clear => exact clear_returns sound clocked

theorem taken_returns (front : Front session) {call : DlqCall τ}
    (clocked : Clocked session.clockNs (call :: rest))
    (small : session.accepted + pushes (call :: rest) < u64Size)
    (taken : step session call = some next) : Returns session call rest next := by
  have returns : ∃ other, Returns session call rest other := by
    cases call with
    | push entry nowNs =>
      have one : session.accepted + (pushes rest + 1) < u64Size := small
      refine push_returns sound clocked (Nat.pos_of_ne_zero fun zero => ?_) (by omega)
      obtain ⟨result, pushed, -⟩ := Option.map_eq_some_iff.mp taken
      unfold DeadLetterQueue.push at pushed
      rw [if_neg (ne_true_of_eq_false sound.running), zero, evict_zero] at pushed
      cases pushed
    | popForReplay count => exact pop_returns sound clocked
    | purgeStale maxAgeNs readings lastNs => exact purge_returns sound front clocked
    | clear => exact clear_returns sound clocked
  obtain ⟨other, returned⟩ := returns
  have same : next = other := Option.some.inj (taken.symm.trans returned.taken)
  rw [same]
  exact returned

end Returns

end Calls

/-- For every limit, and every list of calls with readings of the clock that do not decrease, every
call returns with right accounts if every call it comes to keeps them; and with fewer pushes than
there are sequence numbers, only then. -/
theorem performs_accounted (maxMemoryEntries clockNs : Nat) {calls : List (DlqCall τ)}
    (clocked : Clocked clockNs calls) :
    (Offered step Keeps (new maxMemoryEntries clockNs) calls →
      Performs step (fun _ _ next => Accounted next) (new maxMemoryEntries clockNs) calls) ∧
    (pushes calls < u64Size →
      Performs step (fun _ _ next => Accounted next) (new maxMemoryEntries clockNs) calls →
      Offered step Keeps (new maxMemoryEntries clockNs) calls) := by
  have sound : Sound (new maxMemoryEntries clockNs : DlqSession τ) := sound_new _ _
  have front : Front (new maxMemoryEntries clockNs : DlqSession τ) := fun _ same => by cases same
  constructor
  · refine @performs_of_offered _ _ step
      (fun session rest => Sound session ∧ Front session ∧ Clocked session.clockNs rest)
      _ _ ?_ ?_ _ _ ⟨sound, front, clocked⟩
    · intro session call rest inv keeps
      obtain ⟨next, returned⟩ := keeps_returns inv.1 inv.2.1 inv.2.2 keeps
      exact ⟨next, returned.taken, (accounted_iff returned.sound).mpr (returned.front.mpr keeps)⟩
    · intro session call rest next inv keeps taken accounted
      obtain ⟨other, returned⟩ := keeps_returns inv.1 inv.2.1 inv.2.2 keeps
      cases taken.symm.trans returned.taken
      exact ⟨returned.sound, accounted.oldest, returned.clocked⟩
  · intro few
    refine @offered_of_performs _ _ step
      (fun session rest => (Sound session ∧ Front session ∧ Clocked session.clockNs rest) ∧
        session.accepted + pushes rest < u64Size)
      _ _ ?_ ?_ _ _ ⟨⟨sound, front, clocked⟩, by show 0 + pushes calls < u64Size; omega⟩
    · intro session call rest next inv taken accounted
      have returned := taken_returns inv.1.1 inv.1.2.1 inv.1.2.2 inv.2 taken
      exact returned.front.mp accounted.oldest
    · intro session call rest next inv taken accounted
      have returned := taken_returns inv.1.1 inv.1.2.1 inv.1.2.2 inv.2 taken
      refine ⟨⟨returned.sound, accounted.oldest, returned.clocked⟩, ?_⟩
      rw [returned.accepted]
      exact inv.2

/-- An entry without a message. -/
def failed : DeadLetterEntry Unit where
  payload := ()
  reason := .timeout
  errorMessage := ""
  originalTimestampNs := 0
  dlqTimestampNs := 0
  sourceId := 0
  sequence := 0
  retryCount := 0

/-- Calls on a queue of two entries, which evicts one of two entries of the same time. -/
def evicting : List (DlqCall Unit) :=
  [.push failed 5, .push failed 5, .push failed 6, .purgeStale 1 (fun _ => 7) 7, .popForReplay 1,
    .clear, .push failed 9]

/-- The accounts of a queue that evicts one of two entries of the same time. -/
theorem performs_accounted_evicting :
    Performs step (fun _ _ next => Accounted next) (new 2 0) evicting := by
  have clocked : Clocked 0 evicting := by
    have bounds : 6 ≤ 7 ∧ 7 ≤ 7 := by decide
    refine ⟨?_, ?_, ?_, ⟨monotone_const, fun _ => bounds⟩, ?_, trivial⟩
    all_goals decide
  exact (performs_accounted 2 0 clocked).1 (by decide)

/-- Without any room a push never returns, and a queue of one entry that evicts the first of two
keeps the time of the first. -/
theorem not_accounted :
    (∀ fuel nowNs, (DeadLetterQueue.new 0 : DeadLetterQueue Unit).push fuel failed nowNs = none) ∧
    ¬ Performs step (fun _ _ next => Accounted next) (new 1 0)
      [.push failed 5, .push failed 6] := by
  constructor
  · intro fuel nowNs
    unfold DeadLetterQueue.push
    rw [if_neg (by decide)]
    refine Option.bind_eq_none_iff.mpr fun evicted ended => ?_
    cases (evict_zero fuel 0 []).symm.trans ended
  · rintro ⟨first, taken, -, second, again, accounted, -⟩
    cases taken
    cases again
    have kept : 5 = 6 := accounted.oldest _ rfl
    omega

end DlqSession

end TradingBot.Events
