import Mathlib.Data.List.Nodup
import TradingBot.Foundation.Bytes
import TradingBot.Security.EntryChain

/-!
# What an altered log can pass for

Entries chain by their hashes, and a hash or signature that the trail never made cannot be found.
What passes for the log is then what begins it: the newest entries can be cut off, and text can be
moved across the colon between the type and the data of an entry.
-/

open Text HashChain

namespace TradingBot.Security

namespace TamperEvidence

variable {crypto : Crypto} {key : List UInt8}

/-- The entries in the log file. -/
def logged (trail : AuditTrail) : List AuditEntry :=
  (trail.logFile.getD []).filterMap id

/-- The trail with other entries in its log file. -/
def tampered (trail : AuditTrail) (altered : List AuditEntry) : AuditTrail :=
  { trail with logFile := some (altered.map some) }

/-- The trails with a key that can be in use: opened where there was no log file, after any calls of
`record`, and opened again on the log file of such a trail. -/
inductive Written (crypto : Crypto) (key : List UInt8) : AuditTrail → Prop where
  | opened {trail : AuditTrail} (fresh : AuditTrail.new none key = .ok trail) :
    Written crypto key trail
  | recorded {trail : AuditTrail} (before : Written crypto key trail) (millis : Nat)
    (eventType data : String) (disk : Disk) :
    Written crypto key (trail.record crypto millis eventType data disk).2
  | reopened {trail loaded : AuditTrail} (before : Written crypto key trail)
    (load : AuditTrail.new trail.logFile key = .ok loaded) : Written crypto key loaded

/-- A trail against the entries it made, of which the log file holds those whose line was
written. -/
structure History (crypto : Crypto) (key : List UInt8) (trail : AuditTrail)
    (made : List AuditEntry) : Prop where
  signingKey : trail.signingKey = key
  lines : trail.logFile.getD [] = (logged trail).map some
  written : (logged trail).Sublist made
  unbroken : Unbroken "genesis" made
  genuine : ∀ entry ∈ made, Genuine crypto key entry
  lastHash : trail.lastHash = hashAfter "genesis" made

theorem newEntry_genuine (trail : AuditTrail) (millis : Nat) (eventType data : String) :
    Genuine crypto trail.signingKey (trail.newEntry crypto millis eventType data) :=
  ⟨rfl, rfl⟩

theorem History.record {trail : AuditTrail} {made : List AuditEntry}
    (history : History crypto key trail made) (millis : Nat) (eventType data : String)
    (disk : Disk) :
    History crypto key (trail.record crypto millis eventType data disk).2
      (made ++ [trail.newEntry crypto millis eventType data]) := by
  have unbroken : Unbroken "genesis" (made ++ [trail.newEntry crypto millis eventType data]) :=
    unbroken_append.mpr ⟨history.unbroken, history.lastHash, trivial⟩
  have genuine : ∀ entry ∈ made ++ [trail.newEntry crypto millis eventType data],
      Genuine crypto key entry := by
    refine List.forall_mem_append.mpr ⟨history.genuine, List.forall_mem_singleton.mpr ?_⟩
    rw [← history.signingKey]
    exact newEntry_genuine trail millis eventType data
  cases disk with
  | writes =>
    have after : logged (trail.record crypto millis eventType data .writes).2 =
        logged trail ++ [trail.newEntry crypto millis eventType data] := by
      show (trail.logFile.getD [] ++ [some _]).filterMap id = _
      rw [history.lines, List.filterMap_append, List.filterMap_map]
      exact congrArg (· ++ _) List.filterMap_some
    exact
      { signingKey := history.signingKey
        lines := by
          rw [after, List.map_append, ← history.lines]
          rfl
        written := by
          rw [after]
          exact history.written.append (List.Sublist.refl _)
        unbroken
        genuine
        lastHash := (hashAfter_concat _ _ _).symm }
  | refuses =>
    exact
      { signingKey := history.signingKey
        lines := history.lines
        written := history.written.trans (List.sublist_append_left _ _)
        unbroken
        genuine
        lastHash := (hashAfter_concat _ _ _).symm }

theorem loadLines (trail : AuditTrail) (entries : List AuditEntry) :
    ∃ loaded, (entries.map some).foldlM AuditTrail.loadLine trail = .ok loaded ∧
      loaded.signingKey = trail.signingKey ∧ loaded.logFile = trail.logFile ∧
      loaded.lastHash = hashAfter trail.lastHash entries := by
  induction entries generalizing trail with
  | nil => exact ⟨trail, rfl, rfl, rfl, rfl⟩
  | cons entry rest ih => exact ih _

theorem sublist_up_to_last {left made : List AuditEntry} {last : AuditEntry}
    (sublist : (left ++ [last]).Sublist made) :
    ∃ before, before ++ [last] <+: made ∧ (left ++ [last]).Sublist (before ++ [last]) := by
  obtain ⟨front, back, rfl, leftFront, lastBack⟩ := List.append_sublist_iff.mp sublist
  obtain ⟨middle, rest, rfl⟩ := List.append_of_mem (List.singleton_sublist.mp lastBack)
  refine ⟨front ++ middle, ⟨rest, by simp⟩, ?_⟩
  exact (leftFront.trans (List.sublist_append_left _ _)).append (List.Sublist.refl _)

theorem History.reopen {trail loaded : AuditTrail} {made : List AuditEntry}
    (history : History crypto key trail made)
    (load : AuditTrail.new trail.logFile key = .ok loaded) :
    ∃ remade, History crypto key loaded remade := by
  obtain ⟨found, loads, signingKey, logFile, lastHash⟩ := loadLines
    { entries := [], logFile := trail.logFile, signingKey := key, entryCounter := 0,
      lastHash := "genesis", totalEntries := 0 } (logged trail)
  rw [AuditTrail.new, history.lines, loads] at load
  cases load
  have same : logged loaded = logged trail := by rw [logged, logFile, logged]
  cases ending : logged trail using List.reverseRecOn with
  | nil =>
    exact ⟨[], signingKey, by rw [logFile, history.lines, same], by rw [same, ending], trivial,
      by simp, by rw [lastHash, ending]⟩
  | append_singleton left last =>
    obtain ⟨before, begins, sublist⟩ := sublist_up_to_last (ending ▸ history.written)
    obtain ⟨after, rfl⟩ := begins
    exact ⟨before ++ [last],
      { signingKey
        lines := by rw [logFile, history.lines, same]
        written := by
          rw [same, ending]
          exact sublist
        unbroken := (unbroken_append.mp history.unbroken).1
        genuine := fun entry member => history.genuine entry (List.mem_append_left _ member)
        lastHash := by rw [lastHash, ending, hashAfter_concat, hashAfter_concat] }⟩

theorem Written.history {trail : AuditTrail} (written : Written crypto key trail) :
    ∃ made, History crypto key trail made := by
  induction written with
  | opened fresh =>
    cases fresh
    exact ⟨[], rfl, rfl, List.Sublist.refl _, trivial, by simp, rfl⟩
  | recorded _ millis eventType data disk ih =>
    obtain ⟨made, history⟩ := ih
    exact ⟨_, history.record millis eventType data disk⟩
  | reopened _ load ih =>
    obtain ⟨made, history⟩ := ih
    exact history.reopen load

/-- A list reads as the oldest entries of a log, up to a gap in it at the latest. -/
def Abridges (altered log : List AuditEntry) : Prop :=
  ∃ kept, kept <+: log ∧ Unbroken "genesis" kept ∧ List.Forall₂ SameReading altered kept

/-- What the trail answers when it does not take its log for intact. -/
def Refused (answer : Except AuditError Bool) : Prop :=
  answer = .ok false ∨ ∃ error, answer = .error error

theorem refused_iff {answer : Except AuditError Bool} : Refused answer ↔ answer ≠ .ok true := by
  cases answer with
  | error error => simp [Refused]
  | ok passed => cases passed <;> simp [Refused]

section Altered

variable {trail : AuditTrail} {made altered : List AuditEntry}

theorem passes_iff_chained (history : History crypto key trail made) :
    (tampered trail altered).verifyIntegrity crypto = .ok true ↔
      Unbroken "genesis" altered ∧ ∀ entry ∈ altered, Genuine crypto key entry := by
  rw [← history.signingKey]
  exact verifyLines_true

theorem passes_of_abridges (history : History crypto key trail made)
    (abridges : Abridges altered (logged trail)) :
    (tampered trail altered).verifyIntegrity crypto = .ok true := by
  obtain ⟨kept, begins, unbroken, reading⟩ := abridges
  rw [passes_iff_chained history]
  apply chained_of_sameReading reading unbroken
  intro entry member
  exact history.genuine entry (history.written.mem (begins.mem member))

theorem hash_logged (injective : Injective crypto) (history : History crypto key trail made)
    (genuine : ∀ entry ∈ altered, Genuine crypto key entry)
    (reused : ∀ entry ∈ altered, ∃ own ∈ logged trail, entry.signature = own.signature) :
    ∀ entry ∈ altered, ∃ own ∈ logged trail, entry.entryHash = own.entryHash := by
  intro entry member
  obtain ⟨own, place, same⟩ := reused entry member
  have real := history.genuine own (history.written.mem place)
  refine ⟨own, place, sign_injective injective key ?_⟩
  rw [← (genuine entry member).signed, ← real.signed, same]

theorem abridges_of_passes (injective : Injective crypto) (history : History crypto key trail made)
    (reused : ∀ entry ∈ altered, ∃ own ∈ logged trail, entry.signature = own.signature)
    (passes : (tampered trail altered).verifyIntegrity crypto = .ok true) :
    Abridges altered (logged trail) := by
  obtain ⟨chained, genuine⟩ := (passes_iff_chained history).mp passes
  have hashes := hash_logged injective history genuine reused
  have madeDigests := digests_eq_hashes history.unbroken history.genuine
  have free := collision_free injective
  -- the hashes are all digests of the chain of entries made, so the blocks begin its blocks
  have begins : altered.map block <+: made.map block := by
    apply free.prefix_of_digests_subset
    rw [digests_eq_hashes chained genuine, madeDigests]
    intro hash member
    obtain ⟨entry, place, rfl⟩ := List.mem_map.mp member
    obtain ⟨own, found, same⟩ := hashes entry place
    rw [same]
    exact List.mem_map_of_mem (history.written.mem found)
  obtain ⟨kept, keptBegins, blocks⟩ := List.prefix_map_iff.mp begins
  obtain ⟨rest, rfl⟩ := keptBegins
  have keptUnbroken := (unbroken_append.mp history.unbroken).1
  have keptGenuine : ∀ entry ∈ kept, Genuine crypto key entry := fun entry member =>
    history.genuine entry (List.mem_append_left _ member)
  have sameHashes : altered.map AuditEntry.entryHash = kept.map AuditEntry.entryHash := by
    rw [← digests_eq_hashes chained genuine, ← digests_eq_hashes keptUnbroken keptGenuine, blocks]
  have apart : ((kept ++ rest).map AuditEntry.entryHash).Nodup := by
    rw [← madeDigests]
    exact free.digests_nodup _
  -- none of these entries is missing from the log
  have keptLogged : ∀ item ∈ kept, ∃ found ∈ logged trail, item.entryHash = found.entryHash := by
    intro item member
    have hash : item.entryHash ∈ altered.map AuditEntry.entryHash := by
      rw [sameHashes]
      exact List.mem_map_of_mem member
    obtain ⟨entry, place, same⟩ := List.mem_map.mp hash
    obtain ⟨found, foundPlace, foundHash⟩ := hashes entry place
    exact ⟨found, foundPlace, same.symm.trans foundHash⟩
  exact ⟨kept, prefix_of_sublist history.written ⟨rest, rfl⟩ apart keptLogged, keptUnbroken,
    same_reading_of_blocks chained keptUnbroken genuine keptGenuine blocks⟩

end Altered

section Sample

/-- The digest with these 32 bytes, read as one number. -/
def digest (number : Nat) : List UInt8 := (Bytes.toLE 32 number).reverse

/-- A function that agrees with a table of digests, and is longer than a digest elsewhere. -/
def tabled (table : List (List UInt8 × List UInt8)) (message : List UInt8) : List UInt8 :=
  (table.lookup message).getD (List.replicate 33 0 ++ message)

theorem mem_of_lookup {table : List (List UInt8 × List UInt8)} {message found : List UInt8}
    (hit : table.lookup message = some found) : (message, found) ∈ table := by
  obtain ⟨before, after, rfl, -⟩ := List.lookup_eq_some_iff.mp hit
  exact List.mem_append_right _ List.mem_cons_self

theorem tabled_injective {table : List (List UInt8 × List UInt8)}
    (short : ∀ row ∈ table, row.2.length = 32) (apart : (table.map Prod.snd).Nodup) :
    Function.Injective (tabled table) := by
  intro first second same
  unfold tabled at same
  cases firstHit : table.lookup first with
  | none =>
    cases secondHit : table.lookup second with
    | none =>
      rw [firstHit, secondHit] at same
      exact List.append_cancel_left same
    | some found =>
      rw [firstHit, secondHit] at same
      have length := congrArg List.length same
      have row := short _ (mem_of_lookup secondHit)
      simp only [Option.getD_none, Option.getD_some, List.length_append,
        List.length_replicate] at length row
      omega
  | some found =>
    cases secondHit : table.lookup second with
    | none =>
      rw [firstHit, secondHit] at same
      have length := congrArg List.length same
      have row := short _ (mem_of_lookup firstHit)
      simp only [Option.getD_none, Option.getD_some, List.length_append,
        List.length_replicate] at length row
      omega
    | some other =>
      rw [firstHit, secondHit] at same
      have rows := List.inj_on_of_nodup_map apart (mem_of_lookup firstHit)
        (mem_of_lookup secondHit) same
      exact congrArg Prod.fst rows

/-- The key of the source's own tests. -/
def sampleKey : List UInt8 := asBytes "test_signing_key_32_bytes_long!!"

/-- SHA-256 and HMAC as they are on two entries that the sample trail records. -/
def sampleCrypto : Crypto where
  sha256 := tabled
    [(asBytes "0:1700000000000:TEST_EVENT:key:value:genesis",
        digest 0x30e11d401ac268ad89b437a2bc031ffa52cd2c60166878a7cba6055c68aceedb),
      (asBytes ("1:1700000000001:TEST_EVENT:test data 2:" ++
          "30e11d401ac268ad89b437a2bc031ffa52cd2c60166878a7cba6055c68aceedb"),
        digest 0x1c48d45df95d1245aec916dd80a305e6a60e4fe78ef512a0741432cb61d0ef90)]
  hmac key := tabled (if key ≠ sampleKey then [] else
    [(asBytes "30e11d401ac268ad89b437a2bc031ffa52cd2c60166878a7cba6055c68aceedb",
        digest 0xec757e6aaaafca20579825716eb6ce578c45ca7af4a55e6e94f6934aafa8e5bc),
      (asBytes "1c48d45df95d1245aec916dd80a305e6a60e4fe78ef512a0741432cb61d0ef90",
        digest 0xaceb5546bcd9b1d2a9b1de878f277608a6acdff313916b1d91b7713e582d4559)])

theorem sampleCrypto_injective : Injective sampleCrypto where
  sha256 := tabled_injective (by decide +kernel) (by decide +kernel)
  hmac key := by
    by_cases other : key ≠ sampleKey
    · rw [show sampleCrypto.hmac key = tabled [] from congrArg tabled (if_pos other)]
      exact tabled_injective (by simp) List.nodup_nil
    · rw [show sampleCrypto.hmac key = tabled _ from congrArg tabled (if_neg other)]
      exact tabled_injective (by decide +kernel) (by decide +kernel)

/-- A trail that is opened without a log file. -/
def emptyTrail : AuditTrail :=
  { entries := [], logFile := none, signingKey := sampleKey, entryCounter := 0,
    lastHash := "genesis", totalEntries := 0 }

/-- The trail after two records. -/
def sampleTrail : AuditTrail :=
  ((emptyTrail.record sampleCrypto 1700000000000 "TEST_EVENT" "key:value" .writes).2.record
    sampleCrypto 1700000000001 "TEST_EVENT" "test data 2" .writes).2

theorem sampleTrail_written : Written sampleCrypto sampleKey sampleTrail :=
  .recorded (.recorded (.opened rfl) _ _ _ _) _ _ _ _

/-- The log of the sample trail without its newest entry. -/
def cutLog : List AuditEntry := (logged sampleTrail).take 1

/-- The log of the sample trail with part of the first entry's data moved to its type. -/
def movedLog : List AuditEntry :=
  match logged sampleTrail with
  | [] => []
  | first :: rest => { first with eventType := "TEST_EVENT:key", data := "value" } :: rest

end Sample

/-- With primitives that do not collide, entries that replace the log of a trail and have only
signatures of that log are refused unless they are the log, exactly if they read as its oldest
entries only when they are the log. -/
theorem tampering_refused_iff {trail : AuditTrail} {altered : List AuditEntry}
    (injective : Injective crypto) (written : Written crypto key trail)
    (reused : ∀ entry ∈ altered, ∃ own ∈ logged trail, entry.signature = own.signature) :
    (altered ≠ logged trail → Refused ((tampered trail altered).verifyIntegrity crypto)) ↔
      (Abridges altered (logged trail) → altered = logged trail) := by
  obtain ⟨made, history⟩ := written.history
  rw [refused_iff]
  constructor
  · intro refuses abridges
    by_contra differs
    exact refuses differs (passes_of_abridges history abridges)
  · intro only differs passes
    exact differs (only (abridges_of_passes injective history reused passes))

/-- The sample log with text moved: what is refused there is what does not read as its oldest
entries. -/
theorem tampering_refused_moved :
    (movedLog ≠ logged sampleTrail →
        Refused ((tampered sampleTrail movedLog).verifyIntegrity sampleCrypto)) ↔
      (Abridges movedLog (logged sampleTrail) → movedLog = logged sampleTrail) :=
  tampering_refused_iff sampleCrypto_injective sampleTrail_written (by decide +kernel)

/-- A log whose newest entry is cut off passes, and one where part of an entry's data is now its
type. -/
theorem cut_and_moved_pass :
    Injective sampleCrypto ∧ Written sampleCrypto sampleKey sampleTrail ∧
      ∀ altered ∈ [cutLog, movedLog],
        altered ≠ logged sampleTrail ∧
          (∀ entry ∈ altered, ∃ own ∈ logged sampleTrail, entry.signature = own.signature) ∧
          (tampered sampleTrail altered).verifyIntegrity sampleCrypto = .ok true :=
  ⟨sampleCrypto_injective, sampleTrail_written, by decide +kernel⟩

end TamperEvidence

end TradingBot.Security
