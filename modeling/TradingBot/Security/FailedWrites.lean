import TradingBot.Foundation.Run
import TradingBot.Security.TamperEvidence

/-!
# Failed writes of the audit trail

The chain in memory moves on before its line is written. A line that the file refuses is missing
there for good: the next one names a hash that no line has, and a number after a gap.
-/

open Run

namespace TradingBot.Security

namespace FailedWrites

open TamperEvidence

/-- What is done with a trail. -/
inductive TrailCall where
  | record (millis : Nat) (eventType data : String) (disk : Disk)
  /-- `new` on the same path, with the same key. -/
  | reopen

variable {crypto : Crypto} {key : List UInt8}

/-- The trail that `new` makes where there is no log file. -/
def fresh (key : List UInt8) : AuditTrail where
  entries := []
  logFile := none
  signingKey := key
  entryCounter := 0
  lastHash := "genesis"
  totalEntries := 0

/-- The trail after a call; one that cannot be opened again is gone. -/
def step (crypto : Crypto) (trail : AuditTrail) : TrailCall → Option AuditTrail
  | .record millis eventType data disk => some (trail.record crypto millis eventType data disk).2
  | .reopen => (AuditTrail.new trail.logFile trail.signingKey).toOption

/-- The numbers of the entries in the log file. -/
def numbers (trail : AuditTrail) : List Nat := (logged trail).map fun entry => entry.id.toNat

/-- A trail passes its own verification, its entries are numbered from zero without a gap, and it
tells how many there are; a call of `record` that returns an error leaves it as it was in memory. -/
structure Good (crypto : Crypto) (trail : AuditTrail) (call : TrailCall) (next : AuditTrail) :
    Prop where
  verifies : next.verifyIntegrity crypto = .ok true
  numbered : numbers next = List.range (next.logFile.getD []).length
  counted : next.totalEntries.toNat = (next.logFile.getD []).length
  unchanged : ∀ millis eventType data disk error, call = .record millis eventType data disk →
    (trail.record crypto millis eventType data disk).1 = .error error →
      next.lastHash = trail.lastHash ∧ next.entryCounter = trail.entryCounter ∧
        next.totalEntries = trail.totalEntries ∧ next.entries = trail.entries

/-- A line is written, and its number is not the last one of the type. -/
def InBounds (trail : AuditTrail) : TrailCall → Prop
  | .record _ _ _ disk => disk = .writes ∧ (trail.logFile.getD []).length + 1 < 2 ^ 64
  | .reopen => True

instance (trail : AuditTrail) : DecidablePred (InBounds trail)
  | .record .. => inferInstanceAs (Decidable (_ ∧ _))
  | .reopen => inferInstanceAs (Decidable True)

/-- A trail whose log file has all that it recorded. -/
structure Honest (crypto : Crypto) (trail : AuditTrail) : Prop where
  lines : trail.logFile.getD [] = (logged trail).map some
  unbroken : Unbroken "genesis" (logged trail)
  genuine : ∀ entry ∈ logged trail, Genuine crypto trail.signingKey entry
  numbered : numbers trail = List.range' 0 (logged trail).length
  lastHash : trail.lastHash = hashAfter "genesis" (logged trail)
  counter : trail.entryCounter.toNat = (logged trail).length
  total : trail.totalEntries.toNat = (logged trail).length

variable {trail : AuditTrail}

theorem honest_fresh (key : List UInt8) : Honest crypto (fresh key) where
  lines := rfl
  unbroken := trivial
  genuine := fun _ member => nomatch member
  numbered := rfl
  lastHash := rfl
  counter := rfl
  total := rfl

theorem Honest.length (honest : Honest crypto trail) :
    (trail.logFile.getD []).length = (logged trail).length := by
  rw [honest.lines, List.length_map]

theorem Honest.sound (honest : Honest crypto trail) :
    trail.verifyIntegrity crypto = .ok true ∧
      numbers trail = List.range (trail.logFile.getD []).length ∧
      trail.totalEntries.toNat = (trail.logFile.getD []).length := by
  have lines := honest.lines
  refine ⟨?_, ?_, honest.total.trans honest.length.symm⟩
  · unfold AuditTrail.verifyIntegrity
    cases file : trail.logFile with
    | none => rfl
    | some log =>
      have same : log = (logged trail).map some := by
        rw [file] at lines
        exact lines
      show verifyLines crypto trail.signingKey "genesis" log = .ok true
      rw [same]
      exact verifyLines_true.mpr ⟨honest.unbroken, honest.genuine⟩
  · rw [honest.length, List.range_eq_range']
    exact honest.numbered

theorem logged_record (honest : Honest crypto trail) (millis : Nat) (eventType data : String) :
    logged (trail.record crypto millis eventType data .writes).2 =
      logged trail ++ [trail.newEntry crypto millis eventType data] := by
  show (trail.logFile.getD [] ++ [some _]).filterMap id = _
  rw [honest.lines, List.filterMap_append, List.filterMap_map]
  exact congrArg (· ++ _) List.filterMap_some

theorem toNat_succ (number : UInt64) {bound : Nat} (below : number.toNat ≤ bound)
    (room : bound + 1 < 2 ^ 64) : (number + 1).toNat = number.toNat + 1 := by
  rw [UInt64.toNat_add]
  show (number.toNat + 1) % 2 ^ 64 = _
  omega

theorem honest_record (honest : Honest crypto trail) (millis : Nat) (eventType data : String)
    (room : (logged trail).length + 1 < 2 ^ 64) :
    Honest crypto (trail.record crypto millis eventType data .writes).2 := by
  have after := logged_record honest millis eventType data
  have grown : (logged (trail.record crypto millis eventType data .writes).2).length =
      (logged trail).length + 1 := by rw [after, List.length_append, List.length_singleton]
  have counter := honest.counter
  have total := honest.total
  constructor
  · rw [after, List.map_append, ← honest.lines]
    rfl
  · rw [after]
    exact unbroken_append.mpr ⟨honest.unbroken, honest.lastHash, trivial⟩
  · rw [after]
    refine List.forall_mem_append.mpr ⟨honest.genuine, List.forall_mem_singleton.mpr ?_⟩
    exact newEntry_genuine trail millis eventType data
  · rw [grown, List.range'_1_concat, ← honest.numbered]
    unfold numbers
    rw [after, List.map_append, List.map_singleton]
    congr 2
    show trail.entryCounter.toNat = 0 + (logged trail).length
    omega
  · rw [after, hashAfter_concat]
    rfl
  · rw [grown, ← counter]
    exact toNat_succ trail.entryCounter counter.le room
  · rw [grown, ← total]
    exact toNat_succ trail.totalEntries total.le room

/-- Loading entries that are numbered on from the counter counts them. -/
theorem load_numbered (trail : AuditTrail) (entries : List AuditEntry)
    (numbered : (entries.map fun entry => entry.id.toNat) =
      List.range' trail.entryCounter.toNat entries.length)
    (counter : trail.entryCounter.toNat + entries.length < 2 ^ 64)
    (total : trail.totalEntries.toNat + entries.length < 2 ^ 64) :
    ∃ loaded, (entries.map some).foldlM AuditTrail.loadLine trail = .ok loaded ∧
      loaded.signingKey = trail.signingKey ∧ loaded.logFile = trail.logFile ∧
      loaded.lastHash = hashAfter trail.lastHash entries ∧
      loaded.entryCounter.toNat = trail.entryCounter.toNat + entries.length ∧
      loaded.totalEntries.toNat = trail.totalEntries.toNat + entries.length := by
  induction entries generalizing trail with
  | nil => exact ⟨trail, rfl, rfl, rfl, rfl, rfl, rfl⟩
  | cons entry rest ih =>
    rw [List.map_cons, List.length_cons, List.range'_succ, List.cons.injEq] at numbered
    rw [List.length_cons] at counter total ⊢
    obtain ⟨first, later⟩ := numbered
    have same : trail.entryCounter = entry.id := UInt64.toNat_inj.mp first.symm
    have below : trail.entryCounter ≤ entry.id :=
      UInt64.le_iff_toNat_le.mpr (Nat.le_of_eq first.symm)
    let next : AuditTrail :=
      { trail with
        lastHash := entry.entryHash
        totalEntries := trail.totalEntries + 1
        entryCounter := entry.id + 1
        entries := remember trail.entries entry }
    have moved : trail.loadLine (some entry) = .ok next := by
      simp only [AuditTrail.loadLine, if_pos below, next]
    have counted : next.entryCounter.toNat = trail.entryCounter.toNat + 1 := by
      show (entry.id + 1).toNat = _
      rw [← same]
      exact toNat_succ trail.entryCounter (Nat.le_refl _) (by omega)
    have totalled : next.totalEntries.toNat = trail.totalEntries.toNat + 1 :=
      toNat_succ trail.totalEntries (Nat.le_refl _) (by omega)
    obtain ⟨loaded, loads, signingKey, logFile, lastHash, counterAfter, totalAfter⟩ :=
      ih next (by rw [counted]; exact later) (by omega) (by omega)
    refine ⟨loaded, ?_, signingKey, logFile, lastHash, by omega, by omega⟩
    rw [List.map_cons, List.foldlM_cons, moved]
    exact loads

theorem honest_reopen (honest : Honest crypto trail) :
    ∃ next, step crypto trail .reopen = some next ∧ Honest crypto next := by
  let start : AuditTrail := { fresh trail.signingKey with logFile := trail.logFile }
  have counter := honest.counter
  have fits := trail.entryCounter.toNat_lt
  obtain ⟨loaded, loads, signingKey, logFile, lastHash, counted, totalled⟩ :=
    load_numbered start (logged trail) honest.numbered
      (by show 0 + _ < _; omega) (by show 0 + _ < _; omega)
  have same : logged loaded = logged trail := by
    unfold logged
    rw [logFile]
  refine ⟨loaded, ?_, ?_⟩
  · unfold step AuditTrail.new
    rw [honest.lines]
    show (((logged trail).map some).foldlM AuditTrail.loadLine start).toOption = _
    rw [loads]
    rfl
  · constructor
    · rw [same, logFile]
      exact honest.lines
    · rw [same]
      exact honest.unbroken
    · rw [same, signingKey]
      exact honest.genuine
    · unfold numbers
      rw [same]
      exact honest.numbered
    · rw [same]
      exact lastHash
    · rw [same, counted]
      exact Nat.zero_add _
    · rw [same, totalled]
      exact Nat.zero_add _

theorem good_iff (trail : AuditTrail) (call : TrailCall) (honest : Honest crypto trail) :
    (∃ next, step crypto trail call = some next ∧ Good crypto trail call next) ↔
      InBounds trail call := by
  cases call with
  | reopen =>
    refine iff_of_true ?_ trivial
    obtain ⟨next, taken, kept⟩ := honest_reopen honest
    obtain ⟨verifies, numbered, counted⟩ := kept.sound
    exact ⟨next, taken, verifies, numbered, counted, fun _ _ _ _ _ same => nomatch same⟩
  | record millis eventType data disk =>
    cases disk with
    | refuses =>
      refine iff_of_false ?_ fun met => nomatch met.1
      rintro ⟨next, taken, good⟩
      cases taken
      have kept := (good.unchanged millis eventType data .refuses .io rfl rfl).2.1
      have moved : trail.entryCounter + 1 = trail.entryCounter := kept
      have number := congrArg UInt64.toNat moved
      rw [UInt64.toNat_add] at number
      have fits := trail.entryCounter.toNat_lt
      have one : (1 : UInt64).toNat = 1 := rfl
      omega
    | writes =>
      have grown : ((trail.record crypto millis eventType data .writes).2.logFile.getD []).length =
          (trail.logFile.getD []).length + 1 := List.length_append
      constructor
      · rintro ⟨next, taken, good⟩
        cases taken
        refine ⟨rfl, ?_⟩
        have counted := good.counted
        rw [grown] at counted
        have fits :=
          (trail.record crypto millis eventType data .writes).2.totalEntries.toNat_lt
        omega
      · rintro ⟨-, room⟩
        rw [honest.length] at room
        obtain ⟨verifies, numbered, counted⟩ :=
          (honest_record honest millis eventType data room).sound
        refine ⟨_, rfl, verifies, numbered, counted, fun _ _ _ _ _ same failed => ?_⟩
        cases same
        cases failed

/-- A call in bounds keeps the log honest. -/
theorem honest_step {call : TrailCall} {next : AuditTrail} (honest : Honest crypto trail)
    (met : InBounds trail call) (taken : step crypto trail call = some next) :
    Honest crypto next := by
  cases call with
  | reopen =>
    obtain ⟨other, again, kept⟩ := honest_reopen honest
    cases taken.symm.trans again
    exact kept
  | record millis eventType data disk =>
    cases taken
    obtain ⟨rfl, room⟩ := met
    rw [honest.length] at room
    exact honest_record honest millis eventType data room

/-- From a new trail on, with any primitives and any key, the log file verifies, is numbered from
zero and counted, and errors leave the trail unchanged precisely as long as every line that is
recorded is written, and there are less than the numbers of the type. -/
theorem honest_log_iff (crypto : Crypto) (key : List UInt8) (calls : List TrailCall) :
    Performs (step crypto) (Good crypto) (fresh key) calls ↔
      Offered (step crypto) InBounds (fresh key) calls := by
  refine @performs_iff _ _ (step crypto) (fun trail _ => Honest crypto trail) (Good crypto) InBounds
    (fun trail call _ honest => good_iff trail call honest) ?_ _ _ (honest_fresh key)
  intro trail call rest next honest taken good
  exact honest_step honest ((good_iff trail call honest).mp ⟨next, taken, good⟩) taken

/-- After one line that the file refuses, the next one that it takes does not verify: it names a
hash that is not there, and its number is one. -/
theorem refused_line_breaks_log : ¬ Performs (step sampleCrypto) (Good sampleCrypto)
    (fresh sampleKey)
    [.record 1700000000000 "TEST_EVENT" "key:value" .refuses,
      .record 1700000000001 "TEST_EVENT" "test data 2" .writes, .reopen] ∧
    ((exec (step sampleCrypto) (fresh sampleKey)
      [.record 1700000000000 "TEST_EVENT" "key:value" .refuses,
        .record 1700000000001 "TEST_EVENT" "test data 2" .writes, .reopen]).map fun trail =>
          (trail.verifyIntegrity sampleCrypto, numbers trail)) = some (.ok false, [1]) := by
  constructor
  · rintro ⟨_, ⟨⟩, good, -⟩
    have kept := (good.unchanged _ _ _ _ .io rfl rfl).2.1
    revert kept
    decide +kernel
  · decide +kernel

end FailedWrites

end TradingBot.Security
