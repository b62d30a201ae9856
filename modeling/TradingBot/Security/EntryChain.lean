import TradingBot.Foundation.HashChain
import TradingBot.Security.AuditTrail

/-!
# The chain of entries

The hashes of entries that name each other are the digests of a hash chain. Its blocks hold the
type and the data of an entry only as the text they make together, so the chain does not tell where
the one ends and the other begins.
-/

open Text HashChain

namespace TradingBot.Security

namespace TamperEvidence

/-- The primitives do not collide. -/
structure Injective (crypto : Crypto) : Prop where
  sha256 : Function.Injective crypto.sha256
  hmac : ∀ key, Function.Injective (crypto.hmac key)

/-- What an entry adds to the chain: its number, its time, and its type and data as they stand in
the text that is hashed. -/
structure Block where
  id : UInt64
  timestamp : UInt64
  text : String

/-- The block of an entry. -/
def block (entry : AuditEntry) : Block :=
  { id := entry.id, timestamp := entry.timestamp, text := s!"{entry.eventType}:{entry.data}" }

/-- The hash of a block after a hash. -/
def link (crypto : Crypto) (previousHash : String) (block : Block) : String :=
  hexEncode (crypto.sha256
    (asBytes s!"{block.id}:{block.timestamp}:{block.text}:{previousHash}"))

/-- Each entry names the hash of the one before it, and the first names `prevHash`. -/
def Unbroken : String → List AuditEntry → Prop
  | _, [] => True
  | prevHash, entry :: rest => entry.previousHash = prevHash ∧ Unbroken entry.entryHash rest

/-- The hash of an entry is that of its fields, and its signature that of its hash. -/
structure Genuine (crypto : Crypto) (key : List UInt8) (entry : AuditEntry) : Prop where
  hashed : entry.entryHash = crypto.entryHash entry
  signed : entry.signature = crypto.sign key entry.entryHash

/-- Two entries agree but for where the type ends and the data begins. -/
structure SameReading (entry other : AuditEntry) : Prop where
  block : block entry = block other
  previousHash : entry.previousHash = other.previousHash
  entryHash : entry.entryHash = other.entryHash
  signature : entry.signature = other.signature

variable {crypto : Crypto} {key : List UInt8}

theorem entryHash_eq_link (entry : AuditEntry) :
    crypto.entryHash entry = link crypto entry.previousHash (block entry) := by
  have same : entry.content =
      s!"{entry.id}:{entry.timestamp}:{(block entry).text}:{entry.previousHash}" := by
    apply String.toList_inj.mp
    simp [AuditEntry.content, block, toString]
  rw [Crypto.entryHash, same]
  rfl

theorem hashed_text (entry : Block) (prior : String) :
    (s!"{entry.id}:{entry.timestamp}:{entry.text}:{prior}").toList =
      entry.id.toNat.repr.toList ++ ':' :: (entry.timestamp.toNat.repr.toList ++
        ':' :: (entry.text.toList ++ ':' :: prior.toList)) := by
  simp [toString]

theorem hashed_text_inj {first second : Block} {prior other : String}
    (clearPrior : ':' ∉ prior.toList) (clearOther : ':' ∉ other.toList)
    (same : s!"{first.id}:{first.timestamp}:{first.text}:{prior}" =
      s!"{second.id}:{second.timestamp}:{second.text}:{other}") :
    prior = other ∧ first = second := by
  have listed := congrArg String.toList same
  rw [hashed_text, hashed_text] at listed
  have ids := first_field (colon_notMem_repr _) (colon_notMem_repr _) listed
  have times := first_field (colon_notMem_repr _) (colon_notMem_repr _) ids.2
  have texts := last_field clearPrior clearOther times.2
  refine ⟨String.toList_inj.mp texts.2, ?_⟩
  cases first
  cases second
  congr
  · exact UInt64.toNat_inj.mp (Nat.repr_injective (String.toList_inj.mp ids.1))
  · exact UInt64.toNat_inj.mp (Nat.repr_injective (String.toList_inj.mp times.1))
  · exact String.toList_inj.mp texts.1

theorem collision_free (injective : Injective crypto) :
    CollisionFree (link crypto) (fun hash => ':' ∉ hash.toList) "genesis" where
  start := by decide
  closed _ _ _ := colon_notMem_hexEncode _
  origin prior other first second clearPrior clearOther same :=
    hashed_text_inj clearPrior clearOther
      (asBytes_injective (injective.sha256 (hexEncode_injective same)))
  fresh prior block same := by
    have letter : 'g' ∉ (link crypto prior block).toList :=
      notMem_hexEncode _ fun _ => Nat.digitChar_ne 'g' rfl
    rw [same] at letter
    exact letter (by decide)

theorem sign_injective (injective : Injective crypto) (key : List UInt8) :
    Function.Injective (crypto.sign key) := fun _ _ same =>
  asBytes_injective (injective.hmac key (hexEncode_injective same))

/-- The hash after some entries. -/
def hashAfter (prevHash : String) (entries : List AuditEntry) : String :=
  entries.foldl (fun _ entry => entry.entryHash) prevHash

variable {prevHash : String} {second : List AuditEntry}

/-- A chain is unbroken when its parts are. -/
theorem unbroken_append {first : List AuditEntry} : Unbroken prevHash (first ++ second) ↔
      Unbroken prevHash first ∧ Unbroken (hashAfter prevHash first) second := by
  induction first generalizing prevHash with
  | nil => simp [Unbroken, hashAfter]
  | cons entry rest ih => simp only [List.cons_append, Unbroken, ih, hashAfter, List.foldl_cons,
      and_assoc]

@[simp] theorem hashAfter_concat (prevHash : String) (entries : List AuditEntry)
    (last : AuditEntry) : hashAfter prevHash (entries ++ [last]) = last.entryHash := by
  simp [hashAfter]

theorem digests_eq_hashes {entries : List AuditEntry} (chained : Unbroken prevHash entries)
    (genuine : ∀ entry ∈ entries, Genuine crypto key entry) :
    digests (link crypto) prevHash (entries.map block) = entries.map AuditEntry.entryHash := by
  induction entries generalizing prevHash with
  | nil => rfl
  | cons entry rest ih =>
    have hash : link crypto prevHash (block entry) = entry.entryHash := by
      rw [← chained.1, ← entryHash_eq_link, (genuine entry List.mem_cons_self).hashed]
    rw [List.map_cons, List.map_cons, digests, hash,
      ih chained.2 fun later member => genuine later (List.mem_cons_of_mem _ member)]

theorem same_reading_of_blocks {first : List AuditEntry} (chainedFirst : Unbroken prevHash first)
    (chainedSecond : Unbroken prevHash second)
    (genuineFirst : ∀ entry ∈ first, Genuine crypto key entry)
    (genuineSecond : ∀ entry ∈ second, Genuine crypto key entry)
    (same : first.map block = second.map block) : List.Forall₂ SameReading first second := by
  induction first generalizing prevHash second with
  | nil =>
    cases second with
    | nil => exact .nil
    | cons entry rest => simp at same
  | cons entry rest ih =>
    cases second with
    | nil => simp at same
    | cons other others =>
      obtain ⟨sameBlock, sameRest⟩ := List.cons.inj same
      have before : entry.previousHash = other.previousHash :=
        chainedFirst.1.trans chainedSecond.1.symm
      have real := genuineFirst entry List.mem_cons_self
      have otherReal := genuineSecond other List.mem_cons_self
      have hash : entry.entryHash = other.entryHash := by
        rw [real.hashed, otherReal.hashed, entryHash_eq_link, entryHash_eq_link, before, sameBlock]
      refine .cons ⟨sameBlock, before, hash, ?_⟩ ?_
      · rw [real.signed, otherReal.signed, hash]
      · apply ih chainedFirst.2
        · rw [hash]
          exact chainedSecond.2
        · exact fun later member => genuineFirst later (List.mem_cons_of_mem _ member)
        · exact fun later member => genuineSecond later (List.mem_cons_of_mem _ member)
        · exact sameRest

theorem Genuine.of_sameReading {entry other : AuditEntry} (genuine : Genuine crypto key other)
    (reading : SameReading entry other) : Genuine crypto key entry where
  hashed := by
    rw [reading.entryHash, genuine.hashed, entryHash_eq_link, entryHash_eq_link,
      reading.previousHash, reading.block]
  signed := by rw [reading.signature, genuine.signed, reading.entryHash]

theorem chained_of_sameReading {first : List AuditEntry}
    (reading : List.Forall₂ SameReading first second) (chained : Unbroken prevHash second)
    (genuine : ∀ entry ∈ second, Genuine crypto key entry) :
    Unbroken prevHash first ∧ ∀ entry ∈ first, Genuine crypto key entry := by
  induction reading generalizing prevHash with
  | nil => exact ⟨trivial, by simp⟩
  | @cons entry other rest others same _ ih =>
    have tail := ih chained.2 fun later member => genuine later (List.mem_cons_of_mem _ member)
    refine ⟨⟨same.previousHash.trans chained.1, ?_⟩, ?_⟩
    · rw [same.entryHash]
      exact tail.1
    · exact List.forall_mem_cons.mpr
        ⟨(genuine other List.mem_cons_self).of_sameReading same, tail.2⟩

theorem verifyLines_true {entries : List AuditEntry} :
    verifyLines crypto key prevHash (entries.map some) = .ok true ↔
      Unbroken prevHash entries ∧ ∀ entry ∈ entries, Genuine crypto key entry := by
  induction entries generalizing prevHash with
  | nil => simp [verifyLines, Unbroken]
  | cons entry rest ih =>
    simp only [List.map_cons, verifyLines, Unbroken, List.forall_mem_cons]
    split_ifs with named hashed signed
    · simp [named]
    · exact iff_of_false (by simp) fun all => hashed all.2.1.hashed
    · exact iff_of_false (by simp) fun all => signed all.2.1.signed
    · rw [ih]
      constructor
      · exact fun all => ⟨⟨not_not.mp named, all.1⟩, ⟨not_not.mp hashed, not_not.mp signed⟩, all.2⟩
      · exact fun all => ⟨all.1.2, all.2.2⟩

end TamperEvidence

end TradingBot.Security
