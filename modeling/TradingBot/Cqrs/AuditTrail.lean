import Std.Data.String.ToInt
import TradingBot.Foundation.Dict
import TradingBot.Foundation.HashChain
import TradingBot.Foundation.MerkleTree
import TradingBot.Foundation.Run
import TradingBot.Foundation.Text

/-!
# The audit trail of the event store

`AuditTrail` of `audit_trail.py` chains the hashes of events, checks the chain, and makes Merkle
roots and proofs of them. An event is the text of its sorted JSON, as bytes; the hash function is
left open but for the length of its digests. The time of a node is a reading of the clock that no
hash covers. Metrics, the times of checks and the summary are left out.
-/

open HashChain Run Text

namespace TradingBot.Cqrs

/-- The algorithm of a trail: a digest of a fixed number of bytes, and a keyed one. -/
structure HashAlgorithm where
  digest : List UInt8 → List UInt8
  hmac : List UInt8 → List UInt8 → List UInt8
  size : Nat
  positive : 0 < size
  /-- Every digest has the same length. -/
  sized : ∀ data, (digest data).length = size

/-- A `HashChainNode` without its timestamp. -/
structure ChainLink where
  sequence : Int
  eventHash : String
  previousHash : String
  cumulativeHash : String
  deriving DecidableEq

/-- `HashChainNode`. -/
structure HashChainNode extends ChainLink where
  timestamp : Int
  deriving DecidableEq

/-- The nodes of a chain without their timestamps. -/
def links (chain : List HashChainNode) : List ChainLink := chain.map HashChainNode.toChainLink

/-- `VerificationResult`, without its time. -/
structure VerificationResult where
  isValid : Bool
  verifiedCount : Nat
  firstInvalidSequence : Option Int
  errorMessage : Option String

/-- What `generate_proof` returns for an event that is there. -/
structure MerkleProof where
  sequence : Int
  eventHash : String
  merkleRoot : String
  /-- The siblings, and whether they are to the left. -/
  proofPath : List (String × Bool)
  chainPosition : Nat

namespace HashAlgorithm

variable (algorithm : HashAlgorithm)

def computeHash (data : List UInt8) : String := hexEncode (algorithm.digest data)

def computeHmac (data key : List UInt8) : String := hexEncode (algorithm.hmac key data)

/-- The hash of an event, with its signature where there is a key that is not empty. -/
def eventHash (eventBytes : List UInt8) (signingKey : Option (List UInt8)) : String :=
  let eventHash := algorithm.computeHash eventBytes
  match signingKey with
  | some (byte :: key) =>
    algorithm.computeHash (asBytes (eventHash ++ algorithm.computeHmac eventBytes (byte :: key)))
  | _ => eventHash

/-- The text that a cumulative hash is taken of. -/
def cumulativeInput (previousHash eventHash : String) (sequence : Int) : List UInt8 :=
  asBytes (previousHash ++ eventHash ++ sequence.repr)

/-- The cumulative hash of an event hash and its number after a hash. -/
def link (previousHash : String) (block : String × Int) : String :=
  algorithm.computeHash (cumulativeInput previousHash block.1 block.2)

/-- The text that the chain starts with. -/
def genesisText : List UInt8 := asBytes "GENESIS_BLOCK_ZAID_TRADING_BOT"

def genesisHash : String := algorithm.computeHash genesisText

/-- The hash of two neighbors in a Merkle tree. -/
def combine (left right : String) : String := algorithm.computeHash (asBytes (left ++ right))

end HashAlgorithm

/-- `AuditTrail`. -/
structure AuditTrail where
  chain : List HashChainNode
  hashIndex : Dict Int HashChainNode
  lastCumulativeHash : String

namespace AuditTrail

section Operations

variable (algorithm : HashAlgorithm)

def init : AuditTrail := ⟨[], .empty, algorithm.genesisHash⟩

/-- `append_event`, at a reading of the clock. -/
def appendEvent (trail : AuditTrail) (sequence : Int) (eventBytes : List UInt8)
    (signingKey : Option (List UInt8)) (timestamp : Int) : AuditTrail :=
  let eventHash := algorithm.eventHash eventBytes signingKey
  let previousHash := trail.lastCumulativeHash
  let cumulativeHash :=
    algorithm.computeHash (HashAlgorithm.cumulativeInput previousHash eventHash sequence)
  let node := { sequence, eventHash, previousHash, cumulativeHash, timestamp }
  ⟨trail.chain ++ [node], trail.hashIndex.put sequence node, cumulativeHash⟩

def clear : AuditTrail := ⟨[], .empty, algorithm.genesisHash⟩

/-- The check of the nodes that are left. -/
def verifyNodes : String → Nat → List HashChainNode → VerificationResult
  | _, verifiedCount, [] => ⟨true, verifiedCount, none, none⟩
  | previousHash, verifiedCount, node :: rest =>
    if node.previousHash ≠ previousHash then
      ⟨false, verifiedCount, some node.sequence,
        some ("Broken chain at sequence " ++ node.sequence.repr ++ ": previous hash mismatch")⟩
    else if node.cumulativeHash ≠ algorithm.computeHash
        (HashAlgorithm.cumulativeInput node.previousHash node.eventHash node.sequence) then
      ⟨false, verifiedCount, some node.sequence,
        some ("Corrupted cumulative hash at sequence " ++ node.sequence.repr)⟩
    else verifyNodes node.cumulativeHash (verifiedCount + 1) rest

/-- The first place with at least a number, or the start. -/
def startIdx (chain : List HashChainNode) (fromSequence : Int) : Nat :=
  (chain.findIdx? fun node => fromSequence ≤ node.sequence).getD 0

def verifyChain (chain : List HashChainNode) (fromSequence : Int) : VerificationResult :=
  if chain = [] then ⟨true, 0, none, none⟩
  else
    let startIdx := startIdx chain fromSequence
    let previousHash := if startIdx = 0 then algorithm.genesisHash
      else (chain[startIdx - 1]?).elim algorithm.genesisHash (·.cumulativeHash)
    verifyNodes algorithm previousHash 0 (chain.drop startIdx)

def verifyEvent (trail : AuditTrail) (sequence : Int) (eventBytes : List UInt8)
    (signingKey : Option (List UInt8)) : Bool :=
  match trail.hashIndex.get sequence with
  | none => false
  | some node => algorithm.eventHash eventBytes signingKey = node.eventHash

/-- The leaves of a Merkle tree over some numbers. -/
def leaves (trail : AuditTrail) (sequences : Option (List Int)) : List String :=
  let sequences := sequences.getD (trail.chain.map (·.sequence))
  (sequences.mergeSort fun first second => first ≤ second).filterMap fun sequence =>
    (trail.hashIndex.get sequence).map (·.eventHash)

/-- `get_merkle_root`; the levels come to an end. -/
def getMerkleRoot (trail : AuditTrail) (sequences : Option (List Int)) : Option String :=
  let leaves := trail.leaves sequences
  if leaves = [] then some (algorithm.computeHash (asBytes "EMPTY_MERKLE_TREE"))
  else MerkleTree.root algorithm.combine leaves.length leaves

/-- `generate_proof`; a number that the index has but the chain has not raises. -/
def generateProof (trail : AuditTrail) (sequence : Int) : Option (Except String MerkleProof) :=
  match trail.hashIndex.get sequence with
  | none => some (.error "Event not found")
  | some node => do
    let leaves := trail.chain.map (·.eventHash)
    let targetIndex ← trail.chain.findIdx? fun node => node.sequence = sequence
    let merkleRoot ← MerkleTree.root algorithm.combine leaves.length leaves
    some (.ok {
      sequence, eventHash := node.eventHash, merkleRoot
      proofPath := MerkleTree.path algorithm.combine leaves.length leaves targetIndex
      chainPosition := targetIndex })

/-- A call that changes the trail. -/
inductive Call where
  | appendEvent (sequence : Int) (eventBytes : List UInt8) (signingKey : Option (List UInt8))
    (timestamp : Int)
  | clear

/-- The trail after a call. -/
def apply (trail : AuditTrail) : Call → AuditTrail
  | .appendEvent sequence eventBytes signingKey timestamp =>
    trail.appendEvent algorithm sequence eventBytes signingKey timestamp
  | .clear => clear algorithm

/-- The trail that calls make. -/
def run (calls : List Call) : AuditTrail := calls.foldl (apply algorithm) (init algorithm)

end Operations

variable {algorithm : HashAlgorithm} {trail : AuditTrail} {calls : List Call}

/-! ## The chain -/

/-- The event hash and the number of a node. -/
def block (node : ChainLink) : String × Int := (node.eventHash, node.sequence)

/-- The blocks of a chain. -/
def blocks (chain : List HashChainNode) : List (String × Int) := (links chain).map block

/-- The links of blocks that are chained after a hash. -/
def nodesFrom (algorithm : HashAlgorithm) : String → List (String × Int) → List ChainLink
  | _, [] => []
  | previousHash, block :: rest =>
    let cumulativeHash := algorithm.link previousHash block
    ⟨block.2, block.1, previousHash, cumulativeHash⟩ :: nodesFrom algorithm cumulativeHash rest

/-- The blocks of a chain with one more node. -/
theorem blocks_concat (chain : List HashChainNode) (node : HashChainNode) :
    blocks (chain ++ [node]) = blocks chain ++ [(node.eventHash, node.sequence)] := by
  rw [blocks, links, List.map_append, List.map_append]
  rfl

/-- The links of blocks are links of these. -/
theorem map_block (previousHash : String) (blocks : List (String × Int)) :
    (nodesFrom algorithm previousHash blocks).map block = blocks := by
  induction blocks generalizing previousHash with
  | nil => rfl
  | cons first rest ih =>
    rw [nodesFrom, List.map_cons, ih]
    rfl

theorem nodesFrom_concat (previousHash : String) (blocks : List (String × Int))
    (last : String × Int) : nodesFrom algorithm previousHash (blocks ++ [last]) =
      nodesFrom algorithm previousHash blocks ++ [⟨last.2, last.1,
        tip algorithm.link previousHash blocks,
        algorithm.link (tip algorithm.link previousHash blocks) last⟩] := by
  induction blocks generalizing previousHash with
  | nil => rfl
  | cons first rest ih => simp [nodesFrom, ih]

theorem nodesFrom_append (previousHash : String) (front back : List (String × Int)) :
    nodesFrom algorithm previousHash (front ++ back) = nodesFrom algorithm previousHash front ++
      nodesFrom algorithm (tip algorithm.link previousHash front) back := by
  induction front generalizing previousHash with
  | nil => rfl
  | cons first rest ih => simp [nodesFrom, ih]

theorem verifyNodes_isValid {previousHash : String} {count : Nat} {nodes : List HashChainNode} :
    (verifyNodes algorithm previousHash count nodes).isValid = true ↔
      links nodes = nodesFrom algorithm previousHash (blocks nodes) := by
  induction nodes generalizing previousHash count with
  | nil => exact iff_of_true rfl rfl
  | cons node rest ih =>
    obtain ⟨⟨sequence, eventHash, previous, cumulative⟩, timestamp⟩ := node
    unfold verifyNodes
    simp only [blocks, links, List.map_cons, nodesFrom, List.cons.injEq, ChainLink.mk.injEq, block,
      HashAlgorithm.link, true_and] at ih ⊢
    by_cases linked : previous = previousHash
    · by_cases hashed : cumulative =
          algorithm.computeHash (HashAlgorithm.cumulativeInput previous eventHash sequence)
      · subst linked hashed
        simp only [ne_eq, not_true_eq_false, ↓reduceIte, ih, true_and]
      · subst linked
        simp [hashed]
    · simp [linked]

theorem verifyNodes_count {previousHash : String} {count : Nat} {nodes : List HashChainNode}
    (valid : (verifyNodes algorithm previousHash count nodes).isValid = true) :
    verifyNodes algorithm previousHash count nodes =
      ⟨true, count + nodes.length, none, none⟩ := by
  induction nodes generalizing previousHash count with
  | nil => rfl
  | cons node rest ih =>
    unfold verifyNodes at valid ⊢
    split at valid
    · cases valid
    next linked =>
      split at valid
      · cases valid
      next hashed =>
        rw [if_neg linked, if_neg hashed, ih valid, List.length_cons]
        simp only [VerificationResult.mk.injEq, true_and, and_true]
        omega

/-- A trail whose nodes are chained after the start, whose last hash is that of the chain, and whose
index has the last node of each number. -/
structure Chained (algorithm : HashAlgorithm) (trail : AuditTrail) : Prop where
  nodes : links trail.chain = nodesFrom algorithm algorithm.genesisHash (blocks trail.chain)
  last : trail.lastCumulativeHash = tip algorithm.link algorithm.genesisHash (blocks trail.chain)
  index : ∀ sequence, trail.hashIndex.get sequence =
    trail.chain.reverse.find? fun node => node.sequence = sequence
  hashed : ∀ node ∈ trail.chain, ∃ data, node.eventHash = algorithm.computeHash data

theorem Chained.apply (chained : trail.Chained algorithm) (call : Call) :
    (trail.apply algorithm call).Chained algorithm := by
  cases call with
  | clear => exact ⟨rfl, rfl, fun _ => rfl, nofun⟩
  | appendEvent sequence eventBytes signingKey timestamp =>
    obtain ⟨nodes, last, index, hashed⟩ := chained
    have own : ∃ data, algorithm.eventHash eventBytes signingKey = algorithm.computeHash data := by
      unfold HashAlgorithm.eventHash
      split
      · exact ⟨_, rfl⟩
      · exact ⟨_, rfl⟩
    refine ⟨?_, ?_, fun other => ?_, fun node member => ?_⟩
    · show links (trail.chain ++ [_]) = nodesFrom algorithm _ (blocks (trail.chain ++ [_]))
      rw [blocks_concat, nodesFrom_concat, ← nodes, ← last, links, List.map_append]
      rfl
    · show _ = tip algorithm.link _ (blocks (trail.chain ++ [_]))
      rw [blocks_concat, tip_concat, ← last]
      rfl
    · show (trail.hashIndex.put sequence _).get other = (trail.chain ++ [_]).reverse.find? _
      rw [Dict.get_put, List.reverse_append, List.reverse_singleton, List.singleton_append,
        List.find?_cons, index]
      by_cases same : other = sequence
      · simp [same]
      · simp [same, Ne.symm same]
    · obtain old | new := List.mem_append.mp member
      · exact hashed node old
      · rw [List.mem_singleton.mp new]
        exact own

/-- Every trail is chained. -/
theorem chained_run (algorithm : HashAlgorithm) (calls : List Call) :
    (run algorithm calls).Chained algorithm := by
  have folded : ∀ trail : AuditTrail, trail.Chained algorithm →
      (calls.foldl (AuditTrail.apply algorithm) trail).Chained algorithm := by
    induction calls with
    | nil => exact fun trail chained => chained
    | cons call rest ih => exact fun trail chained => ih _ (chained.apply call)
  exact folded (init algorithm) ⟨rfl, rfl, fun _ => rfl, nofun⟩

end AuditTrail

end TradingBot.Cqrs
