import Mathlib.Data.List.Induction
import TradingBot.Foundation.OrderedMap

/-!
# The consistent hash ring

`ConsistentHashRing` of `state_sharding.rs`: every shard has some positions on a ring, and a key is
given the shard of the first position that is not below its own. The positions of two nodes may be
the same one; the later node has it then.
-/

namespace TradingBot.Distributed

/-- `ShardId`. -/
abbrev ShardId := Nat

/-- `compute_hash` at what is hashed: a node of a shard, or a key. -/
structure ComputeHash (κ : Type) where
  node : ShardId × Nat → Nat
  key : κ → Nat

/-- `ConsistentHashRing`, without the count that nothing reads. -/
structure ConsistentHashRing where
  virtualNodes : Nat
  ring : OrderedMap Nat ShardId

namespace ConsistentHashRing

variable {κ : Type} (hash : ComputeHash κ)

/-- The nodes of a shard put on a ring. -/
def place (shardId : ShardId) (virtualNodes : Nat) (ring : OrderedMap Nat ShardId) :
    OrderedMap Nat ShardId :=
  (List.range virtualNodes).foldl (fun ring vn => ring.insert (hash.node (shardId, vn)) shardId)
    ring

def new (shardCount virtualNodes : Nat) : ConsistentHashRing where
  virtualNodes := virtualNodes
  ring := (List.range shardCount).foldl (fun ring shardId => place hash shardId virtualNodes ring)
    .empty

/-- `get_shard`; a ring without nodes panics. -/
def getShard (ring : ConsistentHashRing) (key : κ) : Option ShardId :=
  ring.ring.cyclicNext (hash.key key)

def addShard (ring : ConsistentHashRing) (newShardId : ShardId) : ConsistentHashRing :=
  { ring with ring := place hash newShardId ring.virtualNodes ring.ring }

/-! ## What a shard that is added changes -/

theorem cyclicNext_place (shardId : ShardId) (virtualNodes : Nat) (ring : OrderedMap Nat ShardId)
    (position : Nat) :
    (place hash shardId virtualNodes ring).cyclicNext position = some shardId ∨
      (place hash shardId virtualNodes ring).cyclicNext position = ring.cyclicNext position := by
  unfold place
  induction List.range virtualNodes generalizing ring with
  | nil => exact .inr rfl
  | cons vn rest ih =>
    rw [List.foldl_cons]
    have one := ring.cyclicNext_insert (hash.node (shardId, vn)) position shardId
    rcases ih (ring.insert (hash.node (shardId, vn)) shardId) with placed | kept
    · exact .inl placed
    · rw [kept]
      exact one

/-- The nodes of a ring are of some shards, and there is one. -/
structure Serves (shards : ShardId → Prop) (ring : OrderedMap Nat ShardId) : Prop where
  some_ : ring.entries ≠ []
  among : ∀ entry ∈ ring.entries, shards entry.2

variable {virtualNodes shardCount : Nat} {ring : OrderedMap Nat ShardId}

theorem mem_place {shardId : ShardId} {entry : Nat × ShardId}
    (member : entry ∈ (place hash shardId virtualNodes ring).entries) :
    entry.2 = shardId ∨ entry ∈ ring.entries := by
  induction virtualNodes with
  | zero => exact .inr member
  | succ count ih =>
    unfold place at member
    rw [List.range_succ, List.foldl_append] at member
    rcases OrderedMap.mem_insert.mp member with same | there
    · exact .inl (congrArg Prod.snd same)
    · exact ih there.1

theorem place_ne_nil {shardId : ShardId} (some_ : ring.entries ≠ [] ∨ 1 ≤ virtualNodes) :
    (place hash shardId virtualNodes ring).entries ≠ [] := by
  cases virtualNodes with
  | zero => exact some_.resolve_right (by omega)
  | succ count =>
    unfold place
    rw [List.range_succ, List.foldl_append]
    exact OrderedMap.insert_ne_nil _ _ _

theorem serves_place {shards wider : ShardId → Prop} {shardId : ShardId}
    (serves : Serves shards ring) (wide : ∀ id, shards id → wider id) (new_ : wider shardId) :
    Serves wider (place hash shardId virtualNodes ring) := by
  refine ⟨place_ne_nil hash (.inl serves.some_), fun entry member => ?_⟩
  rcases mem_place hash member with same | there
  · exact same ▸ new_
  · exact wide entry.2 (serves.among entry there)

theorem serves_new (shards : 1 ≤ shardCount) (nodes : 1 ≤ virtualNodes) :
    Serves (fun id => id < shardCount) (new hash shardCount virtualNodes).ring := by
  show Serves _ ((List.range shardCount).foldl _ _)
  induction shardCount with
  | zero => omega
  | succ count ih =>
    rw [List.range_succ, List.foldl_append]
    rcases Nat.eq_zero_or_pos count with rfl | more
    · refine ⟨place_ne_nil hash (.inr nodes), fun entry member => ?_⟩
      rcases mem_place hash member with same | there
      · show entry.2 < 1
        rw [same]
        exact Nat.one_pos
      · cases there
    · exact serves_place hash (ih more) (fun id => Nat.lt_succ_of_lt) (Nat.lt_succ_self count)

theorem getShard_serves {shards : ShardId → Prop} {ring : ConsistentHashRing}
    (serves : Serves shards ring.ring) (key : κ) :
    ∃ shardId, ring.getShard hash key = some shardId ∧ shards shardId := by
  obtain ⟨shardId, found⟩ := OrderedMap.exists_cyclicNext serves.some_ (hash.key key)
  obtain ⟨entry, member, same⟩ := OrderedMap.mem_of_cyclicNext found
  exact ⟨shardId, found, same ▸ serves.among entry member⟩

/-- Every key has one of the shards that a ring was made with or that were added to it, and a shard
that is added to it takes keys from the others, but moves none between them. -/
def Consistent (shardCount virtualNodes : Nat) : Prop :=
  ∀ added : List ShardId,
    let ring := added.foldl (addShard hash) (new hash shardCount virtualNodes)
    ∀ key, (∃ shardId, ring.getShard hash key = some shardId ∧
        (shardId < shardCount ∨ shardId ∈ added)) ∧
      ∀ newShardId, (ring.addShard hash newShardId).getShard hash key = some newShardId ∨
        (ring.addShard hash newShardId).getShard hash key = ring.getShard hash key

theorem serves_added (shards : 1 ≤ shardCount) (nodes : 1 ≤ virtualNodes) (added : List ShardId) :
    Serves (fun id => id < shardCount ∨ id ∈ added)
      (added.foldl (addShard hash) (new hash shardCount virtualNodes)).ring := by
  induction added using List.reverseRecOn with
  | nil =>
    have serves := serves_new hash shards nodes
    exact ⟨serves.some_, fun entry member => .inl (serves.among entry member)⟩
  | append_singleton before last ih =>
    rw [List.foldl_append]
    refine serves_place hash ih (fun id => ?_) (.inr (by simp))
    exact Or.imp_right fun member => List.mem_append_left [last] member

theorem consistent_of_pos (shards : 1 ≤ shardCount) (nodes : 1 ≤ virtualNodes) :
    Consistent hash shardCount virtualNodes := by
  intro added ring key
  refine ⟨getShard_serves hash (serves_added hash shards nodes added) key, fun newShardId => ?_⟩
  exact cyclicNext_place hash newShardId ring.virtualNodes ring.ring (hash.key key)

end ConsistentHashRing

end TradingBot.Distributed
