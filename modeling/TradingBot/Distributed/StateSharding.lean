import TradingBot.Distributed.ConsistentHashRing
import TradingBot.Distributed.FeatureShard
import TradingBot.Foundation.Run

/-!
# The sharded feature state

`ShardedFeatureState` of `state_sharding.rs` keeps the features of a key in the shard that the ring
gives it. Its calls are compared with those on one map: a shard at capacity refuses a key that it
has as well as a new one, and a change under a guard needs a second guard of the same lock. The
hashes, what the lock grants and the order in which a hash map is gone through are left open; the
counters and the latencies that only the statistics read are left out.
-/

open Locks MachineInt Run

namespace TradingBot.Distributed

def maxEntriesPerShard : Nat := 100000

/-- `ShardedFeatureState`, without its statistics. -/
structure ShardedFeatureState (κ ν : Type) where
  hashRing : ConsistentHashRing
  shards : List (FeatureShard κ ν)

namespace ShardedFeatureState

variable {κ ν : Type} [DecidableEq κ]

section Operations

variable (hash : ComputeHash κ) (conflicts : Mode → Mode → Bool)
  (traversal : Traversal (ShardId × List κ))

/-- `new`, with the number of virtual nodes of a shard. -/
def new (numShards virtualNodes : Nat) : ShardedFeatureState κ ν where
  hashRing := .new hash numShards virtualNodes
  shards := List.replicate numShards .new

/-- An operation on one shard; a shard that is not there panics. -/
def onShard {α : Type} (state : ShardedFeatureState κ ν) (shardId : ShardId)
    (operation : Locked ShardLock (FeatureShard κ ν) α) :
    Option (α × ShardedFeatureState κ ν) := do
  let shard ← state.shards[shardId]?
  let (value, shard) ← result operation shard
  some (value, { state with shards := state.shards.set shardId shard })

def insert (state : ShardedFeatureState κ ν) (key : κ) (value : ν) :
    Option (Except String Unit × ShardedFeatureState κ ν) := do
  let shardId ← state.hashRing.getShard hash key
  let (len, state) ← state.onShard shardId (FeatureShard.len conflicts)
  if maxEntriesPerShard ≤ len then
    some (.error "Shard at capacity", state)
  else
    let (_, state) ← state.onShard shardId (FeatureShard.insert conflicts key value)
    some (.ok (), state)

def get (state : ShardedFeatureState κ ν) (key : κ) :
    Option (Option ν × ShardedFeatureState κ ν) := do
  let shardId ← state.hashRing.getShard hash key
  state.onShard shardId (FeatureShard.get conflicts key)

def remove (state : ShardedFeatureState κ ν) (key : κ) :
    Option (Option ν × ShardedFeatureState κ ν) := do
  let shardId ← state.hashRing.getShard hash key
  state.onShard shardId (FeatureShard.remove conflicts key)

/-- The first loop of `get_batch`: keys are grouped by their shards. -/
def groupKeys (ring : ConsistentHashRing) (keys : List κ) : Option (Dict ShardId (List κ)) :=
  keys.foldlM (fun groups key => do
    let shardId ← ring.getShard hash key
    some (groups.put shardId ((groups.get shardId).getD [] ++ [key]))) .empty

/-- The body of the second loop of `get_batch`: a key is fetched from a shard. -/
def fetch (shardId : ShardId) (fetched : Dict κ ν × ShardedFeatureState κ ν) (key : κ) :
    Option (Dict κ ν × ShardedFeatureState κ ν) := do
  let (found, state) ← fetched.2.onShard shardId (FeatureShard.get conflicts key)
  match found with
  | some value => some (fetched.1.put key value, state)
  | none => some (fetched.1, state)

def getBatch (state : ShardedFeatureState κ ν) (keys : List κ) :
    Option (Dict κ ν × ShardedFeatureState κ ν) := do
  let groups ← groupKeys hash state.hashRing keys
  (traversal.order groups.entries).foldlM
    (fun fetched group => group.2.foldlM (fetch conflicts group.1) fetched) (.empty, state)

end Operations

end ShardedFeatureState

/-! ## One map -/

/-- One call on a sharded state. -/
inductive FeatureCall (κ ν : Type) where
  | insert (key : κ) (value : ν)
  | get (key : κ)
  | remove (key : κ)
  | getBatch (keys : List κ)

/-- What a call answers. -/
inductive FeatureAnswer (κ ν : Type) where
  | inserted (result : Except String Unit)
  | found (value : Option ν)
  | batch (values : Dict κ ν)

/-- A sharded state with the one map that it stands for and the last answer. -/
structure FeatureSession (κ ν : Type) where
  state : ShardedFeatureState κ ν
  image : Dict κ ν
  answer : Option (FeatureAnswer κ ν)

namespace FeatureSession

variable {κ ν : Type} [DecidableEq κ]

/-- One map after a call with its answer. -/
def changed (image : Dict κ ν) : FeatureCall κ ν → FeatureAnswer κ ν → Dict κ ν
  | .insert key value, .inserted (.ok _) => image.put key value
  | .remove key, _ => image.pop key
  | _, _ => image

section Steps

variable (hash : ComputeHash κ) (conflicts : Mode → Mode → Bool)
  (traversal : Traversal (ShardId × List κ))

/-- A call on a sharded state; one that panics or never returns has no answer. -/
def answered (state : ShardedFeatureState κ ν) :
    FeatureCall κ ν → Option (FeatureAnswer κ ν × ShardedFeatureState κ ν)
  | .insert key value => (state.insert hash conflicts key value).map (Prod.map .inserted id)
  | .get key => (state.get hash conflicts key).map (Prod.map .found id)
  | .remove key => (state.remove hash conflicts key).map (Prod.map .found id)
  | .getBatch keys => (state.getBatch hash conflicts traversal keys).map (Prod.map .batch id)

/-- A session of a new state. -/
def start (numShards virtualNodes : Nat) : FeatureSession κ ν where
  state := .new hash numShards virtualNodes
  image := .empty
  answer := none

/-- A session after a call. -/
def step (session : FeatureSession κ ν) (call : FeatureCall κ ν) : Option (FeatureSession κ ν) :=
  (answered hash conflicts traversal session.state call).map fun answer => {
    state := answer.2
    image := changed session.image call answer.1
    answer := some answer.1 }

/-- The number of the entries in the shard of a key. -/
def entriesBeside (state : ShardedFeatureState κ ν) (key : κ) : Nat :=
  (((state.hashRing.getShard hash key).bind (state.shards[·]?)).map (·.data.size)).getD 0

/-- A call is answered as one map answers it, but a new key is refused by a shard at capacity, which
changes nothing. -/
def Agrees (session : FeatureSession κ ν) (call : FeatureCall κ ν) (next : FeatureSession κ ν) :
    Prop :=
  match call with
  | .insert key _ => next.answer = some (.inserted (.ok ())) ∨
      (∃ error, next.answer = some (.inserted (.error error))) ∧ session.image.get key = none ∧
        maxEntriesPerShard ≤ entriesBeside hash session.state key ∧ next.state = session.state
  | .get key => next.answer = some (.found (session.image.get key))
  | .remove key => next.answer = some (.found (session.image.get key))
  | .getBatch keys => ∃ values, next.answer = some (.batch values) ∧
      ∀ key, values.get key = if key ∈ keys then session.image.get key else none

/-- A key goes into a shard with room only where the lock grants a guard for reading beside the one
for writing, into a shard at capacity only if it is not there, and is taken out of a shard only
where the lock grants that or it is not there. -/
def InBounds (session : FeatureSession κ ν) : FeatureCall κ ν → Prop
  | .insert key _ => if maxEntriesPerShard ≤ entriesBeside hash session.state key
      then session.image.get key = none else conflicts .write .read = false
  | .remove key => (session.image.get key).isSome = true → conflicts .write .read = false
  | .get _ | .getBatch _ => True

instance (session : FeatureSession κ ν) (call : FeatureCall κ ν) :
    Decidable (InBounds hash conflicts session call) :=
  match call with
  | .insert key _ => inferInstanceAs (Decidable
      (if maxEntriesPerShard ≤ entriesBeside hash session.state key
        then session.image.get key = none else conflicts .write .read = false))
  | .remove key => inferInstanceAs (Decidable
      ((session.image.get key).isSome = true → conflicts .write .read = false))
  | .get _ | .getBatch _ => .isTrue trivial

end Steps

section OneMap

variable {hash : ComputeHash κ} {conflicts : Mode → Mode → Bool}
  {traversal : Traversal (ShardId × List κ)}
  {state : ShardedFeatureState κ ν} {image : Dict κ ν} {session next : FeatureSession κ ν}
  {key : κ} {shardId : ShardId} {shard : FeatureShard κ ν}

/-- The shard of a key. -/
structure HasShard (hash : ComputeHash κ) (state : ShardedFeatureState κ ν) (key : κ)
    (shardId : ShardId) (shard : FeatureShard κ ν) : Prop where
  placed : state.hashRing.getShard hash key = some shardId
  there : state.shards[shardId]? = some shard

/-- Every key has a shard, no shard is over capacity, and the shards stand for one map. -/
structure Stands (hash : ComputeHash κ) (state : ShardedFeatureState κ ν) (image : Dict κ ν) :
    Prop where
  placed : ∀ key, ∃ shardId shard, HasShard hash state key shardId shard
  room : ∀ shard ∈ state.shards, shard.data.size ≤ maxEntriesPerShard
  same : ∀ key shardId shard, HasShard hash state key shardId shard →
    shard.data.get key = image.get key

omit [DecidableEq κ] in
theorem entriesBeside_of (has : HasShard hash state key shardId shard) :
    entriesBeside hash state key = shard.data.size := by
  simp [entriesBeside, has.placed, has.there]

omit [DecidableEq κ] in
theorem HasShard.mem (has : HasShard hash state key shardId shard) : shard ∈ state.shards :=
  List.mem_of_getElem? has.there

omit [DecidableEq κ] in
theorem onShard_same {α : Type} {operation : Locked ShardLock (FeatureShard κ ν) α} {value : α}
    (there : state.shards[shardId]? = some shard)
    (read : result operation shard = some (value, shard)) :
    state.onShard shardId operation = some (value, state) := by
  obtain ⟨bound, same⟩ := List.getElem?_eq_some_iff.mp there
  have kept : state.shards.set shardId shard = state.shards := by
    rw [← same, List.set_getElem_self]
  simp [ShardedFeatureState.onShard, there, read, kept]

omit [DecidableEq κ] in
theorem onShard_there {α : Type} (operation : Locked ShardLock (FeatureShard κ ν) α)
    (there : state.shards[shardId]? = some shard) :
    state.onShard shardId operation = (result operation shard).map fun ended =>
      (ended.1, { state with shards := state.shards.set shardId ended.2 }) := by
  simp only [ShardedFeatureState.onShard, there, Option.bind_eq_bind, Option.bind_some]
  cases result operation shard <;> rfl

theorem insert_of (has : HasShard hash state key shardId shard) (value : ν) :
    state.insert hash conflicts key value =
      if maxEntriesPerShard ≤ shard.data.size then some (.error "Shard at capacity", state)
      else (result (FeatureShard.insert conflicts key value) shard).map fun ended =>
        (.ok (), { state with shards := state.shards.set shardId ended.2 }) := by
  have len : state.onShard shardId (FeatureShard.len conflicts) = some (shard.data.size, state) :=
    onShard_same has.there FeatureShard.result_len
  have inserted := onShard_there (FeatureShard.insert conflicts key value) has.there
  simp only [ShardedFeatureState.insert, has.placed, len, inserted, Option.bind_eq_bind,
    Option.bind_some]
  split
  · rfl
  · cases result (FeatureShard.insert conflicts key value) shard <;> rfl

theorem get_of (has : HasShard hash state key shardId shard) :
    state.get hash conflicts key = some (shard.data.get key, state) := by
  unfold ShardedFeatureState.get
  rw [has.placed]
  exact onShard_same has.there FeatureShard.result_get

theorem remove_of (has : HasShard hash state key shardId shard) :
    state.remove hash conflicts key =
      (result (FeatureShard.remove conflicts key) shard).map fun ended =>
        (ended.1, { state with shards := state.shards.set shardId ended.2 }) := by
  unfold ShardedFeatureState.remove
  rw [has.placed]
  exact onShard_there _ has.there

theorem stands_changed (value : Option ν) (stands : Stands hash state image)
    (has : HasShard hash state key shardId shard) {other : FeatureShard κ ν} {changed : Dict κ ν}
    (room : other.data.size ≤ maxEntriesPerShard)
    (here : ∀ at_, other.data.get at_ = if at_ = key then value else shard.data.get at_)
    (image_ : ∀ at_, changed.get at_ = if at_ = key then value else image.get at_) :
    Stands hash { state with shards := state.shards.set shardId other } changed := by
  have bound := (List.getElem?_eq_some_iff.mp has.there).1
  refine ⟨fun at_ => ?_, fun shard_ member => ?_, fun at_ shardId_ shard_ has_ => ?_⟩
  · obtain ⟨shardId_, shard_, placed, there⟩ := stands.placed at_
    by_cases moved : shardId = shardId_
    · exact ⟨shardId_, other, placed, by simp [moved, moved ▸ bound]⟩
    · exact ⟨shardId_, shard_, placed, by simpa [List.getElem?_set, moved] using there⟩
  · rcases List.mem_or_eq_of_mem_set member with kept | same
    · exact stands.room shard_ kept
    · exact same ▸ room
  · have there := has_.there
    rw [List.getElem?_set] at there
    by_cases moved : shardId = shardId_
    · rw [if_pos moved, if_pos bound] at there
      cases there
      rw [here, image_, stands.same at_ shardId shard ⟨moved ▸ has_.placed, has.there⟩]
    · rw [if_neg moved] at there
      have apart : at_ ≠ key := by
        intro same
        subst same
        exact moved (Option.some.inj (has.placed.symm.trans has_.placed))
      rw [image_, if_neg apart]
      exact stands.same at_ shardId_ shard_ ⟨has_.placed, there⟩

/-! ### A batch -/

omit [DecidableEq κ] in
theorem mem_added {ring : ConsistentHashRing} {first : κ}
    (placed : ring.getShard hash first = some shardId) (groups : Dict ShardId (List κ))
    (other : ShardId) :
    key ∈ ((groups.put shardId ((groups.get shardId).getD [] ++ [first])).get other).getD [] ↔
      key ∈ (groups.get other).getD [] ∨ key = first ∧ ring.getShard hash key = some other := by
  rw [Dict.getD_put]
  by_cases here : other = shardId
  · rw [if_pos here, here, List.mem_append, List.mem_singleton]
    constructor
    · rintro (before | same)
      · exact .inl before
      · exact .inr ⟨same, same ▸ placed⟩
    · rintro (before | ⟨same, -⟩)
      · exact .inl before
      · exact .inr same
  · rw [if_neg here]
    constructor
    · exact .inl
    · rintro (before | ⟨same, home⟩)
      · exact before
      · rw [same, placed] at home
        exact absurd (Option.some.inj home).symm here

omit [DecidableEq κ] in
theorem groupKeys_of (ring : ConsistentHashRing)
    (placed : ∀ key, ∃ shardId, ring.getShard hash key = some shardId) (keys : List κ) :
    ∃ groups, ShardedFeatureState.groupKeys hash ring keys = some groups ∧
      ∀ shardId key, key ∈ (groups.get shardId).getD [] ↔
        key ∈ keys ∧ ring.getShard hash key = some shardId := by
  have grown : ∀ groups : Dict ShardId (List κ), ∃ result,
      keys.foldlM (fun groups key => do
        let shardId ← ring.getShard hash key
        some (groups.put shardId ((groups.get shardId).getD [] ++ [key]))) groups = some result ∧
      ∀ shardId key, key ∈ (result.get shardId).getD [] ↔ key ∈ (groups.get shardId).getD [] ∨
        key ∈ keys ∧ ring.getShard hash key = some shardId := by
    induction keys with
    | nil => exact fun groups => ⟨groups, rfl, by simp⟩
    | cons first rest ih =>
      intro groups
      obtain ⟨home, found⟩ := placed first
      obtain ⟨result, folded, members⟩ :=
        ih (groups.put home ((groups.get home).getD [] ++ [first]))
      refine ⟨result, ?_, fun shardId key => ?_⟩
      · rw [List.foldlM_cons, found]
        exact folded
      · rw [members, mem_added found, List.mem_cons, or_assoc, ← or_and_right]
  obtain ⟨groups, folded, members⟩ := grown .empty
  refine ⟨groups, folded, fun shardId key => (members shardId key).trans ?_⟩
  simp [Dict.get, Dict.empty]

/-- The values are those of the keys that were seen. -/
def Fetched (image : Dict κ ν) (seen : κ → Prop) (values : Dict κ ν) : Prop :=
  ∀ key value, values.get key = some value ↔ seen key ∧ image.get key = some value

theorem Fetched.congr {seen other : κ → Prop} {values : Dict κ ν}
    (fetched : Fetched image seen values) (same : ∀ key, seen key ↔ other key) :
    Fetched image other values := fun key value =>
  (fetched key value).trans (and_congr_left' (same key))

theorem fetch_of (conflicts : Mode → Mode → Bool) (stands : Stands hash state image)
    {seen : κ → Prop} {values : Dict κ ν} (fetched : Fetched image seen values)
    (placed : state.hashRing.getShard hash key = some shardId) :
    ∃ more, ShardedFeatureState.fetch conflicts shardId (values, state) key = some (more, state) ∧
      Fetched image (fun at_ => at_ = key ∨ seen at_) more := by
  obtain ⟨shardId_, shard, placed_, there⟩ := stands.placed key
  cases placed.symm.trans placed_
  have read : state.onShard shardId (FeatureShard.get conflicts key) =
      some (shard.data.get key, state) := onShard_same there FeatureShard.result_get
  have same := stands.same key shardId shard ⟨placed, there⟩
  cases found : image.get key with
  | some value =>
    refine ⟨values.put key value, ?_, fun at_ other => ?_⟩
    · simp [ShardedFeatureState.fetch, read, same, found]
    · rw [Dict.get_put]
      by_cases here : at_ = key
      · simp [here, found]
      · simp [here, fetched at_ other]
  | none =>
    refine ⟨values, ?_, fun at_ other => ?_⟩
    · simp [ShardedFeatureState.fetch, read, same, found]
    · by_cases here : at_ = key
      · simp [here, found, fetched key other]
      · simp [here, fetched at_ other]

theorem fetch_group (conflicts : Mode → Mode → Bool) (stands : Stands hash state image)
    {keys : List κ} {seen : κ → Prop} {values : Dict κ ν} (fetched : Fetched image seen values)
    (placed : ∀ key ∈ keys, state.hashRing.getShard hash key = some shardId) :
    ∃ more, keys.foldlM (ShardedFeatureState.fetch conflicts shardId) (values, state) =
        some (more, state) ∧ Fetched image (fun at_ => at_ ∈ keys ∨ seen at_) more := by
  induction keys generalizing values seen with
  | nil => exact ⟨values, rfl, by simpa using fetched⟩
  | cons first rest ih =>
    obtain ⟨home, later⟩ := List.forall_mem_cons.mp placed
    obtain ⟨one, taken, fetchedOne⟩ := fetch_of conflicts stands fetched home
    obtain ⟨more, folded, fetchedMore⟩ := ih fetchedOne later
    refine ⟨more, ?_, fetchedMore.congr fun at_ => ?_⟩
    · rw [List.foldlM_cons, taken]
      exact folded
    · rw [List.mem_cons, or_assoc, or_left_comm]

/-- Some groups that are fetched from their shards were seen. -/
theorem fetch_groups (conflicts : Mode → Mode → Bool) (stands : Stands hash state image)
    {groups : List (ShardId × List κ)} {seen : κ → Prop} {values : Dict κ ν}
    (fetched : Fetched image seen values)
    (placed : ∀ group ∈ groups, ∀ key ∈ group.2,
      state.hashRing.getShard hash key = some group.1) :
    ∃ more, groups.foldlM (fun fetched group =>
        group.2.foldlM (ShardedFeatureState.fetch conflicts group.1) fetched) (values, state) =
        some (more, state) ∧
      Fetched image (fun at_ => (∃ group ∈ groups, at_ ∈ group.2) ∨ seen at_) more := by
  induction groups generalizing values seen with
  | nil => exact ⟨values, rfl, by simpa using fetched⟩
  | cons first rest ih =>
    obtain ⟨home, later⟩ := List.forall_mem_cons.mp placed
    obtain ⟨one, taken, fetchedOne⟩ := fetch_group conflicts stands fetched home
    obtain ⟨more, folded, fetchedMore⟩ := ih fetchedOne later
    refine ⟨more, ?_, fetchedMore.congr fun at_ => ?_⟩
    · rw [List.foldlM_cons, taken]
      exact folded
    · rw [List.exists_mem_cons_iff, or_assoc, or_left_comm]

theorem getBatch_of (conflicts : Mode → Mode → Bool) (traversal : Traversal (ShardId × List κ))
    (stands : Stands hash state image) (keys : List κ) :
    ∃ values, state.getBatch hash conflicts traversal keys = some (values, state) ∧
      ∀ key, values.get key = if key ∈ keys then image.get key else none := by
  have ring : ∀ key, ∃ shardId, state.hashRing.getShard hash key = some shardId := by
    intro key
    obtain ⟨shardId, _, has⟩ := stands.placed key
    exact ⟨shardId, has.placed⟩
  obtain ⟨groups, grouped, members⟩ := groupKeys_of state.hashRing ring keys
  have listed : ∀ group, group ∈ traversal.order groups.entries ↔
      groups.get group.1 = some group.2 := fun group =>
    (traversal.perm groups.entries).mem_iff.trans Dict.get_eq_some.symm
  have placed : ∀ group ∈ traversal.order groups.entries, ∀ key ∈ group.2,
      state.hashRing.getShard hash key = some group.1 := by
    intro group member key inside
    have found := (listed group).mp member
    exact ((members group.1 key).mp (by rw [found]; exact inside)).2
  have none_ : Fetched image (fun _ => False) Dict.empty := by simp [Fetched, Dict.get, Dict.empty]
  obtain ⟨values, folded, fetched⟩ := fetch_groups conflicts stands none_ placed
  have seen : ∀ key, ((∃ group ∈ traversal.order groups.entries, key ∈ group.2) ∨ False) ↔
      key ∈ keys := by
    intro key
    rw [or_false]
    constructor
    · rintro ⟨group, member, inside⟩
      have found := (listed group).mp member
      exact ((members group.1 key).mp (by rw [found]; exact inside)).1
    · intro member
      obtain ⟨shardId, home⟩ := ring key
      have inside := (members shardId key).mpr ⟨member, home⟩
      cases found : groups.get shardId with
      | none => simp [found] at inside
      | some group =>
        rw [found] at inside
        exact ⟨(shardId, group), (listed (shardId, group)).mpr found, inside⟩
  refine ⟨values, ?_, fun key => Option.ext fun value => ?_⟩
  · unfold ShardedFeatureState.getBatch
    rw [grouped]
    exact folded
  · refine (fetched.congr seen key value).trans ?_
    by_cases member : key ∈ keys
    · simp [member]
    · simp [member]

/-! ### A call -/

theorem stands_new {numShards virtualNodes : Nat} (shards : 1 ≤ numShards)
    (nodes : 1 ≤ virtualNodes) :
    Stands hash (ShardedFeatureState.new hash numShards virtualNodes : ShardedFeatureState κ ν)
      .empty := by
  have serves := ConsistentHashRing.serves_new hash shards nodes
  refine ⟨fun key => ?_, fun shard member => ?_, fun key shardId shard has => ?_⟩
  · obtain ⟨shardId, placed, below⟩ := ConsistentHashRing.getShard_serves hash serves key
    exact ⟨shardId, .new, placed, List.getElem?_replicate_of_lt below⟩
  · rw [List.eq_of_mem_replicate member]
    exact Nat.zero_le _
  · rw [List.eq_of_mem_replicate has.mem]
    rfl

theorem estimate_fits {size : Nat} (room : size ≤ maxEntriesPerShard) : size * 144 < u64Size := by
  unfold maxEntriesPerShard at room
  unfold u64Size
  omega

theorem size_put_le (key : κ) (value : ν)
    (room : shard.data.size < maxEntriesPerShard) :
    (shard.data.put key value).size ≤ maxEntriesPerShard := by
  rw [Dict.size_put]
  split <;> omega

theorem size_pop_le (key : κ) (room : shard.data.size ≤ maxEntriesPerShard) :
    (shard.data.pop key).size ≤ maxEntriesPerShard := by
  rw [Dict.size_pop]
  split <;> omega

/-- A call on a state that stands for one map, by what the call comes to. -/
inductive Comes (hash : ComputeHash κ) (conflicts : Mode → Mode → Bool)
    (state : ShardedFeatureState κ ν) (image : Dict κ ν) :
    FeatureCall κ ν → Option (FeatureAnswer κ ν × ShardedFeatureState κ ν) → Prop
  | refused {key : κ} {value : ν} (full : maxEntriesPerShard ≤ entriesBeside hash state key) :
    Comes hash conflicts state image (.insert key value)
      (some (.inserted (.error "Shard at capacity"), state))
  | stuckInsert {key : κ} {value : ν} (room : entriesBeside hash state key < maxEntriesPerShard)
      (blocked : conflicts .write .read = true) :
    Comes hash conflicts state image (.insert key value) none
  | inserted {key : κ} {value : ν} {next : ShardedFeatureState κ ν}
      (room : entriesBeside hash state key < maxEntriesPerShard)
      (granted : conflicts .write .read = false) (stands : Stands hash next (image.put key value)) :
    Comes hash conflicts state image (.insert key value) (some (.inserted (.ok ()), next))
  | got {key : κ} :
    Comes hash conflicts state image (.get key) (some (.found (image.get key), state))
  | stuckRemove {key : κ} (there : (image.get key).isSome = true)
      (blocked : conflicts .write .read = true) :
    Comes hash conflicts state image (.remove key) none
  | removed {key : κ} {found : Option ν} {next : ShardedFeatureState κ ν}
      (same : found = image.get key)
      (granted : (image.get key).isSome = true → conflicts .write .read = false)
      (stands : Stands hash next (image.pop key)) :
    Comes hash conflicts state image (.remove key) (some (.found found, next))
  | batched {keys : List κ} {values : Dict κ ν}
      (fetched : ∀ key, values.get key = if key ∈ keys then image.get key else none) :
    Comes hash conflicts state image (.getBatch keys) (some (.batch values, state))

theorem comes_insert (stands : Stands hash state image) (value : ν) :
    Comes hash conflicts state image (.insert key value)
      (answered hash conflicts traversal state (.insert key value)) := by
  obtain ⟨shardId, shard, has⟩ := stands.placed key
  have beside := entriesBeside_of has
  simp only [answered, insert_of has]
  by_cases full : maxEntriesPerShard ≤ shard.data.size
  · rw [if_pos full]
    exact .refused (by omega)
  · have room : entriesBeside hash state key < maxEntriesPerShard := by omega
    have size := size_put_le key value (Nat.lt_of_not_le full)
    rw [if_neg full, FeatureShard.result_insert (estimate_fits size)]
    cases granted : conflicts .write .read with
    | true => exact .stuckInsert room granted
    | false =>
      refine .inserted room granted (stands_changed (some value) stands has size ?_ ?_)
      · exact fun at_ => Dict.get_put shard.data key at_ value
      · exact fun at_ => Dict.get_put image key at_ value

theorem comes_remove (stands : Stands hash state image) :
    Comes hash conflicts state image (.remove key)
      (answered hash conflicts traversal state (.remove key)) := by
  obtain ⟨shardId, shard, has⟩ := stands.placed key
  have same := stands.same key shardId shard has
  simp only [answered, remove_of has]
  cases found : shard.data.get key with
  | none =>
    have absent : image.get key = none := same ▸ found
    rw [FeatureShard.result_remove_absent found]
    refine .removed absent.symm (fun there => absurd there (by simp [absent])) ?_
    refine stands_changed none stands has (stands.room shard has.mem) (fun at_ => ?_)
      fun at_ => Dict.get_pop image key at_
    by_cases here : at_ = key
    · rw [if_pos here, here, found]
    · rw [if_neg here]
  | some value =>
    have there : image.get key = some value := same ▸ found
    have size := size_pop_le key (stands.room shard has.mem)
    rw [FeatureShard.result_remove found (estimate_fits size)]
    cases granted : conflicts .write .read with
    | true => exact .stuckRemove (by rw [there]; rfl) granted
    | false =>
      refine .removed there.symm (fun _ => granted)
        (stands_changed none stands has size ?_ ?_)
      · exact fun at_ => Dict.get_pop shard.data key at_
      · exact fun at_ => Dict.get_pop image key at_

theorem comes_of (conflicts : Mode → Mode → Bool) (traversal : Traversal (ShardId × List κ))
    (stands : Stands hash state image) (call : FeatureCall κ ν) :
    Comes hash conflicts state image call (answered hash conflicts traversal state call) := by
  cases call with
  | insert key value => exact comes_insert stands value
  | remove key => exact comes_remove stands
  | get key =>
    obtain ⟨shardId, shard, has⟩ := stands.placed key
    simp only [answered, get_of has, stands.same key shardId shard has]
    exact .got
  | getBatch keys =>
    obtain ⟨values, fetched, holds⟩ := getBatch_of conflicts traversal stands keys
    simp only [answered, fetched]
    exact .batched holds

/-- Every call keeps the shards standing for the map. -/
theorem stands_step {call : FeatureCall κ ν} (stands : Stands hash session.state session.image)
    (taken : step hash conflicts traversal session call = some next) :
    Stands hash next.state next.image := by
  have comes := comes_of conflicts traversal stands call
  obtain ⟨answer, answered_, same⟩ := Option.map_eq_some_iff.mp taken
  rw [answered_] at comes
  subst same
  cases comes with
  | refused | got | batched => exact stands
  | inserted _ _ stands_ => exact stands_
  | removed _ _ stands_ => exact stands_

theorem agrees_iff {call : FeatureCall κ ν} (stands : Stands hash session.state session.image) :
    (∃ next, step hash conflicts traversal session call = some next ∧
      Agrees hash session call next) ↔ InBounds hash conflicts session call := by
  have comes := comes_of conflicts traversal stands call
  unfold step
  generalize answered hash conflicts traversal session.state call = ended at comes ⊢
  cases comes with
  | refused full => simp [Agrees, InBounds, full]
  | stuckInsert room blocked => simp [InBounds, Nat.not_le.mpr room, blocked]
  | inserted room granted _ => simp [Agrees, InBounds, Nat.not_le.mpr room, granted]
  | got => simp [Agrees, InBounds]
  | stuckRemove there blocked => simp [InBounds, there, blocked]
  | removed same granted _ => simpa [Agrees, InBounds, same] using granted
  | batched fetched => simpa [Agrees, InBounds] using fetched

end OneMap

/-- Whatever the hashes are, a ring gives every key one of its shards and moves keys to a new shard
only, and the shards answer as one map answers, except that they refuse a new key at capacity, if
and only if nothing is put into a shard with room or taken out of one whose lock does not let it be
read while it is written, and no key is put anew into a shard at capacity. -/
theorem one_map_iff (hash : ComputeHash κ) (conflicts : Mode → Mode → Bool)
    (traversal : Traversal (ShardId × List κ)) {numShards virtualNodes : Nat}
    (shards : 1 ≤ numShards) (nodes : 1 ≤ virtualNodes) (calls : List (FeatureCall κ ν)) :
    (ConsistentHashRing.Consistent hash numShards virtualNodes ∧
      Performs (step hash conflicts traversal) (Agrees hash) (start hash numShards virtualNodes)
        calls) ↔
      Offered (step hash conflicts traversal) (InBounds hash conflicts)
        (start hash numShards virtualNodes) calls := by
  rw [and_iff_right (ConsistentHashRing.consistent_of_pos hash shards nodes)]
  apply @performs_iff _ _ _ fun session _ => Stands hash session.state session.image
  · exact fun session call rest stands => agrees_iff stands
  · exact fun session call rest next stands taken _ => stands_step stands taken
  · exact stands_new shards nodes

/-- Hashes that are all the same. -/
def sameHash : ComputeHash Nat := ⟨fun _ => 0, fun _ => 0⟩

/-- The groups in the order in which they were made. -/
def asGrouped : Traversal (ShardId × List Nat) := ⟨id, List.Perm.refl⟩

/-- A lock that grants all guards at once lets a value be put anew, and the lock of the program lets
keys be read. -/
theorem one_map_two : (ConsistentHashRing.Consistent sameHash 2 3 ∧
    Performs (step sameHash (fun _ _ => false) asGrouped) (Agrees sameHash) (start sameHash 2 3)
      [.insert 3 5, .insert 4 6, .insert 3 7, .getBatch [3, 9], .remove 4, .get 4]) ∧
    ConsistentHashRing.Consistent sameHash 1 1 ∧
    Performs (step sameHash exclusive asGrouped) (Agrees (ν := Nat) sameHash) (start sameHash 1 1)
      [.get 3, .remove 3, .getBatch [3]] :=
  ⟨(one_map_iff sameHash _ asGrouped (by decide) (by decide) _).mpr (by decide),
    (one_map_iff sameHash _ asGrouped (by decide) (by decide) _).mpr (by decide)⟩

/-- A state with one shard that holds the keys below a bound. -/
structure HoldsBelow (count : Nat) (state : ShardedFeatureState Nat Nat)
    (shard : FeatureShard Nat Nat) : Prop where
  ring : state.hashRing = .new sameHash 1 1
  alone : state.shards = [shard]
  size : shard.data.size = count
  keys : ∀ key, (shard.data.get key).isSome = true ↔ key < count

theorem HoldsBelow.hasShard {count : Nat} {state : ShardedFeatureState Nat Nat}
    {shard : FeatureShard Nat Nat} (holds : HoldsBelow count state shard) (key : Nat) :
    HasShard sameHash state key 0 shard :=
  ⟨by rw [holds.ring]; rfl, by rw [holds.alone]; rfl⟩

theorem HoldsBelow.next {count : Nat} {state : ShardedFeatureState Nat Nat}
    {shard : FeatureShard Nat Nat} (holds : HoldsBelow count state shard)
    (room : count < maxEntriesPerShard) :
    ∃ next after, state.insert sameHash (fun _ _ => false) count 0 = some (.ok (), next) ∧
      HoldsBelow (count + 1) next after := by
  have fresh : (shard.data.get count).isSome ≠ true := fun there =>
    absurd ((holds.keys count).mp there) (lt_irrefl count)
  have size : (shard.data.put count 0).size = count + 1 := by
    rw [Dict.size_put, if_neg fresh, holds.size]
  have fits := estimate_fits (size ▸ room : (shard.data.put count 0).size ≤ maxEntriesPerShard)
  let after : FeatureShard Nat Nat :=
    ⟨shard.data.put count 0, (shard.data.put count 0).size * 144⟩
  refine ⟨⟨state.hashRing, state.shards.set 0 after⟩, after, ?_, holds.ring, ?_, size, ?_⟩
  · rw [insert_of (holds.hasShard count), if_neg (by rw [holds.size]; omega),
      FeatureShard.result_insert fits]
    rfl
  · simp [holds.alone]
  · intro key
    show ((shard.data.put count 0).get key).isSome = true ↔ key < count + 1
    rw [Dict.get_put]
    by_cases here : key = count
    · simp [here]
    · rw [if_neg here, holds.keys]
      omega

theorem filled {count : Nat} (room : count ≤ maxEntriesPerShard) :
    ∃ session shard, exec (step sameHash (fun _ _ => false) asGrouped) (start sameHash 1 1)
        ((List.range count).map fun key => .insert key 0) = some session ∧
      HoldsBelow count session.state shard := by
  induction count with
  | zero =>
    refine ⟨start sameHash 1 1, .new, rfl, rfl, rfl, rfl, fun key => ?_⟩
    simp [FeatureShard.new, Dict.get, Dict.empty]
  | succ count ih =>
    obtain ⟨session, shard, ran, holds⟩ := ih (by omega)
    obtain ⟨next, after, inserted, held⟩ := holds.next (by omega)
    refine ⟨⟨next, session.image.put count 0, some (.inserted (.ok ()))⟩, after, ?_, held⟩
    rw [List.range_succ, List.map_append, exec_append, ran]
    simp [exec, step, answered, inserted, changed]

theorem not_performs_filled {count : Nat} (full : count = maxEntriesPerShard) :
    ¬ Performs (step sameHash (fun _ _ => false) asGrouped) (Agrees sameHash) (start sameHash 1 1)
      (((List.range count).map fun key => .insert key 0) ++ [.insert 0 1]) := by
  intro performs
  obtain ⟨session, shard, ran, holds⟩ := filled (le_of_eq full)
  have stands : Stands sameHash session.state session.image := exec_guarded
    (fun _ _ _ stands _ taken => stands_step stands taken) (stands_new (by decide) (by decide))
    (guarded_of_forall (fun _ _ => trivial) _) ran
  have met := (agrees_iff stands).mp (performs.last ran)
  have there : (session.image.get 0).isSome = true := by
    rw [← stands.same 0 0 shard (holds.hasShard 0), holds.keys, full]
    decide
  rw [InBounds, entriesBeside_of (holds.hasShard 0), holds.size, full, if_pos (le_refl _)] at met
  rw [met] at there
  cases there

/-- The lock of the program blocks the first value that is put into a shard, and with a lock that
does not, a shard at capacity refuses a new value for a key that it has. -/
theorem refuses_update :
    ¬ Performs (step sameHash exclusive asGrouped) (Agrees sameHash) (start sameHash 1 1)
      [.insert 0 0] ∧
    ¬ Performs (step sameHash (fun _ _ => false) asGrouped) (Agrees sameHash) (start sameHash 1 1)
      (((List.range maxEntriesPerShard).map fun key => .insert key 0) ++ [.insert 0 1]) := by
  refine ⟨?_, not_performs_filled rfl⟩
  rintro ⟨next, taken, -⟩
  have stuck : step sameHash exclusive asGrouped (start sameHash 1 1) (.insert 0 0) = none := rfl
  rw [stuck] at taken
  cases taken

end FeatureSession

end TradingBot.Distributed
