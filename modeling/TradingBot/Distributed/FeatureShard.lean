import TradingBot.Foundation.Dict
import TradingBot.Foundation.Locks
import TradingBot.Foundation.MachineInt

/-!
# One shard of the feature state

`FeatureShard` of `state_sharding.rs` keeps its features behind one lock. The guard for a change
lives to the end of the operation, and the estimate of the memory that is made under it takes a
guard of its own. Whether the lock grants that one is left open here; the lock of the program does
not. A lock is not poisoned, and the counters that only the statistics read are left out.
-/

open Locks MachineInt

namespace TradingBot.Distributed

/-- The lock of a shard. -/
inductive ShardLock where
  | data
  deriving DecidableEq, Repr

/-- `FeatureShard`, without the statistics of its accesses. -/
structure FeatureShard (κ ν : Type) where
  data : Dict κ ν
  memoryBytes : Nat

namespace FeatureShard

variable {κ ν : Type} [DecidableEq κ]

def new : FeatureShard κ ν where
  data := .empty
  memoryBytes := 0

section Operations

variable (conflicts : Mode → Mode → Bool)

def updateMemoryEstimate : Locked ShardLock (FeatureShard κ ν) Unit :=
  guarded conflicts .data .read (compute fun shard =>
    (u64 (shard.data.size * (64 + 8 * 10))).map fun estimated =>
      ((), { shard with memoryBytes := estimated }))

def get (key : κ) : Locked ShardLock (FeatureShard κ ν) (Option ν) :=
  guarded conflicts .data .read (view fun shard => shard.data.get key)

def insert (key : κ) (value : ν) : Locked ShardLock (FeatureShard κ ν) (Option ν) :=
  guarded conflicts .data .write do
    let oldValue ← view fun shard => shard.data.get key
    update fun shard => { shard with data := shard.data.put key value }
    updateMemoryEstimate conflicts
    pure oldValue

def remove (key : κ) : Locked ShardLock (FeatureShard κ ν) (Option ν) :=
  guarded conflicts .data .write do
    let removed ← view fun shard => shard.data.get key
    update fun shard => { shard with data := shard.data.pop key }
    if removed.isSome = true then
      updateMemoryEstimate conflicts
    pure removed

def len : Locked ShardLock (FeatureShard κ ν) Nat :=
  guarded conflicts .data .read (view fun shard => shard.data.size)

def clear : Locked ShardLock (FeatureShard κ ν) Unit := do
  guarded conflicts .data .write (update fun shard => { shard with data := .empty })
  update fun shard => { shard with memoryBytes := 0 }

end Operations

variable {conflicts : Mode → Mode → Bool} {key : κ} {value : ν} {shard : FeatureShard κ ν}

omit [DecidableEq κ] in
@[simp] theorem ends_updateMemoryEstimate {post : Unit → Thread ShardLock (FeatureShard κ ν) → Prop}
    {mode : Mode} :
    Ends (updateMemoryEstimate conflicts) post { held := [(.data, mode)], state := shard } ↔
      conflicts mode .read = false ∧ shard.data.size * 144 < u64Size ∧
        post () ⟨[(.data, mode)], { shard with memoryBytes := shard.data.size * 144 }⟩ := by
  simp [updateMemoryEstimate, u64_eq_some, Unique.exists_iff]

@[simp] theorem result_get :
    result (get conflicts key) shard = some (shard.data.get key, shard) := by
  simp [result_eq_some, get]

omit [DecidableEq κ] in
@[simp] theorem result_len : result (len conflicts) shard = some (shard.data.size, shard) := by
  simp [result_eq_some, len]

theorem result_insert (fits : (shard.data.put key value).size * 144 < u64Size) :
    result (insert conflicts key value) shard =
      if conflicts .write .read = true then none
      else some (shard.data.get key,
        ⟨shard.data.put key value, (shard.data.put key value).size * 144⟩) := by
  apply Option.ext
  rintro ⟨old, next⟩
  rw [result_eq_some]
  cases granted : conflicts .write .read with
  | true => simp [insert, granted]
  | false => simp [insert, granted, fits, Prod.ext_iff]

theorem result_remove_absent (absent : shard.data.get key = none) :
    result (remove conflicts key) shard = some (none, shard) := by
  rw [result_eq_some]
  simp [remove, absent, Dict.pop_absent absent]

theorem result_remove (found : shard.data.get key = some value)
    (fits : (shard.data.pop key).size * 144 < u64Size) :
    result (remove conflicts key) shard =
      if conflicts .write .read = true then none
      else some (some value, ⟨shard.data.pop key, (shard.data.pop key).size * 144⟩) := by
  apply Option.ext
  rintro ⟨old, next⟩
  rw [result_eq_some]
  cases granted : conflicts .write .read with
  | true => simp [remove, found, granted]
  | false => simp [remove, found, granted, fits, Prod.ext_iff]

/-! ## What completes -/

/-- A call on a shard. -/
inductive ShardCall (κ ν : Type) where
  | insert (key : κ) (value : ν)
  | get (key : κ)
  | remove (key : κ)
  | clear

/-- A call completes with the lock of the program. -/
def CallCompletes (shard : FeatureShard κ ν) : ShardCall κ ν → Prop
  | .insert key value => Completes (insert exclusive key value) shard
  | .get key => Completes (get exclusive key) shard
  | .remove key => Completes (remove exclusive key) shard
  | .clear => Completes (clear exclusive : Locked ShardLock (FeatureShard κ ν) Unit) shard

/-- Nothing is inserted, and a key that is removed is not there. -/
def CallAllowed (shard : FeatureShard κ ν) : ShardCall κ ν → Prop
  | .insert _ _ => False
  | .remove key => shard.data.get key = none
  | .get _ | .clear => True

theorem callCompletes_iff (call : ShardCall κ ν) :
    CallCompletes shard call ↔ CallAllowed shard call := by
  cases call with
  | insert key value => simp [CallCompletes, CallAllowed, Completes, insert, exclusive]
  | get key => simp [CallCompletes, CallAllowed, Completes, get]
  | remove key =>
    cases found : shard.data.get key with
    | none => simp [CallCompletes, CallAllowed, Completes, remove, found]
    | some value => simp [CallCompletes, CallAllowed, Completes, remove, found, exclusive]
  | clear => simp [CallCompletes, CallAllowed, Completes, clear]

end FeatureShard

end TradingBot.Distributed
