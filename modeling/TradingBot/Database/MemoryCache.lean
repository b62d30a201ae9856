import TradingBot.Foundation.Recency

/-!
# Memory cache

`memory_cache.py`: arrays under the hash of a symbol, a type and a timestamp, with the metadata of
each in the order of use and a total of their bytes. An array is a value with a number of bytes;
the hash, the bytes of an array and the concatenation of several are parameters. The loop that
makes room for an array has no result where it does not end.
-/

namespace TradingBot.Database

/-- `CacheEntryType`. -/
inductive CacheEntryType where
  | tick
  | orderBook
  | trade
  | signal
  | metric

/-- The type with a value, or `METRIC`. -/
def CacheEntryType.ofValue : String → CacheEntryType
  | "tick" => .tick
  | "order_book" => .orderBook
  | "trade" => .trade
  | "signal" => .signal
  | _ => .metric

/-- `CacheMetadata`, less the times of the clock. -/
structure CacheMetadata where
  key : String
  entryType : CacheEntryType
  sizeBytes : Nat
  accessCount : Nat
  symbol : String

def CacheMetadata.touch (metadata : CacheMetadata) : CacheMetadata :=
  { metadata with accessCount := metadata.accessCount + 1 }

/-- `CacheStats`. -/
structure CacheStats where
  totalEntries : Int
  totalSizeBytes : Int
  hits : Nat
  misses : Nat
  evictions : Nat

/-- `CacheStats()`. -/
def CacheStats.empty : CacheStats := ⟨0, 0, 0, 0, 0⟩

/-- What the cache takes of an array. -/
structure Arrays (α : Type) where
  nbytes : α → Nat
  /-- `np.concatenate`, which refuses arrays that do not fit together. -/
  concatenate : List α → Except String α

/-- `MemoryCache`, less its shared memory block. -/
structure MemoryCache (α : Type) where
  maxSize : Nat
  /-- In the order of use, the least recent one first. -/
  metadata : Dict String CacheMetadata
  dataStore : Dict String α
  stats : CacheStats

namespace MemoryCache

variable {α : Type}

def maxCacheSizeBytes : Nat := 6 * 1024 * 1024 * 1024

/-- `MemoryCache`; no size and a size of zero mean the largest one. -/
def new (maxSize : Option Nat) : MemoryCache α where
  maxSize := (maxSize.filter (· ≠ 0)).getD maxCacheSizeBytes
  metadata := .empty
  dataStore := .empty
  stats := .empty

def generateKey (hash : String → String) (symbol dataType : String) (timestamp : Int) : String :=
  hash s!"{symbol}:{dataType}:{timestamp}"

/-- `_evict_lru`, with the key that it logs. -/
def evictLru (cache : MemoryCache α) : Option String × MemoryCache α :=
  match cache.metadata.entries with
  | [] => (none, cache)
  | (oldestKey, oldestMeta) :: _ =>
    (some oldestKey, { cache with
      metadata := cache.metadata.pop oldestKey
      dataStore := cache.dataStore.pop oldestKey
      stats := { cache.stats with
        totalEntries := cache.stats.totalEntries - 1
        totalSizeBytes := cache.stats.totalSizeBytes - oldestMeta.sizeBytes
        evictions := cache.stats.evictions + 1 } })

/-- The loop of `put` over `_evict_lru`, with the keys that it logs, if it ends within a number of
passes. -/
def evictUntil (dataSize : Nat) : Nat → MemoryCache α → Option (List String × MemoryCache α)
  | passes, cache =>
    if cache.maxSize < cache.stats.totalSizeBytes + dataSize then
      match passes with
      | 0 => none
      | left + 1 =>
        let (evicted, after) := cache.evictLru
        (evictUntil dataSize left after).map fun (later, final) =>
          (evicted.toList ++ later, final)
    else some ([], cache)

/-- The loop of `put`. Each pass takes an entry out, and one that finds none changes nothing, so
that the loop ends within as many passes as there are entries or never. -/
def makeRoom (cache : MemoryCache α) (dataSize : Nat) : Option (List String × MemoryCache α) :=
  evictUntil dataSize cache.metadata.size cache

/-- The part of `put` after the loop. -/
def store (arrays : Arrays α) (cache : MemoryCache α) (key symbol dataType : String) (data : α) :
    MemoryCache α :=
  let size := arrays.nbytes data
  let dataStore := cache.dataStore.put key data
  let entry : CacheMetadata := ⟨key, .ofValue dataType, size, 0, symbol⟩
  let moved := if (cache.metadata.get key).isSome then cache.metadata.moveToEnd key
    else cache.metadata
  let metadata := moved.put key entry
  { cache with
    metadata := metadata
    dataStore := dataStore
    stats := { cache.stats with
      totalEntries := metadata.size
      totalSizeBytes := cache.stats.totalSizeBytes + size } }

/-- `put`, with the keys that it evicts. -/
def put (hash : String → String) (arrays : Arrays α) (cache : MemoryCache α)
    (symbol dataType : String) (timestamp : Int) (data : α) :
    Option (List String × String × MemoryCache α) :=
  let key := generateKey hash symbol dataType timestamp
  (cache.makeRoom (arrays.nbytes data)).map fun (evicted, roomy) =>
    (evicted, key, roomy.store arrays key symbol dataType data)

/-- An entry is touched and moved to the end. -/
def touch (cache : MemoryCache α) (key : String) : MemoryCache α :=
  match cache.metadata.get key with
  | some entry => { cache with metadata := (cache.metadata.put key entry.touch).moveToEnd key }
  | none => cache

/-- A hit is counted. -/
def hit (cache : MemoryCache α) : MemoryCache α :=
  { cache with stats := { cache.stats with hits := cache.stats.hits + 1 } }

/-- A miss is counted. -/
def miss (cache : MemoryCache α) : MemoryCache α :=
  { cache with stats := { cache.stats with misses := cache.stats.misses + 1 } }

def get (cache : MemoryCache α) (key : String) : Option α × MemoryCache α :=
  match cache.dataStore.get key with
  | none => (none, cache.miss)
  | some data => (some data, (cache.touch key).hit)

/-- The timestamps of `range(start_ts, end_ts + 1)`. -/
def timestamps (startTs endTs : Int) : List Int :=
  (List.range (endTs + 1 - startTs).toNat).map fun offset => startTs + offset

/-- One pass of the loop of `get_ticks`, which looks up a key. -/
def collect (found : List α × MemoryCache α) (key : String) : List α × MemoryCache α :=
  match found.2.dataStore.get key with
  | none => (found.1, found.2.miss)
  | some data => (found.1 ++ [data], (found.2.touch key).hit)

def getTicks (hash : String → String) (arrays : Arrays α) (cache : MemoryCache α)
    (symbol : String) (startTs endTs : Int) : Except String (Option α) × MemoryCache α :=
  let keys := (timestamps startTs endTs).map (generateKey hash symbol "tick")
  let (matching, after) := keys.foldl collect ([], cache)
  (if matching = [] then .ok none else (arrays.concatenate matching).map some, after)

def clear (cache : MemoryCache α) : MemoryCache α :=
  { cache with metadata := .empty, dataStore := .empty, stats := .empty }

/-! ## The loop of `put` -/

section Loop

variable {cache : MemoryCache α} {dataSize : Nat} {oldest : String} {entry : CacheMetadata}
  {rest : List (String × CacheMetadata)}

theorem evictLru_first (first : cache.metadata.entries = (oldest, entry) :: rest) :
    cache.evictLru = (some oldest, { cache with
      metadata := cache.metadata.pop oldest
      dataStore := cache.dataStore.pop oldest
      stats := { cache.stats with
        totalEntries := cache.stats.totalEntries - 1
        totalSizeBytes := cache.stats.totalSizeBytes - entry.sizeBytes
        evictions := cache.stats.evictions + 1 } }) := by
  unfold evictLru
  rw [first]

theorem evictUntil_roomy (passes : Nat)
    (roomy : cache.stats.totalSizeBytes + dataSize ≤ cache.maxSize) :
    evictUntil dataSize passes cache = some ([], cache) := by
  unfold evictUntil
  exact if_neg (Int.not_lt.mpr roomy)

theorem evictUntil_succ (passes : Nat)
    (full : cache.maxSize < cache.stats.totalSizeBytes + dataSize)
    (first : cache.metadata.entries = (oldest, entry) :: rest) :
    evictUntil dataSize (passes + 1) cache =
      (evictUntil dataSize passes cache.evictLru.2).map fun found =>
        (oldest :: found.1, found.2) := by
  have logged := congrArg Prod.fst (evictLru_first first)
  conv_lhs => unfold evictUntil
  rw [if_pos full]
  dsimp only
  rw [logged]
  rfl

theorem evictUntil_empty (passes : Nat)
    (full : cache.maxSize < cache.stats.totalSizeBytes + dataSize)
    (empty : cache.metadata.entries = []) : evictUntil dataSize passes cache = none := by
  have unchanged : cache.evictLru = (none, cache) := by
    unfold evictLru
    rw [empty]
  induction passes with
  | zero =>
    unfold evictUntil
    exact if_pos full
  | succ passes ih =>
    unfold evictUntil
    rw [if_pos full]
    dsimp only
    rw [unchanged, ih]
    rfl

theorem entries_evictLru (first : cache.metadata.entries = (oldest, entry) :: rest) :
    cache.evictLru.2.metadata.entries = rest := by
  rw [evictLru_first first]
  exact Dict.entries_pop_head first

theorem evictUntil_more (dataSize more : Nat) (cache : MemoryCache α) :
    evictUntil dataSize (cache.metadata.size + more) cache = cache.makeRoom dataSize := by
  have whole : ∀ (entries : List (String × CacheMetadata)) (cache : MemoryCache α),
      cache.metadata.entries = entries →
        evictUntil dataSize (entries.length + more) cache =
          evictUntil dataSize entries.length cache := by
    intro entries
    induction entries with
    | nil =>
      intro cache empty
      by_cases roomy : cache.stats.totalSizeBytes + dataSize ≤ cache.maxSize
      · rw [evictUntil_roomy _ roomy, evictUntil_roomy _ roomy]
      · have full := Int.not_le.mp roomy
        rw [evictUntil_empty _ full empty, evictUntil_empty _ full empty]
    | cons first rest ih =>
      intro cache parts
      by_cases roomy : cache.stats.totalSizeBytes + dataSize ≤ cache.maxSize
      · rw [evictUntil_roomy _ roomy, evictUntil_roomy _ roomy]
      · have full := Int.not_le.mp roomy
        rw [List.length_cons, Nat.add_right_comm, evictUntil_succ _ full parts,
          evictUntil_succ _ full parts, ih _ (entries_evictLru parts)]
  exact whole cache.metadata.entries cache rfl

end Loop

end MemoryCache

end TradingBot.Database
