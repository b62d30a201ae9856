import TradingBot.Foundation.Dict
import TradingBot.Foundation.MachineInt
import TradingBot.Foundation.OrderedMap

/-!
# Feature cache

`FeatureCache` of `backend/features/feature_cache.rs`, one call at a time: entries per asset with
a time to live, the access order by which the oldest are evicted, a count per asset and the bytes
in use. A call takes its readings of the clock as arguments, in nanoseconds. The hash behind a
checksum is a parameter. A `usize` is read as a natural number; only a subtraction wraps, which is
where a counter can underflow.
-/

open MachineInt

namespace TradingBot.Features

/-- A `Vec<f64>`: the bits of its values and the number of values it has room for. -/
structure FloatVec where
  bits : List UInt64
  capacity : Nat
  /-- The values fit. -/
  enough : bits.length ≤ capacity
  deriving DecidableEq, Repr

/-- `FeatureEntry`. -/
structure FeatureEntry where
  createdNs : Nat
  lastAccessNs : Nat
  ttlMs : Nat
  data : FloatVec
  version : Nat
  checksum : UInt64

namespace FeatureEntry

variable (computeChecksum : List UInt64 → UInt64)

def new (data : FloatVec) (ttlMs version nowNs : Nat) : FeatureEntry where
  createdNs := nowNs
  lastAccessNs := nowNs
  ttlMs := ttlMs
  data := data
  version := version
  checksum := computeChecksum data.bits

def isExpired (entry : FeatureEntry) (currentTimeNs : Nat) : Bool :=
  decide (entry.ttlMs < (currentTimeNs - entry.createdNs) / 1000000)

def touch (entry : FeatureEntry) (nowNs : Nat) : FeatureEntry :=
  { entry with lastAccessNs := nowNs }

def verifyChecksum (entry : FeatureEntry) : Bool :=
  entry.checksum == computeChecksum entry.data.bits

/-- The size of an entry: 64 bytes of its own, and 8 for every value there is room for. -/
def size (entry : FeatureEntry) : Nat := 64 + entry.data.capacity * 8

end FeatureEntry

/-- `CacheStats`. -/
structure CacheStats where
  hits : Nat
  misses : Nat
  insertions : Nat
  removals : Nat
  expirations : Nat
  evictions : Nat
  corruptions : Nat

/-- `CacheStatsSnapshot`. -/
structure CacheStatsSnapshot where
  totalEntries : Nat
  hits : Nat
  misses : Nat
  hitRate : ℚ
  insertions : Nat
  removals : Nat
  expirations : Nat
  evictions : Nat
  corruptions : Nat
  memoryUsedMb : Nat
  memoryBudgetMb : Nat

/-- `FeatureCache`. -/
structure FeatureCache where
  assets : Dict Nat (Dict String FeatureEntry)
  /-- The access order of an asset: a time to the key last used then. -/
  accessOrder : Dict Nat (OrderedMap Nat String)
  entryCounts : Dict Nat Nat
  stats : CacheStats
  memoryBudgetBytes : Nat
  memoryUsedBytes : Nat

/-- `fetch_sub` of a counter, which wraps below zero. -/
def fetchSub (counter amount : Nat) : Nat :=
  if amount ≤ counter then counter - amount else u64Size + counter - amount

namespace FeatureCache

def new (memoryBudgetMb : Nat) : FeatureCache where
  assets := .empty
  accessOrder := .empty
  entryCounts := .empty
  stats := ⟨0, 0, 0, 0, 0, 0, 0⟩
  memoryBudgetBytes := memoryBudgetMb * 1024 * 1024
  memoryUsedBytes := 0

def remove (cache : FeatureCache) (assetId : Nat) (key : String) : Bool × FeatureCache :=
  match cache.assets.get assetId with
  | none => (false, cache)
  | some assetMap =>
    match assetMap.get key with
    | none => (false, cache)
    | some entry =>
      (true, { cache with
        assets := cache.assets.put assetId (assetMap.pop key)
        memoryUsedBytes := fetchSub cache.memoryUsedBytes entry.size
        entryCounts := match cache.entryCounts.get assetId with
          | some count => cache.entryCounts.put assetId (fetchSub count 1)
          | none => cache.entryCounts
        stats := { cache.stats with removals := cache.stats.removals + 1 } })

/-- The loop of `evict_expired` over the keys it has collected. -/
def dropKeys : List String → Dict String FeatureEntry → Nat → Dict String FeatureEntry × Nat
  | [], assetMap, used => (assetMap, used)
  | key :: rest, assetMap, used =>
    match assetMap.get key with
    | some entry => dropKeys rest (assetMap.pop key) (fetchSub used entry.size)
    | none => dropKeys rest assetMap used

/-- The keys `evict_expired` collects. -/
def expiredKeys (assetMap : Dict String FeatureEntry) (currentTimeNs : Nat) : List String :=
  (assetMap.entries.filter fun entry => entry.2.isExpired currentTimeNs).map Prod.fst

def evictExpired (cache : FeatureCache) (assetId currentTimeNs : Nat) : Nat × FeatureCache :=
  match cache.assets.get assetId with
  | none => (0, cache)
  | some assetMap =>
    let expired := expiredKeys assetMap currentTimeNs
    let kept := dropKeys expired assetMap cache.memoryUsedBytes
    (expired.length, { cache with
      assets := cache.assets.put assetId kept.1
      memoryUsedBytes := kept.2
      entryCounts := match cache.entryCounts.get assetId with
        | some count => cache.entryCounts.put assetId (fetchSub count expired.length)
        | none => cache.entryCounts
      stats := { cache.stats with evictions := cache.stats.evictions + expired.length } })

def evictLruEntry (cache : FeatureCache) (assetId : Nat) : Bool × FeatureCache :=
  match cache.accessOrder.get assetId with
  | none => (false, cache)
  | some orderMap =>
    match orderMap.entries.head? with
    | none => (false, cache)
    | some (accessTime, key) =>
      remove { cache with
        accessOrder := cache.accessOrder.put assetId (orderMap.erase accessTime) } assetId key

/-- The loop of `evict_if_needed`, at most so many times. -/
def evictLru (assetId requiredBytes : Nat) : Nat → FeatureCache → FeatureCache
  | 0, cache => cache
  | left + 1, cache =>
    if cache.memoryUsedBytes + requiredBytes ≤ cache.memoryBudgetBytes then cache
    else evictLru assetId requiredBytes left (cache.evictLruEntry assetId).2

/-- The number of entries `evict_if_needed` evicts at most: one for 1024 bytes, and at least ten. -/
def entriesToEvict (requiredBytes : Nat) : Nat := max ((requiredBytes + 1023) / 1024) 10

def evictIfNeeded (cache : FeatureCache) (assetId requiredBytes currentTimeNs : Nat) :
    FeatureCache :=
  let unexpired := (cache.evictExpired assetId currentTimeNs).2
  if cache.memoryUsedBytes + requiredBytes ≤ cache.memoryBudgetBytes then unexpired
  else evictLru assetId requiredBytes (entriesToEvict requiredBytes) unexpired

/-- The eviction before an insertion of so many bytes. -/
def makeRoom (cache : FeatureCache) (assetId entrySize currentTimeNs : Nat) : FeatureCache :=
  if cache.memoryBudgetBytes < cache.memoryUsedBytes + entrySize then
    cache.evictIfNeeded assetId entrySize currentTimeNs
  else cache

/-- The part of `insert_with_ttl` after the eviction. -/
def store (cache : FeatureCache) (assetId : Nat) (key : String) (entry : FeatureEntry) :
    FeatureCache :=
  let assetMap := (cache.assets.get assetId).getD .empty
  let orderMap := (cache.accessOrder.get assetId).getD .empty
  let counted := if (assetMap.get key).isSome then
      { cache.stats with hits := cache.stats.hits + 1 }
    else { cache.stats with misses := cache.stats.misses + 1 }
  { cache with
    assets := cache.assets.put assetId (assetMap.put key entry)
    accessOrder := cache.accessOrder.put assetId (orderMap.insert entry.lastAccessNs key)
    entryCounts := cache.entryCounts.put assetId ((cache.entryCounts.get assetId).getD 0 + 1)
    memoryUsedBytes := cache.memoryUsedBytes + entry.size
    stats := { counted with insertions := counted.insertions + 1 } }

def clearAsset (cache : FeatureCache) (assetId : Nat) : FeatureCache :=
  let emptied := match cache.assets.get assetId with
    | none => cache
    | some assetMap => { cache with
        assets := cache.assets.put assetId .empty
        memoryUsedBytes :=
          fetchSub cache.memoryUsedBytes (assetMap.values.map FeatureEntry.size).sum }
  { emptied with
    accessOrder := match cache.accessOrder.get assetId with
      | some _ => cache.accessOrder.put assetId .empty
      | none => cache.accessOrder
    entryCounts := match cache.entryCounts.get assetId with
      | some _ => cache.entryCounts.put assetId 0
      | none => cache.entryCounts }

def clearAll (cache : FeatureCache) : FeatureCache :=
  { cache with
    assets := .empty
    accessOrder := .empty
    entryCounts := .empty
    memoryUsedBytes := 0 }

def getStats (cache : FeatureCache) : CacheStatsSnapshot where
  totalEntries := cache.entryCounts.values.sum
  hits := cache.stats.hits
  misses := cache.stats.misses
  hitRate := if 0 < cache.stats.hits + cache.stats.misses then
      (cache.stats.hits : ℚ) / (cache.stats.hits + cache.stats.misses : Nat)
    else 0
  insertions := cache.stats.insertions
  removals := cache.stats.removals
  expirations := cache.stats.expirations
  evictions := cache.stats.evictions
  corruptions := cache.stats.corruptions
  memoryUsedMb := cache.memoryUsedBytes / (1024 * 1024)
  memoryBudgetMb := cache.memoryBudgetBytes / (1024 * 1024)

variable (computeChecksum : List UInt64 → UInt64)

/-- `insert_with_ttl`; the clock is read for the entry and again for an eviction. -/
def insertWithTtl (cache : FeatureCache) (assetId : Nat) (key : String) (data : FloatVec)
    (ttlMs version nowNs evictNs : Nat) : Except String Unit × FeatureCache :=
  let entry := FeatureEntry.new computeChecksum data ttlMs version nowNs
  (.ok (), (cache.makeRoom assetId entry.size evictNs).store assetId key entry)

/-- `get`; the clock is read for the expiry and again for the access. -/
def get (cache : FeatureCache) (assetId : Nat) (key : String) (currentTimeNs touchNs : Nat) :
    Option (List UInt64) × FeatureCache :=
  match cache.assets.get assetId with
  | none => (none, cache)
  | some assetMap =>
    match assetMap.get key with
    | none => (none, { cache with stats := { cache.stats with misses := cache.stats.misses + 1 } })
    | some entry =>
      if entry.isExpired currentTimeNs then
        let removed := (cache.remove assetId key).2
        (none, { removed with
          stats := { removed.stats with expirations := removed.stats.expirations + 1 } })
      else if !entry.verifyChecksum computeChecksum then
        (none, { cache with
          stats := { cache.stats with corruptions := cache.stats.corruptions + 1 } })
      else
        let touched := entry.touch touchNs
        (some touched.data.bits, { cache with
          assets := cache.assets.put assetId (assetMap.put key touched)
          accessOrder := match cache.accessOrder.get assetId with
            | some orderMap => cache.accessOrder.put assetId
                ((orderMap.erase touched.lastAccessNs).insert touched.lastAccessNs key)
            | none => cache.accessOrder
          stats := { cache.stats with hits := cache.stats.hits + 1 } })

end FeatureCache

end TradingBot.Features
