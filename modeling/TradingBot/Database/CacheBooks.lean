import Mathlib.Algebra.Order.Ring.Nat
import TradingBot.Database.MemoryCache
import TradingBot.Foundation.Run

/-!
# The books of the memory cache

A put adds the bytes of its array to the total and does not take off those of the array that it
replaces. The loop before it takes the least recently used entries out until the total leaves room,
and goes on for ever once there is none left.
-/

open Run Recency

namespace TradingBot.Database

namespace CacheBooks

variable {α : Type}

/-- A call on the cache. -/
inductive CacheCall (α : Type) where
  | put (symbol dataType : String) (timestamp : Int) (data : α)
  | get (key : String)
  | getTicks (symbol : String) (startTs endTs : Int)
  | clear

/-- A cache with the journal of what was put, looked up, evicted and cleared. -/
structure Session (α : Type) where
  cache : MemoryCache α
  journal : List (Change String α)

/-- A session of a new cache. -/
def Session.start (maxSize : Option Nat) : Session α := ⟨.new maxSize, []⟩

/-- A journal with the keys that are evicted, one after the other. -/
def withRemoved (journal : List (Change String α)) (evicted : List String) :
    List (Change String α) :=
  evicted.foldl (fun journal key => .removed key :: journal) journal

/-- A journal with the keys that are looked up, one after the other. -/
def withUsed (journal : List (Change String α)) (keys : List String) : List (Change String α) :=
  keys.foldl (fun journal key => .used key :: journal) journal

/-- A session after a call; a put that does not end has no session after it. -/
def step (hash : String → String) (arrays : Arrays α) (session : Session α) :
    CacheCall α → Option (Session α)
  | .put symbol dataType timestamp data =>
    (session.cache.put hash arrays symbol dataType timestamp data).map
      fun (evicted, key, cache) =>
        ⟨cache, .put key data :: withRemoved session.journal evicted⟩
  | .get key => some ⟨(session.cache.get key).2, .used key :: session.journal⟩
  | .getTicks symbol startTs endTs =>
    let keys := (MemoryCache.timestamps startTs endTs).map
      (MemoryCache.generateKey hash symbol "tick")
    some ⟨(session.cache.getTicks hash arrays symbol startTs endTs).2,
      withUsed session.journal keys⟩
  | .clear => some ⟨session.cache.clear, .cleared :: session.journal⟩

/-- The books of a cache are those of its content: the metadata and the data have the same keys, the
numbers of entries and bytes are theirs and the bytes are in the limit, a lookup finds what was put
last and not evicted since, and every eviction took the entry whose last use was oldest. -/
structure Booked (arrays : Arrays α) (session : Session α) : Prop where
  sameKeys : ∀ key, key ∈ session.cache.metadata.keys ↔ key ∈ session.cache.dataStore.keys
  entries : session.cache.stats.totalEntries = session.cache.metadata.size
  bytes : session.cache.stats.totalSizeBytes =
    ((session.cache.dataStore.values.map arrays.nbytes).sum : Nat)
  limited : session.cache.stats.totalSizeBytes ≤ session.cache.maxSize
  answers : ∀ key, (session.cache.get key).1 = held session.journal key
  oldest : RemovesOldest session.journal

/-- The bytes of the entry at a key and of those used after it. -/
def sizeFrom (key : String) (entries : List (String × CacheMetadata)) : Nat :=
  ((entries.dropWhile fun entry => entry.1 ≠ key).map fun entry => entry.2.sizeBytes).sum

/-- The array of a put is not larger than the cache, and what it replaces has no bytes or is evicted
before: it does not fit in together with the entries from there on. -/
def Fits (hash : String → String) (arrays : Arrays α) (session : Session α) :
    CacheCall α → Prop
  | .put symbol dataType timestamp data =>
    let key := MemoryCache.generateKey hash symbol dataType timestamp
    arrays.nbytes data ≤ session.cache.maxSize ∧
      ∀ old ∈ session.cache.dataStore.get key, arrays.nbytes old = 0 ∨
        session.cache.maxSize < sizeFrom key session.cache.metadata.entries + arrays.nbytes data
  | _ => True

/-- What every call keeps of the books. -/
structure Sound (arrays : Arrays α) (session : Session α) : Prop where
  sizes : ∀ key, (session.cache.metadata.get key).map CacheMetadata.sizeBytes =
    (session.cache.dataStore.get key).map arrays.nbytes
  entries : session.cache.stats.totalEntries = session.cache.metadata.size
  answers : ∀ key, session.cache.dataStore.get key = held session.journal key
  order : Follows session.journal session.cache.metadata.keys
  oldest : RemovesOldest session.journal

/-- The bytes of the entries of a cache. -/
def content (cache : MemoryCache α) : Nat :=
  (cache.metadata.values.map CacheMetadata.sizeBytes).sum

/-- The total is that of the entries. -/
def Balanced (cache : MemoryCache α) : Prop := cache.stats.totalSizeBytes = content cache

/-! ## Entries -/

section Entries

variable {key oldest : String} {entry : CacheMetadata}
  {entries rest : List (String × CacheMetadata)} {cache : MemoryCache α}

theorem content_eq (cache : MemoryCache α) :
    content cache = (cache.metadata.entries.map fun entry => entry.2.sizeBytes).sum := by
  unfold content Dict.values
  rw [List.map_map]
  rfl

theorem sizeFrom_le (key : String) (entries : List (String × CacheMetadata)) :
    sizeFrom key entries ≤ (entries.map fun entry => entry.2.sizeBytes).sum := by
  have parts : entries.takeWhile (fun entry => entry.1 ≠ key) ++
      entries.dropWhile (fun entry => entry.1 ≠ key) = entries :=
    List.takeWhile_append_dropWhile
  conv_rhs => rw [← parts]
  rw [List.map_append, List.sum_append]
  exact Nat.le_add_left _ _

theorem sizeFrom_head (entry : CacheMetadata) (rest : List (String × CacheMetadata)) :
    sizeFrom key ((key, entry) :: rest) =
      (((key, entry) :: rest).map fun entry => entry.2.sizeBytes).sum := by
  unfold sizeFrom
  rw [List.dropWhile_cons_of_neg (by simp)]

theorem sizeFrom_tail (differs : oldest ≠ key) (entry : CacheMetadata)
    (rest : List (String × CacheMetadata)) :
    sizeFrom key ((oldest, entry) :: rest) = sizeFrom key rest := by
  unfold sizeFrom
  rw [List.dropWhile_cons_of_pos (by simpa using differs)]

end Entries

/-! ## Evictions -/

section Evictions

variable {arrays : Arrays α} {cache : MemoryCache α} {journal : List (Change String α)}
  {oldest key : String} {entry : CacheMetadata} {rest : List (String × CacheMetadata)}
  {dataSize : Nat}

section

variable (sound : Sound arrays ⟨cache, journal⟩)
include sound

theorem Sound.content_eq : content cache = (cache.dataStore.values.map arrays.nbytes).sum :=
  Dict.sum_congr fun key => congrArg (Option.getD · 0) (sound.sizes key)

theorem Sound.sameKeys (key : String) : key ∈ cache.metadata.keys ↔ key ∈ cache.dataStore.keys := by
  have same := congrArg Option.isSome (sound.sizes key)
  rw [Option.isSome_map, Option.isSome_map] at same
  rw [Dict.mem_keys, Dict.mem_keys, ← Option.isSome_iff_exists, ← Option.isSome_iff_exists]
  exact Bool.eq_iff_iff.mp same

theorem Sound.booked_iff : Booked arrays ⟨cache, journal⟩ ↔
      Balanced cache ∧ cache.stats.totalSizeBytes ≤ cache.maxSize := by
  constructor
  · intro booked
    refine ⟨?_, booked.limited⟩
    unfold Balanced
    rw [sound.content_eq]
    exact booked.bytes
  · rintro ⟨balanced, limited⟩
    refine ⟨sound.sameKeys, sound.entries, ?_, limited, fun key => ?_, sound.oldest⟩
    · unfold Balanced at balanced
      rw [sound.content_eq] at balanced
      exact balanced
    · rw [← sound.answers key]
      unfold MemoryCache.get
      cases cache.dataStore.get key with
      | none => rfl
      | some data => rfl

theorem evictLru_sound (first : cache.metadata.entries = (oldest, entry) :: rest) :
    Sound arrays ⟨cache.evictLru.2, .removed oldest :: journal⟩ := by
  have keys : cache.metadata.keys = oldest :: rest.map Prod.fst := by
    unfold Dict.keys
    rw [first]
    rfl
  have order := sound.order
  rw [keys] at order
  have left := MemoryCache.entries_evictLru first
  have size : cache.metadata.size = rest.length + 1 := by
    unfold Dict.size
    rw [first]
    rfl
  have entries : cache.stats.totalEntries = cache.metadata.size := sound.entries
  rw [MemoryCache.evictLru_first first] at left ⊢
  have left : (cache.metadata.pop oldest).entries = rest := left
  constructor
  · intro key
    show ((cache.metadata.pop oldest).get key).map _ = ((cache.dataStore.pop oldest).get key).map _
    rw [Dict.get_pop, Dict.get_pop]
    by_cases same : key = oldest
    · rw [if_pos same, if_pos same]
      rfl
    · rw [if_neg same, if_neg same]
      exact sound.sizes key
  · show cache.stats.totalEntries - 1 = ((cache.metadata.pop oldest).entries.length : Nat)
    rw [left]
    omega
  · intro key
    show (cache.dataStore.pop oldest).get key = if key = oldest then none else held journal key
    rw [Dict.get_pop, ← sound.answers key]
  · show Follows _ ((cache.metadata.pop oldest).entries.map Prod.fst)
    rw [left]
    exact order.removed
  · exact ⟨order.oldest, sound.oldest⟩

end

theorem evictLru_balanced (balanced : Balanced cache)
    (first : cache.metadata.entries = (oldest, entry) :: rest) :
    Balanced cache.evictLru.2 := by
  have left := MemoryCache.entries_evictLru first
  have total : cache.evictLru.2.stats.totalSizeBytes =
      cache.stats.totalSizeBytes - entry.sizeBytes := by
    rw [MemoryCache.evictLru_first first]
  unfold Balanced at balanced ⊢
  rw [content_eq, first, List.map_cons, List.sum_cons] at balanced
  rw [content_eq, left, total, balanced]
  push_cast
  omega

theorem maxSize_evictLru (cache : MemoryCache α) : cache.evictLru.2.maxSize = cache.maxSize := by
  unfold MemoryCache.evictLru
  split <;> rfl

theorem evictUntil_oversized (oversized : cache.maxSize < dataSize) (balanced : Balanced cache) :
    MemoryCache.evictUntil dataSize cache.metadata.entries.length cache = none := by
  generalize parts : cache.metadata.entries = entries
  induction entries generalizing cache with
  | nil =>
    refine MemoryCache.evictUntil_empty _ ?_ parts
    unfold Balanced at balanced
    omega
  | cons first rest ih =>
    have full : (cache.maxSize : Int) < cache.stats.totalSizeBytes + dataSize := by
      unfold Balanced at balanced
      omega
    have later := ih (by rwa [maxSize_evictLru]) (evictLru_balanced balanced parts)
      (MemoryCache.entries_evictLru parts)
    rw [List.length_cons, MemoryCache.evictUntil_succ _ full parts, later]
    rfl

/-- An array that is not larger than the cache finds room: the loop keeps the books and takes out
the entries that do not fit in with the array and those used after them. -/
theorem evictUntil_ends (small : dataSize ≤ cache.maxSize) (sound : Sound arrays ⟨cache, journal⟩)
    (balanced : Balanced cache) :
    ∃ evicted roomy,
      MemoryCache.evictUntil dataSize cache.metadata.entries.length cache =
        some (evicted, roomy) ∧
      Sound arrays ⟨roomy, withRemoved journal evicted⟩ ∧ Balanced roomy ∧
      roomy.maxSize = cache.maxSize ∧ content roomy + dataSize ≤ cache.maxSize ∧
      ∀ key, roomy.metadata.get key =
        if cache.maxSize < sizeFrom key cache.metadata.entries + dataSize then none
        else cache.metadata.get key := by
  generalize parts : cache.metadata.entries = entries
  induction entries generalizing cache journal with
  | nil =>
    have none_ : content cache = 0 := by
      rw [content_eq, parts]
      rfl
    have roomy : cache.stats.totalSizeBytes + dataSize ≤ cache.maxSize := by
      unfold Balanced at balanced
      omega
    refine ⟨[], cache, MemoryCache.evictUntil_roomy _ roomy, sound, balanced, rfl, by omega, ?_⟩
    intro key
    have nothing : sizeFrom key [] = 0 := rfl
    rw [nothing, if_neg (by omega)]
  | cons first rest ih =>
    obtain ⟨oldest, entry⟩ := first
    by_cases roomy : cache.stats.totalSizeBytes + dataSize ≤ cache.maxSize
    · have fits : content cache + dataSize ≤ cache.maxSize := by
        unfold Balanced at balanced
        omega
      refine ⟨[], cache, MemoryCache.evictUntil_roomy _ roomy, sound, balanced, rfl, fits, ?_⟩
      intro key
      have part := sizeFrom_le key ((oldest, entry) :: rest)
      rw [content_eq, parts] at fits
      rw [if_neg (by omega)]
    · have full := Int.not_le.mp roomy
      obtain ⟨evicted, final, ended, kept, balancedAfter, same, fits, left⟩ :=
        ih (by rwa [maxSize_evictLru]) (evictLru_sound sound parts)
          (evictLru_balanced balanced parts) (MemoryCache.entries_evictLru parts)
      rw [maxSize_evictLru] at same fits left
      refine ⟨oldest :: evicted, final, ?_, kept, balancedAfter, same, fits, fun key => ?_⟩
      · rw [List.length_cons, MemoryCache.evictUntil_succ _ full parts, ended]
        rfl
      · have popped : cache.evictLru.2.metadata.get key =
            if key = oldest then none else cache.metadata.get key := by
          rw [MemoryCache.evictLru_first parts]
          exact Dict.get_pop _ _ _
        rw [left, popped]
        by_cases here : key = oldest
        · have whole : cache.maxSize < sizeFrom key ((oldest, entry) :: rest) + dataSize := by
            rw [here, sizeFrom_head, ← parts, ← content_eq]
            unfold Balanced at balanced
            omega
          rw [if_pos here, ite_self, if_pos whole]
        · rw [if_neg here, sizeFrom_tail (Ne.symm here)]

end Evictions

/-! ## Calls -/

section Calls

variable {hash : String → String} {arrays : Arrays α} {cache : MemoryCache α}
  {journal : List (Change String α)} {key : String}

theorem get_sound (sound : Sound arrays ⟨cache, journal⟩) (key : String) :
    Sound arrays ⟨(cache.get key).2, .used key :: journal⟩ ∧
      content (cache.get key).2 = content cache ∧
      (cache.get key).2.stats.totalSizeBytes = cache.stats.totalSizeBytes ∧
      (cache.get key).2.maxSize = cache.maxSize := by
  unfold MemoryCache.get
  cases found : cache.dataStore.get key with
  | none =>
    have absent : key ∉ cache.metadata.keys := by
      rw [sound.sameKeys, Dict.mem_keys, found]
      exact fun ⟨_, there⟩ => nomatch there
    refine ⟨⟨sound.sizes, sound.entries, sound.answers, sound.order.missed absent, sound.oldest⟩,
      rfl, rfl, rfl⟩
  | some data =>
    have present : key ∈ cache.metadata.keys := by
      rw [sound.sameKeys, Dict.mem_keys]
      exact ⟨data, found⟩
    obtain ⟨entry, there⟩ := Dict.mem_keys.mp present
    have touched : cache.touch key =
        { cache with metadata := (cache.metadata.pop key).put key entry.touch } := by
      unfold MemoryCache.touch
      rw [there]
      exact congrArg (fun moved => { cache with metadata := moved }) (Dict.moveToEnd_put _ _ _)
    dsimp only
    rw [touched]
    refine ⟨⟨fun other => ?_, ?_, sound.answers, ?_, sound.oldest⟩, ?_, rfl, rfl⟩
    · show (((cache.metadata.pop key).put key entry.touch).get other).map _ =
        (cache.dataStore.get other).map arrays.nbytes
      refine Eq.trans ?_ (sound.sizes other)
      show _ = (cache.metadata.get other).map _
      rw [Dict.get_pop_put]
      by_cases same : other = key
      · rw [if_pos same, same, there]
        rfl
      · rw [if_neg same]
    · show cache.stats.totalEntries = (((cache.metadata.pop key).put key entry.touch).size : Nat)
      rw [Dict.size_pop_put, Dict.size_put, there]
      exact sound.entries
    · show Follows _ ((cache.metadata.pop key).put key entry.touch).keys
      rw [Dict.keys_pop_put]
      exact sound.order.used present
    · have moved := Dict.sum_pop_put CacheMetadata.sizeBytes cache.metadata key entry.touch
      rw [there] at moved
      exact Nat.add_right_cancel moved

theorem collect_get (found : List α × MemoryCache α) (key : String) :
    (MemoryCache.collect found key).2 = (found.2.get key).2 := by
  unfold MemoryCache.collect MemoryCache.get
  cases found.2.dataStore.get key with
  | none => rfl
  | some data => rfl

theorem collect_sound (keys : List String) (found : List α × MemoryCache α)
    (sound : Sound arrays ⟨found.2, journal⟩) :
    Sound arrays ⟨(keys.foldl MemoryCache.collect found).2, withUsed journal keys⟩ ∧
      content (keys.foldl MemoryCache.collect found).2 = content found.2 ∧
      (keys.foldl MemoryCache.collect found).2.stats.totalSizeBytes =
        found.2.stats.totalSizeBytes ∧
      (keys.foldl MemoryCache.collect found).2.maxSize = found.2.maxSize := by
  induction keys generalizing found journal with
  | nil => exact ⟨sound, rfl, rfl, rfl⟩
  | cons key rest ih =>
    obtain ⟨kept, size, total, limit⟩ := get_sound sound key
    rw [← collect_get] at kept size total limit
    obtain ⟨keptAfter, sizeAfter, totalAfter, limitAfter⟩ := ih _ kept
    exact ⟨keptAfter, sizeAfter.trans size, totalAfter.trans total, limitAfter.trans limit⟩

theorem store_sound (sound : Sound arrays ⟨cache, journal⟩) (key symbol dataType : String)
    (data : α) :
    Sound arrays ⟨cache.store arrays key symbol dataType data, .put key data :: journal⟩ := by
  unfold MemoryCache.store
  dsimp only
  rw [Dict.put_moved]
  constructor
  · intro other
    show (((cache.metadata.pop key).put key _).get other).map _ =
      ((cache.dataStore.put key data).get other).map _
    rw [Dict.get_pop_put, Dict.get_put]
    by_cases same : other = key
    · rw [if_pos same, if_pos same]
      rfl
    · rw [if_neg same, if_neg same]
      exact sound.sizes other
  · rfl
  · intro other
    show (cache.dataStore.put key data).get other =
      if other = key then some data else held journal other
    rw [Dict.get_put, ← sound.answers other]
  · show Follows _ ((cache.metadata.pop key).put key _).keys
    rw [Dict.keys_pop_put]
    exact sound.order.put key data
  · exact sound.oldest

theorem store_balanced (balanced : Balanced cache) (key symbol dataType : String) (data : α) :
    Balanced (cache.store arrays key symbol dataType data) ↔
      ((cache.metadata.get key).map CacheMetadata.sizeBytes).getD 0 = 0 := by
  have total : (cache.store arrays key symbol dataType data).stats.totalSizeBytes =
      cache.stats.totalSizeBytes + arrays.nbytes data := rfl
  have stored : (cache.store arrays key symbol dataType data).metadata =
      (cache.metadata.pop key).put key ⟨key, .ofValue dataType, arrays.nbytes data, 0, symbol⟩ :=
    Dict.put_moved _ _ _
  have moved : content (cache.store arrays key symbol dataType data) +
      ((cache.metadata.get key).map CacheMetadata.sizeBytes).getD 0 =
        content cache + arrays.nbytes data := by
    unfold content
    rw [stored]
    exact Dict.sum_pop_put CacheMetadata.sizeBytes cache.metadata key _
  have before : cache.stats.totalSizeBytes = content cache := balanced
  unfold Balanced
  omega

theorem put_ends (sound : Sound arrays ⟨cache, journal⟩) (balanced : Balanced cache)
    (symbol dataType : String) (timestamp : Int) {data : α}
    (small : arrays.nbytes data ≤ cache.maxSize) :
    ∃ next, step hash arrays ⟨cache, journal⟩ (.put symbol dataType timestamp data) = some next ∧
      Sound arrays next ∧
      (Booked arrays next ↔
        Fits hash arrays ⟨cache, journal⟩ (.put symbol dataType timestamp data)) := by
  generalize named : MemoryCache.generateKey hash symbol dataType timestamp = key
  obtain ⟨evicted, roomy, ended, kept, balancedAfter, limit, fits, left⟩ :=
    evictUntil_ends small sound balanced
  have keptAfter := store_sound kept key symbol dataType data
  have limited : (roomy.store arrays key symbol dataType data).stats.totalSizeBytes ≤
      (roomy.store arrays key symbol dataType data).maxSize := by
    show roomy.stats.totalSizeBytes + arrays.nbytes data ≤ (roomy.maxSize : Int)
    have total : roomy.stats.totalSizeBytes = content roomy := balancedAfter
    omega
  have taken : step hash arrays ⟨cache, journal⟩ (.put symbol dataType timestamp data) =
      some ⟨roomy.store arrays key symbol dataType data,
        .put key data :: withRemoved journal evicted⟩ := by
    have made : cache.makeRoom (arrays.nbytes data) = some (evicted, roomy) := ended
    unfold step MemoryCache.put
    dsimp only
    rw [made, named]
    rfl
  refine ⟨_, taken, keptAfter, keptAfter.booked_iff.trans ?_⟩
  rw [and_iff_left limited, store_balanced balancedAfter, left key]
  show _ ↔ arrays.nbytes data ≤ cache.maxSize ∧
    ∀ old ∈ cache.dataStore.get (MemoryCache.generateKey hash symbol dataType timestamp), _
  rw [named, and_iff_right small]
  have size := sound.sizes key
  by_cases evictedBefore :
      cache.maxSize < sizeFrom key cache.metadata.entries + arrays.nbytes data
  · rw [if_pos evictedBefore]
    exact iff_of_true rfl fun _ _ => .inr evictedBefore
  · rw [if_neg evictedBefore]
    have size : (cache.metadata.get key).map CacheMetadata.sizeBytes =
        (cache.dataStore.get key).map arrays.nbytes := size
    rw [size]
    cases cache.dataStore.get key with
    | none => exact iff_of_true rfl nofun
    | some old =>
      simp only [Option.map_some, Option.getD_some, Option.mem_some_iff, forall_eq']
      exact (or_iff_left evictedBefore).symm

theorem put_oversized (balanced : Balanced cache) (symbol dataType : String) (timestamp : Int)
    {data : α} (oversized : cache.maxSize < arrays.nbytes data) :
    step hash arrays ⟨cache, journal⟩ (.put symbol dataType timestamp data) = none := by
  have endless : cache.makeRoom (arrays.nbytes data) = none :=
    evictUntil_oversized oversized balanced
  unfold step MemoryCache.put
  dsimp only
  rw [endless]
  rfl

/-- One call is taken and kept booked exactly when it fits. -/
theorem step_exact {session : Session α} (sound : Sound arrays session)
    (booked : Booked arrays session) (call : CacheCall α) :
    (∃ next, step hash arrays session call = some next ∧ Booked arrays next) ↔
      Fits hash arrays session call := by
  obtain ⟨cache, journal⟩ := session
  obtain ⟨balanced, limited⟩ := sound.booked_iff.mp booked
  cases call with
  | put symbol dataType timestamp data =>
    by_cases small : arrays.nbytes data ≤ cache.maxSize
    · obtain ⟨next, taken, -, exact_⟩ :=
        @put_ends _ hash _ _ _ sound balanced symbol dataType timestamp _ small
      rw [← exact_]
      constructor
      · rintro ⟨other, again, holds⟩
        cases taken.symm.trans again
        exact holds
      · exact fun holds => ⟨next, taken, holds⟩
    · rw [put_oversized balanced symbol dataType timestamp (Nat.not_le.mp small)]
      exact iff_of_false nofun fun fits => small fits.1
  | get key =>
    obtain ⟨kept, size, total, limit⟩ := get_sound sound key
    refine iff_of_true ⟨_, rfl, kept.booked_iff.mpr ?_⟩ trivial
    unfold Balanced
    rw [size, total, limit]
    exact ⟨balanced, limited⟩
  | getTicks symbol startTs endTs =>
    obtain ⟨kept, size, total, limit⟩ := collect_sound ((MemoryCache.timestamps startTs endTs).map
      (MemoryCache.generateKey hash symbol "tick")) ([], cache) sound
    refine iff_of_true ⟨_, rfl, kept.booked_iff.mpr ?_⟩ trivial
    unfold Balanced
    rw [size, total, limit]
    exact ⟨balanced, limited⟩
  | clear =>
    refine iff_of_true ⟨_, rfl, ?_⟩ trivial
    exact ⟨fun _ => Iff.rfl, rfl, rfl, Int.natCast_nonneg _, fun _ => rfl, booked.oldest⟩

/-- Every call keeps the cache sound. -/
theorem step_sound {session next : Session α} {call : CacheCall α} (sound : Sound arrays session)
    (booked : Booked arrays session) (taken : step hash arrays session call = some next) :
    Sound arrays next := by
  obtain ⟨cache, journal⟩ := session
  obtain ⟨balanced, -⟩ := sound.booked_iff.mp booked
  cases call with
  | put symbol dataType timestamp data =>
    by_cases small : arrays.nbytes data ≤ cache.maxSize
    · obtain ⟨other, again, kept, -⟩ :=
        @put_ends _ hash _ _ _ sound balanced symbol dataType timestamp _ small
      cases taken.symm.trans again
      exact kept
    · rw [put_oversized balanced symbol dataType timestamp (Nat.not_le.mp small)] at taken
      cases taken
  | get key =>
    cases taken
    exact (get_sound sound key).1
  | getTicks symbol startTs endTs =>
    cases taken
    exact (collect_sound _ _ sound).1
  | clear =>
    cases taken
    exact ⟨fun _ => rfl, rfl, fun _ => rfl, follows_cleared journal, sound.oldest⟩

theorem start_sound (arrays : Arrays α) (maxSize : Option Nat) :
    Sound arrays (.start maxSize) ∧ Booked arrays (.start maxSize) :=
  ⟨⟨fun _ => rfl, rfl, fun _ => rfl, follows_nil, trivial⟩,
    ⟨fun _ => Iff.rfl, rfl, rfl, Int.natCast_nonneg _, fun _ => rfl, trivial⟩⟩

/-- The books of a new cache are right, and in every run on it every call ends with the books right,
if and only if every put that the run comes to is of an array not larger than the cache, under a key
that is not cached, or whose array there has no bytes or is evicted before. -/
theorem books_iff (hash : String → String) (arrays : Arrays α) (maxSize : Option Nat)
    (calls : List (CacheCall α)) :
    Booked arrays (.start maxSize) ∧
        Performs (step hash arrays) (fun _ _ next => Booked arrays next) (.start maxSize) calls ↔
      Offered (step hash arrays) (Fits hash arrays) (.start maxSize) calls := by
  obtain ⟨sound, booked⟩ := start_sound arrays maxSize
  rw [and_iff_right booked]
  refine @performs_iff _ _ _ (fun session _ => Sound arrays session ∧ Booked arrays session) _ _
    ?_ ?_ _ _ ⟨sound, booked⟩
  · intro session call rest kept
    exact step_exact kept.1 kept.2 call
  · intro session call rest next kept taken booked
    exact ⟨step_sound kept.1 kept.2 taken, booked⟩

/-- Arrays of bytes. -/
def bytes : Arrays (List UInt8) := ⟨List.length, fun parts => .ok parts.flatten⟩

/-- Two puts of six bytes under one key. -/
def putTwice : List (CacheCall (List UInt8)) :=
  [.put "BTC" "tick" 1 [1, 2, 3, 4, 5, 6], .put "BTC" "tick" 1 [6, 5, 4, 3, 2, 1]]

/-- The total is twelve bytes for an entry of six. -/
theorem replaced_counted_twice : ¬∀ (hash : String → String) (arrays : Arrays (List UInt8))
    (maxSize : Option Nat) (calls : List (CacheCall (List UInt8))),
    Booked arrays (.start maxSize) ∧
      Performs (step hash arrays) (fun _ _ next => Booked arrays next) (.start maxSize) calls := by
  intro claim
  obtain ⟨-, first, taken, -, second, again, booked, -⟩ := claim id bytes (some 100) putTwice
  cases taken
  cases again
  have total := booked.bytes
  revert total
  decide

end Calls

end CacheBooks

end TradingBot.Database
