import TradingBot.Features.CacheBookkeeping

/-!
# The budget of a feature cache

An insertion is to leave the entries held within the budget and to evict what is expired or used
least recently. The bytes in use are never below those held, so a call within the budget is sound;
beyond it the loop stops after a number of records guessed from the new entry, looks at one asset
only, and follows records that may be stale.
-/

open Run

namespace TradingBot.Features

namespace FeatureCache

/-! ## What an insertion is to do -/

/-- Every entry that one cache holds and another does not was expired, or was used least recently
of the entries of its asset. -/
def Justified (nowNs : Nat) (before after : FeatureCache) : Prop :=
  ∀ assetId key entry, (before.heldOf assetId).get key = some entry →
    (after.heldOf assetId).get key = none →
      entry.isExpired nowNs = true ∨ ∀ other held, (before.heldOf assetId).get other = some held →
        entry.lastAccessNs ≤ held.lastAccessNs

/-- The keys of the first records. -/
def firstKeys (cache : FeatureCache) (assetId count : Nat) : List String :=
  ((cache.orderOf assetId).entries.take count).map Prod.snd

/-- An entry can make way for a new one of its asset: it is expired, its key has one of the first
records, or it is at the same key. -/
def makesWay (cache : FeatureCache) (assetId : Nat) (key : String) (entrySize nowNs : Nat)
    (other : String) (entry : FeatureEntry) : Bool :=
  entry.isExpired nowNs || (decide (other ∈ cache.firstKeys assetId (entriesToEvict entrySize)) ||
    decide (other = key))

/-- The bytes held fit with those of a new entry, once the entries that can make way do. -/
def HasRoom (cache : FeatureCache) (assetId : Nat) (key : String) (entrySize nowNs : Nat) : Prop :=
  cache.totalSize + entrySize ≤ cache.memoryBudgetBytes +
    sizeWhere (cache.heldOf assetId) (cache.makesWay assetId key entrySize nowNs)

instance (cache : FeatureCache) (assetId : Nat) (key : String) (entrySize nowNs : Nat) :
    Decidable (cache.HasRoom assetId key entrySize nowNs) := inferInstanceAs (Decidable (_ ≤ _))

/-- Every record that the loop takes is that of an entry used least recently of those not gone
before it, or of none. -/
def OldestFirst (cache : FeatureCache) (assetId requiredBytes : Nat) (gone : FeatureEntry → Bool)
    (count : Nat) : Prop :=
  ∀ record ∈ (cache.orderOf assetId).entries,
    cache.Pops assetId requiredBytes gone count record →
      record.2 ∉ cache.keysBefore assetId record.1 →
        ∀ entry ∈ (cache.heldOf assetId).get record.2, gone entry = false →
          ∀ held ∈ (cache.heldOf assetId).entries,
            held.1 ∉ cache.keysBefore assetId record.1 → gone held.2 = false →
              entry.lastAccessNs ≤ held.2.lastAccessNs

instance (cache : FeatureCache) (assetId requiredBytes : Nat) (gone : FeatureEntry → Bool)
    (count : Nat) : Decidable (cache.OldestFirst assetId requiredBytes gone count) :=
  inferInstanceAs (Decidable (∀ _ ∈ (_ : List (Nat × String)), _ → _ → ∀ _ ∈ (_ : Option _), _ →
    ∀ _ ∈ (_ : List (String × FeatureEntry)), _ → _ → _ ≤ _))

section Budget

variable {cache made after : FeatureCache} {assetId requiredBytes count entrySize nowNs : Nat}
  {key : String} {entry new : FeatureEntry} {first : Nat × String} {rest : List (Nat × String)}

theorem justified_self (nowNs : Nat) (cache : FeatureCache) : Justified nowNs cache cache := by
  intro assetId key entry found lost
  rw [found] at lost
  cases lost

theorem justified_evictExpired (cache : FeatureCache) (assetId nowNs : Nat) :
    Justified nowNs cache (cache.evictExpired assetId nowNs).2 := by
  obtain ⟨evicts, kept⟩ := evictExpired_spec cache assetId nowNs
  intro asset key entry found lost
  by_cases here : asset = assetId
  · left
    rw [here] at found lost
    by_contra fresh
    have member : (key, entry) ∈ ((cache.evictExpired assetId nowNs).2.heldOf assetId).entries := by
      rw [kept]
      exact List.mem_filter.mpr ⟨Dict.get_eq_some.mp found, by simpa using fresh⟩
    rw [Dict.get_eq_some.mpr member] at lost
    cases lost
  · rw [evicts.heldElsewhere asset here, found] at lost
    cases lost

theorem justified_pop (records : (cache.orderOf assetId).entries = first :: rest)
    (fresh : ∀ key entry, (cache.heldOf assetId).get key = some entry →
      entry.isExpired nowNs = false) :
    Justified nowNs cache (cache.evictLruEntry assetId).2 ↔
      ∀ entry ∈ (cache.heldOf assetId).get first.2, ∀ held ∈ (cache.heldOf assetId).entries,
        entry.lastAccessNs ≤ held.2.lastAccessNs := by
  obtain ⟨evicts, -, left⟩ := evictLruEntry_pops records
  constructor
  · intro justified entry found held member
    have lost : ((cache.evictLruEntry assetId).2.heldOf assetId).get first.2 = none := by
      rw [left, Dict.get_pop, if_pos rfl]
    refine (justified assetId first.2 entry found lost).elim (fun expired => ?_) fun oldest =>
      oldest held.1 held.2 (Dict.get_eq_some.mpr member)
    exact absurd (fresh first.2 entry found ▸ expired) Bool.false_ne_true
  · intro oldest asset key entry found lost
    right
    by_cases here : asset = assetId
    · rw [here] at found lost ⊢
      rw [left, Dict.get_pop] at lost
      by_cases same : key = first.2
      · intro other held there
        exact oldest entry (same ▸ found) (other, held) (Dict.get_eq_some.mp there)
      · rw [if_neg same, found] at lost
        cases lost
    · rw [evicts.heldElsewhere asset here, found] at lost
      cases lost

variable {gone : FeatureEntry → Bool}

theorem oldestFirst_iff : cache.OldestFirst assetId requiredBytes gone count ↔
      ∀ record, cache.Pops assetId requiredBytes gone count record →
        record.2 ∉ cache.keysBefore assetId record.1 →
          ∀ entry, (cache.heldOf assetId).get record.2 = some entry → gone entry = false →
            ∀ other held, (cache.heldOf assetId).get other = some held →
              other ∉ cache.keysBefore assetId record.1 → gone held = false →
                entry.lastAccessNs ≤ held.lastAccessNs :=
  ⟨fun oldest record pops unseen entry found stays other held there =>
      oldest record pops.mem pops unseen entry found stays (other, held)
        (Dict.get_eq_some.mp there),
    fun oldest record _ pops unseen entry found stays held member =>
      oldest record pops unseen entry found stays held.1 held.2 (Dict.get_eq_some.mpr member)⟩

theorem oldestFirst_cons (records : (cache.orderOf assetId).entries = first :: rest)
    (enough : cache.totalSize ≤ cache.memoryUsedBytes)
    (exceeds : ¬cache.memoryUsedBytes + requiredBytes ≤ cache.memoryBudgetBytes) :
    cache.OldestFirst assetId requiredBytes noneGone (count + 1) ↔
      (∀ entry ∈ (cache.heldOf assetId).get first.2, ∀ held ∈ (cache.heldOf assetId).entries,
        entry.lastAccessNs ≤ held.2.lastAccessNs) ∧
      (cache.evictLruEntry assetId).2.OldestFirst assetId requiredBytes noneGone count := by
  obtain ⟨-, ordered, left⟩ := evictLruEntry_pops records
  have taken := fun record => @pops_iff _ _ count cache record _ _ records enough exceeds
  have none := keysBefore_first records
  rw [oldestFirst_iff, oldestFirst_iff, left]
  constructor
  · intro oldest
    refine ⟨fun entry found held member => ?_, fun record pops unseen entry found _ => ?_⟩
    · have unseen : ∀ other, other ∉ cache.keysBefore assetId first.1 := by
        rw [none]
        exact fun _ => List.not_mem_nil
      exact oldest first ((taken first).mpr (.inl rfl)) (unseen first.2) entry found rfl held.1
        held.2 (Dict.get_eq_some.mpr member) (unseen held.1) rfl
    · intro other held there later _
      have older := keysBefore_rest records (ordered ▸ pops.mem)
      rw [Dict.get_pop] at found there
      obtain ⟨apart, found⟩ := Option.ite_none_left_eq_some.mp found
      obtain ⟨elsewhere, there⟩ := Option.ite_none_left_eq_some.mp there
      refine oldest record ((taken record).mpr (.inr pops)) ?_ entry found rfl other held there ?_
        rfl
      · rw [older]
        exact List.not_mem_cons_of_ne_of_not_mem apart unseen
      · rw [older]
        exact List.not_mem_cons_of_ne_of_not_mem elsewhere later
  · intro both record pops unseen entry found _ other held there later _
    cases (taken record).mp pops with
    | inl here =>
      exact both.1 entry (here ▸ found) (other, held) (Dict.get_eq_some.mp there)
    | inr pops =>
      rw [keysBefore_rest records (ordered ▸ pops.mem), List.mem_cons, not_or] at unseen later
      refine both.2 record pops unseen.2 entry ?_ rfl other held ?_ later.2 rfl
      · rw [Dict.get_pop, if_neg unseen.1]
        exact found
      · rw [Dict.get_pop, if_neg later.1]
        exact there

theorem oldestFirst_of_not_pops
    (nothing : ∀ record, ¬cache.Pops assetId requiredBytes gone count record) :
    cache.OldestFirst assetId requiredBytes gone count :=
  fun record _ pops => absurd pops (nothing record)

theorem justified_evictLru (count : Nat) (cache : FeatureCache)
    (enough : cache.totalSize ≤ cache.memoryUsedBytes)
    (fresh : ∀ key entry, (cache.heldOf assetId).get key = some entry →
      entry.isExpired nowNs = false) :
    (∀ pass < count, Justified nowNs (evictLru assetId requiredBytes pass cache)
        (evictLru assetId requiredBytes (pass + 1) cache)) ↔
      cache.OldestFirst assetId requiredBytes noneGone count := by
  induction count generalizing cache with
  | zero =>
    refine iff_of_true (fun pass below => absurd below (Nat.not_lt_zero pass)) ?_
    exact oldestFirst_of_not_pops fun record pops => absurd pops.1 List.not_mem_nil
  | succ count ih =>
    cases records : (cache.orderOf assetId).entries with
    | nil =>
      refine iff_of_true (fun pass _ => ?_) (oldestFirst_of_not_pops fun record pops => ?_)
      · rw [evictLru_idle records, evictLru_idle records]
        exact justified_self nowNs cache
      · exact absurd (records ▸ pops.mem) List.not_mem_nil
    | cons first rest =>
      by_cases fits : cache.memoryUsedBytes + requiredBytes ≤ cache.memoryBudgetBytes
      · have stays : ∀ passes, evictLru assetId requiredBytes passes cache = cache := by
          intro passes
          cases passes with
          | zero => rfl
          | succ passes => exact if_pos fits
        refine iff_of_true (fun pass _ => ?_) (oldestFirst_of_not_pops fun record => not_pops fits)
        rw [stays, stays]
        exact justified_self nowNs cache
      · obtain ⟨evicts, -, left⟩ := evictLruEntry_pops records
        have goes : ∀ passes, evictLru assetId requiredBytes (passes + 1) cache =
            evictLru assetId requiredBytes passes (cache.evictLruEntry assetId).2 :=
          fun passes => if_neg fits
        have later := ih (cache.evictLruEntry assetId).2 (evicts.enough enough) (by
          intro key entry found
          rw [left, Dict.get_pop] at found
          exact fresh key entry (Option.ite_none_left_eq_some.mp found).2)
        rw [oldestFirst_cons records enough fits, ← later, ← justified_pop records fresh,
          Nat.forall_lt_succ_left]
        simp only [goes]
        rfl

theorem get_evictExpired :
    ((cache.evictExpired assetId nowNs).2.heldOf assetId).get key = some entry ↔
      (cache.heldOf assetId).get key = some entry ∧ entry.isExpired nowNs = false := by
  rw [Dict.get_eq_some, (evictExpired_spec cache assetId nowNs).2, List.mem_filter,
    ← Dict.get_eq_some, Bool.not_eq_true']

theorem oldestFirst_evictExpired (enough : cache.totalSize ≤ cache.memoryUsedBytes) :
    (cache.evictExpired assetId nowNs).2.OldestFirst assetId requiredBytes noneGone count ↔
      cache.OldestFirst assetId requiredBytes (fun entry => entry.isExpired nowNs) count := by
  have ordered : ∀ time, (cache.evictExpired assetId nowNs).2.keysBefore assetId time =
      cache.keysBefore assetId time := by
    intro time
    unfold keysBefore orderOf
    rw [accessOrder_evictExpired]
  rw [oldestFirst_iff, oldestFirst_iff]
  simp only [pops_evictExpired enough, ordered, get_evictExpired, noneGone, forall_const, and_imp]
  refine forall_congr' fun record => forall_congr' fun _ => forall_congr' fun _ => ?_
  refine forall_congr' fun entry => forall_congr' fun _ => forall_congr' fun _ => ?_
  exact forall_congr' fun other => forall_congr' fun held => forall_congr' fun _ =>
    ⟨fun fresh unseen stays => fresh stays unseen, fun unseen stays fresh => unseen fresh stays⟩

/-- The loop takes a record of a key. -/
def takesKey (cache : FeatureCache) (assetId requiredBytes : Nat) (gone : FeatureEntry → Bool)
    (count : Nat) (key : String) : Bool :=
  decide (∃ record ∈ (cache.orderOf assetId).entries,
    cache.Pops assetId requiredBytes gone count record ∧ record.2 = key)

theorem leaves_get (left : Leaves cache assetId requiredBytes count gone made) (key : String)
    (entry : FeatureEntry) :
    (made.heldOf assetId).get key = some entry ↔ (cache.heldOf assetId).get key = some entry ∧
      (gone entry || cache.takesKey assetId requiredBytes gone count key) = false := by
  unfold takesKey
  rw [left.entries, and_assoc, Bool.or_eq_false_iff, decide_eq_false_iff_not]
  refine and_congr_right fun _ => and_congr_right fun _ => ⟨fun stays some => ?_, fun none record
    pops same => none ⟨record, pops.mem, pops, same⟩⟩
  obtain ⟨record, -, pops, same⟩ := some
  exact stays record pops same

theorem mem_firstKeys_of_takesKey
    (takes : cache.takesKey assetId requiredBytes gone count key = true) :
    key ∈ cache.firstKeys assetId count := by
  obtain ⟨record, -, pops, same⟩ := of_decide_eq_true takes
  exact List.mem_map.mpr ⟨record, pops.1, same⟩

theorem takesKey_of_mem_firstKeys
    (all : ∀ record ∈ (cache.orderOf assetId).entries.take count,
      cache.Pops assetId requiredBytes gone count record)
    (member : key ∈ cache.firstKeys assetId count) :
    cache.takesKey assetId requiredBytes gone count key = true := by
  obtain ⟨record, there, same⟩ := List.mem_map.mp member
  exact decide_eq_true ⟨record, (all record there).mem, all record there, same⟩

/-- An entry goes out at an insertion: it is gone anyway, the loop takes a record of its key, or it
is overwritten. -/
def goesOut (cache : FeatureCache) (assetId requiredBytes : Nat) (gone : FeatureEntry → Bool)
    (count : Nat) (key other : String) (entry : FeatureEntry) : Bool :=
  (gone entry || cache.takesKey assetId requiredBytes gone count other) || decide (other = key)

theorem totalSize_insert {gone : FeatureEntry → Bool}
    (left : Leaves cache assetId requiredBytes count gone made) :
    (made.store assetId key new).totalSize +
        sizeWhere (cache.heldOf assetId) (cache.goesOut assetId requiredBytes gone count key) =
      cache.totalSize + new.size := by
  have stored := totalSize_store made assetId key new
  have evicted := left.evicts.total
  have split : sizeWhere (cache.heldOf assetId)
      (cache.goesOut assetId requiredBytes gone count key) = _ := sizeWhere_left (leaves_get left)
  have whole := @sizeWhere_left (cache.heldOf assetId) _ (fun _ _ => true) _ (leaves_get left)
  have all : sizeOf (cache.heldOf assetId) = _ :=
    (sizeWhere_congr fun _ _ _ => (Bool.or_true _).symm).trans whole
  unfold sizeOf at evicted all
  omega

theorem makesWay_of_goesOut {other : String}
    (out : cache.goesOut assetId entrySize (fun entry => entry.isExpired nowNs)
      (entriesToEvict entrySize) key other entry = true) :
    cache.makesWay assetId key entrySize nowNs other entry = true := by
  unfold goesOut at out
  unfold makesWay
  rw [Bool.or_assoc, Bool.or_eq_true, Bool.or_eq_true] at out
  rw [Bool.or_eq_true, Bool.or_eq_true]
  exact out.imp_right fun later => later.imp_left fun takes =>
    decide_eq_true (mem_firstKeys_of_takesKey takes)

theorem goesOut_of_makesWay {other : String}
    (all : ∀ record ∈ (cache.orderOf assetId).entries.take (entriesToEvict entrySize),
      cache.Pops assetId entrySize (fun entry => entry.isExpired nowNs)
        (entriesToEvict entrySize) record)
    (way : cache.makesWay assetId key entrySize nowNs other entry = true) :
    cache.goesOut assetId entrySize (fun entry => entry.isExpired nowNs)
      (entriesToEvict entrySize) key other entry = true := by
  unfold makesWay at way
  unfold goesOut
  rw [Bool.or_eq_true, Bool.or_eq_true] at way
  rw [Bool.or_assoc, Bool.or_eq_true, Bool.or_eq_true]
  exact way.imp_right fun later => later.imp_left fun member =>
    takesKey_of_mem_firstKeys all (of_decide_eq_true member)

theorem totalSize_le_iff (enough : cache.totalSize ≤ cache.memoryUsedBytes)
    (left : Leaves cache assetId new.size (entriesToEvict new.size)
      (fun entry => entry.isExpired nowNs) made) :
    (made.store assetId key new).totalSize ≤ cache.memoryBudgetBytes ↔
      cache.HasRoom assetId key new.size nowNs := by
  have stored := @totalSize_insert _ _ assetId new.size _ key new _ left
  unfold HasRoom
  constructor
  · intro fits
    have fewer : sizeWhere (cache.heldOf assetId) (cache.goesOut assetId new.size
        (fun entry => entry.isExpired nowNs) (entriesToEvict new.size) key) ≤
        sizeWhere (cache.heldOf assetId) (cache.makesWay assetId key new.size nowNs) :=
      sizeWhere_mono fun _ _ _ out => makesWay_of_goesOut out
    omega
  · intro room
    cases left.room with
    | inl fits =>
      have within := left.evicts.enough enough
      have budget := left.evicts.budget
      have overwritten := totalSize_store made assetId key new
      omega
    | inr all =>
      have all_ : sizeWhere (cache.heldOf assetId) (cache.makesWay assetId key new.size nowNs) ≤
          sizeWhere (cache.heldOf assetId) (cache.goesOut assetId new.size
            (fun entry => entry.isExpired nowNs) (entriesToEvict new.size) key) :=
        sizeWhere_mono fun _ _ _ way => goesOut_of_makesWay all way
      omega

theorem get_store (computeChecksum : List UInt64 → UInt64) (cache : FeatureCache) (assetId : Nat)
    (key : String) (data : FloatVec) (ttlMs version : Nat) {readNs touchNs : Nat}
    (lives : (readNs - nowNs) / 1000000 ≤ ttlMs) :
    ((cache.store assetId key (.new computeChecksum data ttlMs version nowNs)).get computeChecksum
      assetId key readNs touchNs).1 = some data.bits := by
  have found : ((cache.store assetId key (.new computeChecksum data ttlMs version nowNs)).heldOf
      assetId).get key = some (.new computeChecksum data ttlMs version nowNs) := by
    rw [heldOf_store, if_pos rfl, Dict.get_put, if_pos rfl]
  have fresh : (FeatureEntry.new computeChecksum data ttlMs version nowNs).isExpired readNs =
      false := decide_eq_false (Nat.not_lt.mpr lives)
  have verified : (FeatureEntry.new computeChecksum data ttlMs version nowNs).verifyChecksum
      computeChecksum = true := beq_self_eq_true _
  rw [get_held computeChecksum found, fresh, verified]
  rfl

end Budget

end FeatureCache

/-! ## Runs -/

namespace CacheBudget

open CacheBookkeeping (TimedCall CacheCall Session)

theorem enough_called (computeChecksum : List UInt64 → UInt64) (cache : FeatureCache)
    (enough : cache.totalSize ≤ cache.memoryUsedBytes) (timed : TimedCall) :
    (CacheBookkeeping.called computeChecksum cache timed).totalSize ≤
      (CacheBookkeeping.called computeChecksum cache timed).memoryUsedBytes := by
  unfold CacheBookkeeping.called
  cases timed.call with
  | insert assetId key data ttlMs version =>
    have left := FeatureCache.makeRoom_leaves enough assetId
      (FeatureEntry.new computeChecksum data ttlMs version timed.nowNs).size timed.laterNs
    have within := left.evicts.enough enough
    have stored := FeatureCache.totalSize_store
      (cache.makeRoom assetId (FeatureEntry.new computeChecksum data ttlMs version
        timed.nowNs).size timed.laterNs) assetId key
      (FeatureEntry.new computeChecksum data ttlMs version timed.nowNs)
    refine Nat.le_trans (Nat.le.intro stored) ?_
    exact Nat.add_le_add_right within _
  | get assetId key =>
    dsimp only
    cases found : (cache.heldOf assetId).get key with
    | none =>
      obtain ⟨stats, answer⟩ :=
        FeatureCache.get_absent computeChecksum found timed.nowNs timed.laterNs
      rw [answer]
      exact enough
    | some entry =>
      rw [FeatureCache.get_held computeChecksum found]
      split
      · exact (FeatureCache.remove_present found).1.enough enough
      · split
        · exact enough
        · rw [FeatureCache.totalSize_touched found]
          exact enough
  | remove assetId key => exact (FeatureCache.remove_evicts cache assetId key).1.enough enough
  | evictExpired assetId =>
    exact (FeatureCache.evictExpired_spec cache assetId timed.nowNs).1.enough enough
  | evictIfNeeded assetId requiredBytes =>
    exact (FeatureCache.evictIfNeeded_leaves enough timed.nowNs).evicts.enough enough
  | clearAsset assetId =>
    have freed := FeatureCache.bytes_clearAsset enough assetId
    dsimp only
    omega
  | clearAll => exact Nat.le_refl 0

/-- An insertion that was made on one cache and left another did right. -/
structure InsertedRight (computeChecksum : List UInt64 → UInt64) (before after : FeatureCache)
    (assetId : Nat) (key : String) (data : FloatVec) (ttlMs version nowNs laterNs : Nat)
    (answer : Except String Unit) : Prop where
  /-- Accepted, it leaves the entries held within the budget. -/
  budget : answer = .ok () → after.totalSize ≤ before.memoryBudgetBytes
  /-- Refused, it changes nothing. -/
  refused : ∀ error, answer = .error error → after = before
  /-- Accepted, its entry is served next while its time to live lasts. -/
  served : answer = .ok () → ∀ readNs touchNs, laterNs ≤ readNs → readNs ≤ touchNs →
    (readNs - nowNs) / 1000000 ≤ ttlMs →
      (after.get computeChecksum assetId key readNs touchNs).1 = some data.bits
  /-- What it evicts was expired or used least recently, at every pass of the loop. -/
  oldest : let size := (FeatureEntry.new computeChecksum data ttlMs version nowNs).size
    before.memoryBudgetBytes < before.memoryUsedBytes + size →
      before.Justified laterNs (before.evictExpired assetId laterNs).2 ∧
        ∀ pass < FeatureCache.entriesToEvict size, FeatureCache.Justified laterNs
          (FeatureCache.evictLru assetId size pass (before.evictExpired assetId laterNs).2)
          (FeatureCache.evictLru assetId size (pass + 1) (before.evictExpired assetId laterNs).2)

/-- A session with the cache before its last call. -/
structure Watched where
  session : Session
  last : Option (FeatureCache × TimedCall)

/-- A session before its first call. -/
def Watched.start (memoryBudgetMb clockNs : Nat) : Watched :=
  ⟨.start memoryBudgetMb clockNs, none⟩

variable (computeChecksum : List UInt64 → UInt64)

/-- A session after a call. -/
def step (watched : Watched) (timed : TimedCall) : Option Watched :=
  (CacheBookkeeping.step computeChecksum watched.session timed).map fun next =>
    ⟨next, some (watched.session.cache, timed)⟩

/-- An insertion that was the last call did right. -/
def Kept (watched : Watched) : Prop :=
  ∀ before timed, watched.last = some (before, timed) →
    match timed.call with
    | .insert assetId key data ttlMs version =>
      InsertedRight computeChecksum before watched.session.cache assetId key data ttlMs version
        timed.nowNs timed.laterNs (before.insertWithTtl computeChecksum assetId key data ttlMs
          version timed.nowNs timed.laterNs).1
    | _ => True

/-- An insertion is within the budget of the bytes in use, or there is room for it and the records
that the loop takes are those of the entries used least recently. -/
def Affordable (watched : Watched) (timed : TimedCall) : Prop :=
  match timed.call with
  | .insert assetId key data ttlMs version =>
    let cache := watched.session.cache
    let size := (FeatureEntry.new computeChecksum data ttlMs version timed.nowNs).size
    cache.memoryUsedBytes + size ≤ cache.memoryBudgetBytes ∨
      cache.HasRoom assetId key size timed.laterNs ∧
        cache.OldestFirst assetId size (fun entry => entry.isExpired timed.laterNs)
          (FeatureCache.entriesToEvict size)
  | _ => True

section Steps

variable {computeChecksum} {cache : FeatureCache}

theorem insertedRight_iff (enough : cache.totalSize ≤ cache.memoryUsedBytes) (assetId : Nat)
    (key : String) (data : FloatVec) (ttlMs version nowNs laterNs : Nat) :
    let inserted := cache.insertWithTtl computeChecksum assetId key data ttlMs version nowNs laterNs
    let size := (FeatureEntry.new computeChecksum data ttlMs version nowNs).size
    InsertedRight computeChecksum cache inserted.2 assetId key data ttlMs version nowNs laterNs
        inserted.1 ↔
      cache.memoryUsedBytes + size ≤ cache.memoryBudgetBytes ∨
        cache.HasRoom assetId key size laterNs ∧
          cache.OldestFirst assetId size (fun entry => entry.isExpired laterNs)
            (FeatureCache.entriesToEvict size) := by
  intro inserted size
  have served := fun made readNs => @FeatureCache.get_store nowNs computeChecksum made assetId key
    data ttlMs version readNs
  by_cases fits : cache.memoryUsedBytes + size ≤ cache.memoryBudgetBytes
  · have made : cache.makeRoom assetId size laterNs = cache := if_neg (Nat.not_lt.mpr fits)
    have after : inserted.2 = cache.store assetId key (.new computeChecksum data ttlMs version
        nowNs) := by
      show (cache.makeRoom assetId size laterNs).store assetId key _ = _
      rw [made]
    refine iff_of_true ⟨fun _ => ?_, nofun, fun _ readNs touchNs _ _ lives => served _ _ lives,
      fun exceeds => absurd fits (Nat.not_le.mpr exceeds)⟩ (.inl fits)
    have stored := FeatureCache.totalSize_store cache assetId key
      (.new computeChecksum data ttlMs version nowNs)
    rw [after]
    omega
  · have exceeds := Nat.not_le.mp fits
    have made : cache.makeRoom assetId size laterNs = cache.evictIfNeeded assetId size laterNs :=
      if_pos exceeds
    have after : inserted.2 = (cache.evictIfNeeded assetId size laterNs).store assetId key
        (.new computeChecksum data ttlMs version nowNs) := by
      show (cache.makeRoom assetId size laterNs).store assetId key _ = _
      rw [made]
    have room := @FeatureCache.totalSize_le_iff cache _ assetId laterNs key
      (.new computeChecksum data ttlMs version nowNs) enough
      (FeatureCache.evictIfNeeded_leaves enough laterNs)
    have unexpired := FeatureCache.justified_evictExpired cache assetId laterNs
    have passes := @FeatureCache.justified_evictLru assetId size laterNs
      (FeatureCache.entriesToEvict size) (cache.evictExpired assetId laterNs).2
      ((FeatureCache.evictExpired_spec cache assetId laterNs).1.enough enough)
      fun _ _ found => (FeatureCache.get_evictExpired.mp found).2
    rw [FeatureCache.oldestFirst_evictExpired enough] at passes
    rw [← after] at room
    rw [or_iff_right fits, ← passes, ← room]
    constructor
    · exact fun right => ⟨right.budget rfl, (right.oldest exceeds).2⟩
    · exact fun both => ⟨fun _ => both.1, nofun, fun _ readNs touchNs _ _ lives =>
        served _ _ lives, fun _ => ⟨unexpired, both.2⟩⟩

theorem step_eq {watched next : Watched} {timed : TimedCall}
    (stepped : step computeChecksum watched timed = some next) :
    next = ⟨⟨CacheBookkeeping.called computeChecksum watched.session.cache timed, timed.laterNs⟩,
      some (watched.session.cache, timed)⟩ := by
  obtain ⟨session, called, same⟩ := Option.map_eq_some_iff.mp stepped
  rw [← same, ← Option.some.inj (Option.ite_none_right_eq_some.mp called).2]

theorem kept_called {watched next : Watched} {timed : TimedCall}
    (enough : watched.session.cache.totalSize ≤ watched.session.cache.memoryUsedBytes)
    (stepped : step computeChecksum watched timed = some next) :
    Kept computeChecksum next ↔ Affordable computeChecksum watched timed := by
  have last : Kept computeChecksum next ↔ match timed.call with
      | .insert assetId key data ttlMs version =>
        InsertedRight computeChecksum watched.session.cache next.session.cache assetId key data
          ttlMs version timed.nowNs timed.laterNs (watched.session.cache.insertWithTtl
            computeChecksum assetId key data ttlMs version timed.nowNs timed.laterNs).1
      | _ => True := by
    rw [step_eq stepped]
    refine ⟨fun kept => kept _ _ rfl, fun right before made same => ?_⟩
    cases same
    exact right
  rw [last, step_eq stepped]
  unfold Affordable CacheBookkeeping.called
  cases timed.call with
  | insert assetId key data ttlMs version =>
    exact insertedRight_iff enough assetId key data ttlMs version timed.nowNs timed.laterNs
  | get _ _ => exact Iff.rfl
  | remove _ _ => exact Iff.rfl
  | evictExpired _ => exact Iff.rfl
  | evictIfNeeded _ _ => exact Iff.rfl
  | clearAsset _ => exact Iff.rfl
  | clearAll => exact Iff.rfl

end Steps

/-- A cache keeps its budget and evicts the entries used least recently along a run if and only if
every insertion is affordable. -/
theorem kept_iff_affordable (computeChecksum : List UInt64 → UInt64)
    (memoryBudgetMb clockNs : Nat) (calls : List TimedCall) :
    Always (step computeChecksum) (Kept computeChecksum) (.start memoryBudgetMb clockNs) calls ↔
      Guarded (step computeChecksum) (Affordable computeChecksum) (.start memoryBudgetMb clockNs)
        calls := by
  refine @always_iff_guarded _ _ (step computeChecksum)
    (fun watched => watched.session.cache.totalSize ≤ watched.session.cache.memoryUsedBytes)
    (Kept computeChecksum) (Affordable computeChecksum) ?_ ?_ (.start memoryBudgetMb clockNs)
    (Nat.le_refl 0) nofun calls
  · intro watched timed next enough stepped
    rw [step_eq stepped]
    exact enough_called computeChecksum watched.session.cache enough timed
  · exact fun watched timed next enough _ stepped => kept_called enough stepped

/-- Room for 131072 values, of which none is there yet. -/
def roomy : FloatVec := ⟨[], 131072, by decide⟩

/-- An entry larger than the whole budget is accepted. -/
theorem oversized_entry_accepted :
    ¬Always (step fun _ => 0) (Kept fun _ => 0) (.start 1 0)
      [⟨1, 1, .insert 0 "key1" roomy 100 1⟩] := by
  refine @not_always_of_view _ _ (step fun _ => 0) _ (fun watched =>
      (watched.session.cache.totalSize, watched.last.map fun last =>
        (last.1.memoryBudgetBytes, last.2))) (1048640, some (1048576,
      ⟨1, 1, .insert 0 "key1" roomy 100 1⟩)) (Kept fun _ => 0) (.start 1 0) _
    (by decide +kernel) ?_
  intro final seen kept
  have held : final.session.cache.totalSize = 1048640 := (Prod.mk.inj seen).1
  obtain ⟨⟨before, timed⟩, last, same⟩ := Option.map_eq_some_iff.mp (Prod.mk.inj seen).2
  obtain ⟨budget, called⟩ := Prod.mk.inj same
  have right := kept before timed last
  rw [show timed = _ from called] at right
  have within := right.budget rfl
  rw [held, show before.memoryBudgetBytes = 1048576 from budget] at within
  exact absurd within (by decide)

end CacheBudget

end TradingBot.Features
