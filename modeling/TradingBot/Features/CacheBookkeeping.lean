import TradingBot.Features.CacheEvictions
import TradingBot.Foundation.Run

/-!
# The books of a feature cache

The bytes in use, the number of entries and the access order are to say what is held. They are
kept by an insertion of a fresh key and by the two ways to clear; an overwritten key is counted
twice, and a removed, an expired or a touched one leaves its record behind, until the eviction loop
takes it.
-/

open Run MachineInt

namespace TradingBot.Features

namespace FeatureCache

/-- The books say what is held. -/
structure Bookkept (cache : FeatureCache) : Prop where
  bytes : cache.memoryUsedBytes = cache.totalSize
  count : cache.getStats.totalEntries = cache.totalHeld
  /-- There is one record for every entry held, at its last access, and no other. -/
  records : ∀ assetId time key, (cache.orderOf assetId).lookup time = some key ↔
    ∃ entry, (cache.heldOf assetId).get key = some entry ∧ entry.lastAccessNs = time

section Books

variable {cache after made : FeatureCache} {assetId requiredBytes count time nowNs : Nat}
  {key : String} {entry new : FeatureEntry} {gone : FeatureEntry → Bool}

/-- The counter is the number of entries held. -/
theorem totalEntries_eq (counted : cache.Counted) :
    cache.getStats.totalEntries = cache.totalHeld := by
  have each : ∀ assetId, ((cache.entryCounts.get assetId).map id).getD 0 =
      ((cache.assets.get assetId).map Dict.size).getD 0 := by
    intro assetId
    have one := counted assetId
    unfold countOf heldOf at one
    rw [Option.map_id, id_eq, one]
    cases cache.assets.get assetId <;> rfl
  have same := Dict.sum_congr each
  rw [List.map_id] at same
  exact same

theorem Bookkept.time_eq (kept : cache.Bookkept)
    (recorded : (time, key) ∈ (cache.orderOf assetId).entries)
    (found : (cache.heldOf assetId).get key = some entry) : entry.lastAccessNs = time := by
  obtain ⟨other, held, same⟩ :=
    (kept.records assetId time key).mp (OrderedMap.lookup_eq_some.mpr recorded)
  rw [found] at held
  exact Option.some.inj held ▸ same

theorem Bookkept.recorded (kept : cache.Bookkept)
    (found : (cache.heldOf assetId).get key = some entry) :
    (entry.lastAccessNs, key) ∈ (cache.orderOf assetId).entries :=
  OrderedMap.lookup_eq_some.mp ((kept.records assetId entry.lastAccessNs key).mpr
    ⟨entry, found, rfl⟩)

theorem bookkept_stats (stats : CacheStats) :
    Bookkept { cache with stats := stats } ↔ Bookkept cache :=
  ⟨fun kept => ⟨kept.bytes, kept.count, kept.records⟩,
    fun kept => ⟨kept.bytes, kept.count, kept.records⟩⟩

theorem Bookkept.evicts (kept : cache.Bookkept) (counted : cache.Counted)
    (evicts : Evicts assetId cache after) :
    after.memoryUsedBytes = after.totalSize ∧
      after.getStats.totalEntries = after.totalHeld := by
  have slack := evicts.slack (le_of_eq kept.bytes.symm)
  have bytes := kept.bytes
  exact ⟨by omega, totalEntries_eq (evicts.counted counted)⟩

theorem Bookkept.lookup_left (kept : cache.Bookkept)
    (left : Leaves cache assetId requiredBytes count gone after) :
    (after.orderOf assetId).lookup time = some key ↔
      (∃ entry, (cache.heldOf assetId).get key = some entry ∧ entry.lastAccessNs = time) ∧
        ¬cache.Pops assetId requiredBytes gone count (time, key) := by
  rw [OrderedMap.lookup_eq_some, left.records, ← OrderedMap.lookup_eq_some, kept.records]

/-- What is held after the evictions. -/
theorem Bookkept.held_left (kept : cache.Bookkept)
    (left : Leaves cache assetId requiredBytes count gone after) :
    (after.heldOf assetId).get key = some entry ↔
      (cache.heldOf assetId).get key = some entry ∧ gone entry = false ∧
        ¬cache.Pops assetId requiredBytes gone count (entry.lastAccessNs, key) := by
  rw [left.entries, and_assoc]
  refine and_congr_right fun found => and_congr_right fun _ => ⟨fun none pops => none _ pops rfl,
    fun stays record pops same => ?_⟩
  obtain ⟨time, other⟩ := record
  have here : other = key := same
  have one := kept.time_eq (here ▸ pops.mem) found
  rw [one, ← here] at stays
  exact stays pops

theorem bookkept_left (kept : cache.Bookkept) (counted : cache.Counted)
    (left : Leaves cache assetId requiredBytes count gone after) :
    after.Bookkept ↔ ∀ key entry, (cache.heldOf assetId).get key = some entry →
      gone entry = true →
        cache.Pops assetId requiredBytes gone count (entry.lastAccessNs, key) := by
  constructor
  · intro keeps key entry found lost
    by_contra stays
    have recorded := (kept.lookup_left left).mpr ⟨⟨entry, found, rfl⟩, stays⟩
    obtain ⟨other, held, -⟩ := (keeps.records assetId entry.lastAccessNs key).mp recorded
    obtain ⟨before, remains, -⟩ := (kept.held_left left).mp held
    rw [found] at before
    rw [← Option.some.inj before, lost] at remains
    exact Bool.noConfusion remains
  · intro taken
    obtain ⟨bytes, counts⟩ := kept.evicts counted left.evicts
    refine ⟨bytes, counts, fun other time key => ?_⟩
    by_cases here : other = assetId
    · rw [here, kept.lookup_left left]
      constructor
      · intro recorded
        obtain ⟨⟨entry, found, same⟩, stays⟩ := recorded
        refine ⟨entry, (kept.held_left left).mpr ⟨found, ?_, same ▸ stays⟩, same⟩
        by_contra lost
        exact stays (same ▸ taken key entry found (Bool.not_eq_false _ ▸ lost))
      · intro held
        obtain ⟨entry, found, same⟩ := held
        obtain ⟨before, -, stays⟩ := (kept.held_left left).mp found
        exact ⟨⟨entry, before, same⟩, same ▸ stays⟩
    · rw [left.evicts.orderElsewhere other here, left.evicts.heldElsewhere other here]
      exact kept.records other time key

theorem counted_store (counted : made.Counted) (fresh : (made.heldOf assetId).get key = none) :
    (made.store assetId key new).Counted := by
  intro other
  have before := counted other
  rw [heldOf_store]
  unfold countOf at before ⊢
  show ((made.entryCounts.put assetId _).get other).getD 0 = _
  rw [Dict.getD_put]
  by_cases here : other = assetId
  · rw [if_pos here, if_pos here, Dict.size_put, fresh, Option.isSome_none,
      if_neg Bool.false_ne_true]
    rw [here] at before
    rw [before]
  · rw [if_neg here, if_neg here, before]

/-- An insertion is apart from what the eviction before it leaves: its key is not left, no entry
left was used at its time, and the record of every entry gone is taken or at its time. -/
def StoresApart (cache : FeatureCache) (assetId requiredBytes count : Nat)
    (gone : FeatureEntry → Bool) (key : String) (time : Nat) : Prop :=
  ∀ held ∈ (cache.heldOf assetId).entries,
    ¬cache.Pops assetId requiredBytes gone count (held.2.lastAccessNs, held.1) →
      if gone held.2 = true then held.2.lastAccessNs = time
      else held.1 ≠ key ∧ held.2.lastAccessNs ≠ time

instance (cache : FeatureCache) (assetId requiredBytes count : Nat) (gone : FeatureEntry → Bool)
    (key : String) (time : Nat) :
    Decidable (cache.StoresApart assetId requiredBytes count gone key time) :=
  inferInstanceAs (Decidable (∀ _ ∈ (_ : List (String × FeatureEntry)), _ → ite _ _ _))

theorem fresh_of_store (bytes : made.memoryUsedBytes = made.totalSize)
    (keeps : (made.store assetId key new).Bookkept) : (made.heldOf assetId).get key = none := by
  have whole := totalSize_store made assetId key new
  have after : made.memoryUsedBytes + new.size = (made.store assetId key new).totalSize :=
    keeps.bytes
  cases held : (made.heldOf assetId).get key with
  | none => rfl
  | some old =>
    rw [sizeWhere_key held] at whole
    unfold FeatureEntry.size at whole after
    omega

theorem storesApart_of_bookkept (kept : cache.Bookkept) (counted : cache.Counted)
    (left : Leaves cache assetId requiredBytes count gone made)
    (keeps : (made.store assetId key new).Bookkept) :
    cache.StoresApart assetId requiredBytes count gone key new.lastAccessNs := by
  intro ⟨other, entry⟩ member stays
  have found : (cache.heldOf assetId).get other = some entry := Dict.get_eq_some.mpr member
  have records := keeps.records assetId
  simp only [orderOf_store, heldOf_store, if_true, OrderedMap.lookup_insert, Dict.get_put]
    at records
  have fresh := fresh_of_store (kept.evicts counted left.evicts).1 keeps
  have recorded := (kept.lookup_left left).mpr ⟨⟨entry, found, rfl⟩, stays⟩
  split
  · next lost =>
    by_contra apart
    obtain ⟨old, held, same⟩ := (records entry.lastAccessNs other).mp (by
      rw [if_neg apart]
      exact recorded)
    by_cases here : other = key
    · rw [if_pos here] at held
      exact apart (Option.some.inj held ▸ same).symm
    · rw [if_neg here] at held
      obtain ⟨before, remains, -⟩ := (kept.held_left left).mp held
      rw [found] at before
      rw [← Option.some.inj before, lost] at remains
      exact Bool.noConfusion remains
  · next remains =>
    have held := (kept.held_left left).mpr ⟨found, Bool.not_eq_true _ ▸ remains, stays⟩
    have apart : other ≠ key := by
      intro here
      rw [here, fresh] at held
      cases held
    refine ⟨apart, fun same => ?_⟩
    have twice := (records new.lastAccessNs other).mpr
      ⟨entry, by rw [if_neg apart]; exact held, same⟩
    rw [if_pos rfl] at twice
    exact apart (Option.some.inj twice).symm

theorem StoresApart.held (apart : cache.StoresApart assetId requiredBytes count gone key time)
    (kept : cache.Bookkept) (left : Leaves cache assetId requiredBytes count gone made)
    {other : String} (held : (made.heldOf assetId).get other = some entry) :
    other ≠ key ∧ entry.lastAccessNs ≠ time := by
  obtain ⟨found, remains, stays⟩ := (kept.held_left left).mp held
  have result := apart (other, entry) (Dict.get_eq_some.mp found) stays
  rw [if_neg (by rw [remains]; exact Bool.false_ne_true)] at result
  exact result

theorem StoresApart.lookup {recorded : Nat}
    (apart : cache.StoresApart assetId requiredBytes count gone key time)
    (kept : cache.Bookkept) (left : Leaves cache assetId requiredBytes count gone made)
    {other : String} (later : recorded ≠ time) :
    (made.orderOf assetId).lookup recorded = some other ↔
      ∃ entry, (made.heldOf assetId).get other = some entry ∧ entry.lastAccessNs = recorded := by
  rw [kept.lookup_left left]
  constructor
  · intro stays
    obtain ⟨⟨entry, found, last⟩, untaken⟩ := stays
    have result := apart (other, entry) (Dict.get_eq_some.mp found) (last ▸ untaken)
    split at result
    · exact absurd (last.symm.trans result) later
    · next remains =>
      exact ⟨entry, (kept.held_left left).mpr
        ⟨found, Bool.not_eq_true _ ▸ remains, last ▸ untaken⟩, last⟩
  · intro held
    obtain ⟨entry, held, last⟩ := held
    obtain ⟨found, -, untaken⟩ := (kept.held_left left).mp held
    exact ⟨⟨entry, found, last⟩, last ▸ untaken⟩

theorem StoresApart.store (kept : cache.Bookkept) (counted : cache.Counted)
    (left : Leaves cache assetId requiredBytes count gone made)
    (apart : cache.StoresApart assetId requiredBytes count gone key new.lastAccessNs) :
    (made.store assetId key new).Bookkept ∧ (made.store assetId key new).Counted := by
  have fresh : (made.heldOf assetId).get key = none :=
    Option.eq_none_iff_forall_ne_some.mpr fun entry held => (apart.held kept left held).1 rfl
  have whole := totalSize_store made assetId key new
  have bytes := (kept.evicts counted left.evicts).1
  have after := @counted_store made assetId key new (left.evicts.counted counted) fresh
  rw [sizeWhere_absent fresh, Nat.add_zero, ← bytes] at whole
  refine ⟨⟨whole.symm, totalEntries_eq after, fun asset time other => ?_⟩, after⟩
  rw [orderOf_store, heldOf_store]
  by_cases here : asset = assetId
  · rw [if_pos here, if_pos here, OrderedMap.lookup_insert, Dict.get_put]
    by_cases now : time = new.lastAccessNs
    · rw [if_pos now]
      by_cases same : other = key
      · rw [if_pos same, same]
        exact iff_of_true rfl ⟨new, rfl, now.symm⟩
      · rw [if_neg same]
        refine iff_of_false (fun equal => same (Option.some.inj equal).symm) fun late => ?_
        obtain ⟨entry, held, last⟩ := late
        exact (apart.held kept left held).2 (last.trans now)
    · rw [if_neg now, apart.lookup kept left now]
      by_cases same : other = key
      · rw [if_pos same, same, fresh]
        refine iff_of_false (fun none => ?_) fun late => ?_
        · obtain ⟨entry, held, -⟩ := none
          cases held
        · obtain ⟨entry, held, last⟩ := late
          exact now (Option.some.inj held ▸ last).symm
      · rw [if_neg same]
  · rw [if_neg here, if_neg here, left.evicts.orderElsewhere asset here,
      left.evicts.heldElsewhere asset here]
    exact kept.records asset time other

theorem bookkept_remove (kept : cache.Bookkept) :
    (cache.remove assetId key).2.Bookkept ↔ (cache.heldOf assetId).get key = none := by
  constructor
  · intro keeps
    cases found : (cache.heldOf assetId).get key with
    | none => rfl
    | some entry =>
      have recorded := OrderedMap.lookup_eq_some.mpr (kept.recorded found)
      have after := (keeps.records assetId entry.lastAccessNs key).mp (by
        unfold orderOf
        rw [accessOrder_remove]
        exact recorded)
      obtain ⟨other, held, -⟩ := after
      rw [(remove_present found).2, Dict.get_pop, if_pos rfl] at held
      cases held
  · intro absent
    rw [remove_absent absent]
    exact kept

/-- A touched entry of an asset. -/
def touched (cache : FeatureCache) (assetId : Nat) (key : String) (entry : FeatureEntry)
    (touchNs : Nat) : FeatureCache :=
  { cache with
    assets := cache.assets.put assetId ((cache.heldOf assetId).put key (entry.touch touchNs))
    accessOrder := match cache.accessOrder.get assetId with
      | some orderMap => cache.accessOrder.put assetId
          ((orderMap.erase touchNs).insert touchNs key)
      | none => cache.accessOrder
    stats := { cache.stats with hits := cache.stats.hits + 1 } }

/-- A held entry is returned unless it has expired. -/
theorem get_held (computeChecksum : List UInt64 → UInt64)
    (found : (cache.heldOf assetId).get key = some entry) (nowNs touchNs : Nat) :
    cache.get computeChecksum assetId key nowNs touchNs =
      if entry.isExpired nowNs then
        (none, { (cache.remove assetId key).2 with
          stats := { (cache.remove assetId key).2.stats with
            expirations := (cache.remove assetId key).2.stats.expirations + 1 } })
      else if !entry.verifyChecksum computeChecksum then
        (none, { cache with
          stats := { cache.stats with corruptions := cache.stats.corruptions + 1 } })
      else (some entry.data.bits, cache.touched assetId key entry touchNs) := by
  unfold heldOf at found
  unfold get touched heldOf
  cases present : cache.assets.get assetId with
  | none =>
    rw [present] at found
    cases found
  | some assetMap =>
    have here : assetMap.get key = some entry := by rw [present] at found; exact found
    simp only [here]
    rfl

theorem get_absent (computeChecksum : List UInt64 → UInt64)
    (absent : (cache.heldOf assetId).get key = none) (nowNs touchNs : Nat) :
    ∃ stats, cache.get computeChecksum assetId key nowNs touchNs =
      (none, { cache with stats := stats }) := by
  unfold heldOf at absent
  unfold get
  cases present : cache.assets.get assetId with
  | none => exact ⟨cache.stats, rfl⟩
  | some assetMap =>
    have here : assetMap.get key = none := by rw [present] at absent; exact absent
    simp only [here]
    exact ⟨_, rfl⟩

theorem heldOf_touched (cache : FeatureCache) (assetId : Nat) (key : String) (entry : FeatureEntry)
    (touchNs other : Nat) :
    (cache.touched assetId key entry touchNs).heldOf other =
      if other = assetId then (cache.heldOf assetId).put key (entry.touch touchNs)
      else cache.heldOf other :=
  Dict.getD_put _ _ _ _ _

theorem totalSize_touched (found : (cache.heldOf assetId).get key = some entry) (touchNs : Nat) :
    (cache.touched assetId key entry touchNs).totalSize = cache.totalSize := by
  have replaced := sum_replaced sizeOf rfl cache assetId
    ((cache.heldOf assetId).put key (entry.touch touchNs))
  have put := sizeOf_put (cache.heldOf assetId) key (entry.touch touchNs)
  rw [sizeWhere_key found] at put
  have same : (entry.touch touchNs).size = entry.size := rfl
  unfold totalSize
  show ((cache.assets.put assetId _).values.map sizeOf).sum = _
  omega

theorem counted_touched (counted : cache.Counted)
    (found : (cache.heldOf assetId).get key = some entry) (touchNs : Nat) :
    (cache.touched assetId key entry touchNs).Counted := by
  intro other
  rw [heldOf_touched]
  refine (counted other).trans ?_
  split
  · next here => rw [here, Dict.size_put, found, Option.isSome_some, if_pos rfl]
  · rfl

theorem lookup_touched (kept : cache.Bookkept)
    (found : (cache.heldOf assetId).get key = some entry) (touchNs other time : Nat) :
    ((cache.touched assetId key entry touchNs).orderOf other).lookup time =
      if other = assetId ∧ time = touchNs then some key else (cache.orderOf other).lookup time := by
  have recorded := kept.recorded found
  unfold orderOf touched at *
  cases present : cache.accessOrder.get assetId with
  | none =>
    rw [present] at recorded
    exact absurd recorded List.not_mem_nil
  | some orderMap =>
    dsimp only
    rw [Dict.getD_put]
    by_cases here : other = assetId
    · rw [if_pos here, here, present, Option.getD_some, OrderedMap.lookup_insert,
        OrderedMap.lookup_erase]
      by_cases now : time = touchNs
      · rw [if_pos now, if_pos ⟨rfl, now⟩]
      · rw [if_neg now, if_neg now, if_neg fun both => now both.2]
    · rw [if_neg here, if_neg fun both => here both.1]

theorem bookkept_touched (kept : cache.Bookkept) (counted : cache.Counted)
    (found : (cache.heldOf assetId).get key = some entry) (touchNs : Nat) :
    (cache.touched assetId key entry touchNs).Bookkept ↔ entry.lastAccessNs = touchNs := by
  constructor
  · intro keeps
    by_contra later
    have recorded := (kept.records assetId entry.lastAccessNs key).mpr ⟨entry, found, rfl⟩
    obtain ⟨other, held, same⟩ := (keeps.records assetId entry.lastAccessNs key).mp (by
      rw [lookup_touched kept found, if_neg fun both => later both.2]
      exact recorded)
    rw [heldOf_touched, if_pos rfl, Dict.get_put, if_pos rfl] at held
    have last : other.lastAccessNs = touchNs := by rw [← Option.some.inj held]; rfl
    exact later (same.symm.trans last)
  · intro now
    have unchanged : entry.touch touchNs = entry := by rw [← now]; rfl
    refine ⟨?_, totalEntries_eq (counted_touched counted found touchNs), fun other time name => ?_⟩
    · rw [totalSize_touched found]
      exact kept.bytes
    · have same : ∀ name, ((cache.touched assetId key entry touchNs).heldOf other).get name =
          (cache.heldOf other).get name := by
        intro name
        rw [heldOf_touched, unchanged]
        split
        · next here =>
          rw [Dict.get_put, here]
          split
          · next at_ => rw [at_, found]
          · rfl
        · rfl
      rw [lookup_touched kept found, same, ← kept.records other time name]
      split
      · next both =>
        have recorded := (kept.records assetId entry.lastAccessNs key).mpr ⟨entry, found, rfl⟩
        rw [both.1, both.2, ← now, recorded]
      · rfl

theorem bookkept_get (kept : cache.Bookkept) (counted : cache.Counted)
    (computeChecksum : List UInt64 → UInt64) (nowNs touchNs : Nat) :
    (cache.get computeChecksum assetId key nowNs touchNs).2.Bookkept ↔
      ∀ entry ∈ (cache.heldOf assetId).get key, entry.isExpired nowNs = false ∧
        (entry.verifyChecksum computeChecksum = true → entry.lastAccessNs = touchNs) := by
  cases found : (cache.heldOf assetId).get key with
  | none =>
    obtain ⟨stats, answer⟩ := get_absent computeChecksum found nowNs touchNs
    rw [answer, bookkept_stats]
    exact iff_of_true kept nofun
  | some entry =>
    have one : (∀ other ∈ some entry, other.isExpired nowNs = false ∧
          (other.verifyChecksum computeChecksum = true → other.lastAccessNs = touchNs)) ↔
        entry.isExpired nowNs = false ∧
          (entry.verifyChecksum computeChecksum = true → entry.lastAccessNs = touchNs) :=
      ⟨fun all => all entry rfl, fun holds other same => Option.some.inj same ▸ holds⟩
    rw [get_held computeChecksum found, one]
    split
    · next expired =>
      rw [bookkept_stats, bookkept_remove kept, found, expired]
      exact iff_of_false nofun fun both => Bool.noConfusion both.1
    · next fresh =>
      rw [Bool.not_eq_true] at fresh
      rw [and_iff_right fresh]
      split
      · next corrupt =>
        rw [bookkept_stats]
        rw [Bool.not_eq_true'] at corrupt
        exact iff_of_true kept fun verified => absurd (corrupt ▸ verified) Bool.false_ne_true
      · next verified =>
        rw [Bool.not_eq_true', Bool.not_eq_false] at verified
        rw [bookkept_touched kept counted found]
        exact ⟨fun now _ => now, fun now => now verified⟩

theorem counted_get (counted : cache.Counted) (computeChecksum : List UInt64 → UInt64)
    (nowNs touchNs : Nat) :
    (cache.get computeChecksum assetId key nowNs touchNs).2.Counted := by
  cases found : (cache.heldOf assetId).get key with
  | none =>
    obtain ⟨stats, answer⟩ := get_absent computeChecksum found nowNs touchNs
    rw [answer]
    exact counted
  | some entry =>
    rw [get_held computeChecksum found]
    split
    · exact (remove_present found).1.counted counted
    · split
      · exact counted
      · exact counted_touched counted found touchNs

theorem not_held_empty (time : Nat) (key : String) :
    ¬∃ entry : FeatureEntry, Dict.empty.get key = some entry ∧ entry.lastAccessNs = time := by
  intro held
  obtain ⟨entry, found, -⟩ := held
  cases found

theorem heldOf_clearAsset (cache : FeatureCache) (assetId other : Nat) :
    (cache.clearAsset assetId).heldOf other =
      if other = assetId then .empty else cache.heldOf other := by
  unfold heldOf clearAsset
  cases present : cache.assets.get assetId with
  | none =>
    dsimp only
    split
    · next here => rw [here, present]; rfl
    · rfl
  | some assetMap =>
    dsimp only
    rw [Dict.getD_put]

theorem orderOf_clearAsset (cache : FeatureCache) (assetId other : Nat) :
    (cache.clearAsset assetId).orderOf other =
      if other = assetId then .empty else cache.orderOf other := by
  unfold orderOf clearAsset
  cases present : cache.accessOrder.get assetId with
  | none =>
    dsimp only
    split
    · next here => cases cache.assets.get assetId <;> simp [here, present]
    · cases cache.assets.get assetId <;> rfl
  | some orderMap =>
    dsimp only
    rw [Dict.getD_put]

theorem counted_clearAsset (counted : cache.Counted) (assetId : Nat) :
    (cache.clearAsset assetId).Counted := by
  intro other
  rw [heldOf_clearAsset]
  have before := counted other
  unfold countOf at before ⊢
  unfold clearAsset
  cases present : cache.entryCounts.get assetId with
  | none =>
    dsimp only
    split
    · next here => rw [here, present]; rfl
    · exact before
  | some number =>
    dsimp only
    rw [Dict.getD_put]
    split
    · rfl
    · exact before

theorem bytes_clearAsset (enough : cache.totalSize ≤ cache.memoryUsedBytes) (assetId : Nat) :
    (cache.clearAsset assetId).memoryUsedBytes + cache.totalSize =
      cache.memoryUsedBytes + (cache.clearAsset assetId).totalSize := by
  have within := sizeOf_le_totalSize cache assetId
  have replaced := sum_replaced sizeOf rfl cache assetId .empty
  have none : sizeOf Dict.empty = 0 := rfl
  unfold totalSize heldOf at *
  unfold clearAsset
  cases present : cache.assets.get assetId with
  | none => rfl
  | some assetMap =>
    dsimp only
    rw [present, Option.getD_some] at within replaced
    rw [← sizeOf_eq, fetchSub, if_pos (Nat.le_trans within enough)]
    omega

theorem bookkept_clearAsset (kept : cache.Bookkept) (counted : cache.Counted) (assetId : Nat) :
    (cache.clearAsset assetId).Bookkept := by
  have bytes := bytes_clearAsset (le_of_eq kept.bytes.symm) assetId
  have before := kept.bytes
  refine ⟨by omega, totalEntries_eq (counted_clearAsset counted assetId), fun other time key => ?_⟩
  rw [heldOf_clearAsset, orderOf_clearAsset]
  split
  · exact iff_of_false (fun listed => by cases listed) (not_held_empty time key)
  · exact kept.records other time key

theorem bookkept_empty (memoryBudgetMb : Nat) :
    (FeatureCache.new memoryBudgetMb).Bookkept ∧ (FeatureCache.new memoryBudgetMb).Counted :=
  ⟨⟨rfl, rfl, fun _ time key => iff_of_false nofun (not_held_empty time key)⟩,
    fun _ => rfl⟩

theorem bookkept_clearAll (cache : FeatureCache) :
    cache.clearAll.Bookkept ∧ cache.clearAll.Counted :=
  ⟨⟨rfl, rfl, fun _ time key => iff_of_false nofun (not_held_empty time key)⟩,
    fun _ => rfl⟩

end Books

end FeatureCache

/-! ## Runs -/

namespace CacheBookkeeping

/-- One call on a cache. -/
inductive CacheCall where
  | insert (assetId : Nat) (key : String) (data : FloatVec) (ttlMs version : Nat)
  | get (assetId : Nat) (key : String)
  | remove (assetId : Nat) (key : String)
  | evictExpired (assetId : Nat)
  | evictIfNeeded (assetId requiredBytes : Nat)
  | clearAsset (assetId : Nat)
  | clearAll
  deriving DecidableEq, Repr

/-- A call with the first and the second reading of the clock during it. -/
structure TimedCall where
  nowNs : Nat
  laterNs : Nat
  call : CacheCall
  deriving DecidableEq, Repr

/-- A cache and the last reading of the clock. -/
structure Session where
  cache : FeatureCache
  clockNs : Nat

/-- A session of a new cache. -/
def Session.start (memoryBudgetMb clockNs : Nat) : Session := ⟨.new memoryBudgetMb, clockNs⟩

variable (computeChecksum : List UInt64 → UInt64)

/-- A cache after a call. -/
def called (cache : FeatureCache) (timed : TimedCall) : FeatureCache :=
  match timed.call with
  | .insert assetId key data ttlMs version => (cache.insertWithTtl computeChecksum assetId key
      data ttlMs version timed.nowNs timed.laterNs).2
  | .get assetId key => (cache.get computeChecksum assetId key timed.nowNs timed.laterNs).2
  | .remove assetId key => (cache.remove assetId key).2
  | .evictExpired assetId => (cache.evictExpired assetId timed.nowNs).2
  | .evictIfNeeded assetId requiredBytes =>
    cache.evictIfNeeded assetId requiredBytes timed.nowNs
  | .clearAsset assetId => cache.clearAsset assetId
  | .clearAll => cache.clearAll

/-- A session after a call; the clock does not go back. -/
def step (session : Session) (timed : TimedCall) : Option Session :=
  if session.clockNs ≤ timed.nowNs ∧ timed.nowNs ≤ timed.laterNs then
    some ⟨called computeChecksum session.cache timed, timed.laterNs⟩
  else none

/-- The call keeps the books: an insertion is apart from what its eviction leaves, nothing held is
removed or expired, and a key is read at its last access; an eviction takes the record of every
entry that is expired. -/
def KeepsBooks (session : Session) (timed : TimedCall) : Prop :=
  match timed.call with
  | .insert assetId key data ttlMs version =>
    let size := (FeatureEntry.new computeChecksum data ttlMs version timed.nowNs).size
    session.cache.StoresApart assetId size (FeatureCache.entriesToEvict size)
      (session.cache.goneFor size timed.laterNs) key timed.nowNs
  | .get assetId key => ∀ entry ∈ (session.cache.heldOf assetId).get key,
      entry.isExpired timed.nowNs = false ∧
        (entry.verifyChecksum computeChecksum = true → entry.lastAccessNs = timed.laterNs)
  | .remove assetId key => (session.cache.heldOf assetId).get key = none
  | .evictExpired assetId => ∀ held ∈ (session.cache.heldOf assetId).entries,
      held.2.isExpired timed.nowNs = false
  | .evictIfNeeded assetId requiredBytes => ∀ held ∈ (session.cache.heldOf assetId).entries,
      held.2.isExpired timed.nowNs = true →
        session.cache.Pops assetId requiredBytes (fun entry => entry.isExpired timed.nowNs)
          (FeatureCache.entriesToEvict requiredBytes) (held.2.lastAccessNs, held.1)
  | .clearAsset _ => True
  | .clearAll => True

section Steps

variable {computeChecksum} {session next : Session} {timed : TimedCall}

theorem evictExpired_left (cache : FeatureCache) (assetId nowNs : Nat) :
    FeatureCache.Leaves cache assetId 0 0 (fun entry => entry.isExpired nowNs)
      (cache.evictExpired assetId nowNs).2 :=
  FeatureCache.evictExpired_leaves cache assetId 0 nowNs
    (fun _ pops => absurd pops.1 List.not_mem_nil) (.inr rfl)

theorem bookkept_called (kept : session.cache.Bookkept) (counted : session.cache.Counted)
    (timed : TimedCall) :
    (called computeChecksum session.cache timed).Bookkept ↔
      KeepsBooks computeChecksum session timed := by
  have enough := le_of_eq kept.bytes.symm
  unfold called KeepsBooks
  cases timed.call with
  | insert assetId key data ttlMs version =>
    have left := FeatureCache.makeRoom_leaves enough assetId
      (FeatureEntry.new computeChecksum data ttlMs version timed.nowNs).size timed.laterNs
    exact ⟨FeatureCache.storesApart_of_bookkept kept counted left, fun apart =>
      (FeatureCache.StoresApart.store kept counted left apart).1⟩
  | get assetId key => exact FeatureCache.bookkept_get kept counted computeChecksum _ _
  | remove assetId key => exact FeatureCache.bookkept_remove kept
  | evictExpired assetId =>
    refine (FeatureCache.bookkept_left kept counted (evictExpired_left _ assetId _)).trans ?_
    constructor
    · intro taken held member
      by_contra expired
      rw [Bool.not_eq_false] at expired
      exact absurd (taken held.1 held.2 (Dict.get_eq_some.mpr member) expired).1 List.not_mem_nil
    · intro fresh key entry found expired
      have never := fresh (key, entry) (Dict.get_eq_some.mp found)
      exact absurd (never ▸ expired) Bool.false_ne_true
  | evictIfNeeded assetId requiredBytes =>
    refine (FeatureCache.bookkept_left kept counted
      (FeatureCache.evictIfNeeded_leaves enough timed.nowNs)).trans ?_
    exact ⟨fun taken held member => taken held.1 held.2 (Dict.get_eq_some.mpr member),
      fun taken key entry found => taken (key, entry) (Dict.get_eq_some.mp found)⟩
  | clearAsset assetId =>
    exact iff_of_true (FeatureCache.bookkept_clearAsset kept counted assetId) trivial
  | clearAll => exact iff_of_true (FeatureCache.bookkept_clearAll session.cache).1 trivial

theorem counted_called (kept : session.cache.Bookkept) (counted : session.cache.Counted)
    (keeps : KeepsBooks computeChecksum session timed) :
    (called computeChecksum session.cache timed).Counted := by
  have enough := le_of_eq kept.bytes.symm
  unfold KeepsBooks at keeps
  unfold called
  cases named : timed.call with
  | insert assetId key data ttlMs version =>
    rw [named] at keeps
    have left := FeatureCache.makeRoom_leaves enough assetId
      (FeatureEntry.new computeChecksum data ttlMs version timed.nowNs).size timed.laterNs
    exact (FeatureCache.StoresApart.store kept counted left keeps).2
  | get assetId key => exact FeatureCache.counted_get counted computeChecksum _ _
  | remove assetId key => exact (FeatureCache.remove_evicts _ assetId key).1.counted counted
  | evictExpired assetId => exact (evictExpired_left _ assetId _).evicts.counted counted
  | evictIfNeeded assetId requiredBytes =>
    exact (FeatureCache.evictIfNeeded_leaves enough timed.nowNs).evicts.counted counted
  | clearAsset assetId => exact FeatureCache.counted_clearAsset counted assetId
  | clearAll => exact (FeatureCache.bookkept_clearAll session.cache).2

end Steps

/-- The books of a cache are kept along a run if and only if every call keeps them. -/
theorem bookkept_iff_keeps (computeChecksum : List UInt64 → UInt64) (memoryBudgetMb clockNs : Nat)
    (calls : List TimedCall) :
    Always (step computeChecksum) (fun session => session.cache.Bookkept)
        (.start memoryBudgetMb clockNs) calls ↔
      Guarded (step computeChecksum) (KeepsBooks computeChecksum) (.start memoryBudgetMb clockNs)
        calls := by
  obtain ⟨kept, counted⟩ := FeatureCache.bookkept_empty memoryBudgetMb
  refine @always_iff_guarded_of _ _ (step computeChecksum) (fun session => session.cache.Counted)
    (fun session => session.cache.Bookkept) (fun _ _ => True) (KeepsBooks computeChecksum)
    ?_ ?_ (.start memoryBudgetMb clockNs) counted kept calls
    (guarded_of_forall (fun _ _ => trivial) _)
  · intro session timed next counted kept _ keeps stepped
    have after := (Option.ite_none_right_eq_some.mp stepped).2
    rw [← Option.some.inj after]
    exact counted_called kept counted keeps
  · intro session timed next counted kept _ stepped
    have after := (Option.ite_none_right_eq_some.mp stepped).2
    rw [← Option.some.inj after]
    exact bookkept_called kept counted timed

/-- One value, `1.0`. -/
def one : FloatVec := ⟨[0x3ff0000000000000], 1, by decide⟩

/-- A key that is inserted twice is counted twice. -/
theorem overwritten_key_counted_twice :
    ¬Always (step fun _ => 0) (fun session => session.cache.Bookkept) (.start 100 0)
      [⟨1, 1, .insert 0 "key1" one 100 1⟩, ⟨2, 2, .insert 0 "key1" one 100 1⟩] :=
  @not_always_of_view _ _ (step fun _ => 0) _
    (fun session => (session.cache.memoryUsedBytes, session.cache.totalSize)) (144, 72)
    (fun session => session.cache.Bookkept) (.start 100 0) _ (by decide +kernel)
    fun final seen kept => absurd ((Prod.mk.inj seen).1.symm.trans
      (kept.bytes.trans (Prod.mk.inj seen).2)) (by decide)

end CacheBookkeeping

end TradingBot.Features
