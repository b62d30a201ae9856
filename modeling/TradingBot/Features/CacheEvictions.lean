import Mathlib.Algebra.Order.BigOperators.Group.List
import TradingBot.Features.FeatureCache

/-!
# What a feature cache holds and evicts

The entries and the access order of each asset, the bytes and the number of all entries held, and
what the evictions of a call leave of them: the expired entries go first, then those of the oldest
records, as many as it takes and no more than the loop allows.
-/

open MachineInt

namespace TradingBot.Features

namespace FeatureCache

/-! ## What is held -/

/-- The entries held of an asset. -/
def heldOf (cache : FeatureCache) (assetId : Nat) : Dict String FeatureEntry :=
  (cache.assets.get assetId).getD .empty

/-- The access order of an asset. -/
def orderOf (cache : FeatureCache) (assetId : Nat) : OrderedMap Nat String :=
  (cache.accessOrder.get assetId).getD .empty

/-- The count of an asset. -/
def countOf (cache : FeatureCache) (assetId : Nat) : Nat :=
  (cache.entryCounts.get assetId).getD 0

/-- The bytes of the entries of an asset that pass a test. -/
def sizeWhere (assetMap : Dict String FeatureEntry) (test : String → FeatureEntry → Bool) : Nat :=
  (assetMap.entries.map fun entry => if test entry.1 entry.2 then entry.2.size else 0).sum

/-- The bytes of the entries of an asset. -/
def sizeOf (assetMap : Dict String FeatureEntry) : Nat := sizeWhere assetMap fun _ _ => true

/-- The bytes of all entries held. -/
def totalSize (cache : FeatureCache) : Nat := (cache.assets.values.map sizeOf).sum

/-- The number of all entries held. -/
def totalHeld (cache : FeatureCache) : Nat := (cache.assets.values.map Dict.size).sum

/-- The count of every asset is the number of entries held of it. -/
def Counted (cache : FeatureCache) : Prop :=
  ∀ assetId, cache.countOf assetId = (cache.heldOf assetId).size

section Sizes

variable {assetMap : Dict String FeatureEntry} {key : String} {entry : FeatureEntry}
  {first second : String → FeatureEntry → Bool}

theorem sizeOf_eq (assetMap : Dict String FeatureEntry) :
    sizeOf assetMap = (assetMap.values.map FeatureEntry.size).sum := by
  unfold sizeOf sizeWhere Dict.values
  rw [List.map_map]
  rfl

theorem sizeWhere_congr
    (agree : ∀ key entry, assetMap.get key = some entry → first key entry = second key entry) :
    sizeWhere assetMap first = sizeWhere assetMap second := by
  unfold sizeWhere
  refine congrArg List.sum (List.map_congr_left fun entry member => ?_)
  rw [agree entry.1 entry.2 (Dict.get_eq_some.mpr member)]

theorem sizeWhere_mono
    (weaker : ∀ key entry, assetMap.get key = some entry → first key entry = true →
      second key entry = true) : sizeWhere assetMap first ≤ sizeWhere assetMap second := by
  unfold sizeWhere
  refine List.sum_le_sum fun entry member => ?_
  by_cases passes : first entry.1 entry.2 = true
  · rw [if_pos passes, if_pos (weaker entry.1 entry.2 (Dict.get_eq_some.mpr member) passes)]
  · rw [if_neg passes]
    exact Nat.zero_le _

/-- The sizes of one choice and of another from the rest add up. -/
theorem sizeWhere_split (left : Dict String FeatureEntry)
    (keeps : left.entries = assetMap.entries.filter fun entry => !first entry.1 entry.2) :
    sizeWhere assetMap (fun key entry => first key entry || second key entry) =
      sizeWhere assetMap first + sizeWhere left second := by
  unfold sizeWhere
  rw [keeps]
  induction assetMap.entries with
  | nil => rfl
  | cons entry rest ih =>
    simp only [List.map_cons, List.sum_cons, List.filter_cons, ih]
    by_cases taken : first entry.1 entry.2 = true
    · simp only [taken, Bool.true_or, if_true, Bool.not_true, Bool.false_eq_true, if_false]
      omega
    · rw [Bool.not_eq_true] at taken
      simp only [taken, Bool.false_or, Bool.not_false, if_true, Bool.false_eq_true, if_false,
        List.map_cons, List.sum_cons]
      omega

theorem sizeWhere_left {left : Dict String FeatureEntry}
    (keeps : ∀ key entry, left.get key = some entry ↔
      assetMap.get key = some entry ∧ first key entry = false) :
    sizeWhere assetMap (fun key entry => first key entry || second key entry) =
      sizeWhere assetMap first + sizeWhere left second := by
  let kept : Dict String FeatureEntry :=
    ⟨assetMap.entries.filter fun entry => !first entry.1 entry.2,
      (List.filter_sublist.map Prod.fst).nodup assetMap.nodup⟩
  have same : left.entries.Perm kept.entries := by
    rw [List.perm_ext_iff_of_nodup left.nodup.of_map kept.nodup.of_map]
    intro entry
    rw [List.mem_filter, ← Dict.get_eq_some, ← Dict.get_eq_some, keeps, Bool.not_eq_true']
  have bytes : sizeWhere left second = sizeWhere kept second := (same.map _).sum_eq
  rw [bytes]
  exact sizeWhere_split kept rfl

theorem sizeOf_split (left : Dict String FeatureEntry)
    (keeps : left.entries = assetMap.entries.filter fun entry => !first entry.1 entry.2) :
    sizeOf assetMap = sizeWhere assetMap first + sizeOf left := by
  unfold sizeOf
  rw [← sizeWhere_split left keeps]
  exact sizeWhere_congr fun _ _ _ => (Bool.or_true _).symm

theorem sizeWhere_key (found : assetMap.get key = some entry) :
    sizeWhere assetMap (fun other _ => other = key) = entry.size := by
  unfold sizeWhere
  rw [Dict.sum_pop _ found]
  have others : ((assetMap.pop key).entries.map fun entry =>
      if decide (entry.1 = key) = true then entry.2.size else 0).sum = 0 := by
    refine List.sum_eq_zero fun size member => ?_
    obtain ⟨entry, kept, same⟩ := List.mem_map.mp member
    rw [← same, if_neg]
    simpa using (List.mem_filter.mp kept).2
  rw [others, Nat.zero_add, if_pos (decide_eq_true rfl)]

theorem sizeWhere_absent (absent : assetMap.get key = none) :
    sizeWhere assetMap (fun other _ => other = key) = 0 := by
  refine List.sum_eq_zero fun size member => ?_
  obtain ⟨entry, held, same⟩ := List.mem_map.mp member
  have found := Dict.get_eq_some.mpr held
  rw [← same, if_neg]
  intro here
  rw [of_decide_eq_true here, absent] at found
  cases found

theorem sizeWhere_pop (assetMap : Dict String FeatureEntry) (key : String)
    (test : String → FeatureEntry → Bool) :
    sizeWhere assetMap (fun other entry => decide (other = key) || test other entry) =
      sizeWhere assetMap (fun other _ => other = key) + sizeWhere (assetMap.pop key) test :=
  sizeWhere_split _ (List.filter_congr fun _ _ => decide_not)

theorem sizeOf_pop (assetMap : Dict String FeatureEntry) (key : String) :
    sizeOf assetMap =
      sizeWhere assetMap (fun other _ => other = key) + sizeOf (assetMap.pop key) :=
  sizeOf_split _ (List.filter_congr fun _ _ => decide_not)

end Sizes

/-! ## Evictions -/

/-- One cache is left of another by evicting entries of an asset, with the books kept. -/
structure Evicts (assetId : Nat) (before after : FeatureCache) : Prop where
  budget : after.memoryBudgetBytes = before.memoryBudgetBytes
  /-- Another asset keeps its entries. -/
  heldElsewhere : ∀ other, other ≠ assetId → after.heldOf other = before.heldOf other
  /-- Another asset keeps its access order. -/
  orderElsewhere : ∀ other, other ≠ assetId → after.orderOf other = before.orderOf other
  /-- The bytes in use exceed those held by as much as before. -/
  slack : before.totalSize ≤ before.memoryUsedBytes →
    after.memoryUsedBytes + before.totalSize = before.memoryUsedBytes + after.totalSize
  /-- The bytes held are less by those of the asset. -/
  total : after.totalSize + sizeOf (before.heldOf assetId) =
    before.totalSize + sizeOf (after.heldOf assetId)
  held : after.totalHeld + (before.heldOf assetId).size =
    before.totalHeld + (after.heldOf assetId).size
  counted : before.Counted → after.Counted

section Evictions

variable {assetId requiredBytes nowNs : Nat} {key : String} {entry : FeatureEntry}
  {before middle after cache : FeatureCache}

theorem Evicts.refl (assetId : Nat) (cache : FeatureCache) : Evicts assetId cache cache where
  budget := rfl
  heldElsewhere _ _ := rfl
  orderElsewhere _ _ := rfl
  slack _ := rfl
  total := rfl
  held := rfl
  counted := id

theorem Evicts.trans (first : Evicts assetId before middle) (second : Evicts assetId middle after) :
    Evicts assetId before after where
  budget := second.budget.trans first.budget
  heldElsewhere other apart :=
    (second.heldElsewhere other apart).trans (first.heldElsewhere other apart)
  orderElsewhere other apart :=
    (second.orderElsewhere other apart).trans (first.orderElsewhere other apart)
  slack enough := by
    have left := first.slack enough
    have right := second.slack (by omega)
    omega
  total := by
    have left := first.total
    have right := second.total
    omega
  held := by
    have left := first.held
    have right := second.held
    omega
  counted counted := second.counted (first.counted counted)

theorem Evicts.enough (evicts : Evicts assetId before after)
    (enough : before.totalSize ≤ before.memoryUsedBytes) :
    after.totalSize ≤ after.memoryUsedBytes := by
  have slack := evicts.slack enough
  omega

theorem sum_replaced (measure : Dict String FeatureEntry → Nat) (zero : measure .empty = 0)
    (cache : FeatureCache) (assetId : Nat) (assetMap : Dict String FeatureEntry) :
    ((cache.assets.put assetId assetMap).values.map measure).sum + measure (cache.heldOf assetId) =
      (cache.assets.values.map measure).sum + measure assetMap := by
  rw [← Dict.sum_put_get measure cache.assets assetId assetMap]
  unfold heldOf
  cases cache.assets.get assetId with
  | none => exact congrArg _ zero
  | some _ => rfl

theorem sizeOf_le_totalSize (cache : FeatureCache) (assetId : Nat) :
    sizeOf (cache.heldOf assetId) ≤ cache.totalSize := by
  have emptied := sum_replaced sizeOf rfl cache assetId .empty
  have none : sizeOf Dict.empty = 0 := rfl
  unfold totalSize
  omega

theorem Evicts.of_put {assetMap new : Dict String FeatureEntry} {used taken : Nat}
    (present : cache.assets.get assetId = some assetMap) (stats : CacheStats)
    (freed : cache.totalSize ≤ cache.memoryUsedBytes →
      used + sizeOf assetMap = cache.memoryUsedBytes + sizeOf new)
    (fewer : taken + new.size = assetMap.size) :
    Evicts assetId cache { cache with
      assets := cache.assets.put assetId new
      memoryUsedBytes := used
      entryCounts := match cache.entryCounts.get assetId with
        | some count => cache.entryCounts.put assetId (fetchSub count taken)
        | none => cache.entryCounts
      stats := stats } := by
  have held : cache.heldOf assetId = assetMap := by unfold heldOf; rw [present]; rfl
  have now : ((cache.assets.put assetId new).get assetId).getD .empty = new := by
    rw [Dict.getD_put, if_pos rfl]
  have elsewhere : ∀ other, other ≠ assetId →
      ((cache.assets.put assetId new).get other).getD .empty = cache.heldOf other :=
    fun other apart => by rw [Dict.getD_put, if_neg apart]; rfl
  have bytes := sum_replaced sizeOf rfl cache assetId new
  have entries := sum_replaced Dict.size rfl cache assetId new
  refine ⟨rfl, elsewhere, fun _ _ => rfl, fun enough => ?_, ?_, ?_, fun counted other => ?_⟩
  · have freed := freed enough
    rw [held] at bytes
    show used + cache.totalSize = cache.memoryUsedBytes +
      ((cache.assets.put assetId new).values.map sizeOf).sum
    unfold totalSize at *
    omega
  · show _ = cache.totalSize + sizeOf (((cache.assets.put assetId new).get assetId).getD .empty)
    rw [now]
    exact bytes
  · show _ = cache.totalHeld + (((cache.assets.put assetId new).get assetId).getD .empty).size
    rw [now]
    exact entries
  · have count := counted other
    unfold countOf heldOf at count ⊢
    dsimp only
    by_cases here : other = assetId
    · rw [here, present] at count
      rw [here, now]
      cases stored : cache.entryCounts.get assetId with
      | none =>
        rw [stored] at count
        simp only [Option.getD_none, Option.getD_some] at count
        simp only [stored, Option.getD_none]
        omega
      | some number =>
        rw [stored] at count
        simp only [Option.getD_some] at count
        simp only [Dict.getD_put, if_pos, fetchSub]
        rw [if_pos (by omega)]
        omega
    · rw [elsewhere other here]
      cases stored : cache.entryCounts.get assetId with
      | none => exact count
      | some number =>
        rw [Dict.getD_put, if_neg here]
        exact count

theorem remove_absent (absent : (cache.heldOf assetId).get key = none) :
    cache.remove assetId key = (false, cache) := by
  unfold heldOf at absent
  unfold remove
  cases present : cache.assets.get assetId with
  | none => rfl
  | some assetMap =>
    rw [present] at absent
    simp only [show assetMap.get key = none from absent]

theorem remove_present (found : (cache.heldOf assetId).get key = some entry) :
    Evicts assetId cache (cache.remove assetId key).2 ∧
      (cache.remove assetId key).2.heldOf assetId = (cache.heldOf assetId).pop key := by
  have within := sizeOf_le_totalSize cache assetId
  unfold heldOf at found within ⊢
  unfold remove
  cases present : cache.assets.get assetId with
  | none =>
    rw [present] at found
    cases found
  | some assetMap =>
    rw [present] at found within
    have here : assetMap.get key = some entry := found
    simp only [here, Option.getD_some] at within ⊢
    have split := sizeOf_pop assetMap key
    rw [sizeWhere_key here] at split
    have positive : 0 < assetMap.size := List.length_pos_of_mem (Dict.get_eq_some.mp here)
    refine ⟨@Evicts.of_put _ _ _ _ _ 1 present _ (fun enough => ?_) ?_, ?_⟩
    · rw [fetchSub, if_pos (by omega)]
      omega
    · rw [Dict.size_pop, here, Option.isSome_some, if_pos rfl]
      omega
    · rw [Dict.getD_put, if_pos rfl]

theorem remove_evicts (cache : FeatureCache) (assetId : Nat) (key : String) :
    Evicts assetId cache (cache.remove assetId key).2 ∧
      (cache.remove assetId key).2.heldOf assetId = (cache.heldOf assetId).pop key := by
  cases found : (cache.heldOf assetId).get key with
  | none =>
    rw [remove_absent found, Dict.pop_absent found]
    exact ⟨.refl assetId cache, rfl⟩
  | some entry => exact remove_present found

theorem accessOrder_remove (cache : FeatureCache) (assetId : Nat) (key : String) :
    (cache.remove assetId key).2.accessOrder = cache.accessOrder := by
  unfold remove
  split
  · rfl
  · split <;> rfl

/-- Dropping keys frees what they held. -/
theorem dropKeys_spec (keys : List String) (assetMap : Dict String FeatureEntry) (used : Nat) :
    (dropKeys keys assetMap used).1.entries =
        assetMap.entries.filter (fun entry => !decide (entry.1 ∈ keys)) ∧
      (sizeOf assetMap ≤ used →
        (dropKeys keys assetMap used).2 + sizeOf assetMap =
          used + sizeOf (dropKeys keys assetMap used).1) := by
  induction keys generalizing assetMap used with
  | nil => exact ⟨(List.filter_eq_self.mpr fun entry _ => by simp).symm, fun _ => rfl⟩
  | cons key rest ih =>
    have popped : (assetMap.pop key).entries.filter (fun entry => !decide (entry.1 ∈ rest)) =
        assetMap.entries.filter fun entry => !decide (entry.1 ∈ key :: rest) := by
      rw [Dict.pop, List.filter_filter]
      refine List.filter_congr fun entry _ => ?_
      simp [List.mem_cons, Bool.and_comm]
    unfold dropKeys
    cases found : assetMap.get key with
    | none =>
      rw [Dict.pop_absent found] at popped
      rw [← popped]
      exact ih assetMap used
    | some entry =>
      dsimp only
      have split := sizeOf_pop assetMap key
      rw [sizeWhere_key found] at split
      refine ⟨(ih _ _).1.trans popped, fun enough => ?_⟩
      have freed := (ih (assetMap.pop key) (fetchSub used entry.size)).2
      rw [fetchSub, if_pos (by omega)] at freed ⊢
      have freed := freed (by omega)
      omega

theorem mem_expiredKeys {assetMap : Dict String FeatureEntry} {entry : String × FeatureEntry}
    (member : entry ∈ assetMap.entries) :
    entry.1 ∈ expiredKeys assetMap nowNs ↔ entry.2.isExpired nowNs = true := by
  unfold expiredKeys
  rw [List.mem_map]
  constructor
  · intro collected
    obtain ⟨other, kept, same⟩ := collected
    have held := List.mem_filter.mp kept
    have one : entry.2 = other.2 :=
      Dict.eq_of_mem member (show (entry.1, other.2) ∈ assetMap.entries from same ▸ held.1)
    rw [one]
    exact held.2
  · exact fun expired => ⟨entry, List.mem_filter.mpr ⟨member, expired⟩, rfl⟩

/-- Expired entries are evicted, and only they. -/
theorem evictExpired_spec (cache : FeatureCache) (assetId nowNs : Nat) :
    Evicts assetId cache (cache.evictExpired assetId nowNs).2 ∧
      ((cache.evictExpired assetId nowNs).2.heldOf assetId).entries =
        (cache.heldOf assetId).entries.filter fun entry => !entry.2.isExpired nowNs := by
  have within := sizeOf_le_totalSize cache assetId
  unfold heldOf at within ⊢
  unfold evictExpired
  cases present : cache.assets.get assetId with
  | none =>
    dsimp only
    rw [present]
    exact ⟨.refl assetId cache, rfl⟩
  | some assetMap =>
    rw [present] at within
    obtain ⟨left, freed⟩ :=
      dropKeys_spec (expiredKeys assetMap nowNs) assetMap cache.memoryUsedBytes
    have kept : (dropKeys (expiredKeys assetMap nowNs) assetMap cache.memoryUsedBytes).1.entries =
        assetMap.entries.filter fun entry => !entry.2.isExpired nowNs := by
      rw [left]
      refine List.filter_congr fun entry member => ?_
      simp only [mem_expiredKeys member, Bool.decide_eq_true]
    refine ⟨.of_put present _ (fun enough => freed (Nat.le_trans within enough)) ?_, ?_⟩
    · have counted : (expiredKeys assetMap nowNs).length =
          (assetMap.entries.filter fun entry => entry.2.isExpired nowNs).length := List.length_map _
      rw [counted, Dict.size, kept]
      exact (List.length_eq_length_filter_add _).symm
    · dsimp only
      rw [Dict.getD_put, if_pos rfl]
      exact kept

theorem accessOrder_evictExpired (cache : FeatureCache) (assetId nowNs : Nat) :
    (cache.evictExpired assetId nowNs).2.accessOrder = cache.accessOrder := by
  unfold evictExpired
  split <;> rfl

theorem evictLruEntry_idle (none : (cache.orderOf assetId).entries = []) :
    (cache.evictLruEntry assetId).2 = cache := by
  unfold orderOf at none
  unfold evictLruEntry
  cases present : cache.accessOrder.get assetId with
  | none => rfl
  | some orderMap =>
    rw [present] at none
    simp only [show orderMap.entries = [] from none, List.head?_nil]

/-- The least recent entry is the one evicted. -/
theorem evictLruEntry_pops {record : Nat × String} {rest : List (Nat × String)}
    (records : (cache.orderOf assetId).entries = record :: rest) :
    Evicts assetId cache (cache.evictLruEntry assetId).2 ∧
      ((cache.evictLruEntry assetId).2.orderOf assetId).entries = rest ∧
      (cache.evictLruEntry assetId).2.heldOf assetId = (cache.heldOf assetId).pop record.2 := by
  unfold orderOf at records
  unfold evictLruEntry
  cases present : cache.accessOrder.get assetId with
  | none =>
    rw [present] at records
    cases records
  | some orderMap =>
    have whole : orderMap.entries = record :: rest := by rw [present] at records; exact records
    simp only [whole, List.head?_cons]
    let ordered := { cache with
      accessOrder := cache.accessOrder.put assetId (orderMap.erase record.1) }
    have reordered : Evicts assetId cache ordered := by
      refine ⟨rfl, fun _ _ => rfl, fun other apart => ?_, fun _ => rfl, rfl, rfl, id⟩
      show ((cache.accessOrder.put assetId _).get other).getD _ = _
      rw [Dict.getD_put, if_neg apart]
      rfl
    obtain ⟨removed, held⟩ := remove_evicts ordered assetId record.2
    refine ⟨reordered.trans removed, ?_, held⟩
    unfold orderOf
    rw [accessOrder_remove, Dict.getD_put, if_pos rfl]
    have above := orderMap.sorted
    rw [whole, List.pairwise_cons] at above
    show orderMap.entries.filter _ = rest
    rw [whole, List.filter_cons_of_neg (by simp)]
    exact List.filter_eq_self.mpr fun other member =>
      decide_eq_true (ne_of_gt (above.1 other member))

end Evictions

/-! ## The eviction loop -/

/-- The keys with a record older than a time. -/
def keysBefore (cache : FeatureCache) (assetId time : Nat) : List String :=
  ((cache.orderOf assetId).entries.filter fun record => decide (record.1 < time)).map Prod.snd

/-- The bytes that are gone when the records older than a time are taken: those of the entries that
are gone anyway, and those of the keys with such a record. -/
def leavesBefore (cache : FeatureCache) (assetId : Nat) (gone : FeatureEntry → Bool)
    (time : Nat) : Nat :=
  sizeWhere (cache.heldOf assetId) fun key entry =>
    gone entry || decide (key ∈ cache.keysBefore assetId time)

/-- The loop takes a record: it is among the first ones, and the bytes gone before it are not
enough. -/
def Pops (cache : FeatureCache) (assetId requiredBytes : Nat) (gone : FeatureEntry → Bool)
    (count : Nat) (record : Nat × String) : Prop :=
  record ∈ (cache.orderOf assetId).entries.take count ∧
    cache.memoryBudgetBytes + cache.leavesBefore assetId gone record.1 <
      cache.memoryUsedBytes + requiredBytes

instance (cache : FeatureCache) (assetId requiredBytes : Nat) (gone : FeatureEntry → Bool)
    (count : Nat) : DecidablePred (cache.Pops assetId requiredBytes gone count) :=
  fun _ => inferInstanceAs (Decidable (_ ∧ _))

/-- No entry is gone anyway. -/
def noneGone : FeatureEntry → Bool := fun _ => false

section Loop

variable {assetId requiredBytes count : Nat} {cache : FeatureCache} {gone : FeatureEntry → Bool}
  {record first : Nat × String} {rest : List (Nat × String)}

theorem Pops.mem (pops : cache.Pops assetId requiredBytes gone count record) :
    record ∈ (cache.orderOf assetId).entries := List.mem_of_mem_take pops.1

theorem not_pops (fits : cache.memoryUsedBytes + requiredBytes ≤ cache.memoryBudgetBytes) :
    ¬cache.Pops assetId requiredBytes gone count record := by
  intro pops
  have below := pops.2
  omega

section

variable (records : (cache.orderOf assetId).entries = first :: rest)
include records

theorem keysBefore_first : cache.keysBefore assetId first.1 = [] := by
  have above := (cache.orderOf assetId).sorted
  rw [records, List.pairwise_cons] at above
  unfold keysBefore
  rw [records, List.filter_cons_of_neg (by simp), List.map_eq_nil_iff, List.filter_eq_nil_iff]
  intro other member
  have later := above.1 other member
  simp only [decide_eq_true_eq]
  omega

theorem pops_first (exceeds : ¬cache.memoryUsedBytes + requiredBytes ≤ cache.memoryBudgetBytes) :
    cache.Pops assetId requiredBytes noneGone (count + 1) first := by
  refine ⟨by rw [records]; exact List.mem_cons_self, ?_⟩
  have nothing : cache.leavesBefore assetId noneGone first.1 = 0 := by
    unfold leavesBefore
    rw [keysBefore_first records]
    refine List.sum_eq_zero fun size member => ?_
    obtain ⟨entry, -, same⟩ := List.mem_map.mp member
    exact same.symm
  omega

theorem keysBefore_rest (later : record ∈ rest) : cache.keysBefore assetId record.1 =
      first.2 :: (cache.evictLruEntry assetId).2.keysBefore assetId record.1 := by
  have above := (cache.orderOf assetId).sorted
  rw [records, List.pairwise_cons] at above
  unfold keysBefore
  rw [(evictLruEntry_pops records).2.1, records, List.filter_cons_of_pos (by
    simpa using above.1 record later), List.map_cons]

theorem pops_rest (enough : cache.totalSize ≤ cache.memoryUsedBytes) (later : record ∈ rest) :
    cache.Pops assetId requiredBytes noneGone (count + 1) record ↔
      (cache.evictLruEntry assetId).2.Pops assetId requiredBytes noneGone count record := by
  obtain ⟨evicts, ordered, held⟩ := evictLruEntry_pops records
  have bytes : cache.leavesBefore assetId noneGone record.1 =
      sizeWhere (cache.heldOf assetId) (fun other _ => other = first.2) +
        (cache.evictLruEntry assetId).2.leavesBefore assetId noneGone record.1 := by
    unfold leavesBefore
    rw [held, ← sizeWhere_pop, keysBefore_rest records later]
    refine sizeWhere_congr fun key entry _ => ?_
    simp [noneGone, List.mem_cons]
  have whole := sizeOf_pop (cache.heldOf assetId) first.2
  have total := evicts.total
  have slack := evicts.slack enough
  have above := (cache.orderOf assetId).sorted
  rw [records, List.pairwise_cons] at above
  have apart : record ≠ first := fun same => absurd (above.1 record later) (by rw [same]; simp)
  rw [held] at total
  unfold Pops
  rw [records, ordered, evicts.budget, List.take_succ_cons, List.mem_cons,
    or_iff_right apart]
  exact and_congr_right fun _ => by omega

end

/-- What the loop leaves: the records it does not take, and the entries whose keys have none of
those it takes; and it takes all it may unless the rest fits. -/
structure Leaves (cache : FeatureCache) (assetId requiredBytes count : Nat)
    (gone : FeatureEntry → Bool) (after : FeatureCache) : Prop where
  evicts : Evicts assetId cache after
  records : ∀ record, record ∈ (after.orderOf assetId).entries ↔
    record ∈ (cache.orderOf assetId).entries ∧
      ¬cache.Pops assetId requiredBytes gone count record
  entries : ∀ key entry, (after.heldOf assetId).get key = some entry ↔
    ((cache.heldOf assetId).get key = some entry ∧ gone entry = false) ∧
      ∀ record, cache.Pops assetId requiredBytes gone count record → record.2 ≠ key
  room : after.memoryUsedBytes + requiredBytes ≤ after.memoryBudgetBytes ∨
    ∀ record ∈ (cache.orderOf assetId).entries.take count,
      cache.Pops assetId requiredBytes gone count record

theorem leaves_self (nothing : ∀ record, ¬cache.Pops assetId requiredBytes noneGone count record)
    (room : cache.memoryUsedBytes + requiredBytes ≤ cache.memoryBudgetBytes ∨
      (cache.orderOf assetId).entries.take count = []) :
    Leaves cache assetId requiredBytes count noneGone cache where
  evicts := .refl assetId cache
  records record := (and_iff_left (nothing record)).symm
  entries key entry := by
    rw [and_iff_left fun record pops => absurd pops (nothing record)]
    exact (and_iff_left rfl).symm
  room := room.imp_right fun none record member => by
    rw [none] at member
    exact absurd member List.not_mem_nil

theorem evictLru_idle (none : (cache.orderOf assetId).entries = []) (count : Nat) :
    evictLru assetId requiredBytes count cache = cache := by
  induction count with
  | zero => rfl
  | succ count ih =>
    unfold evictLru
    split
    · rfl
    · rw [evictLruEntry_idle none, ih]

theorem pops_iff (records : (cache.orderOf assetId).entries = first :: rest)
    (enough : cache.totalSize ≤ cache.memoryUsedBytes)
    (exceeds : ¬cache.memoryUsedBytes + requiredBytes ≤ cache.memoryBudgetBytes) :
    cache.Pops assetId requiredBytes noneGone (count + 1) record ↔
      record = first ∨
        (cache.evictLruEntry assetId).2.Pops assetId requiredBytes noneGone count record := by
  obtain ⟨-, ordered, -⟩ := evictLruEntry_pops records
  constructor
  · intro pops
    have member := pops.mem
    rw [records] at member
    cases List.mem_cons.mp member with
    | inl here => exact .inl here
    | inr later => exact .inr ((pops_rest records enough later).mp pops)
  · intro taken
    cases taken with
    | inl here => exact here ▸ pops_first records exceeds
    | inr pops =>
      have later := pops.mem
      rw [ordered] at later
      exact (pops_rest records enough later).mpr pops

theorem evictLru_leaves (count : Nat) (cache : FeatureCache)
    (enough : cache.totalSize ≤ cache.memoryUsedBytes) :
    Leaves cache assetId requiredBytes count noneGone
      (evictLru assetId requiredBytes count cache) := by
  induction count generalizing cache with
  | zero => exact leaves_self (fun record pops => absurd pops.1 List.not_mem_nil) (.inr rfl)
  | succ count ih =>
    cases records : (cache.orderOf assetId).entries with
    | nil =>
      rw [evictLru_idle records]
      have nothing : (cache.orderOf assetId).entries.take (count + 1) = [] := by
        rw [records, List.take_nil]
      refine leaves_self (fun record pops => ?_) (.inr nothing)
      exact absurd (nothing ▸ pops.1) List.not_mem_nil
    | cons first rest =>
      unfold evictLru
      split
      · next fits => exact leaves_self (fun record => not_pops fits) (.inl fits)
      · next exceeds =>
        obtain ⟨evicts, ordered, held⟩ := evictLruEntry_pops records
        have left := ih (cache.evictLruEntry assetId).2 (evicts.enough enough)
        have taken := fun record => @pops_iff _ _ count cache record _ _ records enough exceeds
        have above := (cache.orderOf assetId).sorted
        rw [records, List.pairwise_cons] at above
        refine ⟨evicts.trans left.evicts, fun record => ?_, fun key entry => ?_, ?_⟩
        · rw [left.records, ordered, taken, records, List.mem_cons, not_or, ← and_assoc]
          refine and_congr_left fun _ => ⟨fun later => ⟨.inr later, fun here => ?_⟩, fun here =>
            here.1.resolve_left here.2⟩
          exact absurd (above.1 record later) (by rw [here]; exact lt_irrefl _)
        · rw [left.entries, held, Dict.get_pop]
          simp only [taken, or_imp, forall_and, forall_eq]
          by_cases here : key = first.2
          · simp [here]
          · simp [here, Ne.symm here]
        · refine left.room.imp_right fun all record member => (taken record).mpr ?_
          rw [records, List.take_succ_cons] at member
          rw [ordered] at all
          exact (List.mem_cons.mp member).imp_right (all record)

theorem pops_evictExpired (enough : cache.totalSize ≤ cache.memoryUsedBytes) (nowNs : Nat) :
    (cache.evictExpired assetId nowNs).2.Pops assetId requiredBytes noneGone count record ↔
      cache.Pops assetId requiredBytes (fun entry => entry.isExpired nowNs) count record := by
  obtain ⟨evicts, kept⟩ := evictExpired_spec cache assetId nowNs
  have ordered : (cache.evictExpired assetId nowNs).2.orderOf assetId = cache.orderOf assetId := by
    unfold orderOf
    rw [accessOrder_evictExpired]
  have bytes : cache.leavesBefore assetId (fun entry => entry.isExpired nowNs) record.1 =
      sizeWhere (cache.heldOf assetId) (fun _ entry => entry.isExpired nowNs) +
        (cache.evictExpired assetId nowNs).2.leavesBefore assetId noneGone record.1 := by
    unfold leavesBefore keysBefore
    rw [ordered]
    exact sizeWhere_split _ kept
  have whole : sizeOf (cache.heldOf assetId) =
      sizeWhere (cache.heldOf assetId) (fun _ entry => entry.isExpired nowNs) +
        sizeOf ((cache.evictExpired assetId nowNs).2.heldOf assetId) := sizeOf_split _ kept
  have total := evicts.total
  have slack := evicts.slack enough
  unfold Pops
  rw [ordered, evicts.budget]
  exact and_congr_right fun _ => by omega

theorem evictExpired_leaves (cache : FeatureCache) (assetId requiredBytes nowNs : Nat) {count : Nat}
    (nothing : ∀ record,
      ¬cache.Pops assetId requiredBytes (fun entry => entry.isExpired nowNs) count record)
    (room : cache.memoryUsedBytes + requiredBytes ≤ cache.memoryBudgetBytes ∧
      cache.totalSize ≤ cache.memoryUsedBytes ∨ count = 0) :
    Leaves cache assetId requiredBytes count (fun entry => entry.isExpired nowNs)
      (cache.evictExpired assetId nowNs).2 := by
  obtain ⟨evicts, kept⟩ := evictExpired_spec cache assetId nowNs
  refine ⟨evicts, fun record => ?_, fun key entry => ?_, ?_⟩
  · unfold orderOf
    rw [accessOrder_evictExpired, and_iff_left (nothing record)]
  · rw [and_iff_left fun record pops => absurd pops (nothing record), Dict.get_eq_some, kept,
      List.mem_filter, ← Dict.get_eq_some, Bool.not_eq_true']
  · refine room.imp (fun fits => ?_) fun none record member => ?_
    · have slack := evicts.slack fits.2
      have total := evicts.total
      have fewer := @sizeOf_split (cache.heldOf assetId) (fun _ entry => entry.isExpired nowNs) _
        kept
      rw [evicts.budget]
      omega
    · rw [none, List.take_zero] at member
      exact absurd member List.not_mem_nil

theorem evictIfNeeded_leaves (enough : cache.totalSize ≤ cache.memoryUsedBytes) (nowNs : Nat) :
    Leaves cache assetId requiredBytes (entriesToEvict requiredBytes)
      (fun entry => entry.isExpired nowNs) (cache.evictIfNeeded assetId requiredBytes nowNs) := by
  unfold evictIfNeeded
  split
  · next fits =>
    exact evictExpired_leaves cache assetId requiredBytes nowNs (fun _ => not_pops fits)
      (.inl ⟨fits, enough⟩)
  · next exceeds =>
    obtain ⟨evicts, kept⟩ := evictExpired_spec cache assetId nowNs
    have left : Leaves _ assetId requiredBytes (entriesToEvict requiredBytes) noneGone _ :=
      evictLru_leaves (entriesToEvict requiredBytes) _ (evicts.enough enough)
    have ordered : (cache.evictExpired assetId nowNs).2.orderOf assetId =
        cache.orderOf assetId := by
      unfold orderOf
      rw [accessOrder_evictExpired]
    have taken := fun record => @pops_evictExpired assetId requiredBytes
      (entriesToEvict requiredBytes) cache record enough nowNs
    refine ⟨evicts.trans left.evicts, fun record => ?_, fun key entry => ?_, ?_⟩
    · rw [left.records, ordered, taken]
    · rw [left.entries, Dict.get_eq_some, kept, List.mem_filter, ← Dict.get_eq_some]
      simp only [taken, noneGone, and_true, Bool.not_eq_true']
    · refine left.room.imp_right fun all record member => (taken record).mp (all record ?_)
      rw [ordered]
      exact member

/-- An entry goes before an insertion without being taken by the loop: it is expired, and the
insertion exceeds the budget. -/
def goneFor (cache : FeatureCache) (entrySize nowNs : Nat) (entry : FeatureEntry) : Bool :=
  decide (cache.memoryBudgetBytes < cache.memoryUsedBytes + entrySize) && entry.isExpired nowNs

theorem makeRoom_leaves (enough : cache.totalSize ≤ cache.memoryUsedBytes)
    (assetId entrySize nowNs : Nat) :
    Leaves cache assetId entrySize (entriesToEvict entrySize) (cache.goneFor entrySize nowNs)
      (cache.makeRoom assetId entrySize nowNs) := by
  unfold makeRoom
  split
  · next exceeds =>
    have gone : cache.goneFor entrySize nowNs = fun entry => entry.isExpired nowNs := by
      funext entry
      rw [goneFor, decide_eq_true exceeds, Bool.true_and]
    rw [gone]
    exact evictIfNeeded_leaves enough nowNs
  · next fits =>
    have gone : cache.goneFor entrySize nowNs = noneGone := by
      funext entry
      rw [goneFor, decide_eq_false fits]
      rfl
    rw [gone]
    exact leaves_self (fun record => not_pops (Nat.not_lt.mp fits)) (.inl (Nat.not_lt.mp fits))

end Loop

/-! ## The other calls -/

section Calls

variable {cache : FeatureCache} {assetId : Nat} {key : String} {entry : FeatureEntry}

/-- A stored entry is held under its key. -/
theorem heldOf_store (cache : FeatureCache) (assetId : Nat) (key : String) (entry : FeatureEntry)
    (other : Nat) :
    (cache.store assetId key entry).heldOf other =
      if other = assetId then (cache.heldOf assetId).put key entry else cache.heldOf other :=
  Dict.getD_put _ _ _ _ _

theorem orderOf_store (cache : FeatureCache) (assetId : Nat) (key : String) (entry : FeatureEntry)
    (other : Nat) :
    (cache.store assetId key entry).orderOf other =
      if other = assetId then (cache.orderOf assetId).insert entry.lastAccessNs key
      else cache.orderOf other :=
  Dict.getD_put _ _ _ _ _

theorem sizeOf_put (assetMap : Dict String FeatureEntry) (key : String) (entry : FeatureEntry) :
    sizeOf (assetMap.put key entry) + sizeWhere assetMap (fun other _ => other = key) =
      sizeOf assetMap + entry.size := by
  have put := Dict.sum_put_get FeatureEntry.size assetMap key entry
  rw [sizeOf_eq, sizeOf_eq, ← put]
  refine congrArg _ ?_
  cases found : assetMap.get key with
  | none => exact sizeWhere_absent found
  | some old => exact sizeWhere_key found

theorem totalSize_store (cache : FeatureCache) (assetId : Nat) (key : String)
    (entry : FeatureEntry) :
    (cache.store assetId key entry).totalSize +
        sizeWhere (cache.heldOf assetId) (fun other _ => other = key) =
      cache.totalSize + entry.size := by
  have replaced := sum_replaced sizeOf rfl cache assetId ((cache.heldOf assetId).put key entry)
  have put := sizeOf_put (cache.heldOf assetId) key entry
  unfold totalSize
  show ((cache.assets.put assetId _).values.map sizeOf).sum + _ = _
  unfold heldOf at *
  omega

end Calls

end FeatureCache

end TradingBot.Features
