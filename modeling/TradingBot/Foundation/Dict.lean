import Mathlib.Algebra.BigOperators.Group.Finset.Basic

/-!
# Dictionaries

A dictionary in insertion order: a new key goes to the end, a key that is there keeps its place,
and no key is there twice. The last is a field, so every dictionary is well formed.
-/

/-- An order in which a collection that has none of its own is gone through. -/
structure Traversal (α : Type*) where
  order : List α → List α
  /-- Every element is met once. -/
  perm : ∀ elements, (order elements).Perm elements

/-- A dictionary with its entries in the order in which their keys were put. -/
structure Dict (κ ν : Type*) where
  /-- The entries in order. -/
  entries : List (κ × ν)
  /-- No key is there twice. -/
  nodup : (entries.map Prod.fst).Nodup

namespace Dict

variable {κ ν : Type*}

/-- The dictionary without entries. -/
def empty : Dict κ ν := ⟨[], List.nodup_nil⟩

/-- The keys in order. -/
def keys (dict : Dict κ ν) : List κ := dict.entries.map Prod.fst

/-- The values in order. -/
def values (dict : Dict κ ν) : List ν := dict.entries.map Prod.snd

/-- A dictionary whose values are changed at their keys. -/
def mapValues (dict : Dict κ ν) (change : ν → ν) : Dict κ ν where
  entries := dict.entries.map fun entry => (entry.1, change entry.2)
  nodup := by
    rw [List.map_map]
    exact dict.nodup

/-- The number of entries. -/
def size (dict : Dict κ ν) : Nat := dict.entries.length

variable [DecidableEq κ]

/-- The value at a key. -/
def get (dict : Dict κ ν) (key : κ) : Option ν :=
  (dict.entries.find? fun entry => entry.1 = key).map Prod.snd

/-- Entries with a value put at a key. -/
def putEntry (key : κ) (value : ν) : List (κ × ν) → List (κ × ν)
  | [] => [(key, value)]
  | entry :: rest =>
    if entry.1 = key then (key, value) :: rest else entry :: putEntry key value rest

theorem keys_putEntry (key : κ) (value : ν) (entries : List (κ × ν)) :
    (putEntry key value entries).map Prod.fst =
      if key ∈ entries.map Prod.fst then entries.map Prod.fst
      else entries.map Prod.fst ++ [key] := by
  induction entries with
  | nil => rfl
  | cons entry rest ih =>
    rw [putEntry, List.map_cons]
    by_cases here : entry.1 = key
    · rw [if_pos here, if_pos (by rw [here]; exact List.mem_cons_self), List.map_cons, here]
    · rw [if_neg here, List.map_cons, ih]
      by_cases later : key ∈ rest.map Prod.fst
      · rw [if_pos later, if_pos (List.mem_cons_of_mem _ later)]
      · rw [if_neg later, if_neg (List.not_mem_cons_of_ne_of_not_mem (Ne.symm here) later)]
        rfl

/-- A dictionary with a value put at a key. -/
def put (dict : Dict κ ν) (key : κ) (value : ν) : Dict κ ν where
  entries := putEntry key value dict.entries
  nodup := by
    rw [keys_putEntry]
    split
    · exact dict.nodup
    · next absent =>
      refine dict.nodup.append (List.nodup_singleton key) ?_
      exact fun other member single => absent (List.mem_singleton.mp single ▸ member)

/-- A dictionary without a key. -/
def pop (dict : Dict κ ν) (key : κ) : Dict κ ν where
  entries := dict.entries.filter fun entry => entry.1 ≠ key
  nodup := (List.filter_sublist.map Prod.fst).nodup dict.nodup

/-- A dictionary without several keys. -/
def popAll (dict : Dict κ ν) (keys : List κ) : Dict κ ν := keys.foldl pop dict

/-- A dictionary with one value put at several keys. -/
def putAll (dict : Dict κ ν) (keys : List κ) (value : ν) : Dict κ ν :=
  keys.foldl (fun dict key => dict.put key value) dict

/-- The dictionary of a list of entries; the last one at a key counts. -/
def ofList (entries : List (κ × ν)) : Dict κ ν :=
  entries.foldl (fun dict entry => dict.put entry.1 entry.2) empty

/-- The keys of two dictionaries, those of the first before the others. -/
def unionKeys {μ : Type*} (first : Dict κ ν) (second : Dict κ μ) : List κ :=
  first.keys ++ second.keys.filter fun key => (first.get key).isNone

variable {dict : Dict κ ν} {key : κ} {value : ν}

omit [DecidableEq κ] in
theorem ext_entries {first second : Dict κ ν} (same : first.entries = second.entries) :
    first = second := by
  cases first
  cases second
  cases same
  rfl

omit [DecidableEq κ] in
theorem eq_of_mem {other : ν} (left : (key, value) ∈ dict.entries)
    (right : (key, other) ∈ dict.entries) : value = other := by
  have same := List.inj_on_of_nodup_map dict.nodup left right rfl
  exact congrArg Prod.snd same

/-- A key maps to a value if they are an entry. -/
theorem get_eq_some : dict.get key = some value ↔ (key, value) ∈ dict.entries := by
  constructor
  · intro found
    obtain ⟨entry, first, same⟩ := Option.map_eq_some_iff.mp found
    have key_ : entry.1 = key := by simpa using List.find?_some first
    have entry_ : entry = (key, value) := Prod.ext key_ same
    exact entry_ ▸ List.mem_of_find?_eq_some first
  · intro member
    cases found : dict.entries.find? fun entry => entry.1 = key with
    | none => exact absurd (decide_eq_true rfl) (List.find?_eq_none.mp found _ member)
    | some entry =>
      have key_ : entry.1 = key := by simpa using List.find?_some found
      have entry_ : entry = (key, entry.2) := Prod.ext key_ rfl
      have same := eq_of_mem (entry_ ▸ List.mem_of_find?_eq_some found) member
      rw [get, found, Option.map_some, same]

/-- The keys are those that map to a value. -/
theorem mem_keys : key ∈ dict.keys ↔ ∃ value, dict.get key = some value := by
  constructor
  · intro member
    obtain ⟨entry, there, rfl⟩ := List.mem_map.mp member
    exact ⟨entry.2, get_eq_some.mpr there⟩
  · intro ⟨value, found⟩
    exact List.mem_map.mpr ⟨(key, value), get_eq_some.mp found, rfl⟩

theorem mem_unionKeys {μ : Type*} {other : Dict κ μ} :
    key ∈ dict.unionKeys other ↔
      (∃ value, dict.get key = some value) ∨ ∃ value, other.get key = some value := by
  rw [unionKeys, List.mem_append, List.mem_filter, mem_keys, mem_keys]
  constructor
  · exact fun found => found.imp_right And.left
  · intro found
    cases here : dict.get key with
    | some value => exact .inl ⟨value, rfl⟩
    | none =>
      refine .inr ⟨found.resolve_left ?_, rfl⟩
      exact fun ⟨value, same⟩ => absurd (here.symm.trans same) (Option.some_ne_none value).symm

/-- The values are those that a key maps to. -/
theorem mem_values : value ∈ dict.values ↔ ∃ key, dict.get key = some value := by
  constructor
  · intro member
    obtain ⟨entry, there, rfl⟩ := List.mem_map.mp member
    exact ⟨entry.1, get_eq_some.mpr there⟩
  · intro ⟨key, found⟩
    exact List.mem_map.mpr ⟨(key, value), get_eq_some.mp found, rfl⟩

omit [DecidableEq κ] in
theorem values_mapValues (dict : Dict κ ν) (change : ν → ν) :
    (dict.mapValues change).values = dict.values.map change := by
  unfold values mapValues
  rw [List.map_map, List.map_map]
  rfl

theorem get_mapValues (dict : Dict κ ν) (change : ν → ν) (key : κ) :
    (dict.mapValues change).get key = (dict.get key).map change := by
  unfold get mapValues
  rw [List.find?_map, Option.map_map, Option.map_map]
  rfl

/-- A fresh key comes last. -/
theorem putEntry_fresh (key : κ) (value : ν) {entries : List (κ × ν)}
    (fresh : key ∉ entries.map Prod.fst) :
    putEntry key value entries = entries ++ [(key, value)] := by
  induction entries with
  | nil => rfl
  | cons entry rest ih =>
    simp only [List.map_cons, List.mem_cons, not_or] at fresh
    simp only [putEntry, if_neg (Ne.symm fresh.1), ih fresh.2, List.cons_append]

theorem putEntry_there {old : ν} {entries : List (κ × ν)} (member : (key, old) ∈ entries)
    (distinct : (entries.map Prod.fst).Nodup) (value : ν) :
    ∃ front back, entries = front ++ (key, old) :: back ∧
      putEntry key value entries = front ++ (key, value) :: back := by
  induction entries with
  | nil => cases member
  | cons entry rest ih =>
    obtain ⟨fresh, later⟩ := List.nodup_cons.mp distinct
    rw [putEntry]
    by_cases here : entry.1 = key
    · have same : (key, old) = entry := by
        rcases List.mem_cons.mp member with same | behind
        · exact same
        · exact absurd (List.mem_map_of_mem behind) (here ▸ fresh)
      rw [if_pos here]
      exact ⟨[], rest, same ▸ rfl, rfl⟩
    · have behind : (key, old) ∈ rest := by
        rcases List.mem_cons.mp member with same | behind
        · exact absurd (congrArg Prod.fst same).symm here
        · exact behind
      rw [if_neg here]
      obtain ⟨front, back, whole, changed⟩ := ih behind later
      exact ⟨entry :: front, back, by rw [whole]; rfl, by rw [changed]; rfl⟩

theorem values_put_there {old : ν} (found : dict.get key = some old) (value : ν) :
    ∃ front back, dict.values = front ++ old :: back ∧
      (dict.put key value).values = front ++ value :: back := by
  obtain ⟨front, back, whole, changed⟩ :=
    putEntry_there (get_eq_some.mp found) dict.nodup value
  refine ⟨front.map Prod.snd, back.map Prod.snd, ?_, ?_⟩
  · unfold values
    rw [whole, List.map_append]
    rfl
  · show (putEntry key value dict.entries).map Prod.snd = _
    rw [changed, List.map_append]
    rfl

/-- Replacing a value changes a sum by the two weights. -/
theorem sum_put {α : Type*} [AddCommMonoid α] (weight : ν → α) {old : ν}
    (found : dict.get key = some old) (new : ν) :
    ((dict.put key new).values.map weight).sum + weight old =
      (dict.values.map weight).sum + weight new := by
  obtain ⟨front, back, before, after⟩ := values_put_there found new
  rw [before, after]
  simp only [List.map_append, List.map_cons, List.sum_append, List.sum_cons]
  ac_rfl

/-- A put is found under its own key only. -/
theorem get_put (dict : Dict κ ν) (key other : κ) (value : ν) :
    (dict.put key value).get other = if other = key then some value else dict.get other := by
  show ((putEntry key value dict.entries).find? _).map _ = _
  unfold get
  induction dict.entries with
  | nil =>
    by_cases same : other = key
    · rw [if_pos same, same]
      simp [putEntry]
    · rw [if_neg same]
      simp [putEntry, Ne.symm same]
  | cons entry rest ih =>
    rw [putEntry]
    by_cases here : entry.1 = key
    · rw [if_pos here]
      by_cases same : other = key
      · simp [same]
      · simp [same, Ne.symm same, here]
    · rw [if_neg here]
      by_cases first : entry.1 = other
      · simp [first, show other ≠ key from first ▸ here]
      · simpa [List.find?_cons_of_neg, first] using ih

/-- A put is found under its key. -/
theorem get_put_self (dict : Dict κ ν) (key : κ) (value : ν) :
    (dict.put key value).get key = some value := by
  rw [get_put, if_pos rfl]

/-- What is found after a put. -/
theorem get_put_eq_some {other : κ} {found : ν} :
    (dict.put key value).get other = some found ↔
      other = key ∧ value = found ∨ other ≠ key ∧ dict.get other = some found := by
  rw [get_put]
  by_cases same : other = key
  · simp [same]
  · simp [same]

theorem get_put_eq_none {other : κ} :
    (dict.put key value).get other = none ↔ other ≠ key ∧ dict.get other = none := by
  rw [get_put]
  by_cases same : other = key
  · simp [same]
  · simp [same]

theorem get_replace_eq_none {old : ν} (found : dict.get key = some old) {other : κ} :
    (dict.put key value).get other = none ↔ dict.get other = none := by
  rw [get_put_eq_none]
  refine ⟨And.right, fun missing => ⟨?_, missing⟩⟩
  rintro rfl
  cases found.symm.trans missing

/-- What holds of every entry survives a put of a value that has it. -/
theorem forall_put {property : κ → ν → Prop}
    (all : ∀ other found, dict.get other = some found → property other found) :
    (∀ other found, (dict.put key value).get other = some found → property other found) ↔
      property key value := by
  constructor
  · intro after
    exact after key value (get_put_self dict key value)
  · intro new other found there
    obtain ⟨rfl, rfl⟩ | ⟨-, before⟩ := get_put_eq_some.mp there
    · exact new
    · exact all other found before

theorem ite_mem_cons {β : Type*} (key other : κ) (rest : List κ) (chosen kept : β) :
    (if other ∈ rest then chosen else if other = key then chosen else kept) =
      if other ∈ key :: rest then chosen else kept := by
  by_cases later : other ∈ rest
  · rw [if_pos later, if_pos (List.mem_cons_of_mem key later)]
  · rw [if_neg later]
    by_cases here : other = key
    · rw [if_pos here, if_pos (here ▸ List.mem_cons_self)]
    · rw [if_neg here, if_neg (List.not_mem_cons_of_ne_of_not_mem here later)]

/-- Every one of the keys is found. -/
theorem get_putAll (dict : Dict κ ν) (keys : List κ) (other : κ) (value : ν) :
    (dict.putAll keys value).get other = if other ∈ keys then some value else dict.get other := by
  unfold putAll
  induction keys generalizing dict with
  | nil => rfl
  | cons key rest ih =>
    rw [List.foldl_cons, ih, get_put]
    exact ite_mem_cons key other rest _ _

/-- A fresh value comes last. -/
theorem values_put_fresh (value : ν) (fresh : dict.get key = none) :
    (dict.put key value).values = dict.values ++ [value] := by
  have absent : key ∉ dict.entries.map Prod.fst := by
    intro member
    obtain ⟨old, found⟩ := mem_keys.mp member
    rw [fresh] at found
    cases found
  show (putEntry key value dict.entries).map Prod.snd = _
  rw [putEntry_fresh key value absent, List.map_append]
  rfl

/-- A popped key is gone, and only it. -/
theorem get_pop (dict : Dict κ ν) (key other : κ) :
    (dict.pop key).get other = if other = key then none else dict.get other := by
  apply Option.ext
  intro value
  have member : (other, value) ∈ (dict.pop key).entries ↔
      (other, value) ∈ dict.entries ∧ other ≠ key := by
    unfold pop
    rw [List.mem_filter, decide_eq_true_iff]
  rw [get_eq_some, member]
  by_cases same : other = key
  · rw [if_pos same]
    exact iff_of_false (fun kept => kept.2 same) nofun
  · rw [if_neg same, get_eq_some]
    exact and_iff_left same

theorem get_popAll (dict : Dict κ ν) (keys : List κ) (other : κ) :
    (dict.popAll keys).get other = if other ∈ keys then none else dict.get other := by
  unfold popAll
  induction keys generalizing dict with
  | nil => rfl
  | cons key rest ih =>
    rw [List.foldl_cons, ih, get_pop]
    exact ite_mem_cons key other rest _ _

theorem getD_put (dict : Dict κ ν) (key other : κ) (value default : ν) :
    ((dict.put key value).get other).getD default =
      if other = key then value else (dict.get other).getD default := by
  rw [get_put]
  split <;> rfl

/-- Popping an absent key changes nothing. -/
theorem pop_absent (absent : dict.get key = none) : dict.pop key = dict := by
  have kept : (dict.pop key).entries = dict.entries := by
    refine List.filter_eq_self.mpr fun entry member => decide_eq_true fun same => ?_
    have found : dict.get key = some entry.2 := get_eq_some.mpr (same ▸ member)
    rw [absent] at found
    cases found
  exact ext_entries kept

theorem sum_pop {α : Type*} [AddCommMonoid α] (weight : κ × ν → α) {value : ν}
    (found : dict.get key = some value) :
    (dict.entries.map weight).sum =
      ((dict.pop key).entries.map weight).sum + weight (key, value) := by
  obtain ⟨front, back, parts⟩ := List.append_of_mem (get_eq_some.mp found)
  have apart := dict.nodup
  rw [parts, List.map_append, List.map_cons, List.nodup_middle, List.nodup_cons,
    ← List.map_append] at apart
  have others : ∀ entry ∈ front ++ back, entry.1 ≠ key := fun entry member same =>
    apart.1 (List.mem_map.mpr ⟨entry, member, same⟩)
  have left : (dict.pop key).entries = front ++ back := by
    show dict.entries.filter _ = _
    rw [parts, List.filter_append, List.filter_cons_of_neg (by simp), ← List.filter_append]
    exact List.filter_eq_self.mpr fun entry member => decide_eq_true (others entry member)
  rw [left, parts]
  simp only [List.map_append, List.map_cons, List.sum_append, List.sum_cons]
  ac_rfl

theorem sum_put_get {α : Type*} [AddCommMonoid α] (weight : ν → α) (dict : Dict κ ν) (key : κ)
    (new : ν) :
    ((dict.put key new).values.map weight).sum + ((dict.get key).map weight).getD 0 =
      (dict.values.map weight).sum + weight new := by
  cases found : dict.get key with
  | some old => exact sum_put weight found new
  | none =>
    rw [values_put_fresh new found, List.map_append, List.sum_append]
    simp

theorem sum_values {α : Type*} [AddCommMonoid α] (weight : ν → α) (dict : Dict κ ν)
    {keys : Finset κ} (wide : ∀ key ∈ dict.keys, key ∈ keys) :
    (dict.values.map weight).sum = ∑ key ∈ keys, ((dict.get key).map weight).getD 0 := by
  have listed : dict.values.map weight =
      dict.keys.map fun key => ((dict.get key).map weight).getD 0 := by
    unfold values Dict.keys
    rw [List.map_map, List.map_map]
    refine List.map_congr_left fun entry member => ?_
    have found : dict.get entry.1 = some entry.2 := get_eq_some.mpr member
    simp [found]
  have distinct : dict.keys.Nodup := dict.nodup
  rw [listed, ← List.sum_toFinset _ distinct]
  refine Finset.sum_subset (fun key member => wide key (List.mem_toFinset.mp member)) ?_
  intro key _ absent
  cases found : dict.get key with
  | none => rfl
  | some value => exact absurd (List.mem_toFinset.mpr (mem_keys.mpr ⟨value, found⟩)) absent

theorem sum_congr {α μ : Type*} [AddCommMonoid α] {weight : ν → α} {other : μ → α}
    {first : Dict κ ν} {second : Dict κ μ}
    (same : ∀ key, ((first.get key).map weight).getD 0 = ((second.get key).map other).getD 0) :
    (first.values.map weight).sum = (second.values.map other).sum := by
  let wide := (first.keys ++ second.keys).toFinset
  have left := @sum_values _ _ _ _ _ weight first wide fun key member =>
    List.mem_toFinset.mpr (List.mem_append_left _ member)
  have right := @sum_values _ _ _ _ _ other second wide fun key member =>
    List.mem_toFinset.mpr (List.mem_append_right _ member)
  rw [left, right]
  exact Finset.sum_congr rfl fun key _ => same key

/-- Only a fresh key adds to the size. -/
theorem size_put (dict : Dict κ ν) (key : κ) (value : ν) :
    (dict.put key value).size = if (dict.get key).isSome then dict.size else dict.size + 1 := by
  have counted : (dict.put key value).keys.length = (dict.put key value).size :=
    List.length_map _
  have before : dict.keys.length = dict.size := List.length_map _
  rw [← counted, ← before]
  show ((putEntry key value dict.entries).map Prod.fst).length = _
  rw [keys_putEntry]
  have there : key ∈ dict.entries.map Prod.fst ↔ (dict.get key).isSome = true :=
    mem_keys.trans Option.isSome_iff_exists.symm
  by_cases present : (dict.get key).isSome = true
  · rw [if_pos (there.mpr present), if_pos present]
    rfl
  · rw [if_neg (mt there.mp present), if_neg present, List.length_append]
    rfl

/-- Only a present key takes from the size. -/
theorem size_pop (dict : Dict κ ν) (key : κ) :
    (dict.pop key).size = if (dict.get key).isSome then dict.size - 1 else dict.size := by
  have kept : (dict.pop key).entries.map Prod.fst = dict.keys.erase key := by
    rw [keys, dict.nodup.erase_eq_filter, List.filter_map]
    apply congrArg (List.map Prod.fst)
    apply List.filter_congr
    intro entry _
    simp [bne, beq_eq_decide]
  have counted : (dict.pop key).size = (dict.keys.erase key).length := by
    rw [← kept, List.length_map]
    rfl
  have before : dict.keys.length = dict.size := List.length_map _
  have there : key ∈ dict.keys ↔ (dict.get key).isSome = true :=
    mem_keys.trans Option.isSome_iff_exists.symm
  rw [counted, ← before]
  by_cases present : (dict.get key).isSome = true
  · rw [if_pos present, List.length_erase_of_mem (there.mpr present)]
  · rw [if_neg present, List.erase_of_not_mem (mt there.mp present)]

theorem ofList_entries (dict : Dict κ ν) : ofList dict.entries = dict := by
  have grown : ∀ (rest : List (κ × ν)) (front : Dict κ ν),
      ((front.entries ++ rest).map Prod.fst).Nodup →
        (rest.foldl (fun dict entry => dict.put entry.1 entry.2) front).entries =
          front.entries ++ rest := by
    intro rest
    induction rest with
    | nil => exact fun front _ => (List.append_nil _).symm
    | cons entry rest ih =>
      intro front nodup
      have fresh : entry.1 ∉ front.entries.map Prod.fst := by
        rw [List.map_append, List.nodup_append] at nodup
        exact fun member => nodup.2.2 _ member _ (by simp) rfl
      have step : (front.put entry.1 entry.2).entries = front.entries ++ [entry] :=
        putEntry_fresh entry.1 entry.2 fresh
      rw [List.foldl_cons, ih (front.put entry.1 entry.2) (by rw [step]; simpa using nodup), step]
      simp
  have same := grown dict.entries empty (by simpa [empty] using dict.nodup)
  cases dict with
  | mk entries nodup =>
    unfold ofList
    generalize List.foldl _ _ _ = built at same ⊢
    cases built with
    | mk builtEntries _ =>
      have same : builtEntries = entries := same
      subst same
      rfl

end Dict
