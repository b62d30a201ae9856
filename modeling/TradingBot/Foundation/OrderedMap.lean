import Mathlib.Algebra.BigOperators.Group.List.Basic
import Mathlib.Data.List.Sort

/-!
# Ordered maps

A finite map kept as its entries in strictly increasing order of their keys, as sorted
dictionaries and B-tree maps present themselves: lookup, insertion, removal, the entry at
either end, and sums over the entries. The order is a field, so every map is well formed.
-/

/-- A finite map with its entries in strictly increasing order of their keys. -/
structure OrderedMap (κ ν : Type*) [LinearOrder κ] where
  /-- The entries in order. -/
  entries : List (κ × ν)
  /-- The keys increase strictly. -/
  sorted : entries.Pairwise fun left right => left.1 < right.1

namespace OrderedMap

variable {κ ν : Type*} [LinearOrder κ]

/-- The map without entries. -/
def empty : OrderedMap κ ν := ⟨[], List.Pairwise.nil⟩

/-- The number of entries. -/
def size (map : OrderedMap κ ν) : Nat := map.entries.length

/-- The value at a key. -/
def lookup (map : OrderedMap κ ν) (key : κ) : Option ν :=
  (map.entries.find? fun entry => entry.1 = key).map Prod.snd

/-- Entries with a value put at its place in the order, over any value with the same key. -/
def insertEntry (key : κ) (value : ν) : List (κ × ν) → List (κ × ν)
  | [] => [(key, value)]
  | entry :: rest =>
    if key < entry.1 then (key, value) :: entry :: rest
    else if entry.1 < key then entry :: insertEntry key value rest
    else (key, value) :: rest

variable {key : κ} {map : OrderedMap κ ν} {side : End}

theorem mem_insertEntry {value : ν} {entries : List (κ × ν)} {entry : κ × ν}
    (sorted : entries.Pairwise fun left right => left.1 < right.1) :
    entry ∈ insertEntry key value entries ↔
      entry = (key, value) ∨ entry ∈ entries ∧ entry.1 ≠ key := by
  induction entries with
  | nil => simp [insertEntry]
  | cons head rest ih =>
    have above := (List.pairwise_cons.mp sorted).1
    have restSorted := (List.pairwise_cons.mp sorted).2
    unfold insertEntry
    by_cases before : key < head.1
    · have others : ∀ other ∈ head :: rest, other.1 ≠ key := by
        intro other member
        cases member with
        | head => exact (ne_of_lt before).symm
        | tail _ member => exact (ne_of_lt (before.trans (above other member))).symm
      rw [if_pos before, List.mem_cons]
      exact or_congr_right ⟨fun member => ⟨member, others entry member⟩, And.left⟩
    · by_cases after : head.1 < key
      · have here : head.1 ≠ key := ne_of_lt after
        rw [if_neg before, if_pos after, List.mem_cons, ih restSorted, List.mem_cons]
        constructor
        · intro found
          cases found with
          | inl same => exact .inr ⟨.inl same, same ▸ here⟩
          | inr found => exact found.imp_right fun later => ⟨.inr later.1, later.2⟩
        · intro found
          cases found with
          | inl new => exact .inr (.inl new)
          | inr kept => exact kept.1.imp_right fun member => .inr ⟨member, kept.2⟩
      · have same : head.1 = key := le_antisymm (not_lt.mp before) (not_lt.mp after)
        have others : ∀ other ∈ rest, other.1 ≠ key := by
          intro other member equal
          exact absurd (above other member) (by rw [equal, same]; exact lt_irrefl key)
        rw [if_neg before, if_neg after, List.mem_cons, List.mem_cons]
        constructor
        · exact fun found => found.imp_right fun member => ⟨.inr member, others entry member⟩
        · intro found
          cases found with
          | inl new => exact .inl new
          | inr kept => exact .inr (kept.1.resolve_left fun equal => kept.2 (equal ▸ same))

theorem insertEntry_sorted {value : ν} {entries : List (κ × ν)}
    (sorted : entries.Pairwise fun left right => left.1 < right.1) :
    (insertEntry key value entries).Pairwise fun left right => left.1 < right.1 := by
  induction entries with
  | nil => exact List.pairwise_singleton _ _
  | cons head rest ih =>
    have above := (List.pairwise_cons.mp sorted).1
    have restSorted := (List.pairwise_cons.mp sorted).2
    unfold insertEntry
    by_cases before : key < head.1
    · rw [if_pos before]
      refine List.pairwise_cons.mpr ⟨?_, sorted⟩
      intro other member
      cases member with
      | head => exact before
      | tail _ member => exact before.trans (above other member)
    · by_cases after : head.1 < key
      · rw [if_neg before, if_pos after]
        refine List.pairwise_cons.mpr ⟨?_, ih restSorted⟩
        intro other member
        cases (mem_insertEntry restSorted).mp member with
        | inl new => exact new ▸ after
        | inr kept => exact above other kept.1
      · have same : head.1 = key := le_antisymm (not_lt.mp before) (not_lt.mp after)
        rw [if_neg before, if_neg after]
        exact List.pairwise_cons.mpr ⟨fun other member => same ▸ above other member, restSorted⟩

/-- A map with a value put at a key. -/
def insert (map : OrderedMap κ ν) (key : κ) (value : ν) : OrderedMap κ ν :=
  ⟨insertEntry key value map.entries, insertEntry_sorted map.sorted⟩

/-- A map without a key. -/
def erase (map : OrderedMap κ ν) (key : κ) : OrderedMap κ ν :=
  ⟨map.entries.filter fun entry => entry.1 ≠ key, map.sorted.filter _⟩

/-- A map without the entries that fail a test. -/
def filter (map : OrderedMap κ ν) (test : κ → ν → Bool) : OrderedMap κ ν :=
  ⟨map.entries.filter fun entry => test entry.1 entry.2, map.sorted.filter _⟩

/-- The first entries of a map. -/
def take (map : OrderedMap κ ν) (count : Nat) : OrderedMap κ ν :=
  ⟨map.entries.take count, map.sorted.sublist (List.take_sublist count _)⟩

/-- A map without its last entry. -/
def dropLast (map : OrderedMap κ ν) : OrderedMap κ ν :=
  ⟨map.entries.dropLast, map.sorted.sublist (List.dropLast_sublist _)⟩

/-! ## Lookup -/

theorem eq_of_mem {first second : ν} (left : (key, first) ∈ map.entries)
    (right : (key, second) ∈ map.entries) : first = second := by
  obtain ⟨before, after, parts⟩ := List.append_of_mem left
  have sorted := map.sorted
  rw [parts, List.pairwise_append] at sorted
  rw [parts, List.mem_append, List.mem_cons] at right
  cases right with
  | inl earlier =>
    exact absurd (sorted.2.2 _ earlier _ List.mem_cons_self) (lt_irrefl key)
  | inr here =>
    cases here with
    | inl same => exact (congrArg Prod.snd same).symm
    | inr later => exact absurd ((List.pairwise_cons.mp sorted.2.1).1 _ later) (lt_irrefl key)

/-- A key maps to a value if they are an entry. -/
theorem lookup_eq_some {value : ν} : map.lookup key = some value ↔ (key, value) ∈ map.entries := by
  constructor
  · intro found
    obtain ⟨entry, first, same⟩ := Option.map_eq_some_iff.mp found
    have member := List.mem_of_find?_eq_some first
    have key_ : entry.1 = key := by simpa using List.find?_some first
    have entry_ : entry = (key, value) := Prod.ext key_ same
    exact entry_ ▸ member
  · intro member
    cases found : map.entries.find? fun entry => entry.1 = key with
    | none =>
      have absent := List.find?_eq_none.mp found (key, value) member
      simp at absent
    | some entry =>
      have entryMember := List.mem_of_find?_eq_some found
      have key_ : entry.1 = key := by simpa using List.find?_some found
      have entry_ : entry = (key, entry.2) := Prod.ext key_ rfl
      have same : entry.2 = value := eq_of_mem (entry_ ▸ entryMember) member
      rw [lookup, found, Option.map_some, same]

theorem lookup_eq_none : map.lookup key = none ↔ ∀ value, (key, value) ∉ map.entries := by
  rw [Option.eq_none_iff_forall_ne_some]
  exact forall_congr' fun value => not_congr lookup_eq_some

/-- The entries after an insertion. -/
theorem mem_insert {value : ν} {entry : κ × ν} : entry ∈ (map.insert key value).entries ↔
      entry = (key, value) ∨ entry ∈ map.entries ∧ entry.1 ≠ key :=
  mem_insertEntry map.sorted

theorem insert_ne_nil (map : OrderedMap κ ν) (key : κ) (value : ν) :
    (map.insert key value).entries ≠ [] :=
  List.ne_nil_of_mem (mem_insert.mpr (.inl rfl) : (key, value) ∈ _)

theorem mem_erase {entry : κ × ν} :
    entry ∈ (map.erase key).entries ↔ entry ∈ map.entries ∧ entry.1 ≠ key := by
  simp [erase]

theorem ext_lookup {first second : OrderedMap κ ν}
    (agree : ∀ key, first.lookup key = second.lookup key) : first = second := by
  have members : ∀ entry, entry ∈ first.entries ↔ entry ∈ second.entries := by
    intro entry
    rw [← lookup_eq_some, ← lookup_eq_some, agree]
  have entries : first.entries = second.entries := by
    have : Std.Irrefl fun left right : κ × ν => left.1 < right.1 := ⟨fun entry => lt_irrefl _⟩
    have : Std.Antisymm fun left right : κ × ν => left.1 < right.1 :=
      ⟨fun _ _ below above => absurd (below.trans above) (lt_irrefl _)⟩
    exact first.sorted.eq_of_mem_iff second.sorted fun {entry} => members entry
  cases first
  cases second
  cases entries
  rfl

/-- An insertion is found under its own key only. -/
theorem lookup_insert (map : OrderedMap κ ν) (key other : κ) (value : ν) :
    (map.insert key value).lookup other = if other = key then some value else map.lookup other := by
  ext found
  rw [lookup_eq_some, mem_insert]
  by_cases same : other = key
  · subst same
    rw [if_pos rfl]
    simp [eq_comm]
  · rw [if_neg same, lookup_eq_some]
    simp [same]

/-- An erased key is gone, and only it. -/
theorem lookup_erase (map : OrderedMap κ ν) (key other : κ) :
    (map.erase key).lookup other = if other = key then none else map.lookup other := by
  ext found
  rw [lookup_eq_some, mem_erase]
  by_cases same : other = key
  · rw [if_pos same]
    simp [same]
  · rw [if_neg same, lookup_eq_some]
    simp [same]

theorem lookup_of_filter {test : κ → ν → Bool} {value : ν}
    (found : (map.filter test).lookup key = some value) : map.lookup key = some value := by
  rw [lookup_eq_some] at found ⊢
  exact (List.mem_filter.mp found).1

/-! ## Places -/

theorem exists_parts {value : ν} (found : map.lookup key = some value) : ∃ before after,
      map.entries = before ++ (key, value) :: after ∧
      (∀ entry ∈ before, entry.1 < key) ∧ ∀ entry ∈ after, key < entry.1 := by
  obtain ⟨before, after, parts⟩ := List.append_of_mem (lookup_eq_some.mp found)
  have sorted := map.sorted
  rw [parts, List.pairwise_append] at sorted
  exact ⟨before, after, parts, fun entry member => sorted.2.2 entry member _ List.mem_cons_self,
    (List.pairwise_cons.mp sorted.2.1).1⟩

theorem insertEntry_append {value : ν} {before : List (κ × ν)} (rest : List (κ × ν))
    (below : ∀ entry ∈ before, entry.1 < key) :
    insertEntry key value (before ++ rest) = before ++ insertEntry key value rest := by
  induction before with
  | nil => rfl
  | cons head others ih =>
    have first := below head List.mem_cons_self
    have later := ih fun entry member => below entry (List.mem_cons_of_mem _ member)
    rw [List.cons_append, insertEntry, if_neg (lt_asymm first), if_pos first, later,
      List.cons_append]

theorem entries_insert_present {value : ν} {before after : List (κ × ν)}
    (parts : map.entries = before ++ (key, value) :: after)
    (below : ∀ entry ∈ before, entry.1 < key) (other : ν) :
    (map.insert key other).entries = before ++ (key, other) :: after := by
  show insertEntry key other map.entries = _
  rw [parts, insertEntry_append _ below, insertEntry, if_neg (lt_irrefl key),
    if_neg (lt_irrefl key)]

theorem entries_insert_last (above : ∀ entry ∈ map.entries, entry.1 < key) (value : ν) :
    (map.insert key value).entries = map.entries ++ [(key, value)] := by
  have last : insertEntry key value (map.entries ++ []) = map.entries ++ [(key, value)] :=
    insertEntry_append [] above
  rw [List.append_nil] at last
  exact last

theorem entries_erase_present {value : ν} {before after : List (κ × ν)}
    (parts : map.entries = before ++ (key, value) :: after)
    (below : ∀ entry ∈ before, entry.1 < key) (above : ∀ entry ∈ after, key < entry.1) :
    (map.erase key).entries = before ++ after := by
  have front : before.filter (fun entry => entry.1 ≠ key) = before :=
    List.filter_eq_self.mpr fun entry member => by simpa using ne_of_lt (below entry member)
  have back : after.filter (fun entry => entry.1 ≠ key) = after :=
    List.filter_eq_self.mpr fun entry member => by simpa using (ne_of_lt (above entry member)).symm
  show map.entries.filter (fun entry => entry.1 ≠ key) = _
  rw [parts, List.filter_append, List.filter_cons_of_neg (by simp), front, back]

theorem size_erase_lt {value : ν} (found : map.lookup key = some value) :
    (map.erase key).size < map.size := by
  have member := lookup_eq_some.mp found
  exact List.length_filter_lt_length_iff_exists.mpr ⟨(key, value), member, by simp⟩

/-! ## The two ends -/

/-- An end of the order. -/
inductive End where
  /-- The end of the smallest key. -/
  | low
  /-- The end of the largest key. -/
  | high

/-- One key is nearer to an end than another. -/
def End.Nearer : End → κ → κ → Prop
  | .low, left, right => left < right
  | .high, left, right => right < left

instance (side : End) (left right : κ) : Decidable (side.Nearer left right) :=
  match side with
  | .low => inferInstanceAs (Decidable (left < right))
  | .high => inferInstanceAs (Decidable (right < left))

/-- The entry at an end. -/
def edge (map : OrderedMap κ ν) : End → Option (κ × ν)
  | .low => map.entries.head?
  | .high => map.entries.getLast?

/-- The entries from an end on. -/
def entriesFrom (map : OrderedMap κ ν) : End → List (κ × ν)
  | .low => map.entries
  | .high => map.entries.reverse

theorem End.nearer_irrefl (side : End) (key : κ) : ¬side.Nearer key key := by
  cases side with
  | low => exact lt_irrefl key
  | high => exact lt_irrefl key

theorem End.nearer_asymm {left right : κ} (nearer : side.Nearer left right) :
    ¬side.Nearer right left := by
  cases side with
  | low => exact lt_asymm nearer
  | high => exact lt_asymm nearer

theorem End.nearer_trans {left middle right : κ} (first : side.Nearer left middle)
    (second : side.Nearer middle right) : side.Nearer left right := by
  cases side with
  | low => exact lt_trans first second
  | high => exact lt_trans second first

/-- The best entry is found under its key. -/
theorem lookup_edge {best : κ × ν} (found : map.edge side = some best) :
    map.lookup best.1 = some best.2 := by
  apply lookup_eq_some.mpr
  cases side with
  | low => exact List.mem_of_head? found
  | high => exact List.mem_of_getLast? found

/-- The entry at an end comes first from there. -/
theorem head?_entriesFrom (map : OrderedMap κ ν) (side : End) :
    (map.entriesFrom side).head? = map.edge side := by
  cases side with
  | low => rfl
  | high => exact List.head?_reverse

theorem edge_eq_none : map.edge side = none ↔ ∀ key, map.lookup key = none := by
  have empty : map.edge side = none ↔ map.entries = [] := by
    cases side with
    | low => exact List.head?_eq_none_iff
    | high => exact List.getLast?_eq_none_iff
  rw [empty]
  constructor
  · intro none key
    simp [lookup, none]
  · intro none
    apply List.eq_nil_iff_forall_not_mem.mpr
    intro entry member
    exact lookup_eq_none.mp (none entry.1) entry.2 member

theorem nearer_edge {best : κ × ν} {value : ν} (found : map.edge side = some best)
    (present : map.lookup key = some value) (other : key ≠ best.1) : side.Nearer best.1 key := by
  obtain ⟨before, after, parts, below, above⟩ := exists_parts (lookup_edge found)
  have member := lookup_eq_some.mp present
  rw [parts, List.mem_append, List.mem_cons] at member
  cases side with
  | low =>
    cases member with
    | inl earlier =>
      have first : map.entries.head? = some best := found
      cases before with
      | nil => cases earlier
      | cons head rest =>
        rw [parts] at first
        have same : head = best := Option.some.inj first
        have smaller := below head List.mem_cons_self
        exact absurd smaller (by rw [same]; exact lt_irrefl _)
    | inr rest =>
      exact rest.elim (fun same => absurd (congrArg Prod.fst same) other) (above (key, value))
  | high =>
    cases member with
    | inl earlier => exact below (key, value) earlier
    | inr rest =>
      refine rest.elim (fun same => absurd (congrArg Prod.fst same) other) fun later => ?_
      have last : map.entries.getLast? = some best := found
      have nonempty : after ≠ [] := List.ne_nil_of_mem later
      rw [parts, List.getLast?_append_cons, List.getLast?_cons_of_ne_nil nonempty] at last
      have larger := above best (List.mem_of_getLast? last)
      exact absurd larger (lt_irrefl _)

/-- From an end on, the entry there is followed by those of the map without it. -/
theorem entriesFrom_edge {best : κ × ν} (found : map.edge side = some best) :
    map.entriesFrom side = best :: (map.erase best.1).entriesFrom side := by
  obtain ⟨before, after, parts, below, above⟩ := exists_parts (lookup_edge found)
  have erased := entries_erase_present parts below above
  have inside : ∀ entry ∈ before ++ after, map.lookup entry.1 = some entry.2 := by
    intro entry member
    refine lookup_eq_some.mpr ?_
    rw [parts]
    exact List.mem_append.mpr
      ((List.mem_append.mp member).imp_right (List.mem_cons_of_mem _))
  cases side with
  | low =>
    have first : before = [] := List.eq_nil_iff_forall_not_mem.mpr fun entry member =>
      have less := below entry member
      lt_asymm less (nearer_edge found (inside entry (List.mem_append_left _ member)) less.ne)
    show map.entries = best :: (map.erase best.1).entries
    rw [erased, parts, first]
    rfl
  | high =>
    have last : after = [] := List.eq_nil_iff_forall_not_mem.mpr fun entry member =>
      have more := above entry member
      lt_asymm more (nearer_edge found (inside entry (List.mem_append_right _ member)) more.ne')
    show map.entries.reverse = best :: (map.erase best.1).entries.reverse
    rw [erased, parts, last, List.append_nil]
    exact List.reverse_concat

/-! ## The order as a circle -/

/-- The value at the first key that is not below a key, or at the smallest one if there is none. -/
def cyclicNext (map : OrderedMap κ ν) (key : κ) : Option ν :=
  match map.entries.find? fun entry => key ≤ entry.1 with
  | some entry => some entry.2
  | none => map.entries.head?.map Prod.snd

theorem mem_of_cyclicNext {value : ν} (next : map.cyclicNext key = some value) :
    ∃ entry ∈ map.entries, entry.2 = value := by
  unfold cyclicNext at next
  cases found : map.entries.find? fun entry => key ≤ entry.1 with
  | some entry =>
    rw [found] at next
    exact ⟨entry, List.mem_of_find?_eq_some found, Option.some.inj next⟩
  | none =>
    rw [found] at next
    obtain ⟨entry, first, same⟩ := Option.map_eq_some_iff.mp next
    exact ⟨entry, List.mem_of_head? first, same⟩

theorem exists_cyclicNext (some_ : map.entries ≠ []) (key : κ) :
    ∃ value, map.cyclicNext key = some value := by
  unfold cyclicNext
  cases map.entries.find? fun entry => key ≤ entry.1 with
  | some entry => exact ⟨entry.2, rfl⟩
  | none =>
    obtain ⟨first, rest, parts⟩ := List.exists_cons_of_ne_nil some_
    exact ⟨first.2, by rw [parts]; rfl⟩

theorem find?_insertEntry (key : κ) (value : ν) (test : κ → Bool) (entries : List (κ × ν)) :
    (insertEntry key value entries).find? (fun entry => test entry.1) = some (key, value) ∨
      (insertEntry key value entries).find? (fun entry => test entry.1) =
        entries.find? fun entry => test entry.1 := by
  induction entries with
  | nil =>
    cases met : test key with
    | true => exact .inl (by simp [insertEntry, met])
    | false => exact .inr (by simp [insertEntry, met])
  | cons head rest ih =>
    unfold insertEntry
    by_cases before : key < head.1
    · rw [if_pos before]
      cases met : test key with
      | true => exact .inl (by simp [met])
      | false => exact .inr (by simp [met])
    · rw [if_neg before]
      by_cases after : head.1 < key
      · rw [if_pos after]
        cases met : test head.1 with
        | true => exact .inr (by simp [met])
        | false => simpa [met] using ih
      · have same : head.1 = key := le_antisymm (not_lt.mp before) (not_lt.mp after)
        rw [if_neg after]
        cases met : test key with
        | true => exact .inl (by simp [met])
        | false => exact .inr (by simp [met, same])

theorem head?_insertEntry (key : κ) (value : ν) (entries : List (κ × ν)) :
    (insertEntry key value entries).head? = some (key, value) ∨
      (insertEntry key value entries).head? = entries.head? := by
  cases entries with
  | nil => exact .inl rfl
  | cons head rest =>
    unfold insertEntry
    split
    · exact .inl rfl
    · split
      · exact .inr rfl
      · exact .inl rfl

theorem cyclicNext_insert (map : OrderedMap κ ν) (key other : κ) (value : ν) :
    (map.insert key value).cyclicNext other = some value ∨
      (map.insert key value).cyclicNext other = map.cyclicNext other := by
  have searched := find?_insertEntry key value (fun position => decide (other ≤ position))
    map.entries
  have first := head?_insertEntry key value map.entries
  unfold cyclicNext insert
  rcases searched with inserted | kept
  · exact .inl (by rw [inserted])
  · rw [kept]
    cases map.entries.find? fun entry => other ≤ entry.1 with
    | some entry => exact .inr rfl
    | none => exact first.imp (congrArg (Option.map Prod.snd)) (congrArg (Option.map Prod.snd))

end OrderedMap
