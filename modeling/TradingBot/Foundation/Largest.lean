import Mathlib.Data.Finset.Sort

/-!
# The largest elements of a finite set

A store that keeps a bounded number of entries is to keep the largest ones: the elements that have
fewer than so many larger ones in the set. How they change when an element above all comes, or when
one is taken out, is stated once here.
-/

namespace Largest

variable {α : Type*} [LinearOrder α]

/-- The elements of a set that are larger than a value. -/
def above (set : Finset α) (value : α) : Finset α := set.filter (value < ·)

/-- The elements of a set with fewer than `count` larger ones in it. -/
def largest (count : Nat) (set : Finset α) : Finset α :=
  set.filter fun value => (above set value).card < count

variable {count : Nat} {set : Finset α} {value other : α}

theorem mem_above : other ∈ above set value ↔ other ∈ set ∧ value < other := Finset.mem_filter

/-- The largest are those with few above them. -/
theorem mem_largest :
    value ∈ largest count set ↔ value ∈ set ∧ (above set value).card < count :=
  Finset.mem_filter

theorem largest_subset (count : Nat) (set : Finset α) : largest count set ⊆ set :=
  Finset.filter_subset _ _

theorem above_subset (smaller : value ≤ other) : above set other ⊆ above set value := by
  intro next member
  obtain ⟨there, larger⟩ := mem_above.mp member
  exact mem_above.mpr ⟨there, smaller.trans_lt larger⟩

theorem largest_upward (member : value ∈ largest count set) (there : other ∈ set)
    (larger : value < other) : other ∈ largest count set := by
  have few := (mem_largest.mp member).2
  have fewer : (above set other).card ≤ (above set value).card :=
    Finset.card_le_card (above_subset larger.le)
  exact mem_largest.mpr ⟨there, by omega⟩

theorem above_subset_largest (member : value ∈ largest count set) :
    above set value ⊆ (largest count set).erase value := by
  intro other larger
  obtain ⟨there, larger⟩ := mem_above.mp larger
  exact Finset.mem_erase.mpr ⟨larger.ne', largest_upward member there larger⟩

theorem card_largest_le (count : Nat) (set : Finset α) : (largest count set).card ≤ count := by
  obtain empty | some_ := (largest count set).eq_empty_or_nonempty
  · rw [empty]
    exact Nat.zero_le count
  · -- All but the least of them are above it.
    have least := Finset.min'_mem (largest count set) some_
    have few := (mem_largest.mp least).2
    have covered : (largest count set).erase ((largest count set).min' some_) ⊆
        above set ((largest count set).min' some_) := by
      intro other member
      obtain ⟨differs, there⟩ := Finset.mem_erase.mp member
      exact mem_above.mpr ⟨largest_subset count set there,
        lt_of_le_of_ne (Finset.min'_le _ other there) differs.symm⟩
    have bound := Finset.card_le_card covered
    rw [Finset.card_erase_of_mem least] at bound
    omega

theorem card_above_lt (there : value ∈ set) : (above set value).card < set.card := by
  have covered : above set value ⊆ set.erase value := by
    intro other member
    obtain ⟨present, larger⟩ := mem_above.mp member
    exact Finset.mem_erase.mpr ⟨larger.ne', present⟩
  have bound := Finset.card_le_card covered
  rw [Finset.card_erase_of_mem there] at bound
  have filled := Finset.card_pos.mpr ⟨value, there⟩
  omega

theorem largest_eq_self (small : set.card ≤ count) : largest count set = set := by
  refine Finset.filter_true_of_mem fun value there => ?_
  have fewer := card_above_lt there
  omega

/-- An element that is not among the largest has a largest one of its kind: what is above that one
are exactly the largest elements. -/
theorem exists_next (there : value ∈ set) (outside : value ∉ largest count set) :
    ∃ next ∈ set, next ∉ largest count set ∧ above set next = largest count set ∧
      (largest count set).card = count := by
  let rest := set \ largest count set
  have some_ : rest.Nonempty := ⟨value, Finset.mem_sdiff.mpr ⟨there, outside⟩⟩
  obtain ⟨present, dropped⟩ := Finset.mem_sdiff.mp (Finset.max'_mem rest some_)
  have many : ¬ (above set (rest.max' some_)).card < count := fun few =>
    dropped (mem_largest.mpr ⟨present, few⟩)
  have covered : above set (rest.max' some_) ⊆ largest count set := by
    intro other member
    obtain ⟨inside, larger⟩ := mem_above.mp member
    by_contra out
    have bounded := Finset.le_max' rest other (Finset.mem_sdiff.mpr ⟨inside, out⟩)
    exact absurd larger (not_lt.mpr bounded)
  have bound := card_largest_le count set
  have filled := Finset.card_le_card covered
  have whole := Finset.eq_of_subset_of_card_le covered (by omega)
  exact ⟨rest.max' some_, present, dropped, whole, by omega⟩

theorem largest_eq_self_of_short (short : (largest count set).card < count) :
    largest count set = set := by
  refine Finset.Subset.antisymm (largest_subset count set) fun value there => ?_
  by_contra outside
  obtain ⟨next, -, -, -, full⟩ := exists_next there outside
  omega

theorem exists_largest (asked : 0 < count) (there : value ∈ set) :
    ∃ top ∈ largest count set, value ≤ top := by
  have some_ : set.Nonempty := ⟨value, there⟩
  have none_ : above set (set.max' some_) = ∅ := by
    refine Finset.filter_eq_empty_iff.mpr fun other member => ?_
    exact not_lt.mpr (Finset.le_max' set other member)
  refine ⟨set.max' some_, mem_largest.mpr ⟨Finset.max'_mem set some_, ?_⟩,
    Finset.le_max' set value there⟩
  rw [none_]
  exact asked

/-! ## Changes -/

theorem largest_insert (count : Nat) (top : ∀ other ∈ set, other < value) :
    largest (count + 1) (insert value set) = insert value (largest count set) := by
  have fresh : value ∉ set := fun there => lt_irrefl value (top value there)
  have more : ∀ other ∈ set,
      (above (insert value set) other).card = (above set other).card + 1 := by
    intro other there
    have grown : above (insert value set) other = insert value (above set other) := by
      unfold above
      rw [Finset.filter_insert, if_pos (top other there)]
    rw [grown, Finset.card_insert_of_notMem fun member => fresh (mem_above.mp member).1]
  have none_ : above (insert value set) value = ∅ := by
    refine Finset.filter_eq_empty_iff.mpr fun other member => ?_
    obtain rfl | there := Finset.mem_insert.mp member
    · exact lt_irrefl other
    · exact (top other there).not_gt
  ext other
  rw [mem_largest, Finset.mem_insert, Finset.mem_insert, mem_largest]
  by_cases same : other = value
  · rw [same, none_, Finset.card_empty]
    exact iff_of_true ⟨.inl rfl, Nat.succ_pos count⟩ (.inl rfl)
  · simp only [same, false_or]
    refine and_congr_right fun there => ?_
    rw [more other there]
    omega

theorem largest_pred (full : (largest (count + 1) set).card = count + 1)
    (member : value ∈ largest (count + 1) set)
    (least : ∀ other ∈ largest (count + 1) set, value ≤ other) :
    largest count set = (largest (count + 1) set).erase value := by
  ext other
  rw [Finset.mem_erase, mem_largest]
  constructor
  · rintro ⟨there, few⟩
    refine ⟨?_, mem_largest.mpr ⟨there, Nat.lt_succ_of_lt few⟩⟩
    rintro rfl
    have covered : (largest (count + 1) set).erase other ⊆ above set other := by
      intro next inside
      obtain ⟨differs, among⟩ := Finset.mem_erase.mp inside
      exact mem_above.mpr ⟨largest_subset _ _ among,
        lt_of_le_of_ne (least next among) differs.symm⟩
    have bound := Finset.card_le_card covered
    rw [Finset.card_erase_of_mem member] at bound
    omega
  · rintro ⟨differs, among⟩
    refine ⟨largest_subset _ _ among, ?_⟩
    -- Above it are neither it nor the least one.
    have covered : above set other ⊆ ((largest (count + 1) set).erase value).erase other := by
      intro next inside
      obtain ⟨apart, kept⟩ := Finset.mem_erase.mp (above_subset_largest among inside)
      have larger := (mem_above.mp inside).2
      exact Finset.mem_erase.mpr ⟨apart, Finset.mem_erase.mpr
        ⟨((least other among).trans_lt larger).ne', kept⟩⟩
    have bound := Finset.card_le_card covered
    rw [Finset.card_erase_of_mem (Finset.mem_erase.mpr ⟨differs, among⟩),
      Finset.card_erase_of_mem member] at bound
    have two : 1 < (largest (count + 1) set).card :=
      Finset.one_lt_card.mpr ⟨value, member, other, among, Ne.symm differs⟩
    omega

theorem largest_erase_outside (outside : value ∉ largest count set) :
    largest count (set.erase value) = largest count set := by
  by_cases there : value ∈ set
  swap
  · rw [Finset.erase_eq_of_notMem there]
  have many : ¬ (above set value).card < count := fun few =>
    outside (mem_largest.mpr ⟨there, few⟩)
  ext other
  rw [mem_largest, mem_largest, Finset.mem_erase]
  by_cases same : other = value
  · subst same
    exact iff_of_false (fun among => among.1.1 rfl) fun among => many among.2
  · simp only [ne_eq, same, not_false_eq_true, true_and]
    refine and_congr_right fun _ => ?_
    by_cases larger : other < value
    · -- What is above the one taken out is above this one too, so both have enough above them.
      have kept : above set value ⊆ above (set.erase value) other := by
        intro next inside
        obtain ⟨present, above_⟩ := mem_above.mp inside
        exact mem_above.mpr ⟨Finset.mem_erase.mpr ⟨above_.ne', present⟩, larger.trans above_⟩
      have first := Finset.card_le_card kept
      have second : (above set value).card ≤ (above set other).card :=
        Finset.card_le_card (above_subset larger.le)
      omega
    · have unchanged : above (set.erase value) other = above set other := by
        ext next
        rw [mem_above, mem_above, Finset.mem_erase]
        refine and_congr_left fun above_ => and_iff_right ?_
        rintro rfl
        exact larger above_
      rw [unchanged]

/-- The others of the largest are the largest after one of them is taken out exactly if nothing is
there to take its place. -/
theorem largest_erase_inside (inside : value ∈ largest count set) :
    largest count (set.erase value) = (largest count set).erase value ↔ set.card ≤ count := by
  constructor
  · intro same
    by_contra many
    have bound := card_largest_le count set
    have proper : ∃ other ∈ set, other ∉ largest count set := by
      by_contra none_
      push Not at none_
      have all := Finset.card_le_card (show set ⊆ largest count set from none_)
      omega
    obtain ⟨other, there, outside⟩ := proper
    obtain ⟨next, present, dropped, whole, full⟩ := exists_next there outside
    have differs : next ≠ value := fun same => dropped (same ▸ inside)
    have fewer : above (set.erase value) next = (largest count set).erase value := by
      unfold above at whole ⊢
      rw [Finset.filter_erase, whole]
    have taken : next ∈ largest count (set.erase value) := by
      refine mem_largest.mpr ⟨Finset.mem_erase.mpr ⟨differs, present⟩, ?_⟩
      rw [fewer, Finset.card_erase_of_mem inside]
      have filled := Finset.card_pos.mpr ⟨value, inside⟩
      omega
    rw [same] at taken
    exact dropped (Finset.mem_of_mem_erase taken)
  · intro small
    have less : (set.erase value).card ≤ count :=
      (Finset.card_le_card (Finset.erase_subset value set)).trans small
    rw [largest_eq_self small, largest_eq_self less]

end Largest
