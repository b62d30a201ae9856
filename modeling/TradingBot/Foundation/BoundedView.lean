import Mathlib.Data.List.Induction
import TradingBot.Foundation.OrderedMap

/-!
# Bounded views of an ordered map

A view follows an ordered map through changes at single keys but keeps its first entries only.
What a trim cuts off is forgotten until its key is changed again. The view and the forgotten
entries always make up the map; the first entries of the view are those of the map exactly when
enough of them stand before everything forgotten.
-/

namespace OrderedMap

variable {κ ν : Type*} [LinearOrder κ]

/-- A map after the value at one key is set or removed. -/
def change (map : OrderedMap κ ν) (entry : κ × Option ν) : OrderedMap κ ν :=
  match entry.2 with
  | none => map.erase entry.1
  | some value => map.insert entry.1 value

theorem mem_change {map : OrderedMap κ ν} {changed : κ × Option ν} {entry : κ × ν} :
    entry ∈ (map.change changed).entries ↔
      entry.1 = changed.1 ∧ changed.2 = some entry.2 ∨
        entry ∈ map.entries ∧ entry.1 ≠ changed.1 := by
  obtain ⟨key, value⟩ := changed
  cases value with
  | none =>
    simp only [change, mem_erase, reduceCtorEq, and_false, false_or]
  | some value =>
    simp only [change, mem_insert, Option.some.injEq]
    exact or_congr_left (by rw [Prod.ext_iff]; simp [eq_comm])

theorem lookup_change (map : OrderedMap κ ν) (entry : κ × Option ν) (key : κ) :
    (map.change entry).lookup key = if key = entry.1 then entry.2 else map.lookup key := by
  obtain ⟨changed, value⟩ := entry
  cases value with
  | none => exact lookup_erase map changed key
  | some value => exact lookup_insert map changed key value

theorem lookup_changes (map : OrderedMap κ ν) (changes : List (κ × Option ν)) (key : κ) :
    (changes.foldl change map).lookup key =
      match changes.reverse.find? fun entry => entry.1 = key with
      | some entry => entry.2
      | none => map.lookup key := by
  induction changes using List.reverseRecOn with
  | nil => rfl
  | append_singleton changes entry ih =>
    rw [List.foldl_append, List.foldl_cons, List.foldl_nil, lookup_change,
      List.reverse_append, List.reverse_singleton, List.singleton_append]
    by_cases same : entry.1 = key
    · rw [if_pos same.symm, List.find?_cons_of_pos (by simpa using same)]
    · rw [if_neg (Ne.symm same), List.find?_cons_of_neg (by simpa using same), ih]

theorem changes_eq_self {map : OrderedMap κ ν} {changes : List (κ × Option ν)} :
    changes.foldl change map = map ↔ ∀ key entry,
      (changes.reverse.find? fun entry => entry.1 = key) = some entry →
        map.lookup key = entry.2 := by
  constructor
  · intro same key entry last
    have found := lookup_changes map changes key
    rw [same, last] at found
    exact found
  · intro settled
    apply ext_lookup
    intro key
    rw [lookup_changes]
    cases last : changes.reverse.find? fun entry => entry.1 = key with
    | none => rfl
    | some entry => exact (settled key entry last).symm

/-- The first entries of a list of ordered entries that contains another. -/
theorem take_eq_take {count : Nat} {held full : List (κ × ν)}
    (heldSorted : held.Pairwise fun left right => left.1 < right.1)
    (fullSorted : full.Pairwise fun left right => left.1 < right.1)
    (subset : ∀ entry ∈ held, entry ∈ full) (enough : count ≤ held.length)
    (before : ∀ entry ∈ held.take count, ∀ other ∈ full, other ∉ held → entry.1 < other.1) :
    held.take count = full.take count := by
  induction full generalizing held count with
  | nil =>
    have none : held = [] := List.eq_nil_iff_forall_not_mem.mpr fun entry member =>
      absurd (subset entry member) List.not_mem_nil
    rw [none]
  | cons first rest ih =>
    have firstBelow := (List.pairwise_cons.mp fullSorted).1
    cases count with
    | zero => rfl
    | succ count =>
      cases held with
      | nil => exact absurd enough (Nat.not_succ_le_zero count)
      | cons head others =>
        have headBelow := (List.pairwise_cons.mp heldSorted).1
        have same : head = first := by
          cases subset head List.mem_cons_self with
          | head => rfl
          | tail _ later =>
            have earlier := firstBelow head later
            have missing : first ∉ head :: others := by
              intro member
              cases member with
              | head => exact lt_irrefl _ earlier
              | tail _ member => exact lt_asymm earlier (headBelow first member)
            have above := before head List.mem_cons_self first List.mem_cons_self missing
            exact absurd above (lt_asymm earlier)
        subst same
        rw [List.take_succ_cons, List.take_succ_cons]
        congr 1
        apply ih (List.pairwise_cons.mp heldSorted).2 (List.pairwise_cons.mp fullSorted).2
        · intro entry member
          cases subset entry (List.mem_cons_of_mem _ member) with
          | head => exact absurd (headBelow head member) (lt_irrefl _)
          | tail _ later => exact later
        · exact Nat.le_of_succ_le_succ enough
        · intro entry member other otherMember missing
          refine before entry (List.mem_cons_of_mem _ member) other
            (List.mem_cons_of_mem _ otherMember) ?_
          intro found
          cases found with
          | head => exact lt_irrefl _ (firstBelow head otherMember)
          | tail _ found => exact missing found

end OrderedMap

/-- A trimmed map, the map it follows and the entries trimmed off it. -/
structure BoundedView (κ ν : Type*) [LinearOrder κ] where
  /-- The entries kept. -/
  held : OrderedMap κ ν
  /-- The map without a bound. -/
  full : OrderedMap κ ν
  /-- The entries cut off and not changed since. -/
  forgotten : List (κ × ν)

namespace BoundedView

variable {κ ν : Type*} [LinearOrder κ]

/-- A view of a whole map. -/
def whole (map : OrderedMap κ ν) : BoundedView κ ν := ⟨map, map, []⟩

/-- One change reaches the view and the map. -/
def change (view : BoundedView κ ν) (entry : κ × Option ν) : BoundedView κ ν where
  held := view.held.change entry
  full := view.full.change entry
  forgotten := view.forgotten.filter fun lost => lost.1 ≠ entry.1

/-- The view is cut to its first entries. -/
def trim (depth : Nat) (view : BoundedView κ ν) : BoundedView κ ν where
  held := view.held.take depth
  full := view.full
  forgotten := view.forgotten ++ view.held.entries.drop depth

/-- The entries kept and the entries forgotten make up the map. -/
structure Accounted (view : BoundedView κ ν) : Prop where
  /-- Every entry of the map is kept or forgotten, and no other is. -/
  parts : ∀ entry, entry ∈ view.full.entries ↔ entry ∈ view.held.entries ∨ entry ∈ view.forgotten
  /-- No key is both. -/
  apart : ∀ lost ∈ view.forgotten, ∀ entry ∈ view.held.entries, entry.1 ≠ lost.1

/-- Nothing is forgotten, or the view has enough entries before everything forgotten. -/
def Ample (depth : Nat) (view : BoundedView κ ν) : Prop :=
  view.forgotten = [] ∨ depth ≤ view.held.size ∧
    ∀ entry ∈ view.held.entries.take depth, ∀ lost ∈ view.forgotten, entry.1 < lost.1

instance [DecidableEq ν] (depth : Nat) (view : BoundedView κ ν) : Decidable (view.Ample depth) :=
  inferInstanceAs (Decidable (view.forgotten = [] ∨ depth ≤ view.held.size ∧
    ∀ entry ∈ view.held.entries.take depth, ∀ lost ∈ view.forgotten, entry.1 < lost.1))

theorem accounted_whole (map : OrderedMap κ ν) : (whole map).Accounted where
  parts entry := by simp [whole]
  apart lost member := by cases member

theorem accounted_change {view : BoundedView κ ν} (accounted : view.Accounted)
    (entry : κ × Option ν) : (view.change entry).Accounted where
  parts found := by
    simp only [change, OrderedMap.mem_change, accounted.parts, List.mem_filter, decide_eq_true_eq]
    tauto
  apart lost lostMember found member := by
    have kept := List.mem_filter.mp lostMember
    have other : lost.1 ≠ entry.1 := of_decide_eq_true kept.2
    cases OrderedMap.mem_change.mp member with
    | inl new => exact fun same => other (same.symm.trans new.1)
    | inr old => exact accounted.apart lost kept.1 found old.1

theorem accounted_changes {view : BoundedView κ ν} (accounted : view.Accounted)
    (changes : List (κ × Option ν)) : (changes.foldl change view).Accounted := by
  induction changes generalizing view with
  | nil => exact accounted
  | cons entry rest ih => exact ih (accounted_change accounted entry)

theorem accounted_trim {view : BoundedView κ ν} (accounted : view.Accounted) (depth : Nat) :
    (view.trim depth).Accounted where
  parts entry := by
    have split : entry ∈ view.held.entries ↔
        entry ∈ view.held.entries.take depth ∨ entry ∈ view.held.entries.drop depth := by
      rw [← List.mem_append, List.take_append_drop]
    simp only [trim, OrderedMap.take, accounted.parts, split, List.mem_append]
    tauto
  apart lost lostMember entry member := by
    cases List.mem_append.mp lostMember with
    | inl old => exact accounted.apart lost old entry (List.mem_of_mem_take member)
    | inr cut =>
      have ordered := view.held.sorted
      rw [← List.take_append_drop depth view.held.entries, List.pairwise_append] at ordered
      exact ne_of_lt (ordered.2.2 entry member lost cut)

/-- The first entries of an accounted view are the first ones of its map exactly when the view
is ample. -/
theorem take_eq_take_iff {view : BoundedView κ ν} (accounted : view.Accounted) (depth : Nat) :
    view.held.take depth = view.full.take depth ↔ view.Ample depth := by
  have entries : view.held.take depth = view.full.take depth ↔
      view.held.entries.take depth = view.full.entries.take depth := by
    simp only [OrderedMap.take, OrderedMap.mk.injEq]
  have lostIff : ∀ other ∈ view.full.entries, other ∉ view.held.entries → other ∈ view.forgotten :=
    fun other member missing => ((accounted.parts other).mp member).resolve_left missing
  rw [entries]
  constructor
  · intro same
    by_cases none : view.forgotten = []
    · exact .inl none
    · right
      have behind : ∀ lost ∈ view.forgotten, lost ∈ view.full.entries.drop depth := by
        intro lost member
        have inFull := (accounted.parts lost).mpr (.inr member)
        rw [← List.take_append_drop depth view.full.entries, List.mem_append] at inFull
        refine inFull.resolve_left fun early => ?_
        rw [← same] at early
        exact accounted.apart lost member lost (List.mem_of_mem_take early) rfl
      constructor
      · obtain ⟨lost, member⟩ := List.exists_mem_of_ne_nil _ none
        have long := List.length_pos_of_mem (behind lost member)
        have count := congrArg List.length same
        rw [List.length_drop] at long
        rw [List.length_take, List.length_take] at count
        unfold OrderedMap.size
        omega
      · intro entry member lost lostMember
        rw [same] at member
        have ordered := view.full.sorted
        rw [← List.take_append_drop depth view.full.entries, List.pairwise_append] at ordered
        exact ordered.2.2 entry member lost (behind lost lostMember)
  · intro ample
    have subset : ∀ entry ∈ view.held.entries, entry ∈ view.full.entries :=
      fun entry member => (accounted.parts entry).mpr (.inl member)
    cases ample with
    | inl none =>
      have agree : view.held.entries = view.full.entries := by
        have whole : ∀ entry ∈ view.full.entries, entry ∈ view.held.entries := by
          intro entry member
          have part := (accounted.parts entry).mp member
          rw [none] at part
          exact part.resolve_right List.not_mem_nil
        have same : view.held = view.full := OrderedMap.ext_lookup fun key => by
          ext value
          rw [OrderedMap.lookup_eq_some, OrderedMap.lookup_eq_some]
          exact ⟨subset _, whole _⟩
        rw [same]
      rw [agree]
    | inr enough =>
      exact OrderedMap.take_eq_take view.held.sorted view.full.sorted subset enough.1
        fun entry member other otherMember missing =>
          enough.2 entry member other (lostIff other otherMember missing)

theorem held_changes (view : BoundedView κ ν) (changes : List (κ × Option ν)) :
    (changes.foldl change view).held = changes.foldl OrderedMap.change view.held := by
  induction changes generalizing view with
  | nil => rfl
  | cons entry rest ih => exact ih (view.change entry)

theorem full_changes (view : BoundedView κ ν) (changes : List (κ × Option ν)) :
    (changes.foldl change view).full = changes.foldl OrderedMap.change view.full := by
  induction changes generalizing view with
  | nil => rfl
  | cons entry rest ih => exact ih (view.change entry)

end BoundedView
