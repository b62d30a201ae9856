import TradingBot.Foundation.Dict

/-!
# Closing a set under successors

A set grows in passes: each pass goes through the elements that were there at its start and adds
their successors, until a pass adds none. Whatever order the passes take, what is left holds exactly
the elements that can be reached from the first set.
-/

namespace Saturation

open Relation

variable {α : Type*} [DecidableEq α]

/-- A set with one element more, where it is not there, and whether the set has grown.
-/
def addNew (state : List α × Bool) (element : α) : List α × Bool :=
  if element ∈ state.1 then state else (state.1 ++ [element], true)

/-- A set with the successors of some elements. -/
def pass (next : α → List α) (state : List α × Bool) (elements : List α) : List α × Bool :=
  elements.foldl (fun state element => (next element).foldl addNew state) state

/-- Passes over a set until one adds nothing, as far as the fuel goes. -/
def close (next : α → List α) (traversal : Traversal α) : Nat → List α → Option (List α)
  | 0, _ => none
  | fuel + 1, set =>
    let (grown, changed) := pass next (set, false) (traversal.order set)
    if changed then close next traversal fuel grown else some grown

variable {next : α → List α} {set set' universe_ found : List α} {fuel : Nat}

/-- What adding elements one after the other does: the set keeps its elements and gains the new
ones, has none twice, and has grown exactly if it is marked. -/
theorem addNew_foldl (elements : List α) (set : List α) (changed : Bool) (distinct : set.Nodup) :
    ∃ added, (elements.foldl addNew (set, changed)) = (set ++ added, changed || !added.isEmpty) ∧
      (set ++ added).Nodup ∧ (∀ element ∈ added, element ∈ elements) ∧
        ∀ element ∈ elements, element ∈ set ++ added := by
  induction elements generalizing set changed with
  | nil =>
    refine ⟨[], by simp, by simpa using distinct, nofun, nofun⟩
  | cons first rest ih =>
    rw [List.foldl_cons, addNew]
    by_cases there : first ∈ set
    · rw [if_pos there]
      obtain ⟨added, grown, distinct_, from_, all⟩ := ih set changed distinct
      refine ⟨added, grown, distinct_, fun element member =>
        List.mem_cons_of_mem first (from_ element member), ?_⟩
      exact List.forall_mem_cons.mpr ⟨List.mem_append_left added there, all⟩
    · rw [if_neg there]
      have distinct_ : (set ++ [first]).Nodup :=
        distinct.append (List.nodup_singleton first) fun other member single =>
          there (List.mem_singleton.mp single ▸ member)
      obtain ⟨added, grown, distinct_, from_, all⟩ := ih (set ++ [first]) true distinct_
      have whole : set ++ [first] ++ added = set ++ (first :: added) := by simp
      rw [whole] at grown distinct_ all
      refine ⟨first :: added, by simp [grown], distinct_, ?_, ?_⟩
      · exact List.forall_mem_cons.mpr ⟨List.mem_cons_self, fun element member =>
          List.mem_cons_of_mem first (from_ element member)⟩
      · exact List.forall_mem_cons.mpr ⟨by simp, all⟩

/-- One pass adds the successors that were missing. -/
theorem pass_spec (next : α → List α) (elements : List α) (distinct : set.Nodup) :
    ∃ added, pass next (set, false) elements = (set ++ added, !added.isEmpty) ∧
      (set ++ added).Nodup ∧ (∀ element ∈ added, ∃ source ∈ elements, element ∈ next source) ∧
        ∀ source ∈ elements, ∀ element ∈ next source, element ∈ set ++ added := by
  have flat : pass next (set, false) elements =
      (elements.flatMap next).foldl addNew (set, false) := by
    unfold pass
    rw [List.foldl_flatMap]
  obtain ⟨added, grown, distinct_, from_, all⟩ :=
    addNew_foldl (elements.flatMap next) set false distinct
  refine ⟨added, by rw [flat, grown, Bool.false_or], distinct_, fun element member => ?_,
    fun source listed element member => ?_⟩
  · exact List.mem_flatMap.mp (from_ element member)
  · exact all element (List.mem_flatMap.mpr ⟨source, listed, member⟩)

/-- The passes come to an end within a universe that is closed under successors, and what is left
has no element twice and exactly those that are reached from the set. -/
theorem close_spec (traversal : Traversal α) (distinct : set.Nodup)
    (within : ∀ element ∈ set, element ∈ universe_)
    (inside : ∀ source ∈ universe_, ∀ element ∈ next source, element ∈ universe_)
    (enough : universe_.length < fuel + set.length) :
    ∃ closed, close next traversal fuel set = some closed ∧ closed.Nodup ∧
      ∀ element, element ∈ closed ↔
        ∃ source ∈ set, ReflTransGen (fun first second => second ∈ next first) source element := by
  have bound : ∀ {list : List α}, list.Nodup → (∀ element ∈ list, element ∈ universe_) →
      list.length ≤ universe_.length := fun nodup subset =>
    (List.subperm_of_subset nodup subset).length_le
  induction fuel generalizing set with
  | zero =>
    have small := bound distinct within
    omega
  | succ fuel ih =>
    obtain ⟨added, passed, distinct_, from_, all⟩ :=
      pass_spec next (traversal.order set) distinct
    have mem : ∀ element, element ∈ traversal.order set ↔ element ∈ set := fun element =>
      (traversal.perm set).mem_iff
    simp only [close, passed]
    cases added with
    | nil =>
      rw [List.append_nil] at distinct_ all
      rw [List.append_nil, if_neg (by simp)]
      refine ⟨set, rfl, distinct_, fun element => ⟨fun member => ⟨element, member, .refl⟩, ?_⟩⟩
      rintro ⟨source, member, reached⟩
      induction reached with
      | refl => exact member
      | tail _ arc ih => exact all _ ((mem _).mpr ih) _ arc
    | cons first rest =>
      rw [if_pos (by simp)]
      have reaches : ∀ element ∈ first :: rest, ∃ source ∈ set, element ∈ next source := by
        intro element member
        obtain ⟨source, listed, arc⟩ := from_ element member
        exact ⟨source, (mem source).mp listed, arc⟩
      obtain ⟨closed, closes, nodup, exact_⟩ := ih distinct_
        (fun element member => by
          obtain old | new := List.mem_append.mp member
          · exact within element old
          · obtain ⟨source, listed, arc⟩ := reaches element new
            exact inside source (within source listed) element arc)
        (by rw [List.length_append, List.length_cons]; omega)
      refine ⟨closed, closes, nodup, fun element => ?_⟩
      rw [exact_]
      constructor
      · rintro ⟨source, member, reached⟩
        obtain old | new := List.mem_append.mp member
        · exact ⟨source, old, reached⟩
        · obtain ⟨before, listed, arc⟩ := reaches source new
          exact ⟨before, listed, .head arc reached⟩
      · rintro ⟨source, member, reached⟩
        exact ⟨source, List.mem_append_left _ member, reached⟩

end Saturation
