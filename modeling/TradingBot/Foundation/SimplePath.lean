import Mathlib.Data.List.Chain
import Mathlib.Data.List.Nodup

/-!
# Simple paths

A search that extends a path by every neighbor that is not on it, until it comes to the goal or the
path has no room left, lists exactly the paths to the goal that meet no element twice and are short
enough.
-/

namespace SimplePath

variable {α : Type*} [DecidableEq α]

/-- The paths that extend one that ends in an element, with room for more elements.
-/
def search (neighbors : α → List α) (goal : α) : Nat → α → List α → List (List α)
  | 0, _, _ => []
  | room + 1, current, path =>
    if current = goal then [path]
    else (neighbors current).flatMap fun neighbor =>
      if neighbor ∈ path then [] else search neighbors goal room neighbor (path ++ [neighbor])

variable {neighbors : α → List α} {start goal current : α} {path found : List α} {room : Nat}

omit [DecidableEq α] in
/-- A path from a start to a goal along neighbors that meets no element twice. -/
structure Leads (neighbors : α → List α) (start goal : α) (path : List α) : Prop where
  first : path.head? = some start
  last : path.getLast? = some goal
  steps : path.IsChain fun source target => target ∈ neighbors source
  simple : path.Nodup

/-- The search lists the extensions of a path that lead to the goal, meet nothing twice and fit into
the room. -/
theorem mem_search (there : current ∈ path) : found ∈ search neighbors goal room current path ↔
    ∃ rest, found = path ++ rest ∧ rest.length < room ∧
      Leads neighbors current goal (current :: rest) ∧ ∀ element ∈ rest, element ∉ path := by
  induction room generalizing current path with
  | zero =>
    refine iff_of_false List.not_mem_nil ?_
    rintro ⟨rest, -, small, -⟩
    exact Nat.not_lt_zero _ small
  | succ room ih =>
    unfold search
    by_cases arrived : current = goal
    · subst arrived
      rw [if_pos rfl, List.mem_singleton]
      constructor
      · rintro rfl
        refine ⟨[], by simp, Nat.succ_pos room, ⟨rfl, rfl, .singleton current, ?_⟩, nofun⟩
        exact List.nodup_singleton current
      · rintro ⟨rest, rfl, -, ⟨-, last, -, simple⟩, -⟩
        cases rest with
        | nil => exact List.append_nil path
        | cons next rest =>
          rw [List.getLast?_cons_cons] at last
          exact absurd (List.mem_of_getLast? last) (List.nodup_cons.mp simple).1
    · rw [if_neg arrived, List.mem_flatMap]
      constructor
      · rintro ⟨neighbor, arc, member⟩
        split at member
        · cases member
        · next fresh =>
          obtain ⟨rest, rfl, small, ⟨-, last, steps, simple⟩, apart⟩ :=
            (ih (List.mem_append_right path List.mem_cons_self)).mp member
          have apart_ : ∀ element ∈ neighbor :: rest, element ∉ path := by
            refine List.forall_mem_cons.mpr ⟨fresh, fun element inside onPath => ?_⟩
            exact apart element inside (List.mem_append_left _ onPath)
          refine ⟨neighbor :: rest, by simp, by simpa using small,
            ⟨rfl, last, .cons_cons arc steps, List.nodup_cons.mpr ⟨fun back => ?_, simple⟩⟩, apart_⟩
          exact apart_ current back there
      · rintro ⟨rest, rfl, small, ⟨-, last, steps, simple⟩, apart⟩
        cases rest with
        | nil => exact absurd (Option.some.inj last) arrived
        | cons neighbor rest =>
          obtain ⟨arc, steps_⟩ := List.isChain_cons_cons.mp steps
          obtain ⟨fresh, apart_⟩ := List.forall_mem_cons.mp apart
          obtain ⟨-, simple_⟩ := List.nodup_cons.mp simple
          refine ⟨neighbor, arc, ?_⟩
          rw [if_neg fresh, ih (List.mem_append_right path List.mem_cons_self)]
          refine ⟨rest, by simp, by simpa using small, ⟨rfl, ?_, steps_, simple_⟩,
            fun element inside onPath => ?_⟩
          · rwa [List.getLast?_cons_cons] at last
          · obtain old | single := List.mem_append.mp onPath
            · exact apart_ element inside old
            · exact (List.nodup_cons.mp simple_).1 (List.mem_singleton.mp single ▸ inside)

theorem mem_search_start : found ∈ search neighbors goal room start [start] ↔
    Leads neighbors start goal found ∧ found.length ≤ room := by
  rw [mem_search List.mem_cons_self]
  constructor
  · rintro ⟨rest, rfl, small, leads, -⟩
    exact ⟨leads, small⟩
  · intro ⟨leads, small⟩
    cases found with
    | nil => cases leads.first
    | cons first rest =>
      cases leads.first
      refine ⟨rest, rfl, small, leads, fun element inside single => ?_⟩
      exact (List.nodup_cons.mp leads.simple).1 (List.mem_singleton.mp single ▸ inside)

end SimplePath
