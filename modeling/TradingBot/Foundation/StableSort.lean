import Mathlib.Data.List.Basic

/-!
# What a stable sort puts first

A stable sort by a total preorder puts the earlier of two elements first, unless the later one comes
strictly before it. So a sorted list has a relation between all its elements exactly if in the given
list any two have it, in the order that the sort puts them in.
-/

namespace StableSort

variable {α : Type*} {before : α → α → Bool} {relation : α → α → Prop} {list : List α}

/-- Two elements in the order that the sort puts them in have a relation. -/
def Agree (before : α → α → Bool) (relation : α → α → Prop) (first second : α) : Prop :=
  if before first second then relation first second else relation second first

theorem pairwise_insert {front back : List α} {value : α} :
    (front ++ value :: back).Pairwise relation ↔
      (front ++ back).Pairwise relation ∧ (∀ other ∈ front, relation other value) ∧
        ∀ other ∈ back, relation value other := by
  simp only [List.pairwise_append, List.pairwise_cons, List.forall_mem_cons]
  constructor
  · rintro ⟨left, ⟨later, right⟩, across⟩
    exact ⟨⟨left, right, fun other member => (across other member).2⟩,
      fun other member => (across other member).1, later⟩
  · rintro ⟨⟨left, right, across⟩, earlier, later⟩
    exact ⟨left, ⟨later, right⟩, fun other member => ⟨earlier other member, across other member⟩⟩

/-- A sorted list has a relation between its elements exactly if the given list has it between any
two, in the order that the sort puts them in. -/
theorem pairwise_mergeSort_iff
    (transitive : ∀ first second third, before first second = true → before second third = true →
      before first third = true)
    (total : ∀ first second, (before first second || before second first) = true) :
    (list.mergeSort before).Pairwise relation ↔ list.Pairwise (Agree before relation) := by
  induction list with
  | nil => simp
  | cons value rest ih =>
    obtain ⟨front, back, whole, sorted, earlier⟩ :=
      List.mergeSort_cons transitive total value rest
    have ordered := List.pairwise_mergeSort transitive total (value :: rest)
    rw [whole, pairwise_insert] at ordered
    have members : ∀ other, other ∈ rest ↔ other ∈ front ∨ other ∈ back := fun other => by
      rw [← List.mem_append, ← sorted, List.mem_mergeSort]
    rw [whole, pairwise_insert, ← sorted, ih, List.pairwise_cons, and_comm]
    refine and_congr_left fun _ => ?_
    -- The front is what the new element comes after, the back what it comes before.
    have late : ∀ other ∈ front, Agree before relation value other ↔ relation other value := by
      intro other member
      have not_ : before value other = false := by simpa using earlier other member
      unfold Agree
      rw [not_]
      exact Iff.rfl
    have soon : ∀ other ∈ back, Agree before relation value other ↔ relation value other := by
      intro other member
      unfold Agree
      rw [ordered.2.2 other member]
      exact Iff.rfl
    constructor
    · rintro ⟨first, second⟩ other member
      obtain inFront | inBack := (members other).mp member
      · exact (late other inFront).mpr (first other inFront)
      · exact (soon other inBack).mpr (second other inBack)
    · intro all
      constructor
      · exact fun other member =>
          (late other member).mp (all other ((members other).mpr (.inl member)))
      · exact fun other member =>
          (soon other member).mp (all other ((members other).mpr (.inr member)))

end StableSort
