import Mathlib.Algebra.Order.Group.MinMax

/-!
# First in, first out

A queue of keys with the quantity that is left of each. A quantity is executed against the queue
from its front; each key has its share of it.
-/

namespace FifoQueue

variable {κ α : Type*} [DecidableEq κ] [AddCommGroup α] [LinearOrder α]

/-- The queue after a quantity is executed against it. -/
def execute : List (κ × α) → α → List (κ × α)
  | [], _ => []
  | (key, left) :: rest, quantity =>
    if quantity < left then (key, left - quantity) :: rest else execute rest (quantity - left)

/-- The share of a key in a quantity that is executed against a queue. -/
def share : List (κ × α) → α → κ → α
  | [], _, _ => 0
  | (key, left) :: rest, quantity, other =>
    (if other = key then min left quantity else 0) + share rest (quantity - min left quantity) other

variable [IsOrderedAddMonoid α] {queue : List (κ × α)} {quantity : α}

omit [DecidableEq κ] in
theorem execute_pos (left : ∀ entry ∈ queue, 0 < entry.2) (quantity : α) :
    ∀ entry ∈ execute queue quantity, 0 < entry.2 := by
  induction queue generalizing quantity with
  | nil => exact left
  | cons first rest ih =>
    have later := (List.forall_mem_cons.mp left).2
    unfold execute
    split
    · next less => exact List.forall_mem_cons.mpr ⟨sub_pos.mpr less, later⟩
    · exact ih later _

theorem share_nonneg (left : ∀ entry ∈ queue, 0 < entry.2) (nonneg : 0 ≤ quantity) (key : κ) :
    0 ≤ share queue quantity key := by
  induction queue generalizing quantity with
  | nil => exact le_refl 0
  | cons first rest ih =>
    obtain ⟨here, later⟩ := List.forall_mem_cons.mp left
    have rest_ := ih later (sub_nonneg.mpr (min_le_right first.2 quantity))
    unfold share
    split
    · exact add_nonneg (le_min (le_of_lt here) nonneg) rest_
    · exact add_nonneg (le_refl 0) rest_

theorem share_front_pos {key : κ} {amount : α}
    (left : ∀ entry ∈ (key, amount) :: queue, 0 < entry.2) (positive : 0 < quantity) :
    0 < share ((key, amount) :: queue) quantity key := by
  obtain ⟨here, later⟩ := List.forall_mem_cons.mp left
  unfold share
  rw [if_pos rfl]
  exact add_pos_of_pos_of_nonneg (lt_min here positive)
    (share_nonneg later (sub_nonneg.mpr (min_le_right amount quantity)) key)

end FifoQueue
