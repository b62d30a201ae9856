import Mathlib.Data.List.Basic
import Mathlib.Data.Nat.ModEq

/-!
# Queues that are trimmed

A queue that grows beyond a limit is cut to its newest items. What is in it after any number of
items is a stretch of the newest ones, whose length follows from their number alone.
-/

namespace TrimmedQueue

variable {α : Type*} {limit keep : Nat}

/-- A queue after one more item. -/
def push (limit keep : Nat) (queue : List α) (item : α) : List α :=
  if limit < (queue ++ [item]).length then (queue ++ [item]).drop ((queue ++ [item]).length - keep)
  else queue ++ [item]

/-- The number of items in a queue after some. -/
def kept (limit keep count : Nat) : Nat :=
  if count ≤ limit then count else keep + (count - (limit + 1)) % (limit + 1 - keep)

/-- The newest items, as many as are kept. -/
def newest (limit keep : Nat) (items : List α) : List α :=
  items.drop (items.length - kept limit keep items.length)

theorem kept_le (small : keep ≤ limit) (count : Nat) : kept limit keep count ≤ count := by
  unfold kept
  split
  · exact Nat.le_refl count
  · have rest := Nat.mod_le (count - (limit + 1)) (limit + 1 - keep)
    omega

theorem kept_succ (small : keep ≤ limit) (count : Nat) :
    kept limit keep (count + 1) =
      if limit < kept limit keep count + 1 then keep else kept limit keep count + 1 := by
  have turn : 0 < limit + 1 - keep := by omega
  unfold kept
  by_cases few : count ≤ limit
  · rw [if_pos few]
    by_cases last : count = limit
    · rw [if_neg (by omega), if_pos (by omega), last, Nat.sub_self, Nat.zero_mod, Nat.add_zero]
    · rw [if_pos (by omega), if_neg (by omega)]
  · have before := Nat.mod_lt (count - (limit + 1)) turn
    have next : count + 1 - (limit + 1) = count - (limit + 1) + 1 := by omega
    rw [if_neg few, if_neg (by omega), next, ← Nat.mod_add_mod]
    by_cases full : (count - (limit + 1)) % (limit + 1 - keep) + 1 = limit + 1 - keep
    · rw [if_pos (by omega), full, Nat.mod_self, Nat.add_zero]
    · rw [if_neg (by omega), Nat.mod_eq_of_lt (by omega)]
      omega

theorem push_newest (small : keep ≤ limit) (items : List α) (item : α) :
    push limit keep (newest limit keep items) item = newest limit keep (items ++ [item]) := by
  have few := kept_le small items.length
  have length : (newest limit keep items).length = kept limit keep items.length := by
    unfold newest
    rw [List.length_drop]
    omega
  have whole : newest limit keep items ++ [item] =
      (items ++ [item]).drop (items.length - kept limit keep items.length) := by
    unfold newest
    rw [List.drop_append_of_le_length (by omega)]
  unfold push
  rw [List.length_append, length, List.length_singleton]
  conv_rhs => unfold newest
  rw [List.length_append, List.length_singleton, kept_succ small]
  by_cases full : limit < kept limit keep items.length + 1
  · rw [if_pos full, if_pos full, whole, List.drop_drop]
    congr 1
    omega
  · rw [if_neg full, if_neg full, whole]
    congr 1
    omega

end TrimmedQueue
