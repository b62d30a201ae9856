import Mathlib.Data.List.Basic

/-!
# Search for a pattern

What stands after the first occurrence of a pattern in a text, found one place at a time: the
search passes every place at which the pattern does not begin.
-/

namespace Substring

variable {α : Type*} [DecidableEq α] {pattern text rest : List α} {head : α}

/-- What stands after the first occurrence of a pattern. -/
def after (pattern text : List α) : Option (List α) := (text.dropInfix? pattern).map Prod.snd

theorem dropPrefix?_append (pattern rest : List α) :
    (pattern ++ rest).dropPrefix? pattern = some rest :=
  List.dropPrefix?_eq_some_iff.mpr ⟨pattern, rfl, BEq.rfl⟩

theorem dropPrefix?_none (absent : ¬pattern <+: text) : text.dropPrefix? pattern = none := by
  apply Option.eq_none_iff_forall_ne_some.mpr
  intro rest found
  obtain ⟨front, whole, same⟩ := List.dropPrefix?_eq_some_iff.mp found
  exact absent ⟨rest, (eq_of_beq same) ▸ whole.symm⟩

theorem go_snd (pattern text passed other : List α) :
    (List.dropInfix?.go pattern text passed).map Prod.snd =
      (List.dropInfix?.go pattern text other).map Prod.snd := by
  induction text generalizing passed other with
  | nil =>
    unfold List.dropInfix?.go
    split <;> rfl
  | cons head rest ih =>
    unfold List.dropInfix?.go
    split
    · exact ih _ _
    · rfl

theorem after_here (found : pattern ≠ []) (rest : List α) :
    after pattern (pattern ++ rest) = some rest := by
  unfold after List.dropInfix?
  cases pattern with
  | nil => exact absurd rfl found
  | cons first others =>
    unfold List.dropInfix?.go
    have here := dropPrefix?_append (first :: others) rest
    simp only [List.cons_append] at here ⊢
    rw [here]
    rfl

theorem after_cons (absent : ¬pattern <+: head :: rest) :
    after pattern (head :: rest) = after pattern rest := by
  unfold after List.dropInfix?
  rw [List.dropInfix?.go, dropPrefix?_none absent]
  exact go_snd pattern rest _ _

theorem after_append {first : α} {others piece : List α} (absent : first ∉ piece)
    (rest : List α) : after (first :: others) (piece ++ rest) = after (first :: others) rest := by
  induction piece with
  | nil => rfl
  | cons head tail ih =>
    rw [List.mem_cons, not_or] at absent
    rw [List.cons_append, after_cons, ih absent.2]
    exact fun begins => absent.1 (List.cons_prefix_cons.mp begins).1

end Substring
