import Mathlib.Data.List.Basic
import Mathlib.Order.MinMax

/-!
# High-water marks

Elements come one after another, and one is kept only if its key is above every key before it and
above a first mark. All are kept exactly if the keys rise from the mark on. A ratchet is a mark that
moves in whole widths.
-/

namespace HighWater

variable {α κ : Type*} [LinearOrder κ] (key : α → κ)

/-- The elements that are above the mark when they come; each of them moves the mark. -/
def kept : κ → List α → List α
  | _, [] => []
  | mark, element :: rest =>
    if key element ≤ mark then kept mark rest else element :: kept (key element) rest

/-- The mark after elements have come. -/
def markAfter (mark : κ) (elements : List α) : κ :=
  elements.foldl (fun mark element => if key element ≤ mark then mark else key element) mark

variable {key} {mark : κ} {elements : List α}

/-- The mark after the first element. -/
theorem markAfter_cons (element : α) : markAfter key mark (element :: elements) =
    markAfter key (if key element ≤ mark then mark else key element) elements := rfl

theorem le_markAfter : mark ≤ markAfter key mark elements := by
  induction elements generalizing mark with
  | nil => exact le_refl mark
  | cons element rest ih =>
    rw [markAfter_cons]
    split
    · exact ih
    · next above => exact (le_of_lt (not_le.mp above)).trans ih

theorem key_le_markAfter {element : α} (member : element ∈ elements) :
    key element ≤ markAfter key mark elements := by
  induction elements generalizing mark with
  | nil => cases member
  | cons first rest ih =>
    rw [markAfter_cons]
    obtain rfl | later := List.mem_cons.mp member
    · split
      · next below => exact below.trans le_markAfter
      · exact le_markAfter
    · exact ih later

theorem markAfter_eq : markAfter key mark elements = mark ∨
    ∃ element ∈ elements, markAfter key mark elements = key element := by
  induction elements generalizing mark with
  | nil => exact .inl rfl
  | cons first rest ih =>
    rw [markAfter_cons]
    split
    · exact ih.imp_right fun ⟨element, member, same⟩ =>
        ⟨element, List.mem_cons_of_mem first member, same⟩
    · obtain same | ⟨element, member, same⟩ := @ih (key first)
      · exact .inr ⟨first, List.mem_cons_self, same⟩
      · exact .inr ⟨element, List.mem_cons_of_mem first member, same⟩

theorem markAfter_lt_iff {bound : κ} :
    markAfter key mark elements < bound ↔
      mark < bound ∧ ∀ element ∈ elements, key element < bound := by
  constructor
  · intro above
    exact ⟨le_markAfter.trans_lt above, fun element member =>
      (key_le_markAfter member).trans_lt above⟩
  · rintro ⟨first, others⟩
    obtain same | ⟨element, member, same⟩ := @markAfter_eq _ _ _ key mark elements
    · rw [same]
      exact first
    · rw [same]
      exact others element member

theorem kept_sublist : (kept key mark elements).Sublist elements := by
  induction elements generalizing mark with
  | nil => exact List.Sublist.slnil
  | cons element rest ih =>
    rw [kept]
    split
    · exact ih.cons element
    · exact ih.cons_cons element

theorem kept_eq_self_iff :
    kept key mark elements = elements ↔
      (∀ element ∈ elements, mark < key element) ∧
        elements.Pairwise fun first second => key first < key second := by
  induction elements generalizing mark with
  | nil => exact iff_of_true rfl ⟨nofun, .nil⟩
  | cons element rest ih =>
    rw [kept, List.forall_mem_cons, List.pairwise_cons]
    by_cases below : key element ≤ mark
    · rw [if_pos below]
      refine iff_of_false (fun same => ?_) fun all => absurd below (not_le.mpr all.1.1)
      have shorter := (@kept_sublist _ _ _ key mark rest).length_le
      rw [same, List.length_cons] at shorter
      omega
    · have above := not_le.mp below
      rw [if_neg below, List.cons.injEq, ih]
      constructor
      · rintro ⟨-, higher, sorted⟩
        exact ⟨⟨above, fun later member => above.trans (higher later member)⟩, higher, sorted⟩
      · rintro ⟨-, higher, sorted⟩
        exact ⟨rfl, higher, sorted⟩

theorem length_kept_iff : (kept key mark elements).length = elements.length ↔
    kept key mark elements = elements :=
  ⟨kept_sublist.eq_of_length, congrArg List.length⟩

end HighWater

/-! ## Ratchets

A value is followed in whole widths: each time it lies a width or more beyond what is counted, the
whole widths are counted and the rest is left. The count is that of the best value seen, however
the way to it was divided. -/

namespace Ratchet

/-- The count after a value, one more for each whole width beyond what is counted. -/
def advance (width count value : Nat) : Nat := count + (value - count * width) / width

theorem advance_eq (width count value : Nat) :
    advance width count value = max count (value / width) := by
  unfold advance
  rw [Nat.mul_comm, Nat.sub_mul_div]
  omega

theorem advance_best (width best value : Nat) :
    advance width (best / width) value = max best value / width := by
  rw [advance_eq]
  exact (Monotone.map_max fun _ _ ordered => Nat.div_le_div_right ordered).symm

end Ratchet
