import Mathlib.Data.List.Basic

/-!
# Streams through a ring

A stream of values goes through slots that it uses again and again. The values that were copied into
their slots and not taken out yet are a window on the stream; as long as the window is not longer
than the ring, a copy at its end leaves the rest of it in its slots.
-/

namespace RingWindow

variable {ι β : Type*}

/-- The slots of positions less than a capacity apart are different. -/
def Separates (slot : Nat → ι) (capacity : Nat) : Prop :=
  ∀ first second, first < second → second - first < capacity → slot first ≠ slot second

/-- What was taken out is the beginning of the stream, and every value that was copied and not taken
is in its slot. -/
structure Window (slot : Nat → ι) (slots : ι → β) (taken stream : List β) (copied : Nat) :
    Prop where
  begins : taken <+: stream
  reached : taken.length ≤ copied
  within : copied ≤ stream.length
  held : ∀ position, taken.length ≤ position → position < copied →
    stream[position]? = some (slots (slot position))

/-- The remainders of two numbers that are less than the modulus apart are the same only if the
numbers are. -/
theorem mod_ne {capacity first second : Nat} (apart : first ≠ second)
    (ordered : first ≤ second) (near : second - first < capacity) :
    first % capacity ≠ second % capacity := by
  intro same
  have divides : capacity ∣ second - first :=
    Nat.dvd_of_mod_eq_zero (Nat.sub_mod_eq_zero_of_mod_eq same.symm)
  have none := Nat.eq_zero_of_dvd_of_lt divides near
  omega

theorem separates_mod (offset capacity : Nat) :
    Separates (fun position => offset + position % capacity) capacity := by
  intro first second before near same
  exact mod_ne (Nat.ne_of_lt before) (Nat.le_of_lt before) near (Nat.add_left_cancel same)

variable {slot : Nat → ι} {slots : ι → β} {taken stream : List β} {copied : Nat}

theorem window_empty (slot : Nat → ι) (slots : ι → β) : Window slot slots [] [] 0 where
  begins := List.prefix_rfl
  reached := Nat.le_refl 0
  within := Nat.le_refl 0
  held := nofun

theorem Window.extend (window : Window slot slots taken stream copied) (more : List β) :
    Window slot slots taken (stream ++ more) copied where
  begins := window.begins.trans (List.prefix_append stream more)
  reached := window.reached
  within := by
    rw [List.length_append]
    exact Nat.le_add_right_of_le window.within
  held := by
    intro position from_ before
    rw [List.getElem?_append_left (Nat.lt_of_lt_of_le before window.within)]
    exact window.held position from_ before

theorem Window.giveUp {more : List β} (window : Window slot slots taken (stream ++ more) copied)
    (within : copied ≤ stream.length) : Window slot slots taken stream copied where
  begins := List.prefix_of_prefix_length_le window.begins (List.prefix_append stream more)
    (Nat.le_trans window.reached within)
  reached := window.reached
  within := within
  held := by
    intro position from_ before
    have there := window.held position from_ before
    rw [List.getElem?_append_left (Nat.lt_of_lt_of_le before within)] at there
    exact there

theorem Window.copy [DecidableEq ι] (window : Window slot slots taken stream copied)
    {capacity : Nat} (separates : Separates slot capacity) {value : β}
    (next : stream[copied]? = some value) (room : copied < taken.length + capacity) :
    Window slot (Function.update slots (slot copied) value) taken stream (copied + 1) where
  begins := window.begins
  reached := Nat.le_succ_of_le window.reached
  within := (List.getElem?_eq_some_iff.mp next).1
  held := by
    intro position from_ before
    rcases Nat.lt_or_eq_of_le (Nat.le_of_lt_succ before) with earlier | here
    · have apart : slot position ≠ slot copied := separates position copied earlier (by omega)
      rw [Function.update_of_ne apart]
      exact window.held position from_ earlier
    · rw [here, Function.update_self]
      exact next

theorem Window.take (window : Window slot slots taken stream copied)
    (some_ : taken.length < copied) :
    Window slot slots (taken ++ [slots (slot taken.length)]) stream copied where
  begins := by
    obtain ⟨rest, rfl⟩ := window.begins
    have there := window.held taken.length (Nat.le_refl _) some_
    rw [List.getElem?_append_right (Nat.le_refl _), Nat.sub_self] at there
    cases rest with
    | nil => cases there
    | cons first others =>
      cases there
      exact ⟨others, List.append_assoc _ _ _⟩
  reached := by
    rw [List.length_append]
    exact some_
  within := window.within
  held := by
    intro position from_ before
    rw [List.length_append] at from_
    exact window.held position (Nat.le_of_succ_le from_) before

end RingWindow
