import Mathlib.Data.List.Basic

/-!
# Binary heaps in lists

A heap keeps its elements in a list in which the parent of position `i` is at `(i - 1) / 2`, and an
element is never above its parent in the order of the heap. A push appends the element and lets it
rise. The root is a greatest element; about the rest of the list the order says nothing.
-/

namespace BinaryHeap

variable {α : Type*} (le : α → α → Bool)

/-- The position of the parent. -/
def parent (position : Nat) : Nat := (position - 1) / 2

/-- The element at a position rises while it is above its parent, in a number of steps. -/
def siftUp : Nat → List α → Nat → List α
  | 0, list, _ => list
  | fuel + 1, list, position =>
    match list[position]?, list[parent position]? with
    | some element, some above =>
      if position = 0 ∨ le element above then list
      else siftUp fuel ((list.set position above).set (parent position) element) (parent position)
    | _, _ => list

/-- An element is pushed. -/
def push (list : List α) (element : α) : List α :=
  siftUp le list.length (list ++ [element]) list.length

/-- No element is above its parent. -/
def Heap (list : List α) : Prop :=
  ∀ position element above, 0 < position → list[position]? = some element →
    list[parent position]? = some above → le element above = true

/-- A list in which an element rises: all others are not above their parents, and its children not
above its own parent. -/
structure Rising (list : List α) (rising : Nat) : Prop where
  others : ∀ position element above, 0 < position → position ≠ rising →
    list[position]? = some element → list[parent position]? = some above → le element above = true
  children : ∀ position element above, 0 < position → parent position = rising → 0 < rising →
    list[position]? = some element → list[parent rising]? = some above → le element above = true

variable {le} {list : List α} {position fuel : Nat} {element : α}

theorem parent_lt (positive : 0 < position) : parent position < position := by
  unfold parent
  omega

theorem getElem?_exchange {first second : Nat} {left right : α} (different : first ≠ second)
    (here : list[first]? = some left) (there : list[second]? = some right) (place : Nat) :
    ((list.set first right).set second left)[place]? =
      if place = second then some left else if place = first then some right
        else list[place]? := by
  have firstInside := (List.getElem?_eq_some_iff.mp here).1
  have secondInside := (List.getElem?_eq_some_iff.mp there).1
  by_cases atSecond : place = second
  · subst atSecond
    rw [if_pos rfl, List.getElem?_set_self (by rw [List.length_set]; exact secondInside)]
  · rw [if_neg atSecond, List.getElem?_set_ne (Ne.symm atSecond)]
    by_cases atFirst : place = first
    · subst atFirst
      rw [if_pos rfl, List.getElem?_set_self firstInside]
    · rw [if_neg atFirst, List.getElem?_set_ne (Ne.symm atFirst)]

theorem exchange_perm {first second : Nat} {left right : α} (here : list[first]? = some left)
    (there : list[second]? = some right) :
    ((list.set first right).set second left).Perm list := by
  obtain ⟨firstInside, rfl⟩ := List.getElem?_eq_some_iff.mp here
  obtain ⟨secondInside, rfl⟩ := List.getElem?_eq_some_iff.mp there
  exact List.set_set_perm firstInside secondInside

theorem siftUp_perm (fuel : Nat) (list : List α) (position : Nat) :
    (siftUp le fuel list position).Perm list := by
  induction fuel generalizing list position with
  | zero => exact List.Perm.refl list
  | succ fuel ih =>
    unfold siftUp
    split
    next element above here there =>
      split
      · exact List.Perm.refl list
      · exact (ih _ _).trans (exchange_perm here there)
    next => exact List.Perm.refl list

theorem push_perm (list : List α) (element : α) :
    (push le list element).Perm (element :: list) :=
  (siftUp_perm _ _ _).trans (List.perm_append_singleton element list)

section Order

variable (total : ∀ left right, le left right = true ∨ le right left = true)
  (trans : ∀ first second third, le first second = true → le second third = true →
    le first third = true)

include total trans in
theorem Rising.move {above : α} (rises : Rising le list position) (positive : 0 < position)
    (here : list[position]? = some element) (there : list[parent position]? = some above)
    (higher : le element above = false) :
    Rising le ((list.set position above).set (parent position) element) (parent position) := by
  have before := parent_lt positive
  have different : position ≠ parent position := Nat.ne_of_gt before
  have get := getElem?_exchange different here there
  have below : le above element = true := by
    obtain up | down := total element above
    · cases up.symm.trans higher
    · exact down
  constructor
  · intro place value upper some_ elsewhere at_ overAt
    rw [get] at at_ overAt
    rw [if_neg elsewhere] at at_
    by_cases same : place = position
    · subst same
      rw [if_pos rfl] at at_
      rw [if_pos rfl] at overAt
      cases at_
      cases overAt
      exact below
    · rw [if_neg same] at at_
      by_cases child : parent place = position
      · rw [child, if_neg different, if_pos rfl] at overAt
        cases overAt
        exact rises.children place value above some_ child positive at_ there
      · by_cases sibling : parent place = parent position
        · rw [sibling, if_pos rfl] at overAt
          cases overAt
          have low := rises.others place value above some_ same at_ (sibling ▸ there)
          exact trans _ _ _ low below
        · rw [if_neg sibling, if_neg child] at overAt
          exact rises.others place value upper some_ same at_ overAt
  · intro place value upper some_ child up at_ overAt
    have farther := parent_lt up
    rw [get] at at_ overAt
    rw [if_neg (Nat.ne_of_lt farther),
      if_neg (Nat.ne_of_lt (Nat.lt_trans farther before))] at overAt
    have middle : le above upper = true :=
      rises.others (parent position) above upper up (Ne.symm different) there overAt
    by_cases same : place = position
    · subst same
      rw [if_neg different, if_pos rfl] at at_
      cases at_
      exact middle
    · have later : place ≠ parent position := by
        have lower := parent_lt some_
        omega
      rw [if_neg later, if_neg same] at at_
      have low := rises.others place value above some_ same at_ (child ▸ there)
      exact trans _ _ _ low middle

include total trans in
theorem siftUp_heap (rises : Rising le list position) (enough : position ≤ fuel) :
    Heap le (siftUp le fuel list position) := by
  induction fuel generalizing list position with
  | zero =>
    intro place value upper some_ at_ overAt
    exact rises.others place value upper some_ (by omega) at_ overAt
  | succ fuel ih =>
    unfold siftUp
    split
    next element above here there =>
      split
      next stops =>
        intro place value upper some_ at_ overAt
        by_cases same : place = position
        · subst same
          cases here.symm.trans at_
          cases there.symm.trans overAt
          exact stops.resolve_left (Nat.ne_of_gt some_)
        · exact rises.others place value upper some_ same at_ overAt
      next goes =>
        have positive : 0 < position := Nat.pos_of_ne_zero fun zero => goes (.inl zero)
        have higher : le element above = false := by
          cases order : le element above with
          | false => rfl
          | true => exact absurd (.inr order) goes
        have shorter := parent_lt positive
        exact ih (rises.move total trans positive here there higher) (by omega)
    next none_ =>
      intro place value upper some_ at_ overAt
      by_cases same : place = position
      · subst same
        exact absurd overAt (none_ value upper at_)
      · exact rises.others place value upper some_ same at_ overAt

include total trans in
theorem push_heap (heap : Heap le list) (element : α) : Heap le (push le list element) := by
  apply siftUp_heap total trans
  · constructor
    · intro place value upper some_ elsewhere at_ overAt
      have inside := (List.getElem?_eq_some_iff.mp at_).1
      rw [List.length_append, List.length_singleton] at inside
      have lower := parent_lt some_
      rw [List.getElem?_append_left (by omega)] at at_ overAt
      exact heap place value upper some_ at_ overAt
    · intro place value upper some_ child _ at_ _
      have inside := (List.getElem?_eq_some_iff.mp at_).1
      rw [List.length_append, List.length_singleton] at inside
      have lower := parent_lt some_
      omega
  · exact Nat.le_refl _

include total trans in
theorem Heap.root_greatest {root value : α} (heap : Heap le list) (first : list[0]? = some root)
    (member : value ∈ list) : le value root = true := by
  obtain ⟨position, there⟩ := List.mem_iff_getElem?.mp member
  induction position using Nat.strongRecOn generalizing value with
  | ind position ih =>
    obtain zero | positive := Nat.eq_zero_or_pos position
    · subst zero
      cases first.symm.trans there
      obtain same | same := total root root <;> exact same
    · have before := parent_lt positive
      have inside := (List.getElem?_eq_some_iff.mp there).1
      have some_ : list[parent position]? = some list[parent position] :=
        List.getElem?_eq_getElem (Nat.lt_trans before inside)
      have higher := heap position value _ positive there some_
      exact trans _ _ _ higher (ih (parent position) before (List.getElem_mem _) some_)

include total trans in
theorem pushes_heap (elements : List α) (heap : Heap le list) :
    Heap le (elements.foldl (push le) list) := by
  induction elements generalizing list with
  | nil => exact heap
  | cons element rest ih => exact ih (push_heap total trans heap element)

end Order

theorem heap_nil : Heap le [] := by
  intro position element above _ there
  cases there

theorem pushes_perm (elements list : List α) :
    (elements.foldl (push le) list).Perm (list ++ elements) := by
  induction elements generalizing list with
  | nil => rw [List.append_nil, List.foldl_nil]
  | cons element rest ih =>
    refine (ih _).trans ?_
    have pushed := (@push_perm _ le list element).append_right rest
    exact pushed.trans List.perm_middle.symm

end BinaryHeap
