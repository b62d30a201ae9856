import Mathlib.Algebra.BigOperators.Group.List.Basic
import Mathlib.Algebra.Ring.Nat
import Mathlib.Data.List.Perm.Subperm
import Mathlib.Data.List.Nodup
import TradingBot.Foundation.Run

/-!
# Interleavings of calls

Any number of calls run against a shared state. Each call is a local state that advances one
atomic step at a time, in any order among the calls; a call that has returned stays in the pool.
What a protocol needs to know of the other calls is mostly how many of them pass a test, so the
lemmas here follow such counts along a step.
-/

namespace Interleaving

variable {σ κ ω : Type*}

/-- A shared state and the calls that were started on it. -/
structure Pool (σ κ : Type*) where
  shared : σ
  calls : List κ

/-- What can happen next in a pool. -/
inductive Move (ω : Type*) where
  /-- A call starts. -/
  | start (operation : ω)
  /-- A call takes its next step. -/
  | advance (position : Nat)

/-- A pool after a move. A call that returned has no next step. -/
def Pool.step (enter : ω → κ) (next : σ → κ → Option (σ × κ)) (pool : Pool σ κ) :
    Move ω → Option (Pool σ κ)
  | .start operation => some { pool with calls := pool.calls ++ [enter operation] }
  | .advance position => pool.calls[position]?.bind fun call =>
      (next pool.shared call).map fun after =>
        { shared := after.1, calls := pool.calls.set position after.2 }

/-- How many calls of a pool pass a test. -/
def Pool.count (pool : Pool σ κ) (test : κ → Bool) : Nat := pool.calls.countP test

variable {enter : ω → κ} {next : σ → κ → Option (σ × κ)} {pool after : Pool σ κ}
  {position : Nat}

/-- An advance runs the next step of one call. -/
theorem step_advance :
    pool.step enter next (.advance position) = some after ↔
      ∃ call, pool.calls[position]? = some call ∧ ∃ shared moved,
        next pool.shared call = some (shared, moved) ∧
        after = { shared := shared, calls := pool.calls.set position moved } := by
  simp only [Pool.step, Option.bind_eq_some_iff, Option.map_eq_some_iff, Prod.exists]
  exact exists_congr fun call => and_congr_right fun _ => exists_congr fun shared =>
    exists_congr fun moved => and_congr_right fun _ => eq_comm

variable {list : List κ} {old : κ} {test : κ → Bool}

theorem mem_kept {call : κ} (found : list[position]? = some old) (member : call ∈ list)
    (differs : call ≠ old) (new : κ) : call ∈ list.set position new := by
  obtain ⟨place, there⟩ := List.mem_iff_getElem?.mp member
  have elsewhere : position ≠ place := by
    intro same
    exact differs (Option.some.inj (there.symm.trans (same ▸ found)))
  exact List.mem_of_getElem? ((List.getElem?_set_ne elsewhere).trans there)

/-- Replacing one call keeps the others. -/
theorem mem_replaced {new call : κ} (found : list[position]? = some old) (differsOld : call ≠ old)
    (differsNew : call ≠ new) : call ∈ list.set position new ↔ call ∈ list := by
  constructor
  · exact fun member => (List.mem_or_eq_of_mem_set member).resolve_right differsNew
  · exact fun member => mem_kept found member differsOld new

theorem mem_replacement (found : list[position]? = some old) (new : κ) :
    new ∈ list.set position new :=
  List.mem_set (List.getElem?_eq_some_iff.mp found).1 new

/-! ## Counts -/

/-- Replacing one call changes a count by the two. -/
theorem countP_replaced (test : κ → Bool) (found : list[position]? = some old) (new : κ) :
    (list.set position new).countP test + (test old).toNat =
      list.countP test + (test new).toNat := by
  obtain ⟨inside, here⟩ := List.getElem?_eq_some_iff.mp found
  have parts : list = list.take position ++ old :: list.drop (position + 1) := by
    rw [← here, List.getElem_cons_drop, List.take_append_drop]
  rw [List.set_eq_take_append_cons_drop, if_pos inside]
  conv_rhs => rw [parts]
  rw [List.countP_append, List.countP_append, List.countP_cons, List.countP_cons]
  cases test old <;> cases test new <;> simp <;> omega

/-- A call that passes is counted. -/
theorem count_pos {call : κ} (found : pool.calls[position]? = some call)
    (passes : test call = true) : 0 < pool.count test :=
  List.countP_pos_iff.mpr ⟨call, List.mem_of_getElem? found, passes⟩

theorem count_start (operation : ω) (test : κ → Bool) :
    ({ pool with calls := pool.calls ++ [enter operation] } : Pool σ κ).count test =
      pool.count test + (test (enter operation)).toNat := by
  show (pool.calls ++ [enter operation]).countP test = _
  rw [List.countP_append, List.countP_singleton]
  cases test (enter operation) <;> rfl

/-- An advance changes a count by the call before and after. -/
theorem count_advance {shared : σ} {call : κ} (test : κ → Bool)
    (found : pool.calls[position]? = some call) (moved : κ) :
    ({ shared := shared, calls := pool.calls.set position moved } : Pool σ κ).count test +
        (test call).toNat = pool.count test + (test moved).toNat :=
  countP_replaced test found moved

/-- Calls that each pass one of two tests are no more than those that pass the one and those that
pass the other. -/
theorem count_le_add {first second : κ → Bool}
    (covered : ∀ call, test call = true → first call = true ∨ second call = true) :
    pool.count test ≤ pool.count first + pool.count second := by
  have digit : ∀ passes : Bool, (if passes = true then 1 else 0) = passes.toNat := by decide
  unfold Pool.count
  induction pool.calls with
  | nil => exact Nat.le_refl 0
  | cons call rest ih =>
    have here : (test call).toNat ≤ (first call).toNat + (second call).toNat := by
      have covers := covered call
      revert covers
      cases test call <;> cases first call <;> cases second call <;> decide
    rw [List.countP_cons, List.countP_cons, List.countP_cons, digit, digit, digit]
    omega

theorem position_unique (once : pool.count test ≤ 1) {other : Nat} {first second : κ}
    (here : pool.calls[position]? = some first) (there : pool.calls[other]? = some second)
    (left : test first = true) (right : test second = true) : position = other := by
  by_contra different
  -- Without the first call the second would still be counted.
  obtain ⟨inside, same⟩ := List.getElem?_eq_some_iff.mp here
  have erased : (pool.calls.eraseIdx position).countP test + 1 = pool.count test := by
    have perm := List.getElem_cons_eraseIdx_perm inside
    rw [same] at perm
    have counted := perm.countP_eq test
    rw [List.countP_cons_of_pos left] at counted
    exact counted
  have member : second ∈ pool.calls.eraseIdx position :=
    List.mem_eraseIdx_iff_getElem?.mpr ⟨other, Ne.symm different, there⟩
  have positive := List.countP_pos_iff.mpr ⟨second, member, right⟩
  omega

theorem member_unique (once : pool.count test ≤ 1) {first second : κ} (here : first ∈ pool.calls)
    (there : second ∈ pool.calls) (left : test first = true) (right : test second = true) :
    first = second := by
  obtain ⟨place, found⟩ := List.mem_iff_getElem?.mp here
  obtain ⟨other, foundOther⟩ := List.mem_iff_getElem?.mp there
  have same := position_unique once found foundOther left right
  exact Option.some.inj (found.symm.trans (same ▸ foundOther))

theorem length_le_count {μ : Type*} {mark : κ → Option μ} {marks : List μ} (distinct : marks.Nodup)
    (carried : ∀ value ∈ marks, ∃ call ∈ pool.calls, test call = true ∧ mark call = some value) :
    marks.length ≤ pool.count test := by
  have covered : marks.map some ⊆ (pool.calls.filter test).map mark := by
    intro value member
    obtain ⟨found, foundMember, rfl⟩ := List.mem_map.mp member
    obtain ⟨call, callMember, passes, marked⟩ := carried found foundMember
    exact List.mem_map.mpr ⟨call, List.mem_filter.mpr ⟨callMember, passes⟩, marked⟩
  have distinctMarks : (marks.map some).Nodup := distinct.map fun _ _ same => Option.some.inj same
  have fits := (distinctMarks.subperm covered).length_le
  rw [List.length_map, List.length_map, ← List.countP_eq_length_filter] at fits
  exact fits

/-! ## Sums -/

theorem sum_replaced {α : Type*} [AddCommMonoid α] (value : κ → α)
    (found : list[position]? = some old) (new : κ) :
    ((list.set position new).map value).sum + value old =
      (list.map value).sum + value new := by
  obtain ⟨inside, here⟩ := List.getElem?_eq_some_iff.mp found
  have parts : list = list.take position ++ old :: list.drop (position + 1) := by
    rw [← here, List.getElem_cons_drop, List.take_append_drop]
  rw [List.set_eq_take_append_cons_drop, if_pos inside]
  conv_rhs => rw [parts]
  simp only [List.map_append, List.map_cons, List.sum_append, List.sum_cons]
  ac_rfl

/-! ## Runs of the calls that are there -/

theorem calls_elsewhere {others : List Nat} {final : Pool σ κ} (elsewhere : position ∉ others)
    (ran : Run.exec (Pool.step enter next) pool (others.map Move.advance) = some final) :
    final.calls[position]? = pool.calls[position]? := by
  induction others generalizing pool with
  | nil =>
    cases ran
    rfl
  | cons other rest ih =>
    obtain ⟨middle, taken, later⟩ := Run.exec_cons.mp ran
    obtain ⟨call, -, shared, moved, -, rfl⟩ := step_advance.mp taken
    have differs : other ≠ position := fun same => elsewhere (same ▸ List.mem_cons_self)
    have outside : position ∉ rest := fun member => elsewhere (List.mem_cons_of_mem other member)
    rw [ih outside later]
    exact List.getElem?_set_ne differs

/-- Where every step of a call lowers a weight of it, the calls take no more steps than their
weights come to. -/
theorem length_le_weight {weight : κ → Nat}
    (lowers : ∀ shared call after moved, next shared call = some (after, moved) →
      weight moved < weight call)
    {positions : List Nat} {final : Pool σ κ}
    (ran : Run.exec (Pool.step enter next) pool (positions.map Move.advance) = some final) :
    positions.length ≤ (pool.calls.map weight).sum := by
  induction positions generalizing pool with
  | nil => exact Nat.zero_le _
  | cons position rest ih =>
    obtain ⟨middle, taken, later⟩ := Run.exec_cons.mp ran
    obtain ⟨call, found, shared, moved, stepped, rfl⟩ := step_advance.mp taken
    have lower := lowers _ _ _ _ stepped
    have total := sum_replaced weight found moved
    have shorter : rest.length ≤ ((pool.calls.set position moved).map weight).sum := ih later
    rw [List.length_cons]
    omega

end Interleaving
