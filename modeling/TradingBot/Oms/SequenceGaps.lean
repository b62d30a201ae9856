import Mathlib.Order.Interval.Finset.Nat
import TradingBot.Foundation.MachineInt

/-!
# Gaps in sequence ids

`SequenceTracker` of `sniper_algo.rs` keeps the first id it is given as the last one for good, so
that a gap is measured from the first id and not from the previous one. It is right as long as no
id follows that is more than one above the first, once a newer one was seen.
-/

open MachineInt

namespace TradingBot.Oms

/-- `SequenceTracker`; nothing is kept of the ids but the last, and that is the first. -/
structure SequenceTracker where
  lastSequence : Nat
  gapCount : Nat

namespace SequenceTracker

def new : SequenceTracker where
  lastSequence := 0
  gapCount := 0

/-- `process_sequence`: the gap before an id, if there is one. -/
def processSequence (tracker : SequenceTracker) (sequenceId : Nat) :
    Option Nat × SequenceTracker :=
  let last := tracker.lastSequence
  if last = 0 then (none, { tracker with lastSequence := sequenceId })
  else
    let expected := castU64 (last + 1)
    let gap := if expected < sequenceId then sequenceId - expected else 0
    if 0 < gap then (some gap, { tracker with gapCount := castU64 (tracker.gapCount + gap) })
    else (none, tracker)

def getGapCount (tracker : SequenceTracker) : Nat := tracker.gapCount

def reset (_ : SequenceTracker) : SequenceTracker := new

/-- The answers to some ids in turn, and the tracker after them. -/
def processAll (tracker : SequenceTracker) : List Nat → List (Option Nat) × SequenceTracker
  | [] => ([], tracker)
  | id :: rest =>
    let (answer, next) := tracker.processSequence id
    let (answers, final) := next.processAll rest
    (answer :: answers, final)

end SequenceTracker

/-! ## The ids that are missing -/

/-- The answer to an id after the newest one: how many ids lie strictly between the two, if any
do. -/
def missing (newest id : Nat) : Option Nat :=
  if (Finset.Ioo newest id).card = 0 then none else some (Finset.Ioo newest id).card

/-- The answers to some ids behind the newest one. -/
def missingIds : Nat → List Nat → List (Option Nat)
  | _, [] => []
  | newest, id :: rest => missing newest id :: missingIds (max newest id) rest

/-- The ids that are newer than all before them. -/
def newerIds : Nat → List Nat → List Nat
  | _, [] => []
  | newest, id :: rest => if newest < id then id :: newerIds id rest else newerIds newest rest

/-- The number of ids in some answers. -/
def total (answers : List (Option Nat)) : Nat := (answers.map fun answer => answer.getD 0).sum

/-- The gaps of some ids are found: the first id has none, every other one those to the newest id
before it, if it is newer, and the count is that of the ids from the first to the newest that are
not among the newer ones. -/
def FindsGaps : List Nat → Prop
  | [] => True
  | first :: rest =>
    (SequenceTracker.new.processAll (first :: rest)).1 = none :: missingIds first rest ∧
      ((SequenceTracker.new.processAll (first :: rest)).2.getGapCount : Int) =
        (newerIds first rest).getLastD first - first + 1 - (first :: newerIds first rest).length

/-- No id more than one above the first follows a newer one than the first, and none at all follows
the largest id as the first. -/
def StaysNear : List Nat → Prop
  | [] => True
  | first :: rest =>
    (rest = [] ∨ first + 1 < u64Size) ∧
      rest.Pairwise fun earlier later => earlier ≤ first ∨ later ≤ first + 1

section Gaps

variable {first newest id : Nat} {rest : List Nat}

/-- How many numbers are missing below an id. -/
theorem missing_eq (newest id : Nat) :
    missing newest id = if newest + 1 < id then some (id - newest - 1) else none := by
  unfold missing
  rw [Nat.card_Ioo]
  split <;> split <;> simp <;> omega

theorem missing_of_le (old : id ≤ newest + 1) : missing newest id = none := by
  rw [missing_eq, if_neg (by omega)]

theorem missing_eq_iff (newer : first ≤ newest) :
    missing first id = missing newest id ↔ newest ≤ first ∨ id ≤ first + 1 := by
  rw [missing_eq, missing_eq]
  constructor
  · intro same
    by_contra apart
    rw [if_pos (by omega)] at same
    split at same
    · have values := Option.some.inj same
      omega
    · cases same
  · rintro (old | near)
    · have same : newest = first := by omega
      rw [same]
    · rw [if_neg (by omega), if_neg (by omega)]

theorem total_missingIds (first : Nat) (rest : List Nat) :
    total (missingIds first rest) + (newerIds first rest).length + first =
      (newerIds first rest).getLastD first := by
  induction rest generalizing first with
  | nil => simp [missingIds, newerIds, total]
  | cons id rest ih =>
    have later := ih (max first id)
    simp only [missingIds, newerIds, total, List.map_cons, List.sum_cons] at later ⊢
    by_cases newer : first < id
    · have greater : max first id = id := by omega
      rw [greater] at later ⊢
      rw [if_pos newer, List.getLastD_cons, ← later, List.length_cons, missing_eq]
      split <;> simp <;> omega
    · have same : max first id = first := by omega
      rw [same] at later ⊢
      rw [if_neg newer, missing_of_le (by omega)]
      simp only [Option.getD_none]
      omega

end Gaps

/-! ## The tracker -/

section Tracker

variable {tracker : SequenceTracker} {first newest id : Nat} {ids : List Nat}

theorem processSequence_eq (started : tracker.lastSequence = first) (positive : 0 < first)
    (small : first + 1 < u64Size) (id : Nat) :
    tracker.processSequence id = (missing first id,
      if missing first id = none then tracker
      else { tracker with
        gapCount := castU64 (tracker.gapCount + (missing first id).getD 0) }) := by
  have next : castU64 (first + 1) = first + 1 := castU64_of_fits small
  unfold SequenceTracker.processSequence
  rw [started, missing_eq]
  simp only [next]
  rw [if_neg (by omega)]
  by_cases gap : first + 1 < id
  · have some_ : 0 < id - (first + 1) := by omega
    simp [gap, some_, Nat.sub_sub]
  · simp [gap]

theorem processAll_eq (started : tracker.lastSequence = first) (positive : 0 < first)
    (small : first + 1 < u64Size) (counted : tracker.gapCount < u64Size) (ids : List Nat) :
    (tracker.processAll ids).1 = ids.map (missing first) ∧
      (tracker.processAll ids).2.gapCount =
        castU64 (tracker.gapCount + total (ids.map (missing first))) := by
  induction ids generalizing tracker with
  | nil =>
    refine ⟨rfl, ?_⟩
    show tracker.gapCount = castU64 (tracker.gapCount + 0)
    exact (castU64_of_fits counted).symm
  | cons id rest ih =>
    unfold SequenceTracker.processAll
    rw [processSequence_eq started positive small id]
    simp only [List.map_cons, total, List.sum_cons]
    by_cases seen : missing first id = none
    · obtain ⟨answers, count⟩ := ih started counted
      rw [if_pos seen, answers, count, seen]
      simp [total]
    · have size : 0 < u64Size := by decide
      have next := @ih { tracker with
        gapCount := castU64 (tracker.gapCount + (missing first id).getD 0) } started
          (Nat.mod_lt _ size)
      rw [if_neg seen, next.1, next.2]
      refine ⟨rfl, ?_⟩
      simp only [castU64, total]
      rw [Nat.mod_add_mod, Nat.add_assoc]

theorem processAll_new (first : Nat) (rest : List Nat) :
    SequenceTracker.new.processAll (first :: rest) =
      (none :: (SequenceTracker.processAll ⟨first, 0⟩ rest).1,
        (SequenceTracker.processAll ⟨first, 0⟩ rest).2) := rfl

theorem processSequence_largest (largest : ¬ first + 1 < u64Size) (small : first < u64Size)
    (started : tracker.lastSequence = first) (positive : 0 < id) :
    (tracker.processSequence id).1 = some id := by
  have size : first + 1 = u64Size := by omega
  have wraps : castU64 (first + 1) = 0 := by rw [size]; exact Nat.mod_self _
  have large : 0 < u64Size := by decide
  unfold SequenceTracker.processSequence
  rw [started]
  simp only [wraps]
  rw [if_neg (by intro zero; rw [zero] at largest; exact largest (by decide)), if_pos positive]
  simp [positive]

theorem map_missing_iff (newer : first ≤ newest) (ids : List Nat) :
    ids.map (missing first) = missingIds newest ids ↔
      (first < newest → ∀ id ∈ ids, id ≤ first + 1) ∧
        ids.Pairwise fun earlier later => earlier ≤ first ∨ later ≤ first + 1 := by
  induction ids generalizing newest with
  | nil => simp [missingIds]
  | cons id rest ih =>
    have above : first ≤ max newest id := by omega
    simp only [List.map_cons, missingIds, List.cons.injEq, missing_eq_iff newer, ih above,
      List.forall_mem_cons, List.pairwise_cons]
    constructor
    · rintro ⟨head, tail, pairs⟩
      refine ⟨fun late => ⟨by omega, tail (by omega)⟩, fun later member => ?_, pairs⟩
      by_cases old : id ≤ first
      · exact .inl old
      · exact .inr (tail (by omega) later member)
    · rintro ⟨late, behind, pairs⟩
      refine ⟨by omega, fun newest_ later member => ?_, pairs⟩
      by_cases earlier : first < newest
      · exact (late earlier).2 later member
      · have := behind later member
        omega

theorem total_near (pairs : ids.Pairwise fun earlier later => earlier ≤ first ∨ later ≤ first + 1)
    (small : ∀ id ∈ ids, id < u64Size) : total (ids.map (missing first)) < u64Size := by
  induction ids with
  | nil => exact (by decide : 0 < u64Size)
  | cons id rest ih =>
    obtain ⟨behind, pairs⟩ := List.pairwise_cons.mp pairs
    obtain ⟨fits, later⟩ := List.forall_mem_cons.mp small
    have others := ih pairs later
    simp only [total, List.map_cons, List.sum_cons] at others ⊢
    by_cases far : first + 1 < id
    · have none_ : ∀ later ∈ rest, missing first later = none := fun later member =>
        missing_of_le (by have := behind later member; omega)
      have zero : total (rest.map (missing first)) = 0 := by
        rw [List.map_congr_left none_]
        simp [total]
      simp only [total] at zero
      rw [zero, missing_eq, if_pos far]
      simp only [Option.getD_some]
      omega
    · rw [missing_of_le (by omega)]
      simpa using others

theorem findsGaps_behind (positive : 0 < first) (room : first + 1 < u64Size)
    (small : ∀ id ∈ ids, id < u64Size) :
    FindsGaps (first :: ids) ↔
      ids.Pairwise fun earlier later => earlier ≤ first ∨ later ≤ first + 1 := by
  have size : 0 < u64Size := by decide
  have answers := @processAll_eq ⟨first, 0⟩ first rfl positive room size ids
  have pairs := map_missing_iff (Nat.le_refl first) ids
  simp only [Nat.lt_irrefl, false_implies, true_and] at pairs
  simp only [FindsGaps, processAll_new, List.cons.injEq, true_and]
  rw [answers.1, pairs]
  constructor
  · exact And.left
  · intro near
    refine ⟨near, ?_⟩
    -- one gap is counted at most, so that the counter has room for it
    have fits := total_near near small
    unfold SequenceTracker.getGapCount
    rw [answers.2, Nat.zero_add, castU64_of_fits fits, pairs.mpr near]
    have counted := total_missingIds first ids
    simp only [List.length_cons]
    omega

theorem findsGaps_largest (largest : ¬ first + 1 < u64Size) (small : first < u64Size)
    (words : ∀ id ∈ ids, 0 < id ∧ id < u64Size) : FindsGaps (first :: ids) ↔ ids = [] := by
  simp only [FindsGaps, processAll_new, List.cons.injEq, true_and]
  cases ids with
  | nil => simp [SequenceTracker.processAll, missingIds, newerIds, SequenceTracker.getGapCount]
  | cons id rest =>
    obtain ⟨⟨positive, small_⟩, -⟩ := List.forall_mem_cons.mp words
    have taken := @processSequence_largest ⟨first, 0⟩ first id largest small rfl positive
    have alone : missing first id = none := missing_of_le (by omega)
    refine iff_of_false ?_ (List.cons_ne_nil id rest)
    rintro ⟨same, -⟩
    simp only [SequenceTracker.processAll, missingIds, List.cons.injEq, taken, alone] at same
    exact absurd same.1 (Option.some_ne_none id)

/-- The gaps of positive ids are found exactly if no id more than one above the first follows a
newer one. -/
theorem findsGaps_iff (ids : List Nat) (words : ∀ id ∈ ids, 0 < id ∧ id < u64Size) :
    FindsGaps ids ↔ StaysNear ids := by
  cases ids with
  | nil => exact Iff.rfl
  | cons first rest =>
    obtain ⟨⟨positive, small⟩, others⟩ := List.forall_mem_cons.mp words
    by_cases room : first + 1 < u64Size
    · rw [findsGaps_behind positive room fun id member => (others id member).2]
      exact (and_iff_right (.inr room)).symm
    · rw [findsGaps_largest room small others]
      unfold StaysNear
      constructor
      · rintro rfl
        exact ⟨.inl rfl, .nil⟩
      · rintro ⟨empty | below, -⟩
        · exact empty
        · exact absurd below room

/-- One gap behind the first id, and older ids behind it, are found. -/
theorem findsGaps_once : FindsGaps [3, 7, 2, 4, 3] :=
  (findsGaps_iff [3, 7, 2, 4, 3] (by decide)).mpr (by
    refine ⟨.inr (by decide), ?_⟩
    decide)

/-- Of four ids that follow one another closely, with a gap before the last, a gap is found at the
third one too, and three ids are counted too many. -/
theorem misses_previous :
    (SequenceTracker.new.processAll [1, 2, 3, 10]).1 = [none, none, some 1, some 8] ∧
      (SequenceTracker.new.processAll [1, 2, 3, 10]).2.getGapCount = 9 ∧
      missingIds 1 [2, 3, 10] = [none, none, some 6] ∧ ¬ FindsGaps [1, 2, 3, 10] := by
  have answers : missingIds 1 [2, 3, 10] = [none, none, some 6] := by decide
  refine ⟨by decide, by decide, answers, ?_⟩
  intro finds
  have same := finds.1
  rw [answers] at same
  exact absurd same (by decide)

end Tracker

end TradingBot.Oms
