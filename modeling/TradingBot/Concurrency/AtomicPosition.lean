import Mathlib.Tactic.Ring
import TradingBot.Foundation.Run
import TradingBot.Concurrency.AtomicCounters

/-!
# The position of one symbol

`AtomicPosition` of `atomic_counters.rs`, called by one thread. Its average entry price is computed
from products of two scaled numbers, which leave the machine's integers for a single unit at a price
of ten; and what tells whether it is open follows the size only from one side.
-/

open MachineInt Run

namespace TradingBot.Concurrency

/-- The floats of a position: the product in `to_scaled` without its fraction, which is rounded
before, and `from_scaled`. -/
structure Scaling (φ : Type) where
  product : φ → Int
  fromScaled : Int → φ

/-- The numbers without rounding. -/
def Scaling.exact : Scaling ℚ := ⟨exactScaled, fun value => value / scaleFactor⟩

/-- `AtomicPosition`. -/
structure AtomicPosition where
  size : Int
  avgEntryPrice : Int
  totalBought : Nat
  totalSold : Nat
  openTimestampNs : Nat
  lastUpdateNs : Nat
  isOpen : Bool

variable {φ : Type} (scaling : Scaling φ)

def Scaling.toScaled (value : φ) : Int := saturate (scaling.product value)

namespace AtomicPosition

def getAvgEntryPrice (position : AtomicPosition) : φ := scaling.fromScaled position.avgEntryPrice

/-- `new`, at a reading of the clock. -/
def new (nowNs : Nat) : AtomicPosition where
  size := 0
  avgEntryPrice := 0
  totalBought := 0
  totalSold := 0
  openTimestampNs := 0
  lastUpdateNs := nowNs
  isOpen := false

/-- `fetch_add` of a signed number that is converted to an unsigned one. -/
def fetchAdd (total : Nat) (scaledQty : Int) : Nat :=
  castU64 (total + (scaledQty % u64Size).toNat)

/-- The average entry price that `add_to_position` computes for a new size. -/
def newAvg (position : AtomicPosition) (scaledQty scaledPrice newSize : Int) : Option Int :=
  if newSize ≠ 0 then do
    let held ← i64 (position.size * position.avgEntryPrice)
    let added ← i64 (scaledQty * scaledPrice)
    let cost ← i64 (held + added)
    i64 (cost.tdiv newSize)
  else some 0

/-- `add_to_position`, with the readings of the clock where the position opens and at the end. A sum
or a product that leaves the machine's integers is none. -/
def addToPosition (position : AtomicPosition) (quantity price : φ) (openNs nowNs : Nat) :
    Option AtomicPosition := do
  let scaledQty := scaling.toScaled quantity
  let scaledPrice := scaling.toScaled price
  let newSize ← i64 (position.size + scaledQty)
  let avgEntryPrice ← position.newAvg scaledQty scaledPrice newSize
  return {
    size := newSize
    avgEntryPrice
    totalBought := fetchAdd position.totalBought scaledQty
    totalSold := position.totalSold
    openTimestampNs := if position.isOpen then position.openTimestampNs else openNs
    lastUpdateNs := nowNs
    isOpen := true }

/-- `reduce_position`, with the reading of the clock at the end. -/
def reducePosition (position : AtomicPosition) (quantity : φ) (nowNs : Nat) :
    Option AtomicPosition := do
  let scaledQty := scaling.toScaled quantity
  let newSize ← i64 (position.size - scaledQty)
  return { position with
    size := newSize
    avgEntryPrice := if newSize = 0 then 0 else position.avgEntryPrice
    totalSold := fetchAdd position.totalSold scaledQty
    lastUpdateNs := nowNs
    isOpen := if newSize = 0 then false else position.isOpen }

end AtomicPosition

/-- A call on a position. -/
inductive PositionCall (φ : Type) where
  /-- `add_to_position`. -/
  | add (quantity price : φ) (openNs nowNs : Nat)
  /-- `reduce_position`. -/
  | reduce (quantity : φ) (nowNs : Nat)

namespace PositionCall

/-- The position after a call. -/
def step (position : AtomicPosition) : PositionCall φ → Option AtomicPosition
  | .add quantity price openNs nowNs => position.addToPosition scaling quantity price openNs nowNs
  | .reduce quantity nowNs => position.reducePosition scaling quantity nowNs

/-- A scaled number that fits the type. -/
def FitsScaled (value : φ) : Prop :=
  i64Min ≤ scaling.product value ∧ scaling.product value ≤ i64Max

instance (value : φ) : Decidable (FitsScaled scaling value) :=
  inferInstanceAs (Decidable (_ ∧ _))

/-- What a call adds to the exact size. -/
def change : PositionCall φ → Int
  | .add quantity _ _ _ => scaling.product quantity
  | .reduce quantity _ => -scaling.product quantity

/-- The scaled numbers of a call fit the type. -/
def Admitted : PositionCall φ → Prop
  | .add quantity price _ _ => FitsScaled scaling quantity ∧ FitsScaled scaling price
  | .reduce quantity _ => FitsScaled scaling quantity

instance : DecidablePred (Admitted scaling)
  | .add quantity price _ _ =>
    inferInstanceAs (Decidable (FitsScaled scaling quantity ∧ FitsScaled scaling price))
  | .reduce quantity _ => inferInstanceAs (Decidable (FitsScaled scaling quantity))

/-- From a size on, all scaled numbers and all exact sizes fit the type. -/
def Fits : Int → List (PositionCall φ) → Prop
  | _, [] => True
  | size, call :: rest =>
    call.Admitted scaling ∧
      (i64Min ≤ size + call.change scaling ∧ size + call.change scaling ≤ i64Max) ∧
      Fits (size + call.change scaling) rest

instance decidableFits : ∀ size calls, Decidable (Fits scaling size calls)
  | _, [] => .isTrue trivial
  | size, call :: rest =>
    haveI := decidableFits (size + call.change scaling) rest
    inferInstanceAs (Decidable (_ ∧ _ ∧ _))

/-- A call that is correct: an addition to a flat or long position has the average of the lots, and
a position is open exactly if it is not flat. -/
structure Correct (position : AtomicPosition) (call : PositionCall φ) (next : AtomicPosition) :
    Prop where
  average : ∀ quantity price openNs nowNs, call = .add quantity price openNs nowNs →
    0 ≤ position.size → position.size + scaling.product quantity ≠ 0 →
      next.getAvgEntryPrice scaling = scaling.fromScaled
        ((position.size * position.avgEntryPrice +
          scaling.product quantity * scaling.product price).tdiv
            (position.size + scaling.product quantity))
  isOpen : next.isOpen = true ↔ next.size ≠ 0

/-- The sums and products of an addition fit the type, and it leaves some size; a reduction of a
flat position leaves it flat. -/
def Safe (position : AtomicPosition) : PositionCall φ → Prop
  | .add quantity price _ _ =>
    let held := position.size * position.avgEntryPrice
    let added := scaling.product quantity * scaling.product price
    let size := position.size + scaling.product quantity
    (i64Min ≤ held ∧ held ≤ i64Max) ∧ (i64Min ≤ added ∧ added ≤ i64Max) ∧
      (i64Min ≤ held + added ∧ held + added ≤ i64Max) ∧
      size ≠ 0 ∧ ¬(held + added = i64Min ∧ size = -1)
  | .reduce quantity _ => position.size ≠ 0 ∨ scaling.product quantity = 0

instance (position : AtomicPosition) : DecidablePred (Safe scaling position)
  | .add .. => inferInstanceAs (Decidable (_ ∧ _ ∧ _ ∧ _ ∧ _))
  | .reduce .. => inferInstanceAs (Decidable (_ ∨ _))

section Calls

variable {scaling : Scaling φ} {position : AtomicPosition} {quantity price value : φ}
  {openNs nowNs : Nat}

/-- A scaled number that fits the type is converted as it is. -/
theorem toScaled_of_fits (fits : FitsScaled scaling value) :
    scaling.toScaled value = scaling.product value := by
  unfold Scaling.toScaled saturate
  rw [min_eq_right fits.2, max_eq_right fits.1]

/-- A quotient leaves the type only where the least number is divided by minus one. -/
theorem tdiv_fits_iff {cost size : Int} (fits : i64Min ≤ cost ∧ cost ≤ i64Max) (some_ : size ≠ 0) :
    (i64Min ≤ cost.tdiv size ∧ cost.tdiv size ≤ i64Max) ↔ ¬(cost = i64Min ∧ size = -1) := by
  have width : (cost.tdiv size).natAbs = cost.natAbs / size.natAbs := Int.natAbs_tdiv cost size
  unfold i64Min i64Max at *
  constructor
  · rintro quotient ⟨rfl, rfl⟩
    exact absurd quotient (by decide)
  · intro other
    by_cases smallest : cost = -9223372036854775808
    · by_cases one : size = 1
      · rw [one, Int.tdiv_one]
        exact fits
      · have wide : 2 ≤ size.natAbs := by
          have minus : size ≠ -1 := fun same => other ⟨smallest, same⟩
          omega
        have half := @Nat.div_le_div_left 2 size.natAbs cost.natAbs wide (by decide)
        omega
    · have less := Nat.div_le_self cost.natAbs size.natAbs
      omega

/-- The average for a size that is not zero is computed exactly if the sums and products fit. -/
theorem newAvg_eq_some {scaledQty scaledPrice size average : Int} (some_ : size ≠ 0) :
    position.newAvg scaledQty scaledPrice size = some average ↔
      ((i64Min ≤ position.size * position.avgEntryPrice ∧
          position.size * position.avgEntryPrice ≤ i64Max) ∧
        (i64Min ≤ scaledQty * scaledPrice ∧ scaledQty * scaledPrice ≤ i64Max) ∧
        (i64Min ≤ position.size * position.avgEntryPrice + scaledQty * scaledPrice ∧
          position.size * position.avgEntryPrice + scaledQty * scaledPrice ≤ i64Max) ∧
        ¬(position.size * position.avgEntryPrice + scaledQty * scaledPrice = i64Min ∧
          size = -1)) ∧
      (position.size * position.avgEntryPrice + scaledQty * scaledPrice).tdiv size = average := by
  unfold AtomicPosition.newAvg
  rw [if_pos some_]
  simp only [Option.bind_eq_bind, Option.bind_eq_some_iff, i64_eq_some]
  constructor
  · rintro ⟨_, ⟨held, rfl⟩, _, ⟨added, rfl⟩, _, ⟨cost, rfl⟩, quotient, same⟩
    exact ⟨⟨held, added, cost, (tdiv_fits_iff cost some_).mp quotient⟩, same⟩
  · rintro ⟨⟨held, added, cost, quotient⟩, same⟩
    exact ⟨_, ⟨held, rfl⟩, _, ⟨added, rfl⟩, _, ⟨cost, rfl⟩,
      (tdiv_fits_iff cost some_).mpr quotient, same⟩

/-- An addition is taken and correct if and only if it is safe. -/
theorem add_exact (admitted : FitsScaled scaling quantity ∧ FitsScaled scaling price)
    (sized : i64Min ≤ position.size + scaling.product quantity ∧
      position.size + scaling.product quantity ≤ i64Max) :
    (∃ next, position.addToPosition scaling quantity price openNs nowNs = some next ∧
      Correct scaling position (.add quantity price openNs nowNs) next) ↔
        Safe scaling position (.add quantity price openNs nowNs) := by
  have size : i64 (position.size + scaling.product quantity) =
      some (position.size + scaling.product quantity) := i64_eq_some.mpr ⟨sized, rfl⟩
  unfold AtomicPosition.addToPosition Safe
  simp only [toScaled_of_fits admitted.1, toScaled_of_fits admitted.2, size,
    Option.bind_eq_bind, Option.bind_some]
  constructor
  · rintro ⟨next, taken, correct⟩
    obtain ⟨average, computed, same⟩ := Option.bind_eq_some_iff.mp taken
    cases same
    have some_ := correct.isOpen.mp rfl
    obtain ⟨⟨held, added, cost, quotient⟩, _⟩ := (newAvg_eq_some some_).mp computed
    exact ⟨held, added, cost, some_, quotient⟩
  · rintro ⟨held, added, cost, some_, quotient⟩
    rw [(newAvg_eq_some some_).mpr ⟨⟨held, added, cost, quotient⟩, rfl⟩]
    refine ⟨_, rfl, ?_, iff_of_true rfl some_⟩
    intro _ _ _ _ same _ _
    cases same
    rfl

/-- A reduction is taken and correct if and only if it is safe. -/
theorem reduce_exact (open_ : position.isOpen = true ↔ position.size ≠ 0)
    (admitted : FitsScaled scaling quantity)
    (sized : i64Min ≤ position.size - scaling.product quantity ∧
      position.size - scaling.product quantity ≤ i64Max) :
    (∃ next, position.reducePosition scaling quantity nowNs = some next ∧
      Correct scaling position (.reduce quantity nowNs) next) ↔
        Safe scaling position (.reduce quantity nowNs) := by
  have size : i64 (position.size - scaling.product quantity) =
      some (position.size - scaling.product quantity) := i64_eq_some.mpr ⟨sized, rfl⟩
  unfold AtomicPosition.reducePosition Safe
  simp only [toScaled_of_fits admitted, size, Option.bind_eq_bind, Option.bind_some]
  constructor
  · rintro ⟨next, taken, correct⟩
    cases taken
    by_cases flat : position.size - scaling.product quantity = 0
    · omega
    · have opens := correct.isOpen.mpr flat
      simp only [if_neg flat] at opens
      exact .inl (open_.mp opens)
  · intro safe
    refine ⟨_, rfl, fun _ _ _ _ same => (by cases same), ?_⟩
    by_cases flat : position.size - scaling.product quantity = 0
    · simp only [if_pos flat]
      exact iff_of_false Bool.false_ne_true (not_not_intro flat)
    · simp only [if_neg flat]
      refine open_.trans (iff_of_true ?_ flat)
      omega

/-- A call changes the size by what it adds to the exact one. -/
theorem size_step {call : PositionCall φ} {next : AtomicPosition}
    (admitted : call.Admitted scaling) (taken : step scaling position call = some next) :
    next.size = position.size + call.change scaling := by
  cases call with
  | add quantity price openNs nowNs =>
    obtain ⟨size, fits, taken⟩ := Option.bind_eq_some_iff.mp taken
    obtain ⟨_, _, same⟩ := Option.bind_eq_some_iff.mp taken
    cases same
    rw [toScaled_of_fits admitted.1] at fits
    exact (i64_eq_some.mp fits).2.symm
  | reduce quantity nowNs =>
    obtain ⟨size, fits, same⟩ := Option.bind_eq_some_iff.mp taken
    cases same
    rw [toScaled_of_fits admitted] at fits
    exact (i64_eq_some.mp fits).2.symm

end Calls

/-- Whatever the floats round to, in every run of a new position whose scaled numbers and exact
sizes fit the type, every call is taken without overflow and is correct if and only if every call
is safe. -/
theorem performs_correct_iff (scaling : Scaling φ) (createdNs : Nat) (calls : List (PositionCall φ))
    (fits : Fits scaling 0 calls) :
    Performs (step scaling) (Correct scaling) (.new createdNs) calls ↔
      Offered (step scaling) (Safe scaling) (.new createdNs) calls := by
  refine @performs_iff _ _ (step scaling)
    (fun position calls => Fits scaling position.size calls ∧
      (position.isOpen = true ↔ position.size ≠ 0))
    (Correct scaling) (Safe scaling) ?_ ?_ _ _
    ⟨fits, iff_of_false Bool.false_ne_true (not_not_intro rfl)⟩
  · rintro position call rest ⟨⟨admitted, sized, _⟩, open_⟩
    cases call with
    | add quantity price openNs nowNs => exact add_exact admitted sized
    | reduce quantity nowNs =>
      have subtracts : i64Min ≤ position.size - scaling.product quantity ∧
          position.size - scaling.product quantity ≤ i64Max := by
        rw [sub_eq_add_neg]
        exact sized
      exact reduce_exact open_ admitted subtracts
  · rintro position call rest next ⟨⟨admitted, _, later⟩, _⟩ taken correct
    rw [← size_step admitted taken] at later
    exact ⟨later, correct.isOpen⟩

/-- Two lots of a thousandth are bought and sold. -/
theorem performs_correct_iff_small :
    Fits .exact 0 [.add (1 / 1000) 2 1 1, .add (1 / 1000) 3 2 2, .reduce (1 / 500) 3] ∧
      Performs (step .exact) (Correct .exact) (.new 0)
        [.add (1 / 1000) 2 1 1, .add (1 / 1000) 3 2 2, .reduce (1 / 500) 3] :=
  ⟨by decide +kernel, (performs_correct_iff .exact 0 _ (by decide +kernel)).mpr (by decide +kernel)⟩

/-- One unit bought at a price of 50000 overflows. -/
theorem one_unit_overflows :
    ¬∀ (createdNs : Nat) (calls : List (PositionCall ℚ)), Fits .exact 0 calls →
      Performs (step .exact) (Correct .exact) (.new createdNs) calls := by
  intro claim
  have overflows : step .exact (.new 0) (.add 1 50000 1 1) = none := by decide +kernel
  obtain ⟨next, taken, _⟩ := claim 0 [.add 1 50000 1 1] (by decide +kernel)
  exact absurd taken (by rw [overflows]; nofun)

end PositionCall

end TradingBot.Concurrency
