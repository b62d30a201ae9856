import TradingBot.Oms.StepPaths

/-!
# The arithmetic of steps

The updates of a step-trailing stop divide by the size of a step in ticks, which is rounded to
nothing where a step is less than half a tick. The other operations stay inside the type, as every
count is bounded by the price move it came from, but for the sum of the entry and the initial
distance of a short stop.
-/

open MachineInt Run

namespace TradingBot.Oms.StepTrailing

/-- A step has ticks; and a short stop that adds the initial distance to the entry, when it can take
a step at all, does not leave the type with it. -/
def ArithmeticFits (setup : StepTrailingSetup) : Prop :=
  0 < setup.stepThresholdFp ∧
    (setup.isLong = true ∨
      (setup.config.breakEvenAfterFirstStep = true ∧ 0 < setup.config.maxSteps.toNat) ∨
      setup.entryFp < setup.stepThresholdFp ∨
      setup.entryFp + setup.initialDistanceFp < u64Size)

instance (setup : StepTrailingSetup) : Decidable (ArithmeticFits setup) :=
  inferInstanceAs (Decidable (_ ∧ _))

section Progress

variable {setup : StepTrailingSetup} {best : Nat} {stop : StepTrailingStop}

theorem fits_stepsOf (safe : ArithmeticFits setup)
    (inside : if setup.isLong then setup.entryFp + best < u64Size else best ≤ setup.entryFp)
    (reached : 0 < best / setup.stepThresholdFp) : setup.Fits (setup.stepsOf best) := by
  have all : best / setup.stepThresholdFp * setup.stepThresholdFp ≤ best :=
    Nat.div_mul_le_self _ _
  have one : setup.stepThresholdFp ≤ best / setup.stepThresholdFp * setup.stepThresholdFp :=
    Nat.le_mul_of_pos_left _ reached
  have capped : setup.stepsOf best * setup.stepThresholdFp ≤
      best / setup.stepThresholdFp * setup.stepThresholdFp :=
    Nat.mul_le_mul_right _ (Nat.min_le_right _ _)
  have further : (setup.stepsOf best - 1) * setup.stepThresholdFp ≤
      setup.stepsOf best * setup.stepThresholdFp := Nat.mul_le_mul_right _ (Nat.sub_le _ _)
  have entry : setup.entryFp < u64Size := ticks_lt _ _
  have none : setup.stepsOf best = 0 → setup.config.maxSteps.toNat = 0 := by
    intro none
    unfold StepTrailingSetup.stepsOf at none
    omega
  have sum := safe.2
  unfold StepTrailingSetup.Fits
  cases long : setup.isLong
  · simp only [long, Bool.false_eq_true, if_false, false_or] at inside sum ⊢
    split
    · next zero =>
      have unlimited := none zero
      omega
    · split
      · omega
      · next settled =>
        simp only [settled, Bool.false_eq_true, false_and, false_or] at sum
        omega
  · simp only [long, if_true] at inside ⊢
    split
    · trivial
    · split <;> omega

theorem progress_step (safe : ArithmeticFits setup) (trails : Trails setup best stop)
    (price : PositivePrice) : ∃ next, stop.step price = some next := by
  have inside := inside_bestMove trails.inside price
  have count := trails.count_eq price
  have check := trails.check
  have steps := trails.steps
  have all := Nat.div_mul_le_self (setup.bestMove best price) setup.stepThresholdFp
  have entry : setup.entryFp < u64Size := ticks_lt _ _
  cases trails.same
  show ∃ next, (stop.update price).map Prod.snd = some next
  rw [StepTrailingStop.update_eq trails.live safe.1]
  simp only
  split
  · next more =>
    have reached : 0 < stop.bestMove best price / stop.stepThresholdFp :=
      count ▸ Nat.add_pos_right _ more
    have fits := fits_stepsOf safe inside reached
    have capped : min (stop.stepsAccumulated +
        stop.priceMoveFp (ticks price stop.config.minTickSize) / stop.stepThresholdFp)
          stop.config.maxSteps.toNat = stop.stepsOf (stop.bestMove best price) := by
      unfold StepTrailingSetup.stepsOf at steps ⊢
      omega
    have computes := computes_iff.mpr ⟨fits, rfl⟩
    have whole := congrArg (· * stop.stepThresholdFp) count
    simp only [Nat.add_mul] at whole
    have few : stop.bestMove best price / stop.stepThresholdFp ≤
        stop.bestMove best price / stop.stepThresholdFp * stop.stepThresholdFp :=
      Nat.le_mul_of_pos_right _ safe.1
    have bounded : stop.bestMove best price < u64Size := by
      split at inside <;> omega
    have countable : stop.Countable
        (stop.priceMoveFp (ticks price stop.config.minTickSize) / stop.stepThresholdFp) := by
      refine ⟨by omega, fun long => ?_, ?_⟩
      · rw [long] at inside check
        simp only [if_true] at inside check
        omega
      · unfold StepTrailingSetup.stepsOf at steps
        omega
    exact ⟨_, StepTrailingStop.takeSteps_iff.mpr ⟨countable, _, capped ▸ computes, rfl⟩⟩
  · exact ⟨_, rfl⟩

end Progress

section Conversely

variable {setup : StepTrailingSetup}

theorem ticks_quarter {tick : ℚ} (positive : 0 < tick) : ticks (tick / 4) tick = 0 := by
  have quarter : tick / 4 / tick = 1 / 4 := by
    field_simp
  unfold ticks
  rw [if_neg positive.ne', quarter]
  decide +kernel

theorem fits_of_quarter (tick : 0 < setup.config.minTickSize) (steps : 0 < setup.stepThresholdFp)
    {next : StepTrailingStop}
    (taken : ((StepTrailingStop.new setup).update (setup.config.minTickSize / 4)).map Prod.snd =
      some next) : ArithmeticFits setup := by
  refine ⟨steps, ?_⟩
  cases long : setup.isLong with
  | true => exact .inl rfl
  | false =>
    refine .inr ?_
    by_contra other
    simp only [not_or, not_and, not_lt] at other
    obtain ⟨unsettled, reached, wide⟩ := other
    have move : (StepTrailingStop.new setup).priceMoveFp
        (ticks (setup.config.minTickSize / 4) setup.config.minTickSize) = setup.entryFp := by
      unfold StepTrailingStop.priceMoveFp
      rw [ticks_quarter tick]
      show (if setup.isLong = true then _ else setup.entryFp - 0) = _
      rw [long]
      rfl
    have more : 0 < setup.entryFp / setup.stepThresholdFp := Nat.div_pos reached steps
    rw [StepTrailingStop.update_eq rfl steps] at taken
    simp only at taken
    rw [show (StepTrailingStop.new setup).config = setup.config from rfl, move,
      show (StepTrailingStop.new setup).stepThresholdFp = setup.stepThresholdFp from rfl,
      if_pos more] at taken
    obtain ⟨_, computed, computes, _⟩ := StepTrailingStop.takeSteps_iff.mp taken
    have fits := (computes_iff.mp computes).1
    unfold StepTrailingSetup.Fits at fits
    change (if setup.isLong = true then _ else
      if min (0 + setup.entryFp / setup.stepThresholdFp) setup.config.maxSteps.toNat = 0 then
        setup.entryFp + setup.initialDistanceFp < u64Size
      else if setup.config.breakEvenAfterFirstStep = true then _
      else setup.entryFp + setup.initialDistanceFp < u64Size ∧ _) at fits
    rw [long, if_neg Bool.false_ne_true] at fits
    split at fits
    · omega
    · next some_ =>
      split at fits
      · next settled =>
        have capped := unsettled settled
        omega
      · omega

end Conversely

/-- No sequence of updates divides by zero or overflows if and only if a step has ticks, and a
short stop that adds the initial distance to the entry, when it can take a step at all, does not
leave the type with it. -/
theorem updates_safe_iff (setup : StepTrailingSetup) (tick : 0 < setup.config.minTickSize) :
    (∀ prices, (exec StepTrailingStop.step (.new setup) prices).isSome = true) ↔
      ArithmeticFits setup := by
  constructor
  · intro safe
    have first := safe [⟨setup.config.minTickSize / 4, by positivity⟩]
    obtain ⟨final, ran⟩ := Option.isSome_iff_exists.mp first
    obtain ⟨next, taken, _⟩ := exec_cons.mp ran
    cases Nat.eq_zero_or_pos setup.stepThresholdFp with
    | inl none =>
      unfold StepTrailingStop.step at taken
      rw [StepTrailingStop.update_none rfl none] at taken
      cases taken
    | inr steps => exact fits_of_quarter tick steps taken
  · intro fits prices
    have progress : ∀ stop price, (∃ best, Trails setup best stop) →
        ∃ next, StepTrailingStop.step stop price = some next ∧ ∃ best, Trails setup best next := by
      intro stop price ⟨best, trails⟩
      obtain ⟨next, taken⟩ := progress_step fits trails price
      exact ⟨next, taken, _, trails_step fits.1 trails taken⟩
    obtain ⟨final, ran, _⟩ := exec_total progress ⟨0, trails_new setup⟩ prices
    rw [ran]
    rfl

/-- The updates of a long position at 100 with the default configuration are safe. -/
theorem updates_safe_default :
    ArithmeticFits defaultLong ∧
      ∀ prices, (exec StepTrailingStop.step (.new defaultLong) prices).isSome = true :=
  have fits : ArithmeticFits defaultLong := by decide +kernel
  ⟨fits, (updates_safe_iff defaultLong (by decide +kernel)).mpr fits⟩

/-- With the default configuration the first update of a position at 0.2 divides by zero. -/
theorem low_price_divides_by_zero :
    ¬∀ setup : StepTrailingSetup, 0 < setup.entryPrice → 0 < setup.config.initialDistancePct →
      0 < setup.config.stepSizePct → 0 < setup.config.minTickSize → ∀ prices,
        (exec StepTrailingStop.step (.new setup) prices).isSome = true := by
  intro claim
  have safe := claim { defaultLong with entryPrice := 1 / 5 } (by decide +kernel)
    (by decide +kernel) (by decide +kernel) (by decide +kernel) [⟨1 / 5, by norm_num⟩]
  exact absurd safe (by decide +kernel)

end TradingBot.Oms.StepTrailing
