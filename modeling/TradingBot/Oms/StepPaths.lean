import TradingBot.Foundation.HighWater
import TradingBot.Foundation.Run
import TradingBot.Oms.StepTrailing

/-!
# Steps and price paths

A step-trailing stop is a ratchet on the favourable moves of the price: along every path of updates
its steps are the whole steps of the best move, up to the maximum. From the first step on the stop
is the better of the initial one and that of the steps, so that it does not matter how the price
got to its extreme. Before the first step it is the initial one, which is rounded otherwise than
that of no steps; and a short stop of nothing is not stored.
-/

open MachineInt Run

namespace TradingBot.Oms.StepTrailing

/-- A positive price. -/
abbrev PositivePrice := {price : ℚ // 0 < price}

/-- An update at a positive price as a step of a run. -/
def StepTrailingStop.step (stop : StepTrailingStop) (price : PositivePrice) :
    Option StepTrailingStop :=
  (stop.update price).map Prod.snd

namespace StepTrailingSetup

variable (setup : StepTrailingSetup)

/-- How far a price is on the favourable side of the entry, in ticks. -/
def favourableFp (price : ℚ) : Nat :=
  let currentFp := ticks price setup.config.minTickSize
  if setup.isLong then currentFp - setup.entryFp else setup.entryFp - currentFp

/-- The best favourable move after another price. -/
def bestMove (best : Nat) (price : PositivePrice) : Nat := max best (setup.favourableFp price)

/-- The best favourable move of some prices, in ticks. -/
def bestMoveFp (prices : List PositivePrice) : Nat := prices.foldl setup.bestMove 0

/-- The steps of a favourable move, up to the maximum. -/
def stepsOf (moveFp : Nat) : Nat :=
  min setup.config.maxSteps.toNat (moveFp / setup.stepThresholdFp)

/-- The better of two stops. -/
def better (first second : Nat) : Nat :=
  if setup.isLong then max first second else min first second

/-- A stop is no looser than another. -/
def NoLooser (before after : Nat) : Prop :=
  if setup.isLong then before ≤ after else after ≤ before

/-- What `calculate_stop_from_steps` returns where nothing overflows. -/
def stopAfter (steps : Nat) : Nat :=
  if setup.isLong then
    if steps = 0 then setup.entryFp - setup.initialDistanceFp
    else if setup.config.breakEvenAfterFirstStep then
      setup.entryFp + (steps - 1) * setup.stepThresholdFp
    else setup.entryFp - setup.initialDistanceFp + steps * setup.stepThresholdFp
  else if steps = 0 then setup.entryFp + setup.initialDistanceFp
  else if setup.config.breakEvenAfterFirstStep then
    setup.entryFp - (steps - 1) * setup.stepThresholdFp
  else setup.entryFp + setup.initialDistanceFp - steps * setup.stepThresholdFp

/-- Nothing overflows in `calculate_stop_from_steps`. -/
def Fits (steps : Nat) : Prop :=
  if setup.isLong then
    if steps = 0 then True
    else if setup.config.breakEvenAfterFirstStep then
      setup.entryFp + (steps - 1) * setup.stepThresholdFp < u64Size
    else setup.entryFp - setup.initialDistanceFp + steps * setup.stepThresholdFp < u64Size
  else if steps = 0 then setup.entryFp + setup.initialDistanceFp < u64Size
  else if setup.config.breakEvenAfterFirstStep then
    (steps - 1) * setup.stepThresholdFp < u64Size
  else
    setup.entryFp + setup.initialDistanceFp < u64Size ∧
      steps * setup.stepThresholdFp ≤ setup.entryFp + setup.initialDistanceFp

end StepTrailingSetup

/-- The steps are those of the best move, and the stop is the better of the initial one and that of
the steps. -/
structure FollowsBest (setup : StepTrailingSetup) (prices : List PositivePrice)
    (stop : StepTrailingStop) : Prop where
  steps : stop.stepsAccumulated = setup.stepsOf (setup.bestMoveFp prices)
  stop : ∃ computed,
    setup.calculateStopFromSteps (setup.stepsOf (setup.bestMoveFp prices)) = some computed ∧
      stop.stopPriceFp = setup.better setup.initialStopFp computed

/-! ## The stop of some steps -/

section StopOfSteps

variable {setup : StepTrailingSetup} {steps more computed : Nat}

theorem computes_iff :
    setup.calculateStopFromSteps steps = some computed ↔
      setup.Fits steps ∧ setup.stopAfter steps = computed := by
  unfold StepTrailingSetup.calculateStopFromSteps StepTrailingSetup.Fits
    StepTrailingSetup.stopAfter
  simp only [Option.bind_eq_bind]
  split_ifs
  · rw [Option.some.injEq, and_iff_right trivial]
  · simp only [Option.bind_eq_some_iff, u64_eq_some]
    constructor
    · rintro ⟨gained, ⟨_, rfl⟩, computes⟩
      exact computes
    · exact fun computes => ⟨_, ⟨by omega, rfl⟩, computes⟩
  · simp only [Option.bind_eq_some_iff, u64_eq_some]
    constructor
    · rintro ⟨gained, ⟨_, rfl⟩, computes⟩
      exact computes
    · exact fun computes => ⟨_, ⟨by omega, rfl⟩, computes⟩
  · exact u64_eq_some
  · simp only [Option.bind_eq_some_iff, u64_eq_some, Option.some.injEq]
    constructor
    · rintro ⟨gained, ⟨fits, rfl⟩, computes⟩
      exact ⟨fits, computes⟩
    · exact fun computes => ⟨_, ⟨computes.1, rfl⟩, computes.2⟩
  · simp only [Option.bind_eq_some_iff, u64_eq_some, uSub_eq_some]
    constructor
    · rintro ⟨initial, ⟨fits, rfl⟩, gained, ⟨_, rfl⟩, inside, computes⟩
      exact ⟨⟨fits, inside⟩, computes⟩
    · exact fun computes =>
        ⟨_, ⟨computes.1.1, rfl⟩, _, ⟨by omega, rfl⟩, computes.1.2, computes.2⟩

theorem noLooser_stopAfter (ordered : steps ≤ more) :
    setup.NoLooser (setup.stopAfter steps) (setup.stopAfter more) := by
  have all : steps * setup.stepThresholdFp ≤ more * setup.stepThresholdFp :=
    Nat.mul_le_mul_right _ ordered
  have further : (steps - 1) * setup.stepThresholdFp ≤ (more - 1) * setup.stepThresholdFp :=
    Nat.mul_le_mul_right _ (Nat.sub_le_sub_right ordered 1)
  unfold StepTrailingSetup.NoLooser StepTrailingSetup.stopAfter
  by_cases none : more = 0
  · have also : steps = 0 := by omega
    rw [none, also]
    split <;> exact Nat.le_refl _
  · rw [if_neg none, if_neg none]
    split
    · split <;> split <;> omega
    · split <;> split <;> omega

end StopOfSteps

/-! ## Updates -/

namespace StepTrailingStop

/-- A stop with some new steps counted, at a computed stop if that is better. -/
def counted (stop : StepTrailingStop) (newSteps computed : Nat) : StepTrailingStop :=
  let moved := newSteps * stop.stepThresholdFp
  let cappedSteps := min (stop.stepsAccumulated + newSteps) stop.config.maxSteps.toNat
  { stop with
    lastCheckPriceFp :=
      if stop.isLong then stop.lastCheckPriceFp + moved else stop.lastCheckPriceFp - moved
    stepsAccumulated := cappedSteps
    stopPriceFp := if stop.shouldUpdate computed then computed else stop.stopPriceFp
    state :=
      if stop.shouldUpdate computed then .trailing (UInt32.ofNat cappedSteps) else stop.state }

/-- Counting some new steps does not overflow. -/
def Countable (stop : StepTrailingStop) (newSteps : Nat) : Prop :=
  newSteps * stop.stepThresholdFp < u64Size ∧
    (stop.isLong = true → stop.lastCheckPriceFp + newSteps * stop.stepThresholdFp < u64Size) ∧
      stop.stepsAccumulated + newSteps < u64Size

variable {stop next : StepTrailingStop} {newSteps : Nat} {price : PositivePrice}

theorem nextCheckFp_iff {moved checked : Nat} :
    stop.nextCheckFp moved = some checked ↔
      (stop.isLong = true → stop.lastCheckPriceFp + moved < u64Size) ∧
        (if stop.isLong then stop.lastCheckPriceFp + moved else stop.lastCheckPriceFp - moved) =
          checked := by
  unfold nextCheckFp
  cases stop.isLong
  · simp
  · simp [u64_eq_some]

/-- Taking steps counts them and moves the stop. -/
theorem takeSteps_iff :
    (stop.takeSteps newSteps).map Prod.snd = some next ↔
      stop.Countable newSteps ∧ ∃ computed,
        stop.calculateStopFromSteps
            (min (stop.stepsAccumulated + newSteps) stop.config.maxSteps.toNat) =
          some computed ∧ stop.counted newSteps computed = next := by
  unfold takeSteps Countable counted
  simp only [Option.bind_eq_bind, Option.map_eq_some_iff, Option.bind_eq_some_iff, u64_eq_some,
    nextCheckFp_iff]
  constructor
  · rintro ⟨answer, ⟨_, ⟨fits, rfl⟩, _, ⟨inside, rfl⟩, _, ⟨counts, rfl⟩, computed, computes, ends⟩,
      rfl⟩
    refine ⟨⟨fits, inside, counts⟩, computed, computes, ?_⟩
    split at ends <;> cases ends <;> simp only [*, if_true, if_false, Bool.false_eq_true]
  · rintro ⟨⟨fits, inside, counts⟩, computed, computes, rfl⟩
    cases moves : stop.shouldUpdate computed
    · exact ⟨_, ⟨_, ⟨fits, rfl⟩, _, ⟨inside, rfl⟩, _, ⟨counts, rfl⟩, computed, computes,
        if_neg (by simp [moves])⟩, by simp⟩
    · exact ⟨_, ⟨_, ⟨fits, rfl⟩, _, ⟨inside, rfl⟩, _, ⟨counts, rfl⟩, computed, computes,
        if_pos moves⟩, by simp⟩

/-- A stop that has seen a price. -/
def seen (stop : StepTrailingStop) (price : ℚ) : StepTrailingStop :=
  { stop with
    extremePriceFp := stop.nextExtreme (ticks price stop.config.minTickSize) }

/-- What a price does to a live stop. -/
theorem update_eq (live : stop.state.isOver = false) (positive : 0 < stop.stepThresholdFp)
    (price : ℚ) :
    (stop.update price).map Prod.snd =
      let newSteps :=
        stop.priceMoveFp (ticks price stop.config.minTickSize) / stop.stepThresholdFp
      if 0 < newSteps then ((stop.seen price).takeSteps newSteps).map Prod.snd
      else some (stop.seen price) := by
  unfold update
  rw [live, if_neg Bool.false_ne_true]
  simp only [if_neg (Nat.ne_of_gt positive)]
  split
  · split
    · rfl
    · rfl
  · next short =>
    rw [Nat.div_eq_of_lt (Nat.lt_of_not_le short)]
    rfl

theorem update_none (live : stop.state.isOver = false) (none : stop.stepThresholdFp = 0)
    (price : ℚ) : stop.update price = Option.none := by
  unfold update
  rw [live, if_neg Bool.false_ne_true]
  simp only [none, Nat.zero_le, if_true]

end StepTrailingStop

/-! ## Along a path -/

theorem ticks_lt (price tick : ℚ) : ticks price tick < u64Size := by
  unfold ticks
  split
  · split <;> decide
  · exact lt_of_le_of_lt (Nat.min_le_left _ _) (by decide)

/-- A stop has counted the whole steps of the best move, and from the first step on it is the
better of the initial one and that of the steps, unless that is a short one of nothing. -/
structure Trails (setup : StepTrailingSetup) (best : Nat) (stop : StepTrailingStop) : Prop where
  same : stop.toStepTrailingSetup = setup
  live : stop.state.isOver = false
  check : stop.lastCheckPriceFp =
    if setup.isLong then setup.entryFp + best / setup.stepThresholdFp * setup.stepThresholdFp
    else setup.entryFp - best / setup.stepThresholdFp * setup.stepThresholdFp
  inside : if setup.isLong then setup.entryFp + best < u64Size else best ≤ setup.entryFp
  steps : stop.stepsAccumulated = setup.stepsOf best
  waiting : best / setup.stepThresholdFp = 0 → stop.stopPriceFp = setup.initialStopFp
  stepped : 0 < best / setup.stepThresholdFp → ∃ computed,
    setup.calculateStopFromSteps (setup.stepsOf best) = some computed ∧
      (setup.isLong = true ∨ 0 < computed →
        stop.stopPriceFp = setup.better setup.initialStopFp computed)

section Paths

variable {setup : StepTrailingSetup} {best : Nat} {stop next : StepTrailingStop}
  {price : PositivePrice}

theorem trails_new (setup : StepTrailingSetup) : Trails setup 0 (.new setup) where
  same := rfl
  live := rfl
  check := by
    rw [Nat.zero_div, Nat.zero_mul]
    split <;> rfl
  inside := by
    split
    · exact ticks_lt _ _
    · exact Nat.zero_le _
  steps := by
    unfold StepTrailingSetup.stepsOf
    rw [Nat.zero_div, Nat.min_zero]
    rfl
  waiting := fun _ => rfl
  stepped := fun some_ => by
    rw [Nat.zero_div] at some_
    exact absurd some_ (Nat.lt_irrefl 0)

theorem Trails.priceMove_eq (trails : Trails setup best stop) (price : ℚ) :
    stop.priceMoveFp (ticks price stop.config.minTickSize) =
      setup.favourableFp price - best / setup.stepThresholdFp * setup.stepThresholdFp := by
  have check := trails.check
  cases trails.same
  unfold StepTrailingStop.priceMoveFp StepTrailingSetup.favourableFp
  rw [check]
  cases stop.isLong
  · simp only [Bool.false_eq_true, if_false]
    omega
  · simp only [if_true]
    omega

theorem Trails.count_eq (trails : Trails setup best stop) (price : PositivePrice) :
    best / setup.stepThresholdFp +
        stop.priceMoveFp (ticks price stop.config.minTickSize) / setup.stepThresholdFp =
      setup.bestMove best price / setup.stepThresholdFp := by
  rw [trails.priceMove_eq]
  exact Ratchet.advance_best setup.stepThresholdFp best (setup.favourableFp price)

theorem inside_bestMove
    (inside : if setup.isLong then setup.entryFp + best < u64Size else best ≤ setup.entryFp)
    (price : PositivePrice) :
    if setup.isLong then setup.entryFp + setup.bestMove best price < u64Size
    else setup.bestMove best price ≤ setup.entryFp := by
  have fits := ticks_lt price setup.config.minTickSize
  have entry : setup.entryFp < u64Size := ticks_lt _ _
  unfold StepTrailingSetup.bestMove StepTrailingSetup.favourableFp
  cases long : setup.isLong
  · simp only [long, Bool.false_eq_true, if_false] at inside ⊢
    omega
  · simp only [long, if_true] at inside ⊢
    omega

/-- A stop that is the initial one, or the better of it and a stop that is no better than the
computed one, becomes the better of the initial and the computed one. -/
theorem settled {computed : Nat} (same : stop.toStepTrailingSetup = setup)
    (before : stop.stopPriceFp = setup.initialStopFp ∨ ∃ earlier,
      setup.NoLooser earlier computed ∧
        (setup.isLong = true ∨ 0 < earlier →
          stop.stopPriceFp = setup.better setup.initialStopFp earlier))
    (valid : setup.isLong = true ∨ 0 < computed) :
    (if stop.shouldUpdate computed then computed else stop.stopPriceFp) =
      setup.better setup.initialStopFp computed := by
  cases same
  unfold StepTrailingStop.shouldUpdate
  unfold StepTrailingSetup.NoLooser StepTrailingSetup.better at *
  cases long : stop.isLong
  · simp only [long, Bool.false_eq_true, if_false, false_or] at before valid ⊢
    simp only [decide_eq_true_eq]
    rcases before with initial | ⟨earlier, ordered, stood⟩
    · split <;> omega
    · have stood := stood (by omega)
      split <;> omega
  · simp only [long, if_true, true_or, forall_const] at before ⊢
    simp only [decide_eq_true_eq]
    rcases before with initial | ⟨earlier, ordered, stood⟩
    · split <;> omega
    · split <;> omega

theorem Trails.capped_eq (trails : Trails setup best stop) (price : PositivePrice) :
    min (stop.stepsAccumulated +
        stop.priceMoveFp (ticks price stop.config.minTickSize) / setup.stepThresholdFp)
      setup.config.maxSteps.toNat = setup.stepsOf (setup.bestMove best price) := by
  rw [trails.steps]
  unfold StepTrailingSetup.stepsOf
  rw [← trails.count_eq price]
  generalize best / setup.stepThresholdFp = before
  generalize stop.priceMoveFp _ / setup.stepThresholdFp = more
  omega

/-- The price up to which steps are counted goes on to the steps of the better best move. -/
theorem Trails.check_eq (trails : Trails setup best stop) (price : PositivePrice) :
    (if setup.isLong then stop.lastCheckPriceFp +
        stop.priceMoveFp (ticks price stop.config.minTickSize) / setup.stepThresholdFp *
          setup.stepThresholdFp
      else stop.lastCheckPriceFp -
        stop.priceMoveFp (ticks price stop.config.minTickSize) / setup.stepThresholdFp *
          setup.stepThresholdFp) =
      if setup.isLong then setup.entryFp +
        setup.bestMove best price / setup.stepThresholdFp * setup.stepThresholdFp
      else setup.entryFp -
        setup.bestMove best price / setup.stepThresholdFp * setup.stepThresholdFp := by
  have check := trails.check
  have whole := congrArg (· * setup.stepThresholdFp) (trails.count_eq price)
  simp only [Nat.add_mul] at whole
  rw [check]
  cases setup.isLong
  · simp only [Bool.false_eq_true, if_false]
    omega
  · simp only [if_true]
    omega

theorem Trails.stop_counted (trails : Trails setup best stop) {computed : Nat}
    (computes : setup.calculateStopFromSteps (setup.stepsOf (setup.bestMove best price)) =
      some computed)
    (valid : setup.isLong = true ∨ 0 < computed) :
    (if stop.shouldUpdate computed then computed else stop.stopPriceFp) =
      setup.better setup.initialStopFp computed := by
  refine settled trails.same ?_ valid
  cases Nat.eq_zero_or_pos (best / setup.stepThresholdFp) with
  | inl none => exact .inl (trails.waiting none)
  | inr some_ =>
    obtain ⟨earlier, earlier_, stood⟩ := trails.stepped some_
    have fewer : setup.stepsOf best ≤ setup.stepsOf (setup.bestMove best price) := by
      unfold StepTrailingSetup.stepsOf
      rw [← trails.count_eq price]
      exact min_le_min_left _ (Nat.le_add_right _ _)
    refine .inr ⟨earlier, ?_, stood⟩
    rw [← (computes_iff.mp earlier_).2, ← (computes_iff.mp computes).2]
    exact noLooser_stopAfter fewer

theorem trails_counted (trails : Trails setup best stop) {computed : Nat}
    (more : 0 < stop.priceMoveFp (ticks price stop.config.minTickSize) / setup.stepThresholdFp)
    (computes : setup.calculateStopFromSteps (setup.stepsOf (setup.bestMove best price)) =
      some computed) :
    Trails setup (setup.bestMove best price) ((stop.seen price).counted
      (stop.priceMoveFp (ticks price stop.config.minTickSize) / setup.stepThresholdFp)
      computed) := by
  have inside := inside_bestMove trails.inside price
  have count := trails.count_eq price
  have capped := trails.capped_eq price
  have check := trails.check_eq price
  have stood := @Trails.stop_counted _ _ _ price trails computed computes
  have live := trails.live
  cases trails.same
  refine ⟨rfl, ?_, check, inside, capped, fun none => ?_, fun _ => ⟨computed, computes, stood⟩⟩
  · unfold StepTrailingStop.counted
    simp only
    split
    · rfl
    · exact live
  · rw [none] at count
    have nothing := Nat.eq_zero_of_add_eq_zero_left count
    exact absurd nothing (Nat.ne_of_gt more)

theorem trails_seen (trails : Trails setup best stop)
    (none : stop.priceMoveFp (ticks price stop.config.minTickSize) / setup.stepThresholdFp = 0) :
    Trails setup (setup.bestMove best price) (stop.seen price) := by
  have same : setup.bestMove best price / setup.stepThresholdFp =
      best / setup.stepThresholdFp := by
    rw [← trails.count_eq price, none, Nat.add_zero]
  have steps : setup.stepsOf (setup.bestMove best price) = setup.stepsOf best := by
    unfold StepTrailingSetup.stepsOf
    rw [same]
  exact {
    same := trails.same
    live := trails.live
    check := by
      rw [same]
      exact trails.check
    inside := inside_bestMove trails.inside price
    steps := steps.symm ▸ trails.steps
    waiting := fun none => trails.waiting (same ▸ none)
    stepped := fun some_ => steps.symm ▸ trails.stepped (same ▸ some_) }

/-- Every price keeps the stop trailing the best move. -/
theorem trails_step (positive : 0 < setup.stepThresholdFp) (trails : Trails setup best stop)
    (taken : stop.step price = some next) : Trails setup (setup.bestMove best price) next := by
  have capped := trails.capped_eq price
  have counted := @trails_counted _ _ _ price trails
  have seen := @trails_seen _ _ _ price trails
  have live := trails.live
  cases trails.same
  change (stop.update price).map Prod.snd = some next at taken
  rw [StepTrailingStop.update_eq live positive] at taken
  simp only at taken
  split at taken
  · next more =>
    obtain ⟨_, computed, computes, rfl⟩ := StepTrailingStop.takeSteps_iff.mp taken
    exact counted more (capped ▸ computes)
  · next none =>
    cases taken
    exact seen (Nat.eq_zero_of_not_pos none)

theorem trails_of_exec (positive : 0 < setup.stepThresholdFp) {prices : List PositivePrice}
    (ran : exec StepTrailingStop.step (.new setup) prices = some stop) :
    Trails setup (setup.bestMoveFp prices) stop := by
  refine @exec_refines _ _ StepTrailingStop.step _ (fun stop best => Trails setup best stop)
    (fun _ _ => True) setup.bestMove ?_ (.new setup) stop 0 prices (trails_new setup)
    (guarded_of_forall (fun _ _ => trivial) _) ran
  exact fun _ _ _ _ trails _ taken => trails_step positive trails taken

/-- No price loosens the stop. -/
theorem noLooser_step (positive : 0 < setup.stepThresholdFp) (trails : Trails setup best stop)
    (taken : stop.step price = some next) :
    setup.NoLooser stop.stopPriceFp next.stopPriceFp := by
  cases trails.same
  change (stop.update price).map Prod.snd = some next at taken
  rw [StepTrailingStop.update_eq trails.live positive] at taken
  simp only at taken
  unfold StepTrailingSetup.NoLooser
  split at taken
  · obtain ⟨_, computed, _, rfl⟩ := StepTrailingStop.takeSteps_iff.mp taken
    show if stop.isLong = true then stop.stopPriceFp ≤ (if stop.shouldUpdate computed = true then
        computed else stop.stopPriceFp)
      else (if stop.shouldUpdate computed = true then computed else stop.stopPriceFp) ≤
        stop.stopPriceFp
    unfold StepTrailingStop.shouldUpdate
    cases stop.isLong
    · simp only [Bool.false_eq_true, if_false, decide_eq_true_eq]
      split <;> omega
    · simp only [if_true, decide_eq_true_eq]
      split <;> omega
  · cases taken
    split <;> exact Nat.le_refl _

theorem Trails.stop_eq (trails : Trails setup best stop) {other : StepTrailingStop}
    (also : Trails setup best other)
    (valid : setup.isLong = true ∨
      setup.calculateStopFromSteps (setup.stepsOf best) ≠ some 0) :
    stop.stopPriceFp = other.stopPriceFp := by
  cases Nat.eq_zero_or_pos (best / setup.stepThresholdFp) with
  | inl none => rw [trails.waiting none, also.waiting none]
  | inr some_ =>
    obtain ⟨computed, computes, stood⟩ := trails.stepped some_
    obtain ⟨_, computes_, stood_⟩ := also.stepped some_
    cases computes.symm.trans computes_
    have valid : setup.isLong = true ∨ 0 < computed := by
      refine valid.imp_right fun nonzero => Nat.pos_of_ne_zero fun zero => ?_
      exact nonzero (zero ▸ computes)
    rw [stood valid, stood_ valid]

end Paths

/-! ## Every path -/

/-- An update does not loosen the stop. -/
def Tightens (stop : StepTrailingStop) (price : PositivePrice) : Prop :=
  ∀ next, stop.step price = some next → stop.NoLooser stop.stopPriceFp next.stopPriceFp

/-- Along every path of updates the steps are those of the best move; the stop is the initial one
until the best move is a full step, and from then on the better of the initial one and that of the
steps, unless that is a short one of nothing. No update loosens the stop, and paths with the same
best move end with the same steps and the same stop, unless it would be a short one of nothing. -/
theorem best_move_decides (setup : StepTrailingSetup) (positive : 1 ≤ setup.stepThresholdFp)
    (prices : List PositivePrice) (final : StepTrailingStop)
    (ran : exec StepTrailingStop.step (.new setup) prices = some final) :
    final.stepsAccumulated = setup.stepsOf (setup.bestMoveFp prices) ∧
      (setup.bestMoveFp prices < setup.stepThresholdFp →
        final.stopPriceFp = setup.initialStopFp) ∧
      (setup.stepThresholdFp ≤ setup.bestMoveFp prices → ∃ computed,
        setup.calculateStopFromSteps (setup.stepsOf (setup.bestMoveFp prices)) = some computed ∧
          (setup.isLong = true ∨ 0 < computed →
            final.stopPriceFp = setup.better setup.initialStopFp computed)) ∧
      Guarded StepTrailingStop.step Tightens (.new setup) prices ∧
      ∀ others other, exec StepTrailingStop.step (.new setup) others = some other →
        setup.bestMoveFp others = setup.bestMoveFp prices →
          other.stepsAccumulated = final.stepsAccumulated ∧
            (setup.isLong = true ∨ setup.calculateStopFromSteps
                (setup.stepsOf (setup.bestMoveFp prices)) ≠ some 0 →
              other.stopPriceFp = final.stopPriceFp) := by
  have trails := trails_of_exec positive ran
  refine ⟨trails.steps, ?_, ?_, ?_, ?_⟩
  · intro short
    exact trails.waiting (Nat.div_eq_of_lt short)
  · intro reached
    exact trails.stepped (Nat.div_pos reached positive)
  · have always : Always StepTrailingStop.step (fun stop => ∃ best, Trails setup best stop)
        (.new setup) prices := by
      refine always_of_preserved ?_ ⟨0, trails_new setup⟩ prices
      intro stop price next ⟨best, trails⟩ taken
      exact ⟨_, trails_step positive trails taken⟩
    refine always.guarded fun stop price ⟨best, trails⟩ next taken => ?_
    exact trails.same.symm ▸ noLooser_step positive trails taken
  · intro others other ran_ same
    have also := trails_of_exec positive ran_
    rw [same] at also
    exact ⟨also.steps.trans trails.steps.symm, fun valid => also.stop_eq trails valid⟩

/-- A long position with the default configuration. -/
def defaultLong : StepTrailingSetup where
  config := .default
  isLong := true
  entryPrice := 100
  quantity := 1
  symbol := "TEST"

/-- The price gains two steps in two updates. -/
theorem best_move_decides_twice :
    ∃ (prices : List PositivePrice) (final : StepTrailingStop),
      prices.map Subtype.val = [101, 102] ∧
        exec StepTrailingStop.step (.new defaultLong) prices = some final ∧
        final.stepsAccumulated = 2 := by
  let prices : List PositivePrice := [⟨101, by norm_num⟩, ⟨102, by norm_num⟩]
  obtain ⟨final, ran, _⟩ := Option.map_eq_some_iff.mp
    (show (exec StepTrailingStop.step (.new defaultLong) prices).map (fun _ => ()) = some () by
      decide +kernel)
  refine ⟨prices, final, rfl, ran, ?_⟩
  have steps := (best_move_decides defaultLong (by decide +kernel) prices final ran).1
  rw [steps]
  decide +kernel

/-- A short position of four ticks with a step of one tick and an initial distance below half a
tick. -/
def fourTicksShort : StepTrailingSetup where
  config := {
    initialDistancePct := 1 / 100
    stepSizePct := 1 / 4
    minStepsBeforeTrail := 1
    maxSteps := 50
    minTickSize := 1
    breakEvenAfterFirstStep := false }
  isLong := false
  entryPrice := 4
  quantity := 1
  symbol := "TEST"

/-- Before the first step a stop can be a tick looser than that of no steps; and a short stop of
nothing is not stored, so that the one before it stays, which depends on the path. -/
theorem best_move_decides_not_all :
    (¬∀ setup : StepTrailingSetup, 1 ≤ setup.stepThresholdFp → ∀ prices final,
      exec StepTrailingStop.step (.new setup) prices = some final →
        FollowsBest setup prices final) ∧
    ¬∀ setup : StepTrailingSetup, 1 ≤ setup.stepThresholdFp → ∀ first second left right,
      exec StepTrailingStop.step (.new setup) first = some left →
        exec StepTrailingStop.step (.new setup) second = some right →
          setup.bestMoveFp first = setup.bestMoveFp second →
            left.stopPriceFp = right.stopPriceFp := by
  constructor
  · intro claim
    let setup : StepTrailingSetup := { defaultLong with entryPrice := 20001 / 200 }
    let prices : List PositivePrice := [⟨10001 / 100, by norm_num⟩]
    obtain ⟨final, ran, stands⟩ := Option.map_eq_some_iff.mp
      (show (exec StepTrailingStop.step (.new setup) prices).map (·.stopPriceFp) = some 9800 by
        decide +kernel)
    obtain ⟨computed, computes, stood⟩ := (claim setup (by decide +kernel) prices final ran).stop
    have none : setup.calculateStopFromSteps (setup.stepsOf (setup.bestMoveFp prices)) =
        some 9801 := by decide +kernel
    cases none.symm.trans computes
    rw [stands] at stood
    exact absurd stood (by decide +kernel)
  · intro claim
    let prices : List PositivePrice := [⟨1 / 4, by norm_num⟩]
    let slower : List PositivePrice := [⟨3, by norm_num⟩, ⟨1 / 4, by norm_num⟩]
    obtain ⟨left, ran, stands⟩ := Option.map_eq_some_iff.mp
      (show (exec StepTrailingStop.step (.new fourTicksShort) prices).map (·.stopPriceFp) =
        some 4 by decide +kernel)
    obtain ⟨right, ran_, stands_⟩ := Option.map_eq_some_iff.mp
      (show (exec StepTrailingStop.step (.new fourTicksShort) slower).map (·.stopPriceFp) =
        some 3 by decide +kernel)
    have same := claim fourTicksShort (by decide +kernel) prices slower left right ran ran_
      (by decide +kernel)
    rw [stands, stands_] at same
    exact absurd same (by decide)

end TradingBot.Oms.StepTrailing
