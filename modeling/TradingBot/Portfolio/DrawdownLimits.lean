import Mathlib.Tactic.Linarith
import TradingBot.Foundation.Run
import TradingBot.Portfolio.DrawdownController

/-!
# Drawdown limits along a run

A liquidation is to be required exactly when the total or the daily limit is reached, a halt is to
hold until the drawdown has recovered for a cooldown, and a liquidation is to halt trading for good.
The daily profit is never recorded, the cooldown runs from the first trip, and resuming asks for the
circuit breaker alone.
-/

open Run MachineInt

namespace TradingBot.Portfolio

/-! ## The tracker and the limits -/

namespace DrawdownTracker

variable {tracker : DrawdownTracker}

theorem checkPeriodResets_frame (tracker : DrawdownTracker) (nowNs : Nat) :
    (tracker.checkPeriodResets nowNs).peakValue = tracker.peakValue ∧
      (tracker.checkPeriodResets nowNs).currentValue = tracker.currentValue ∧
      (tracker.dailyPnl = 0 → (tracker.checkPeriodResets nowNs).dailyPnl = 0) := by
  unfold checkPeriodResets resetMonthly resetWeekly resetDaily
  refine ⟨?_, ?_, fun zero => ?_⟩
  · split <;> split <;> split <;> rfl
  · split <;> split <;> split <;> rfl
  · split <;> split <;> split <;> first | rfl | exact zero

theorem updateValue_frame (tracker : DrawdownTracker) (newValue : ℚ) (nowNs : Nat) :
    (tracker.updateValue newValue nowNs).peakValue = max tracker.peakValue newValue ∧
      (tracker.updateValue newValue nowNs).currentValue = newValue ∧
      (tracker.dailyPnl = 0 → (tracker.updateValue newValue nowNs).dailyPnl = 0) := by
  unfold updateValue
  obtain ⟨peak, value, pnl⟩ := checkPeriodResets_frame { tracker with
    currentValue := newValue
    peakValue := if tracker.peakValue < newValue then newValue else tracker.peakValue } nowNs
  refine ⟨peak.trans ?_, value, pnl⟩
  dsimp only
  split
  · next higher => exact (max_eq_right (le_of_lt higher)).symm
  · next lower => exact (max_eq_left (not_lt.mp lower)).symm

theorem le_getCurrentDrawdown (positive : 0 < tracker.peakValue) (level : ℚ) :
    level ≤ tracker.getCurrentDrawdown ↔
      level * tracker.peakValue ≤ tracker.peakValue - tracker.currentValue := by
  unfold getCurrentDrawdown
  rw [if_neg (not_le.mpr positive), le_div_iff₀ positive]

theorem getDailyDrawdown_zero (unrecorded : tracker.dailyPnl = 0) :
    tracker.getDailyDrawdown = 0 := by
  unfold getDailyDrawdown
  rw [unrecorded, neg_zero, max_self, zero_div, ite_self]

end DrawdownTracker

namespace DrawdownController

variable {controller : DrawdownController}

theorem liquidationRequired_iff (controller : DrawdownController) :
    controller.checkAllLimits.liquidationRequired = true ↔
      controller.config.maxDailyDrawdown ≤ controller.tracker.getDailyDrawdown ∨
        controller.config.maxTotalDrawdown ≤ controller.tracker.getCurrentDrawdown := by
  unfold checkAllLimits
  dsimp only
  split
  · next daily => exact iff_of_true rfl (.inl daily)
  · next calm =>
    split
    · next total => exact iff_of_true rfl (.inr total)
    · next low => exact iff_of_false Bool.false_ne_true (not_or.mpr ⟨calm, low⟩)

theorem triggered_iff (controller : DrawdownController) :
    controller.checkAllLimits.circuitBreakerTriggered = true ↔
      controller.config.circuitBreakerLevel ≤ controller.tracker.getCurrentDrawdown ∧
        controller.circuitBreaker = false := by
  have status : controller.checkAllLimits.circuitBreakerTriggered =
      controller.breakerStatus.circuitBreakerTriggered := by
    unfold checkAllLimits
    dsimp only
    split
    · rfl
    · split <;> rfl
  rw [status]
  unfold breakerStatus
  simp only [Bool.and_eq_true, decide_eq_true_eq, Bool.not_eq_true']

/-- What an update of the value does. -/
theorem updatePortfolioValue_cases (controller : DrawdownController) (value : ℚ) (nowNs : Nat) :
    let updated := { controller with tracker := controller.tracker.updateValue value nowNs }
    (controller.updatePortfolioValue value nowNs).1 = updated.checkAllLimits ∧
      (controller.config.circuitBreakerLevel ≤ updated.tracker.getCurrentDrawdown ∧
          controller.circuitBreaker = false ∧
          (controller.updatePortfolioValue value nowNs).2 = updated.triggerCircuitBreaker nowNs ∨
        (controller.config.circuitBreakerLevel ≤ updated.tracker.getCurrentDrawdown →
          controller.circuitBreaker = true) ∧
          (controller.updatePortfolioValue value nowNs).2 = updated) := by
  refine ⟨rfl, ?_⟩
  unfold updatePortfolioValue
  dsimp only
  have triggered := triggered_iff
    { controller with tracker := controller.tracker.updateValue value nowNs }
  split
  · next now => exact .inl ⟨(triggered.mp now).1, (triggered.mp now).2, rfl⟩
  · next calm =>
    refine .inr ⟨fun reached => ?_, rfl⟩
    by_contra untripped
    exact calm (triggered.mpr ⟨reached, Bool.not_eq_true _ ▸ untripped⟩)

theorem canResumeTrading_untripped (untripped : controller.circuitBreaker = false) (nowNs : Nat) :
    controller.canResumeTrading nowNs = (true, controller) := by
  unfold canResumeTrading
  rw [untripped]
  rfl

theorem canResumeTrading_tripped (tripped : controller.circuitBreaker = true) (nowNs : Nat) :
    controller.canResumeTrading nowNs =
      if cooldownNs controller.config < nowNs - controller.tripTimeNs ∧
          controller.tracker.getCurrentDrawdown <
            controller.config.circuitBreakerLevel * (8 / 10) then
        (true, { controller with circuitBreaker := false, tradingHalted := false })
      else (false, controller) := by
  unfold canResumeTrading
  rw [tripped]
  simp only [Bool.not_true, Bool.false_eq_true, if_false]
  rw [ite_and]

end DrawdownController

/-! ## Runs -/

namespace DrawdownLimits

/-- One call on a controller. -/
inductive ControllerCall where
  /-- `update_portfolio_value`. -/
  | update (value : ℚ)
  /-- `can_resume_trading`. -/
  | resume
  /-- `initiate_liquidation`. -/
  | liquidate

/-- A call and the reading of the clock during it. -/
structure TimedCall where
  nowNs : Nat
  call : ControllerCall

/-- The answer to a call. -/
inductive Answer where
  | silent
  | status (status : DrawdownStatus)
  | resumed (allowed : Bool)

/-- A controller with what happened to the portfolio. -/
structure Session where
  controller : DrawdownController
  clockNs : Nat
  /-- The highest value so far. -/
  peak : ℚ
  /-- The last value. -/
  value : ℚ
  /-- The value at the start of the daily period. -/
  dayValue : ℚ
  /-- The last update that reached the level of the breaker, until trading may resume. -/
  breachedNs : Option Nat
  /-- A liquidation was initiated. -/
  liquidated : Bool
  answer : Answer

/-- A session of a new controller. -/
def Session.start (config : DrawdownConfig) (initialValue : ℚ) (nowNs : Nat) : Session where
  controller := .new config initialValue nowNs
  clockNs := nowNs
  peak := initialValue
  value := initialValue
  dayValue := initialValue
  breachedNs := none
  liquidated := false
  answer := .silent

/-- Whether the answer to an update requires a liquidation. -/
def Session.required (session : Session) : Option Bool :=
  match session.answer with
  | .status status => some status.liquidationRequired
  | _ => none

/-- The value at the start of the daily period after an update. -/
def Session.dayValueAfter (session : Session) (value : ℚ) (nowNs : Nat) : ℚ :=
  if dayNs < nowNs - session.controller.tracker.dailyResetNs then value else session.dayValue

/-- The breach to hold after an update. -/
def Session.breachAfter (session : Session) (value : ℚ) (nowNs : Nat) : Option Nat :=
  if session.controller.config.circuitBreakerLevel * max session.peak value ≤
      max session.peak value - value then some nowNs
  else session.breachedNs

/-- The drawdown is below 80 percent of the level of the breaker. -/
def Session.recovered (session : Session) : Prop :=
  session.peak - session.value <
    session.controller.config.circuitBreakerLevel * (8 / 10) * session.peak

instance (session : Session) : Decidable session.recovered := inferInstanceAs (Decidable (_ < _))

/-- The cooldown after a time is over. -/
def Session.cooled (session : Session) (breachedNs nowNs : Nat) : Prop :=
  breachedNs + session.controller.config.cooldownSeconds * 1000000000 < nowNs

instance (session : Session) (breachedNs nowNs : Nat) :
    Decidable (session.cooled breachedNs nowNs) := inferInstanceAs (Decidable (_ < _))

/-- The breach to hold after a question whether trading can resume. -/
def Session.breachLeft (session : Session) (nowNs : Nat) : Option Nat :=
  session.breachedNs.filter fun breachedNs =>
    !(decide (session.cooled breachedNs nowNs) && decide session.recovered)

/-- A session after an update. -/
def Session.updated (session : Session) (value : ℚ) (nowNs : Nat) : Session :=
  let answered := session.controller.updatePortfolioValue value nowNs
  { session with
    controller := answered.2
    clockNs := nowNs
    peak := max session.peak value
    value := value
    dayValue := session.dayValueAfter value nowNs
    breachedNs := session.breachAfter value nowNs
    answer := .status answered.1 }

/-- A session after a question whether trading can resume. -/
def Session.asked (session : Session) (nowNs : Nat) : Session :=
  let answered := session.controller.canResumeTrading nowNs
  { session with
    controller := answered.2
    clockNs := nowNs
    breachedNs := session.breachLeft nowNs
    answer := .resumed answered.1 }

/-- A session after a call; the clock does not go back, and a value is positive. -/
def step (session : Session) (timed : TimedCall) : Option Session :=
  if timed.nowNs < session.clockNs then none
  else match timed.call with
    | .update value => if 0 < value then some (session.updated value timed.nowNs) else none
    | .resume => some (session.asked timed.nowNs)
    | .liquidate => some { session with
        controller := session.controller.initiateLiquidation.2
        clockNs := timed.nowNs
        liquidated := true
        answer := .silent }

/-- The limits are enforced. -/
structure Enforced (session : Session) : Prop where
  /-- A liquidation is required exactly at the total or the daily limit. -/
  limits : ∀ status, session.answer = .status status → (status.liquidationRequired = true ↔
    session.controller.config.maxTotalDrawdown * session.peak ≤ session.peak - session.value ∨
      session.controller.config.maxDailyDrawdown * session.peak ≤ session.dayValue - session.value)
  breach : session.breachedNs ≠ none → session.controller.isTradingHalted = true
  /-- Trading that can resume is not halted. -/
  resumes : session.answer = .resumed true → session.controller.isTradingHalted = false
  liquidation : session.liquidated = true → session.controller.isTradingHalted = true

/-- The breaker lets trading resume: its cooldown is over and the drawdown has recovered. -/
def Session.clears (session : Session) (nowNs : Nat) : Prop :=
  session.controller.circuitBreaker = true ∧
    DrawdownController.cooldownNs session.controller.config <
      nowNs - session.controller.tripTimeNs ∧ session.recovered

instance (session : Session) (nowNs : Nat) : Decidable (session.clears nowNs) :=
  inferInstanceAs (Decidable (_ ∧ _ ∧ _))

/-- The controller sees what it is asked: an update reaches the total limit, or its daily limit is
reached exactly when no drawdown reaches it; trading resumes before a liquidation, and a cooldown
after the last breach. -/
def Seen (session : Session) (timed : TimedCall) : Prop :=
  match timed.call with
  | .update value =>
    session.controller.config.maxTotalDrawdown * max session.peak value ≤
        max session.peak value - value ∨
      (session.controller.config.maxDailyDrawdown ≤ 0 ↔
        session.controller.config.maxDailyDrawdown * max session.peak value ≤
          session.dayValueAfter value timed.nowNs - value)
  | .resume =>
    (session.controller.circuitBreaker = false → session.liquidated = false) ∧
      (session.clears timed.nowNs → session.liquidated = false ∧
        ∀ breachedNs ∈ session.breachedNs, session.cooled breachedNs timed.nowNs)
  | .liquidate => True

instance (session : Session) : DecidablePred (Seen session) := fun timed =>
  match timed with
  | ⟨_, .update _⟩ => inferInstanceAs (Decidable (_ ∨ (_ ↔ _)))
  | ⟨_, .resume⟩ => inferInstanceAs (Decidable ((_ → _) ∧ (_ → _ ∧ ∀ _ ∈ _, _)))
  | ⟨_, .liquidate⟩ => inferInstanceAs (Decidable True)

/-- What every session knows of its controller. -/
structure Coherent (session : Session) : Prop where
  peak : session.controller.tracker.peakValue = session.peak
  value : session.controller.tracker.currentValue = session.value
  /-- The daily profit is never recorded. -/
  unrecorded : session.controller.tracker.dailyPnl = 0
  /-- A tripped breaker halts trading. -/
  halted : session.controller.circuitBreaker = true → session.controller.tradingHalted = true
  /-- Only a tripped breaker or a liquidation halts trading. -/
  cause : session.controller.tradingHalted = true →
    session.controller.circuitBreaker = true ∨ session.liquidated = true
  /-- A breaker trips at the first breach that is not over. -/
  tripped : session.controller.circuitBreaker = true →
    ∃ breachedNs ∈ session.breachedNs, session.controller.tripTimeNs ≤ breachedNs
  /-- The breaker tripped in the past. -/
  past : session.controller.tripTimeNs ≤ session.clockNs
  /-- A breach trips the breaker. -/
  held : session.breachedNs ≠ none → session.controller.circuitBreaker = true ∧ 0 < session.peak

section Runs

variable {session next : Session} {timed : TimedCall} {value : ℚ} {nowNs : Nat}

theorem tracker_updated (coherent : Coherent session) (positive : 0 < value) (nowNs : Nat) :
    (session.controller.tracker.updateValue value nowNs).peakValue = max session.peak value ∧
      (session.controller.tracker.updateValue value nowNs).currentValue = value ∧
      (session.controller.tracker.updateValue value nowNs).dailyPnl = 0 ∧
      0 < max session.peak value := by
  obtain ⟨peak, current, unrecorded⟩ :=
    DrawdownTracker.updateValue_frame session.controller.tracker value nowNs
  rw [coherent.peak] at peak
  exact ⟨peak, current, unrecorded coherent.unrecorded,
    lt_of_lt_of_le positive (le_max_right session.peak value)⟩

theorem drawdown_updated (coherent : Coherent session) (positive : 0 < value) (nowNs : Nat)
    (level : ℚ) :
    level ≤ (session.controller.tracker.updateValue value nowNs).getCurrentDrawdown ↔
      level * max session.peak value ≤ max session.peak value - value := by
  obtain ⟨peak, current, -, high⟩ := tracker_updated coherent positive nowNs
  rw [DrawdownTracker.le_getCurrentDrawdown (by rw [peak]; exact high), peak, current]

theorem coherent_updated (coherent : Coherent session) (forward : session.clockNs ≤ nowNs)
    (positive : 0 < value) : Coherent (session.updated value nowNs) := by
  obtain ⟨peak, current, unrecorded, high⟩ := tracker_updated coherent positive nowNs
  have reached := drawdown_updated coherent positive nowNs
    session.controller.config.circuitBreakerLevel
  have past := Nat.le_trans coherent.past forward
  obtain ⟨-, ⟨level, -, after⟩ | ⟨tripped, after⟩⟩ :=
    session.controller.updatePortfolioValue_cases value nowNs
  · have breach : session.breachAfter value nowNs = some nowNs := if_pos (reached.mp level)
    unfold Session.updated
    dsimp only
    rw [after, breach]
    exact ⟨peak, current, unrecorded, fun _ => rfl, fun _ => .inl rfl,
      fun _ => ⟨nowNs, rfl, Nat.le_refl nowNs⟩, Nat.le_refl nowNs, fun _ => ⟨rfl, high⟩⟩
  · unfold Session.updated
    dsimp only
    rw [after]
    refine ⟨peak, current, unrecorded, coherent.halted, coherent.cause, fun breaker => ?_, past,
      fun breach => ?_⟩
    · unfold Session.breachAfter
      dsimp only
      split
      · exact ⟨nowNs, rfl, past⟩
      · exact coherent.tripped breaker
    · dsimp only at breach ⊢
      refine ⟨?_, high⟩
      unfold Session.breachAfter at breach
      split at breach
      · next level => exact tripped (reached.mpr level)
      · exact (coherent.held breach).1

theorem controller_updated (session : Session) (value : ℚ) (nowNs : Nat) :
    (session.updated value nowNs).controller.config = session.controller.config ∧
      (session.controller.tradingHalted = true →
        (session.updated value nowNs).controller.tradingHalted = true) := by
  unfold Session.updated
  dsimp only
  obtain ⟨-, ⟨-, -, after⟩ | ⟨-, after⟩⟩ :=
    session.controller.updatePortfolioValue_cases value nowNs <;> rw [after]
  · exact ⟨rfl, fun _ => rfl⟩
  · exact ⟨rfl, id⟩

theorem required_updated (coherent : Coherent session) (positive : 0 < value) (nowNs : Nat) :
    (session.controller.updatePortfolioValue value nowNs).1.liquidationRequired = true ↔
      session.controller.config.maxDailyDrawdown ≤ 0 ∨
        session.controller.config.maxTotalDrawdown * max session.peak value ≤
          max session.peak value - value := by
  obtain ⟨-, -, unrecorded, -⟩ := tracker_updated coherent positive nowNs
  obtain ⟨status, -⟩ := session.controller.updatePortfolioValue_cases value nowNs
  rw [status, DrawdownController.liquidationRequired_iff,
    DrawdownTracker.getDailyDrawdown_zero unrecorded, drawdown_updated coherent positive nowNs]

theorem limits_agree {unlimited daily total : Prop} :
    (unlimited ∨ total ↔ total ∨ daily) ↔ total ∨ (unlimited ↔ daily) := by
  by_cases reached : total
  · exact iff_of_true (iff_of_true (.inr reached) (.inl reached)) (.inl reached)
  · rw [or_iff_left reached, or_iff_right reached, or_iff_right reached]

theorem enforced_updated (coherent : Coherent session) (enforced : Enforced session)
    (forward : session.clockNs ≤ nowNs) (positive : 0 < value) :
    Enforced (session.updated value nowNs) ↔ Seen session ⟨nowNs, .update value⟩ := by
  have after := coherent_updated coherent forward positive
  obtain ⟨config, halts⟩ := controller_updated session value nowNs
  have required := required_updated coherent positive nowNs
  constructor
  · intro sound
    have limits := sound.limits _ rfl
    rw [required, config] at limits
    exact limits_agree.mp limits
  · intro seen
    refine ⟨fun status same => ?_, fun breach => ?_, fun resumed => ?_, fun liquidated => ?_⟩
    · cases same
      rw [required, config]
      exact limits_agree.mpr seen
    · exact after.halted (after.held breach).1
    · cases resumed
    · exact halts (enforced.liquidation liquidated)

theorem clears_of_over (coherent : Coherent session) (recovered : session.recovered)
    {breachedNs : Nat} (breach : breachedNs ∈ session.breachedNs)
    (cooled : session.cooled breachedNs nowNs) : session.clears nowNs := by
  have breached : session.breachedNs ≠ none := by
    rw [Option.mem_def.mp breach]
    exact Option.some_ne_none breachedNs
  obtain ⟨tripped, -⟩ := coherent.held breached
  obtain ⟨first, there, early⟩ := coherent.tripped tripped
  cases Option.mem_unique breach there
  refine ⟨tripped, ?_, recovered⟩
  have short : DrawdownController.cooldownNs session.controller.config ≤
      session.controller.config.cooldownSeconds * 1000000000 := Nat.mod_le _ _
  unfold Session.cooled at cooled
  omega

theorem recovered_iff (coherent : Coherent session)
    (tripped : session.controller.circuitBreaker = true) :
    session.controller.tracker.getCurrentDrawdown <
      session.controller.config.circuitBreakerLevel * (8 / 10) ↔ session.recovered := by
  obtain ⟨breachedNs, breach, -⟩ := coherent.tripped tripped
  have breached : session.breachedNs ≠ none := by
    rw [Option.mem_def.mp breach]
    exact Option.some_ne_none breachedNs
  have high := (coherent.held breached).2
  have level := @DrawdownTracker.le_getCurrentDrawdown session.controller.tracker
    (by rw [coherent.peak]; exact high)
    (session.controller.config.circuitBreakerLevel * (8 / 10))
  rw [coherent.peak, coherent.value] at level
  unfold Session.recovered
  rw [← not_le, ← not_le]
  exact not_congr level

/-- A question resumes the trading or leaves it stopped. -/
theorem asked_cases (coherent : Coherent session) (nowNs : Nat) :
    session.clears nowNs ∧ (session.asked nowNs).answer = .resumed true ∧
        (session.asked nowNs).controller =
          { session.controller with circuitBreaker := false, tradingHalted := false } ∨
      ¬session.clears nowNs ∧ (session.asked nowNs).controller = session.controller ∧
        (session.asked nowNs).breachedNs = session.breachedNs ∧
        (session.asked nowNs).answer = .resumed (!session.controller.circuitBreaker) := by
  have kept : ¬session.clears nowNs → session.breachLeft nowNs = session.breachedNs := by
    intro stays
    unfold Session.breachLeft
    cases breach : session.breachedNs with
    | none => rfl
    | some breachedNs =>
      rw [Option.filter_some, if_pos]
      simp only [Bool.not_eq_true', Bool.and_eq_false_iff, decide_eq_false_iff_not]
      by_contra over_
      obtain ⟨cooled, recovered⟩ := not_or.mp over_
      exact stays (clears_of_over coherent (not_not.mp recovered) (breach ▸ rfl)
        (not_not.mp cooled))
  unfold Session.asked
  dsimp only
  cases tripped : session.controller.circuitBreaker with
  | false =>
    have stays : ¬session.clears nowNs := by
      intro clears
      exact Bool.false_ne_true (tripped.symm.trans clears.1)
    rw [DrawdownController.canResumeTrading_untripped tripped]
    exact .inr ⟨stays, rfl, kept stays, rfl⟩
  | true =>
    rw [DrawdownController.canResumeTrading_tripped tripped]
    split
    · next clears =>
      exact .inl ⟨⟨tripped, clears.1, (recovered_iff coherent tripped).mp clears.2⟩, rfl, rfl⟩
    · next stays =>
      have still : ¬session.clears nowNs := fun clears =>
        stays ⟨clears.2.1, (recovered_iff coherent tripped).mpr clears.2.2⟩
      exact .inr ⟨still, rfl, kept still, rfl⟩

theorem breachLeft_eq_none (recovered : session.recovered) :
    session.breachLeft nowNs = none ↔
      ∀ breachedNs ∈ session.breachedNs, session.cooled breachedNs nowNs := by
  unfold Session.breachLeft
  rw [Option.filter_eq_none_iff]
  refine forall_congr' fun breachedNs => forall_congr' fun _ => ?_
  rw [decide_eq_true recovered, Bool.and_true, Bool.not_eq_true', decide_eq_false_iff_not, not_not]

theorem coherent_asked (coherent : Coherent session) (forward : session.clockNs ≤ nowNs)
    (seen : Seen session ⟨nowNs, .resume⟩) : Coherent (session.asked nowNs) := by
  have past := Nat.le_trans coherent.past forward
  rcases asked_cases coherent nowNs with ⟨clears, -, after⟩ | ⟨-, after, left, -⟩
  · have over_ : (session.asked nowNs).breachedNs = none :=
      (breachLeft_eq_none clears.2.2).mpr (seen.2 clears).2
    constructor
    · rw [after]; exact coherent.peak
    · rw [after]; exact coherent.value
    · rw [after]; exact coherent.unrecorded
    · rw [after]; exact fun tripped => absurd tripped Bool.false_ne_true
    · rw [after]; exact fun halted => absurd halted Bool.false_ne_true
    · rw [after]; exact fun tripped => absurd tripped Bool.false_ne_true
    · rw [after]; exact past
    · exact fun breach => absurd over_ breach
  · constructor
    · rw [after]; exact coherent.peak
    · rw [after]; exact coherent.value
    · rw [after]; exact coherent.unrecorded
    · rw [after]; exact coherent.halted
    · rw [after]; exact coherent.cause
    · rw [after, left]; exact coherent.tripped
    · rw [after]; exact past
    · rw [after, left]; exact coherent.held

theorem enforced_cleared (clears : session.clears nowNs)
    (answer : (session.asked nowNs).answer = .resumed true)
    (running : (session.asked nowNs).controller.isTradingHalted = false) :
    Enforced (session.asked nowNs) ↔ session.liquidated = false ∧
      ∀ breachedNs ∈ session.breachedNs, session.cooled breachedNs nowNs := by
  rw [← breachLeft_eq_none clears.2.2]
  constructor
  · intro enforced
    constructor
    · refine Bool.eq_false_iff.mpr fun liquidated => ?_
      exact Bool.false_ne_true (running.symm.trans (enforced.liquidation liquidated))
    · by_contra breach
      exact Bool.false_ne_true (running.symm.trans (enforced.breach breach))
  · rintro ⟨free, over_⟩
    refine ⟨fun status same => ?_, fun breach => absurd over_ breach, fun _ => running,
      fun liquidated => absurd (free.symm.trans liquidated) Bool.false_ne_true⟩
    rw [answer] at same
    cases same

theorem enforced_asked (coherent : Coherent session) (enforced : Enforced session) :
    Enforced (session.asked nowNs) ↔ Seen session ⟨nowNs, .resume⟩ := by
  unfold Seen
  dsimp only
  rcases asked_cases coherent nowNs with ⟨clears, answer, after⟩ | ⟨stays, after, left, answer⟩
  · rw [enforced_cleared clears answer (by rw [after]; rfl), forall_prop_of_true clears]
    have tripped : session.controller.circuitBreaker ≠ false := by
      rw [clears.1]
      exact Bool.noConfusion
    rw [and_iff_right fun untripped => absurd untripped tripped]
  · rw [and_iff_left fun clears => absurd clears stays]
    constructor
    · intro sound untripped
      refine Bool.eq_false_iff.mpr fun liquidated => ?_
      have running := sound.resumes (by rw [answer, untripped]; rfl)
      rw [after] at running
      exact Bool.false_ne_true (running.symm.trans (enforced.liquidation liquidated))
    · intro seen
      refine ⟨fun status same => ?_, fun breach => ?_, fun resumed => ?_, fun liquidated => ?_⟩
      · rw [answer] at same
        cases same
      · rw [left] at breach
        rw [after]
        exact enforced.breach breach
      · rw [answer] at resumed
        have untripped : session.controller.circuitBreaker = false := by
          injection resumed with allowed
          exact (Bool.not_eq_true' _).mp allowed
        rw [after]
        refine Bool.eq_false_iff.mpr fun halted => ?_
        rcases coherent.cause halted with tripped | liquidated
        · exact Bool.false_ne_true (untripped.symm.trans tripped)
        · exact Bool.false_ne_true ((seen untripped).symm.trans liquidated)
      · rw [after]
        exact enforced.liquidation liquidated

theorem liquidated_sound (coherent : Coherent session) (forward : session.clockNs ≤ nowNs) :
    let next : Session := { session with
      controller := session.controller.initiateLiquidation.2
      clockNs := nowNs
      liquidated := true
      answer := .silent }
    Coherent next ∧ Enforced next := by
  refine ⟨⟨coherent.peak, coherent.value, coherent.unrecorded, fun _ => rfl, fun _ => .inr rfl,
    coherent.tripped, Nat.le_trans coherent.past forward, coherent.held⟩, ?_⟩
  exact ⟨fun _ same => Answer.noConfusion same, fun _ => rfl,
    fun resumed => Answer.noConfusion resumed, fun _ => rfl⟩

/-- What a call does to the controller. -/
theorem step_cases {call : ControllerCall} (taken : step session ⟨nowNs, call⟩ = some next) :
    session.clockNs ≤ nowNs ∧
      ((∃ value, call = .update value ∧ 0 < value ∧ next = session.updated value nowNs) ∨
        (call = .resume ∧ next = session.asked nowNs) ∨
        (call = .liquidate ∧ next = { session with
          controller := session.controller.initiateLiquidation.2
          clockNs := nowNs
          liquidated := true
          answer := .silent })) := by
  unfold step at taken
  split at taken
  · cases taken
  · next inOrder =>
    refine ⟨Nat.not_lt.mp inOrder, ?_⟩
    cases call with
    | update value =>
      obtain ⟨positive, same⟩ := Option.ite_none_right_eq_some.mp taken
      exact .inl ⟨value, rfl, positive, (Option.some.inj same).symm⟩
    | resume => exact .inr (.inl ⟨rfl, (Option.some.inj taken).symm⟩)
    | liquidate => exact .inr (.inr ⟨rfl, (Option.some.inj taken).symm⟩)

/-- A call that is seen keeps the controller coherent. -/
theorem coherent_step (coherent : Coherent session) (seen : Seen session timed)
    (taken : step session timed = some next) : Coherent next := by
  obtain ⟨nowNs, call⟩ := timed
  obtain ⟨forward, ⟨value, rfl, positive, rfl⟩ | ⟨rfl, rfl⟩ | ⟨rfl, rfl⟩⟩ := step_cases taken
  · exact coherent_updated coherent forward positive
  · exact coherent_asked coherent forward seen
  · exact (liquidated_sound coherent forward).1

/-- One call keeps the limits enforced exactly when it is seen. -/
theorem enforced_step (coherent : Coherent session) (enforced : Enforced session)
    (taken : step session timed = some next) : Enforced next ↔ Seen session timed := by
  obtain ⟨nowNs, call⟩ := timed
  obtain ⟨forward, ⟨value, rfl, positive, rfl⟩ | ⟨rfl, rfl⟩ | ⟨rfl, rfl⟩⟩ := step_cases taken
  · exact enforced_updated coherent enforced forward positive
  · exact enforced_asked coherent enforced
  · exact iff_of_true (liquidated_sound coherent forward).2 trivial

/-- Along every run of a new controller the limits are enforced if and only if the controller sees
what it is asked at every call. -/
theorem enforced_iff_seen (config : DrawdownConfig) (initialValue : ℚ) (nowNs : Nat)
    (calls : List TimedCall) :
    Always step Enforced (.start config initialValue nowNs) calls ↔
      Guarded step Seen (.start config initialValue nowNs) calls := by
  have coherent : Coherent (.start config initialValue nowNs) :=
    ⟨rfl, rfl, rfl, fun tripped => absurd tripped Bool.false_ne_true,
      fun halted => absurd halted Bool.false_ne_true,
      fun tripped => absurd tripped Bool.false_ne_true, Nat.zero_le nowNs,
      fun breach => absurd rfl breach⟩
  have enforced : Enforced (.start config initialValue nowNs) :=
    ⟨fun _ same => Answer.noConfusion same, fun breach => absurd rfl breach, fun _ => rfl,
      fun liquidated => absurd liquidated Bool.false_ne_true⟩
  exact @always_iff_guarded_of _ _ step Coherent Enforced (fun _ _ => True) Seen
    (fun _ _ _ coherent _ _ seen taken => coherent_step coherent seen taken)
    (fun _ _ _ coherent enforced _ taken => enforced_step coherent enforced taken)
    (.start config initialValue nowNs) coherent enforced calls
    (guarded_of_forall (fun _ _ => trivial) _)

/-- A loss of 2.1 percent within a day is above the default daily limit and requires no
liquidation. -/
theorem daily_loss_unseen : ¬∀ (config : DrawdownConfig) (initialValue : ℚ) (nowNs : Nat)
    (calls : List TimedCall),
    0 < config.circuitBreakerLevel → config.circuitBreakerLevel < 1 →
      Always step Enforced (.start config initialValue nowNs) calls := by
  intro claim
  refine @not_always_of_view _ _ step _ (fun session => (session.required,
    session.controller.config.maxDailyDrawdown, session.peak, session.dayValue, session.value))
    (some false, 2 / 100, 100000, 100000, 97900) Enforced (.start .default 100000 0)
    [⟨1, .update 97900⟩] (by decide +kernel) ?_
    (claim .default 100000 0 [⟨1, .update 97900⟩] (by norm_num [DrawdownConfig.default])
      (by norm_num [DrawdownConfig.default]))
  intro final seen enforced
  simp only [Prod.mk.injEq] at seen
  obtain ⟨required, daily, peak, dayValue, value⟩ := seen
  obtain ⟨status, answer, calm⟩ : ∃ status, final.answer = .status status ∧
      status.liquidationRequired = false := by
    unfold Session.required at required
    split at required
    · next status answer => exact ⟨status, answer, Option.some.inj required⟩
    · cases required
  have limits := enforced.limits status answer
  rw [calm, daily, peak, dayValue, value] at limits
  exact Bool.false_ne_true (limits.mpr (.inr (by norm_num)))

end Runs

end DrawdownLimits

end TradingBot.Portfolio
