import TradingBot.Oms.StepPaths

/-!
# The life of a step-trailing stop

Updates, trigger checks and cancellations of a stop come in any order. A check does not look at the
state, so that a cancelled stop is triggered and listed when it is hit; a cancellation overwrites a
trigger; and no update asks for the minimum number of steps.
-/

open Run

namespace TradingBot.Oms.StepTrailing

/-- A call on a stop. -/
inductive StepCall where
  | update (price : ℚ)
  | checkTrigger (price : ℚ)
  | cancel

/-- A stop after a call. -/
def callStep (stop : StepTrailingStop) : StepCall → Option StepTrailingStop
  | .update price => (stop.update price).map Prod.snd
  | .checkTrigger price => some (stop.checkTrigger price).2
  | .cancel => some stop.cancel

/-- No check lists a stop at a price, neither its own nor that of any manager that holds it. -/
def Unlisted (stop : StepTrailingStop) (price : ℚ) : Prop :=
  (stop.checkTrigger price).1 = false ∧
    ∀ (manager : StepTrailingManager) (symbol positionId : String),
      manager.stops.get positionId = some stop →
        positionId ∉ (manager.checkTriggers symbol price).1

/-- A call leaves a cancelled stop cancelled and unlisted, and a triggered one triggered. -/
def StaysOver (stop : StepTrailingStop) (call : StepCall) : Prop :=
  ∀ next, callStep stop call = some next →
    (stop.state = .cancelled → next.state = .cancelled ∧
      ∀ price, call = .checkTrigger price → Unlisted stop price) ∧
    (stop.state = .triggered → next.state = .triggered)

/-- A stop with fewer steps than the minimum is the initial one. -/
def Waits (stop : StepTrailingStop) : Prop :=
  stop.stepsAccumulated < stop.config.minStepsBeforeTrail.toNat →
    stop.stopPriceFp = stop.initialStopFp

/-- What the life of a stop promises along a run of calls. -/
structure LifeCycle (setup : StepTrailingSetup) (calls : List StepCall) : Prop where
  staysOver : Guarded callStep StaysOver (.new setup) calls
  waits : Always callStep Waits (.new setup) calls

/-- The new steps of a stop at a price. -/
def newSteps (stop : StepTrailingStop) (price : ℚ) : Nat :=
  stop.priceMoveFp (ticks price stop.config.minTickSize) / stop.stepThresholdFp

/-- The steps of a stop after an update at a price. -/
def stepsAt (stop : StepTrailingStop) (price : ℚ) : Nat :=
  min (stop.stepsAccumulated + newSteps stop price) stop.config.maxSteps.toNat

/-- A cancelled stop is not checked at a price that hits it, and a triggered one is not
cancelled. -/
def KeepsOver (stop : StepTrailingStop) : StepCall → Prop
  | .update _ => True
  | .checkTrigger price => stop.state = .cancelled → stop.isHit price = false
  | .cancel => stop.state ≠ .triggered

/-- An update of a live stop takes no new step, reaches the minimum, or computes no better
stop. -/
def KeepsWaiting (stop : StepTrailingStop) : StepCall → Prop
  | .update price =>
    stop.state.isOver = true ∨ newSteps stop price = 0 ∨
      stop.config.minStepsBeforeTrail.toNat ≤ stepsAt stop price ∨
      ∀ computed, stop.calculateStopFromSteps (stepsAt stop price) = some computed →
        stop.shouldUpdate computed = false
  | .checkTrigger _ => True
  | .cancel => True

/-! ## Checks -/

section Checks

variable {stop : StepTrailingStop} {price : ℚ}

theorem isHit_checkTrigger (stop : StepTrailingStop) (price : ℚ) :
    (stop.checkTrigger price).2.isHit price = stop.isHit price := by
  unfold StepTrailingStop.checkTrigger
  simp only
  split
  · rfl
  · rfl

theorem hit_put {manager : StepTrailingManager} {first : String}
    (found : manager.stops.get first = some stop) (positionId : String) :
    (∃ other, (manager.stops.put first (stop.checkTrigger price).2).get positionId =
        some other ∧ other.isHit price = true) ↔
      ∃ other, manager.stops.get positionId = some other ∧ other.isHit price = true := by
  rw [Dict.get_put]
  by_cases same : positionId = first
  · rw [if_pos same, same, found]
    simp only [Option.some.injEq, exists_eq_left', isHit_checkTrigger]
  · rw [if_neg same]

theorem mem_checkPositions (price : ℚ) (positions : List String) (manager : StepTrailingManager)
    (positionId : String) :
    positionId ∈ (StepTrailingManager.checkPositions price positions manager).1 ↔
      positionId ∈ positions ∧
        ∃ stop, manager.stops.get positionId = some stop ∧ stop.isHit price = true := by
  induction positions generalizing manager with
  | nil =>
    show positionId ∈ [] ↔ _
    simp
  | cons first rest ih =>
    unfold StepTrailingManager.checkPositions
    cases found : manager.stops.get first with
    | none =>
      simp only
      rw [ih, List.mem_cons]
      constructor
      · exact fun listed => ⟨.inr listed.1, listed.2⟩
      · rintro ⟨same | member, stop, there, hit⟩
        · rw [same, found] at there
          cases there
        · exact ⟨member, stop, there, hit⟩
    | some stop =>
      have later := ih { manager with
        stops := manager.stops.put first (stop.checkTrigger price).2 }
      simp only at later ⊢
      rw [hit_put found positionId] at later
      have listed : (stop.checkTrigger price).1 = stop.isHit price := rfl
      rw [listed]
      cases hit : stop.isHit price with
      | true =>
        rw [if_pos rfl, List.mem_cons, later, List.mem_cons]
        constructor
        · rintro (same | listed)
          · exact ⟨.inl same, stop, same ▸ found, hit⟩
          · exact ⟨.inr listed.1, listed.2⟩
        · rintro ⟨same | member, held⟩
          · exact .inl same
          · exact .inr ⟨member, held⟩
      | false =>
        rw [if_neg Bool.false_ne_true, later, List.mem_cons]
        constructor
        · exact fun listed => ⟨.inr listed.1, listed.2⟩
        · rintro ⟨same | member, other, there, also⟩
          · rw [same, found] at there
            cases there
            exact absurd (hit.symm.trans also) Bool.false_ne_true
          · exact ⟨member, other, there, also⟩

theorem unlisted_iff : Unlisted stop price ↔ stop.isHit price = false := by
  constructor
  · exact And.left
  · intro missed
    refine ⟨missed, fun manager symbol positionId found listed => ?_⟩
    obtain ⟨_, other, there, hit⟩ := (mem_checkPositions _ _ _ _).mp listed
    cases found.symm.trans there
    exact absurd (missed.symm.trans hit) Bool.false_ne_true

end Checks

/-! ## Calls -/

section Calls

variable {stop next : StepTrailingStop} {call : StepCall} {price : ℚ}

/-- An update is over, sees the price or counts its steps. -/
theorem update_cases (taken : (stop.update price).map Prod.snd = some next) :
    (stop.state.isOver = true ∧ next = stop) ∨
      (stop.state.isOver = false ∧ newSteps stop price = 0 ∧ next = stop.seen price) ∨
      (stop.state.isOver = false ∧ 0 < newSteps stop price ∧ ∃ computed,
        stop.calculateStopFromSteps (stepsAt stop price) = some computed ∧
          next = (stop.seen price).counted (newSteps stop price) computed) := by
  cases live : stop.state.isOver with
  | true =>
    unfold StepTrailingStop.update at taken
    rw [live, if_pos rfl] at taken
    cases taken
    exact .inl ⟨rfl, rfl⟩
  | false =>
    refine .inr ?_
    cases Nat.eq_zero_or_pos stop.stepThresholdFp with
    | inl none =>
      rw [StepTrailingStop.update_none live none] at taken
      cases taken
    | inr positive =>
      rw [StepTrailingStop.update_eq live positive] at taken
      simp only at taken
      split at taken
      · next more =>
        obtain ⟨_, computed, computes, rfl⟩ := StepTrailingStop.takeSteps_iff.mp taken
        exact .inr ⟨rfl, more, computed, computes, rfl⟩
      · next none =>
        cases taken
        exact .inl ⟨rfl, Nat.eq_zero_of_not_pos none, rfl⟩

theorem staysOver_iff (taken : callStep stop call = some next) :
    StaysOver stop call ↔ KeepsOver stop call := by
  cases call with
  | update price =>
    have same : stop.state.isOver = true → next = stop := by
      intro ended
      rcases update_cases taken with ⟨_, same⟩ | ⟨live, _⟩ | ⟨live, _⟩
      · exact same
      · exact absurd (ended.symm.trans live) (by decide)
      · exact absurd (ended.symm.trans live) (by decide)
    refine iff_of_true ?_ trivial
    intro other also
    cases taken.symm.trans also
    refine ⟨fun cancelled => ?_, fun triggered => ?_⟩
    · rw [same (by rw [cancelled]; rfl)]
      exact ⟨cancelled, fun price checks => by cases checks⟩
    · rw [same (by rw [triggered]; rfl)]
      exact triggered
  | checkTrigger price =>
    constructor
    · intro stays cancelled
      exact unlisted_iff.mp ((stays _ rfl).1 cancelled |>.2 price rfl)
    · intro keeps other also
      cases also
      refine ⟨fun cancelled => ?_, fun triggered => ?_⟩
      · have missed := keeps cancelled
        refine ⟨?_, fun other same => ?_⟩
        · show (if stop.isHit price = true then { stop with state := .triggered } else stop).state
            = .cancelled
          rw [missed, if_neg Bool.false_ne_true]
          exact cancelled
        · cases same
          exact unlisted_iff.mpr missed
      · show (if stop.isHit price = true then { stop with state := .triggered } else stop).state
          = .triggered
        split
        · rfl
        · exact triggered
  | cancel =>
    constructor
    · intro stays triggered
      have same : StepTrailingState.cancelled = .triggered := (stays _ rfl).2 triggered
      cases same
    · intro keeps other also
      cases also
      refine ⟨fun _ => ⟨rfl, fun price checks => by cases checks⟩, fun triggered => ?_⟩
      exact absurd triggered keeps

theorem capped_step (capped : stop.stepsAccumulated ≤ stop.config.maxSteps.toNat)
    (taken : callStep stop call = some next) :
    next.stepsAccumulated ≤ next.config.maxSteps.toNat := by
  cases call with
  | update price =>
    rcases update_cases taken with ⟨_, rfl⟩ | ⟨_, _, rfl⟩ | ⟨_, _, computed, _, rfl⟩
    · exact capped
    · exact capped
    · exact Nat.min_le_right _ _
  | checkTrigger price =>
    cases taken
    unfold StepTrailingStop.checkTrigger
    simp only
    split <;> exact capped
  | cancel =>
    cases taken
    exact capped

theorem stays_initial_iff (initial : stop.stopPriceFp = stop.initialStopFp) (computed : Nat) :
    (if stop.shouldUpdate computed then computed else stop.stopPriceFp) = stop.initialStopFp ↔
      stop.shouldUpdate computed = false := by
  cases moves : stop.shouldUpdate computed with
  | false =>
    rw [if_neg Bool.false_ne_true]
    exact iff_of_true initial rfl
  | true =>
    rw [if_pos rfl, ← initial]
    refine iff_of_false (fun same => ?_) Bool.noConfusion
    unfold StepTrailingStop.shouldUpdate at moves
    split at moves <;> simp only [decide_eq_true_eq] at moves <;> omega

theorem waits_iff (capped : stop.stepsAccumulated ≤ stop.config.maxSteps.toNat)
    (waits : Waits stop) (taken : callStep stop call = some next) :
    Waits next ↔ KeepsWaiting stop call := by
  cases call with
  | update price =>
    rcases update_cases taken with
      ⟨ended, rfl⟩ | ⟨_, none, rfl⟩ | ⟨live, more, computed, computes, rfl⟩
    · exact iff_of_true waits (.inl ended)
    · exact iff_of_true waits (.inr (.inl none))
    · have fewer : stop.stepsAccumulated ≤ stepsAt stop price := by
        unfold stepsAt
        omega
      show (stepsAt stop price < stop.config.minStepsBeforeTrail.toNat →
        (if stop.shouldUpdate computed = true then computed else stop.stopPriceFp) =
          stop.initialStopFp) ↔ _
      constructor
      · intro still
        refine .inr (.inr ?_)
        by_cases reached : stop.config.minStepsBeforeTrail.toNat ≤ stepsAt stop price
        · exact .inl reached
        · refine .inr fun other also => ?_
          cases computes.symm.trans also
          have initial := waits (by omega)
          exact (stays_initial_iff initial computed).mp (still (Nat.lt_of_not_le reached))
      · rintro (ended | none | reached | worse) below
        · exact absurd (ended.symm.trans live) (by decide)
        · omega
        · omega
        · have initial := waits (by omega)
          exact (stays_initial_iff initial computed).mpr (worse computed computes)
  | checkTrigger price =>
    cases taken
    refine iff_of_true ?_ trivial
    unfold StepTrailingStop.checkTrigger
    simp only
    split <;> exact waits
  | cancel =>
    cases taken
    exact iff_of_true waits trivial

end Calls

/-- Along every run of calls on a new stop its life is as promised if and only if no check hits a
cancelled stop, no triggered stop is cancelled, and every update of a live stop takes no new step,
reaches the minimum of steps or computes no better stop. -/
theorem lifeCycle_iff (setup : StepTrailingSetup) (calls : List StepCall) :
    LifeCycle setup calls ↔
      Guarded callStep KeepsOver (.new setup) calls ∧
        Guarded callStep KeepsWaiting (.new setup) calls := by
  have stays : Guarded callStep StaysOver (.new setup) calls ↔
      Guarded callStep KeepsOver (.new setup) calls :=
    @guarded_congr _ _ callStep (fun _ => True) _ _ (fun _ _ _ _ _ => trivial)
      (fun _ _ _ _ taken => staysOver_iff taken) _ trivial calls
  have waits : Always callStep Waits (.new setup) calls ↔
      Guarded callStep KeepsWaiting (.new setup) calls :=
    @always_iff_guarded _ _ callStep
      (fun stop => stop.stepsAccumulated ≤ stop.config.maxSteps.toNat) Waits KeepsWaiting
      (fun _ _ _ capped taken => capped_step capped taken)
      (fun _ _ _ capped holds taken => waits_iff capped holds taken)
      (.new setup) (Nat.zero_le _) (fun _ => rfl) calls
  constructor
  · exact fun life => ⟨stays.mp life.staysOver, waits.mp life.waits⟩
  · exact fun kept => ⟨stays.mpr kept.1, waits.mpr kept.2⟩

/-- A stop that was cancelled is triggered by a check. -/
theorem cancelled_triggers :
    ¬∀ (setup : StepTrailingSetup) (calls : List StepCall), LifeCycle setup calls := by
  intro claim
  have stays := (claim defaultLong [.cancel, .checkTrigger 98]).staysOver
  have checked := (stays _ rfl).2 _ rfl
  have kept := (checked.1 _ rfl).1 rfl
  exact absurd kept.1 (by decide +kernel)

end TradingBot.Oms.StepTrailing
