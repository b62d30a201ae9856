import Mathlib.Data.List.Chain
import TradingBot.Foundation.Run
import TradingBot.Execution.TwapScheduler

/-!
# The life of a slice schedule

Between two resets the slices of an order are created once and handed out in turn. The offsets that
are to hide the pattern of the times may take a slice before the one in front of it or beyond the
end, an execution at time zero is taken for none, and two calls change a state that is final.
-/

open Run MachineInt

namespace TradingBot.Execution.SliceSchedule

/-- One call on a scheduler. -/
inductive TwapCall where
  | schedule (startTimeNs : Nat)
  | start
  | getNextSlice (currentTimeNs : Nat)
  | recordFill (sliceId filledQuantity : Nat)
  | pause
  | resume
  | cancel

/-- A slice that was handed out, with the time and the state of the scheduler. -/
structure Handout where
  slice : TwapSlice
  timeNs : Nat
  state : TwapState

/-- A scheduler with what happened since it was reset: the last reading of the clock, the slices
created and handed out, and the first final state. -/
structure Session where
  scheduler : TwapScheduler
  clockNs : Nat
  created : List TwapSlice
  handed : List Handout
  ended : Option TwapState

/-- Whether a state is final. -/
def isFinal (state : TwapState) : Bool := state ∈ [TwapState.completed, .cancelled]

/-- A session after its scheduler moved. -/
def Session.moved (session : Session) (scheduler : TwapScheduler) : Session :=
  { session with
    scheduler := scheduler
    ended := session.ended.or (if isFinal scheduler.state then some scheduler.state else none) }

/-- A session after a call; the clock does not go back. -/
def step (session : Session) : TwapCall → Option Session
  | .schedule startTimeNs => (session.scheduler.schedule startTimeNs).map fun answer =>
      { session.moved answer.2 with
        created := if answer.1 then answer.2.pendingSlices else session.created }
  | .start => some (session.moved session.scheduler.start.2)
  | .getNextSlice currentTimeNs =>
    if currentTimeNs < session.clockNs then none
    else (session.scheduler.getNextSlice currentTimeNs).map fun answer =>
      { session.moved answer.2 with
        clockNs := currentTimeNs
        handed := session.handed ++ (answer.1.map fun slice =>
          { slice := slice, timeNs := currentTimeNs, state := session.scheduler.state }).toList }
  | .recordFill _ filledQuantity =>
    (session.scheduler.recordFill filledQuantity).map fun scheduler => session.moved scheduler
  | .pause => some (session.moved session.scheduler.pause)
  | .resume => some (session.moved session.scheduler.resume.2)
  | .cancel => some (session.moved session.scheduler.cancel)

/-- A session of a new scheduler. -/
def Session.start (scheduler : TwapScheduler) : Session where
  scheduler := scheduler
  clockNs := 0
  created := []
  handed := []
  ended := none

/-- The slices that are created have times that do not go back and lie between the start and the
end. -/
structure Timed (session : Session) : Prop where
  ordered : (session.created.map TwapSlice.scheduledTimeNs).Pairwise (· ≤ ·)
  within : ∀ slice ∈ session.created, session.scheduler.startTimeNs ≤ slice.scheduledTimeNs ∧
    slice.scheduledTimeNs ≤ session.scheduler.endTimeNs

/-- Slices are handed out while the scheduler is running, each at most once and in the order of
their numbers, not before their times and not sooner than the minimum interval after the one
before; their times are in order; and a final state stays. -/
structure Orderly (session : Session) : Prop where
  running : ∀ handout ∈ session.handed, handout.state = .running
  numbered : (session.handed.map fun handout => handout.slice.sliceId).Pairwise (· < ·)
  due : ∀ handout ∈ session.handed, handout.slice.scheduledTimeNs ≤ handout.timeNs
  apart : session.handed.IsChain fun first second =>
    first.timeNs + session.scheduler.config.minIntervalNs ≤ second.timeNs
  timed : Timed session
  final : ∀ state ∈ session.ended, session.scheduler.state = state

/-- The offsets of some slices leave their times in order: they never start again from the front of
the window, or the interval makes up for it. -/
def OffsetsOrdered (config : TwapConfig) (count interval : Nat) : Prop :=
  (count - 1) * (17 % config.randomizationWindowMs) < config.randomizationWindowMs ∨
    (config.randomizationWindowMs - 17 % config.randomizationWindowMs) * 1000000 ≤ interval

/-- The last of some slices has a time within the duration. -/
def LastWithin (config : TwapConfig) (count interval : Nat) : Prop :=
  (count - 1) * interval + config.randomizationNs (count - 1) ≤ config.durationNs

/-- A call is in bounds: an order is scheduled with offsets that leave the times in order and
within the duration; a slice that is due after one was handed out at time zero is asked for after
the minimum interval; no fill completes an order that is cancelled, and no completed order is
cancelled. -/
def InBounds (session : Session) : TwapCall → Prop
  | .schedule _ => session.scheduler.totalQuantity ≠ 0 → session.scheduler.state = .idle →
      OffsetsOrdered session.scheduler.config session.scheduler.sliceQuantities.length
          session.scheduler.intervalNs ∧
        LastWithin session.scheduler.config session.scheduler.sliceQuantities.length
          session.scheduler.intervalNs
  | .getNextSlice currentTimeNs => session.scheduler.isActive = true →
      (∃ slice ∈ session.scheduler.pendingSlices.head?, slice.scheduledTimeNs ≤ currentTimeNs) →
        (∃ handout ∈ session.handed.getLast?, handout.timeNs = 0) →
          session.scheduler.config.minIntervalNs ≤ currentTimeNs
  | .recordFill _ filledQuantity => session.scheduler.state = .cancelled →
      session.scheduler.executedQuantity + filledQuantity < session.scheduler.totalQuantity
  | .cancel => session.scheduler.state ≠ .completed
  | _ => True

instance (session : Session) : DecidablePred (InBounds session)
  | .schedule _ => inferInstanceAs (Decidable (_ → _ → (_ < _ ∨ _ ≤ _) ∧ _ ≤ _))
  | .getNextSlice _ =>
    inferInstanceAs (Decidable (_ → (∃ slice ∈ _, _ ≤ _) → (∃ handout ∈ _, _ = _) → _ ≤ _))
  | .recordFill _ _ => inferInstanceAs (Decidable (_ → _ < _))
  | .cancel => inferInstanceAs (Decidable (_ ≠ _))
  | .start | .pause | .resume => inferInstanceAs (Decidable True)

/-! ## The times of the slices -/

section Times

variable {config : TwapConfig} {count interval step_ window : Nat}

theorem reaches (positive : 0 < window) (reached : window ≤ count * step_) :
    ∃ index, index < count ∧ index * step_ < window ∧ window ≤ (index + 1) * step_ := by
  induction count with
  | zero => omega
  | succ count ih =>
    by_cases before : window ≤ count * step_
    · obtain ⟨index, below, rest⟩ := ih before
      exact ⟨index, Nat.lt_succ_of_lt below, rest⟩
    · exact ⟨count, Nat.lt_succ_self count, not_le.mp before, reached⟩

theorem offset_succ (positive : 0 < window) (index : Nat) :
    (index * 17 + 17) % window =
      if index * 17 % window + 17 % window < window then index * 17 % window + 17 % window
      else index * 17 % window + 17 % window - window := by
  have first := Nat.mod_lt (index * 17) positive
  have second := Nat.mod_lt 17 positive
  rw [Nat.add_mod]
  by_cases below : index * 17 % window + 17 % window < window
  · rw [if_pos below, Nat.mod_eq_of_lt below]
  · rw [if_neg below, Nat.mod_eq_sub_mod (not_lt.mp below), Nat.mod_eq_of_lt (by omega)]

theorem offset_first {index : Nat} (below : index * (17 % window) < window) :
    index * 17 % window = index * (17 % window) := by
  rw [← Nat.mul_mod_mod, Nat.mod_eq_of_lt below]

theorem offsets_ordered_iff : OffsetsOrdered config count interval ↔
    ∀ index, index + 1 < count → index * interval + config.randomizationNs index ≤
      (index + 1) * interval + config.randomizationNs (index + 1) := by
  unfold OffsetsOrdered TwapConfig.randomizationNs
  by_cases positive : 0 < config.randomizationWindowMs
  · simp only [if_pos positive, Nat.succ_mul]
    constructor
    · intro ordered index inside
      have next := offset_succ positive index
      by_cases further : index * 17 % config.randomizationWindowMs +
          17 % config.randomizationWindowMs < config.randomizationWindowMs
      · rw [if_pos further] at next
        omega
      · rw [if_neg further] at next
        rcases ordered with never | made
        · -- No offset starts again before the last slice.
          exfalso
          have within : (index + 1) * (17 % config.randomizationWindowMs) ≤
              (count - 1) * (17 % config.randomizationWindowMs) :=
            Nat.mul_le_mul_right _ (by omega)
          rw [Nat.succ_mul] at within
          have first : index * 17 % config.randomizationWindowMs =
              index * (17 % config.randomizationWindowMs) := offset_first (by omega)
          omega
        · omega
    · intro ordered
      by_contra neither
      obtain ⟨starts, short⟩ := not_or.mp neither
      obtain ⟨index, inside, below, over_⟩ := reaches positive (not_lt.mp starts)
      have first := offset_first below
      have next := offset_succ positive index
      rw [Nat.succ_mul] at over_
      rw [first, if_neg (by omega)] at next
      have bound := ordered index (by omega)
      rw [first, next] at bound
      omega
  · simp only [if_neg positive]
    refine iff_of_true (.inr ?_) fun index _ => ?_
    · rw [Nat.eq_zero_of_not_pos positive, Nat.zero_sub, Nat.zero_mul]
      exact Nat.zero_le _
    · rw [Nat.succ_mul]
      omega

theorem pairwise_range_iff {count : Nat} (time : Nat → Nat) :
    ((List.range count).map time).Pairwise (· ≤ ·) ↔
      ∀ index, index + 1 < count → time index ≤ time (index + 1) := by
  rw [← List.isChain_iff_pairwise, List.isChain_iff_getElem]
  simp

end Times

/-! ## One call -/

section Calls

variable {session next : Session} {scheduler : TwapScheduler}

/-- A scheduler and what happened since it was reset fit together. -/
structure Consistent (session : Session) : Prop where
  active : session.scheduler.isActive = true ↔ session.scheduler.state = .running
  queue : (session.handed.map Handout.slice ++ session.scheduler.pendingSlices) <+: session.created
  numbered : (session.created.map TwapSlice.sliceId).Pairwise (· < ·)
  last : session.scheduler.lastExecutionTime =
    (session.handed.getLast?.map Handout.timeNs).getD 0
  clock : ∀ handout ∈ session.handed.getLast?, handout.timeNs ≤ session.clockNs
  idle : session.scheduler.state = .idle → session.created = []
  unended : session.ended = none → isFinal session.scheduler.state = false
  ended : ∀ state ∈ session.ended, isFinal state = true

theorem ended_moved (session : Session) (ended : ∀ state ∈ session.ended, isFinal state = true)
    (scheduler : TwapScheduler) :
    ((session.moved scheduler).ended = none → isFinal scheduler.state = false) ∧
      ∀ state ∈ (session.moved scheduler).ended, isFinal state = true := by
  unfold Session.moved
  dsimp only
  cases before : session.ended with
  | none =>
    rw [Option.none_or]
    by_cases final : isFinal scheduler.state = true
    · rw [if_pos final]
      exact ⟨nofun, fun state same => Option.some.inj same ▸ final⟩
    · rw [if_neg final]
      exact ⟨fun _ => Bool.eq_false_of_not_eq_true final, nofun⟩
  | some state =>
    rw [Option.some_or]
    exact ⟨nofun, fun other same => ended other (before.trans same)⟩

theorem final_moved (session : Session) (scheduler : TwapScheduler) :
    (∀ state ∈ (session.moved scheduler).ended, scheduler.state = state) ↔
      ∀ state ∈ session.ended, scheduler.state = state := by
  unfold Session.moved
  dsimp only
  cases session.ended with
  | none =>
    rw [Option.none_or]
    refine iff_of_true ?_ nofun
    intro state final
    split at final
    · exact Option.some.inj final
    · cases final
  | some state => rw [Option.some_or]

theorem ended_none (consistent : Consistent session) (orderly : Orderly session)
    (live : isFinal session.scheduler.state = false) : session.ended = none := by
  cases before : session.ended with
  | none => rfl
  | some state =>
    have final := consistent.ended state before
    rw [← orderly.final state before, live] at final
    cases final

theorem ended_some (consistent : Consistent session) (orderly : Orderly session)
    (final : isFinal session.scheduler.state = true) :
    session.ended = some session.scheduler.state := by
  cases before : session.ended with
  | none =>
    have live := consistent.unended before
    rw [final] at live
    cases live
  | some state => rw [orderly.final state before]

/-- What a call leaves alone that hands nothing out and schedules nothing. -/
structure Quiet (before after : TwapScheduler) : Prop where
  config : after.config = before.config
  times : after.startTimeNs = before.startTimeNs ∧ after.endTimeNs = before.endTimeNs
  last : after.lastExecutionTime = before.lastExecutionTime
  pending : after.pendingSlices = before.pendingSlices ∨ after.pendingSlices = []
  active : after.isActive = true ↔ after.state = .running
  idle : after.state = .idle → before.state = .idle

theorem consistent_moved (consistent : Consistent session)
    (quiet : Quiet session.scheduler scheduler) : Consistent (session.moved scheduler) where
  active := quiet.active
  queue := by
    show (session.handed.map Handout.slice ++ scheduler.pendingSlices) <+: session.created
    rcases quiet.pending with same | none_
    · rw [same]
      exact consistent.queue
    · rw [none_, List.append_nil]
      exact (List.prefix_append _ _).trans consistent.queue
  numbered := consistent.numbered
  last := quiet.last.trans consistent.last
  clock := consistent.clock
  idle := fun still => consistent.idle (quiet.idle still)
  unended := (ended_moved session consistent.ended scheduler).1
  ended := (ended_moved session consistent.ended scheduler).2

theorem orderly_moved (orderly : Orderly session) (quiet : Quiet session.scheduler scheduler) :
    Orderly (session.moved scheduler) ↔ ∀ state ∈ session.ended, scheduler.state = state := by
  rw [← final_moved session scheduler]
  constructor
  · exact Orderly.final
  · intro final
    have timed : Timed (session.moved scheduler) := by
      refine ⟨orderly.timed.ordered, fun slice member => ?_⟩
      show scheduler.startTimeNs ≤ _ ∧ _ ≤ scheduler.endTimeNs
      rw [quiet.times.1, quiet.times.2]
      exact orderly.timed.within slice member
    refine ⟨orderly.running, orderly.numbered, orderly.due, ?_, timed, final⟩
    show session.handed.IsChain fun first second =>
      first.timeNs + scheduler.config.minIntervalNs ≤ second.timeNs
    rw [quiet.config]
    exact orderly.apart

theorem quiet_refl (consistent : Consistent session) : Quiet session.scheduler session.scheduler :=
  ⟨rfl, ⟨rfl, rfl⟩, rfl, .inl rfl, consistent.active, id⟩

theorem slices_times (scheduler : TwapScheduler) (startTimeNs : Nat) :
    (scheduler.slices startTimeNs).map TwapSlice.scheduledTimeNs =
      (List.range scheduler.sliceQuantities.length).map (scheduler.timeNs startTimeNs) := by
  unfold TwapScheduler.slices
  apply List.ext_getElem
  · simp
  · intro index _ _
    simp

theorem slices_numbered (scheduler : TwapScheduler) (startTimeNs : Nat) :
    ((scheduler.slices startTimeNs).map TwapSlice.sliceId).Pairwise (· < ·) := by
  have numbers : (scheduler.slices startTimeNs).map TwapSlice.sliceId =
      List.range scheduler.sliceQuantities.length := by
    unfold TwapScheduler.slices
    apply List.ext_getElem
    · simp
    · intro index _ _
      simp
  rw [numbers]
  exact List.pairwise_lt_range

theorem slices_ordered_iff (scheduler : TwapScheduler) (startTimeNs : Nat) :
    ((scheduler.slices startTimeNs).map TwapSlice.scheduledTimeNs).Pairwise (· ≤ ·) ↔
      OffsetsOrdered scheduler.config scheduler.sliceQuantities.length scheduler.intervalNs := by
  rw [slices_times, pairwise_range_iff, offsets_ordered_iff]
  refine forall_congr' fun index => imp_congr_right fun _ => ?_
  unfold TwapScheduler.timeNs
  omega

theorem slices_within_iff (scheduler : TwapScheduler) (startTimeNs : Nat) :
    (∀ slice ∈ scheduler.slices startTimeNs, startTimeNs ≤ slice.scheduledTimeNs ∧
        slice.scheduledTimeNs ≤ startTimeNs + scheduler.config.durationNs) ↔
      ∀ index < scheduler.sliceQuantities.length,
        scheduler.timeNs startTimeNs index ≤ startTimeNs + scheduler.config.durationNs := by
  have times : ∀ property : Nat → Prop, (∀ slice ∈ scheduler.slices startTimeNs,
      property slice.scheduledTimeNs) ↔ ∀ index < scheduler.sliceQuantities.length,
        property (scheduler.timeNs startTimeNs index) := by
    intro property
    have mapped := @List.forall_mem_map _ _ TwapSlice.scheduledTimeNs
      (scheduler.slices startTimeNs) property
    rw [← mapped, slices_times, List.forall_mem_map]
    simp only [List.mem_range]
  rw [times fun time => startTimeNs ≤ time ∧ time ≤ startTimeNs + scheduler.config.durationNs]
  refine forall_congr' fun index => imp_congr_right fun _ => and_iff_right ?_
  unfold TwapScheduler.timeNs
  omega

theorem timeNs_le_last {scheduler : TwapScheduler} (startTimeNs : Nat)
    (offsets : OffsetsOrdered scheduler.config scheduler.sliceQuantities.length
      scheduler.intervalNs) {index : Nat} (inside : index < scheduler.sliceQuantities.length) :
    scheduler.timeNs startTimeNs index ≤
      scheduler.timeNs startTimeNs (scheduler.sliceQuantities.length - 1) := by
  have later := (slices_ordered_iff scheduler startTimeNs).mpr offsets
  rw [slices_times] at later
  by_cases same : index = scheduler.sliceQuantities.length - 1
  · exact same ▸ le_refl _
  · have spread := List.pairwise_iff_getElem.mp (List.pairwise_map.mp later) index
      (scheduler.sliceQuantities.length - 1) (by rw [List.length_range]; exact inside)
      (by rw [List.length_range]; omega) (by omega)
    rw [List.getElem_range, List.getElem_range] at spread
    exact spread

theorem slices_timed_iff (scheduler : TwapScheduler) (startTimeNs : Nat) :
    ((scheduler.slices startTimeNs).map TwapSlice.scheduledTimeNs).Pairwise (· ≤ ·) ∧
        (∀ slice ∈ scheduler.slices startTimeNs, startTimeNs ≤ slice.scheduledTimeNs ∧
          slice.scheduledTimeNs ≤ startTimeNs + scheduler.config.durationNs) ↔
      OffsetsOrdered scheduler.config scheduler.sliceQuantities.length scheduler.intervalNs ∧
        LastWithin scheduler.config scheduler.sliceQuantities.length scheduler.intervalNs := by
  rw [slices_ordered_iff, slices_within_iff]
  refine and_congr_right fun offsets => ?_
  unfold LastWithin
  constructor
  · intro within
    cases count : scheduler.sliceQuantities.length with
    | zero =>
      have none_ : scheduler.config.randomizationNs 0 = 0 := by
        unfold TwapConfig.randomizationNs
        simp
      rw [Nat.zero_sub, Nat.zero_mul, none_]
      exact Nat.zero_le _
    | succ more =>
      have bound := within more (by omega)
      unfold TwapScheduler.timeNs at bound
      rw [Nat.add_sub_cancel]
      omega
  · intro last index inside
    have before := timeNs_le_last startTimeNs offsets inside
    unfold TwapScheduler.timeNs at before ⊢
    omega

theorem idle_empty (consistent : Consistent session) (idle : session.scheduler.state = .idle) :
    session.handed = [] ∧ session.scheduler.pendingSlices = [] := by
  have queue := consistent.queue
  rw [consistent.idle idle, List.prefix_nil, List.append_eq_nil_iff, List.map_eq_nil_iff] at queue
  exact queue

/-- A schedule is refused or starts an idle one. -/
theorem schedule_cases {scheduled : Bool} {startTimeNs : Nat}
    (answer : session.scheduler.schedule startTimeNs = some (scheduled, scheduler)) :
    (scheduled = false ∧ scheduler = session.scheduler ∧
        (session.scheduler.totalQuantity = 0 ∨ session.scheduler.state ≠ .idle)) ∨
      scheduled = true ∧ session.scheduler.state = .idle ∧
        session.scheduler.totalQuantity ≠ 0 ∧ scheduler = { session.scheduler with
          startTimeNs := startTimeNs
          endTimeNs := startTimeNs + session.scheduler.config.durationNs
          pendingSlices :=
            session.scheduler.pendingSlices ++ session.scheduler.slices startTimeNs
          slicesCreated := session.scheduler.slicesCreated +
            (session.scheduler.slices startTimeNs).length
          state := .scheduled } := by
  unfold TwapScheduler.schedule at answer
  split at answer
  · next refused =>
    cases answer
    exact .inl ⟨rfl, rfl, refused⟩
  · next accepted =>
    obtain ⟨total, idle⟩ := not_or.mp accepted
    dsimp only at answer
    split at answer
    · cases answer
      exact .inr ⟨rfl, not_not.mp idle, total, rfl⟩
    · cases answer

/-- A session after a scheduling that is accepted. -/
def Session.scheduled (session : Session) (startTimeNs : Nat) : Session :=
  let slices := session.scheduler.pendingSlices ++ session.scheduler.slices startTimeNs
  { session.moved { session.scheduler with
      startTimeNs := startTimeNs
      endTimeNs := startTimeNs + session.scheduler.config.durationNs
      pendingSlices := slices
      slicesCreated := session.scheduler.slicesCreated +
        (session.scheduler.slices startTimeNs).length
      state := .scheduled } with
    created := slices }

section

variable (consistent : Consistent session)
include consistent

theorem scheduled_created (idle : session.scheduler.state = .idle) (startTimeNs : Nat) :
    (session.scheduled startTimeNs).created = session.scheduler.slices startTimeNs := by
  show session.scheduler.pendingSlices ++ _ = _
  rw [(idle_empty consistent idle).2, List.nil_append]

theorem scheduled_consistent (idle : session.scheduler.state = .idle) (startTimeNs : Nat) :
    Consistent (session.scheduled startTimeNs) where
  active := by
    show session.scheduler.isActive = true ↔ TwapState.scheduled = .running
    rw [consistent.active, idle]
    decide
  queue := by
    show (session.handed.map Handout.slice ++ _) <+: _
    rw [(idle_empty consistent idle).1]
    exact List.prefix_refl _
  numbered := by
    rw [scheduled_created consistent idle]
    exact slices_numbered _ _
  last := consistent.last
  clock := consistent.clock
  idle := nofun
  unended := (ended_moved session consistent.ended _).1
  ended := (ended_moved session consistent.ended _).2

/-- A scheduling that is accepted keeps a session orderly exactly if its slices have times in order
within the duration. -/
theorem scheduled_orderly_iff (orderly : Orderly session) (idle : session.scheduler.state = .idle)
    (startTimeNs : Nat) : Orderly (session.scheduled startTimeNs) ↔
      OffsetsOrdered session.scheduler.config session.scheduler.sliceQuantities.length
          session.scheduler.intervalNs ∧
        LastWithin session.scheduler.config session.scheduler.sliceQuantities.length
          session.scheduler.intervalNs := by
  have created := scheduled_created consistent idle startTimeNs
  rw [← slices_timed_iff session.scheduler startTimeNs, ← created]
  constructor
  · exact fun after => ⟨after.timed.ordered, after.timed.within⟩
  · intro times
    refine ⟨orderly.running, orderly.numbered, orderly.due, ?_, ⟨times.1, times.2⟩, ?_⟩
    · show session.handed.IsChain _
      rw [(idle_empty consistent idle).1]
      exact List.isChain_nil
    · have live : isFinal session.scheduler.state = false := by
        rw [idle]
        rfl
      apply (final_moved session _).mpr
      rw [ended_none consistent orderly live]
      exact nofun

/-- Scheduling keeps the order exactly when it is in bounds. -/
theorem schedule_step (orderly : Orderly session) {startTimeNs : Nat}
    (stepped : step session (.schedule startTimeNs) = some next) :
    Consistent next ∧ (Orderly next ↔ InBounds session (.schedule startTimeNs)) := by
  obtain ⟨⟨scheduled, scheduler⟩, answer, same⟩ := Option.map_eq_some_iff.mp stepped
  cases same
  rcases schedule_cases answer with ⟨rfl, rfl, refused⟩ | ⟨rfl, idle, total, rfl⟩
  · refine ⟨consistent_moved consistent (quiet_refl consistent), ?_⟩
    refine iff_of_true ((orderly_moved orderly (quiet_refl consistent)).mpr orderly.final) ?_
    exact fun total idle => absurd refused (not_or.mpr ⟨total, not_not_intro idle⟩)
  · refine ⟨scheduled_consistent consistent idle startTimeNs, ?_⟩
    apply (scheduled_orderly_iff consistent orderly idle startTimeNs).trans
    exact ⟨fun bounds _ _ => bounds, fun bounds => bounds total idle⟩

end

variable {currentTimeNs : Nat}

/-- What `get_next_slice` answers: nothing, unless the first slice is due and the minimum interval
since the last execution is over; an execution at time zero counts as none. -/
theorem getNextSlice_cases {slice : Option TwapSlice}
    (answer : session.scheduler.getNextSlice currentTimeNs = some (slice, scheduler)) :
    (slice = none ∧ scheduler = session.scheduler ∧ (session.scheduler.isActive = true →
        (∃ slice ∈ session.scheduler.pendingSlices.head?,
          slice.scheduledTimeNs ≤ currentTimeNs) → 0 < session.scheduler.lastExecutionTime)) ∨
      ∃ first rest, slice = some first ∧ session.scheduler.isActive = true ∧
        session.scheduler.pendingSlices = first :: rest ∧
        first.scheduledTimeNs ≤ currentTimeNs ∧
        (0 < session.scheduler.lastExecutionTime → session.scheduler.config.minIntervalNs ≤
          currentTimeNs - session.scheduler.lastExecutionTime) ∧
        scheduler = { session.scheduler with
          pendingSlices := rest
          nextSliceIndex := session.scheduler.nextSliceIndex + 1
          lastExecutionTime := currentTimeNs } := by
  unfold TwapScheduler.getNextSlice at answer
  by_cases active : session.scheduler.isActive = true
  · rw [if_neg (by rw [active]; decide)] at answer
    cases pending : session.scheduler.pendingSlices with
    | nil =>
      rw [pending] at answer
      cases answer
      exact .inl ⟨rfl, rfl, fun _ ⟨_, member, _⟩ => nomatch member⟩
    | cons first rest =>
      simp only [pending] at answer
      obtain ⟨over_, interval, same⟩ := Option.map_eq_some_iff.mp answer
      have due : (∃ slice ∈ (first :: rest).head?, slice.scheduledTimeNs ≤ currentTimeNs) ↔
          first.scheduledTimeNs ≤ currentTimeNs :=
        ⟨fun ⟨_, member, due⟩ => Option.some.inj member ▸ due, fun due => ⟨first, rfl, due⟩⟩
      unfold TwapScheduler.intervalOver at interval
      by_cases handed : over_ = true ∧ first.scheduledTimeNs ≤ currentTimeNs
      · rw [if_pos handed] at same
        cases same
        refine .inr ⟨first, rest, rfl, active, rfl, handed.2, fun positive => ?_, rfl⟩
        rw [if_pos positive] at interval
        split at interval
        · exact of_decide_eq_true ((Option.some.inj interval).trans handed.1)
        · cases interval
      · rw [if_neg handed] at same
        cases same
        refine .inl ⟨rfl, rfl, fun _ ready => ?_⟩
        by_contra zero
        rw [if_neg zero] at interval
        exact handed ⟨(Option.some.inj interval).symm, due.mp ready⟩
  · rw [if_pos (by rw [Bool.eq_false_of_not_eq_true active]; decide)] at answer
    cases answer
    exact .inl ⟨rfl, rfl, fun works => absurd works active⟩

section

variable (consistent : Consistent session)
include consistent

theorem consistent_handout {first : TwapSlice} {rest : List TwapSlice}
    (pending : session.scheduler.pendingSlices = first :: rest) (state : TwapState) : Consistent {
      session.moved { session.scheduler with
        pendingSlices := rest
        nextSliceIndex := session.scheduler.nextSliceIndex + 1
        lastExecutionTime := currentTimeNs } with
      clockNs := currentTimeNs
      handed := session.handed ++
        [{ slice := first, timeNs := currentTimeNs, state := state }] } where
  active := consistent.active
  queue := by
    have queue := consistent.queue
    rw [pending] at queue
    show ((session.handed ++ [_]).map Handout.slice ++ rest) <+: session.created
    rw [List.map_append, List.append_assoc]
    exact queue
  numbered := consistent.numbered
  last := by
    rw [List.getLast?_append_of_ne_nil _ (List.cons_ne_nil _ _)]
    rfl
  clock := by
    intro handout member
    rw [List.getLast?_append_of_ne_nil _ (List.cons_ne_nil _ _)] at member
    exact Option.some.inj member ▸ le_refl _
  idle := consistent.idle
  unended := (ended_moved session consistent.ended _).1
  ended := (ended_moved session consistent.ended _).2

/-- A slice handed out in turn, when it is due and after the minimum interval, keeps a session
orderly. -/
theorem orderly_handout (orderly : Orderly session) {first : TwapSlice} {rest : List TwapSlice}
    (pending : session.scheduler.pendingSlices = first :: rest)
    (due : first.scheduledTimeNs ≤ currentTimeNs) (running : session.scheduler.state = .running)
    (apart : ∀ handout ∈ session.handed.getLast?,
      handout.timeNs + session.scheduler.config.minIntervalNs ≤ currentTimeNs) :
    Orderly {
      session.moved { session.scheduler with
        pendingSlices := rest
        nextSliceIndex := session.scheduler.nextSliceIndex + 1
        lastExecutionTime := currentTimeNs } with
      clockNs := currentTimeNs
      handed := session.handed ++ [{
        slice := first, timeNs := currentTimeNs, state := session.scheduler.state }] } where
  running := by
    intro handout member
    rcases List.mem_append.mp member with old | new
    · exact orderly.running handout old
    · rw [List.mem_singleton.mp new]
      exact running
  numbered := by
    have queue := consistent.queue
    rw [pending] at queue
    have some_ : (session.handed.map Handout.slice ++ [first]).Sublist session.created := by
      apply List.Sublist.trans _ queue.sublist
      exact List.Sublist.append_left (List.singleton_sublist.mpr List.mem_cons_self) _
    have numbered := consistent.numbered.sublist (some_.map TwapSlice.sliceId)
    rw [List.map_append, List.map_map] at numbered
    rw [List.map_append]
    exact numbered
  due := by
    intro handout member
    rcases List.mem_append.mp member with old | new
    · exact orderly.due handout old
    · rw [List.mem_singleton.mp new]
      exact due
  apart := by
    apply List.isChain_append.mpr
    refine ⟨orderly.apart, List.isChain_singleton _, fun handout last other same => ?_⟩
    rw [← Option.some.inj same]
    exact apart handout last
  timed := ⟨orderly.timed.ordered, orderly.timed.within⟩
  final := (final_moved session _).mpr orderly.final

theorem getNextSlice_step (orderly : Orderly session)
    (stepped : step session (.getNextSlice currentTimeNs) = some next) :
    Consistent next ∧ (Orderly next ↔ InBounds session (.getNextSlice currentTimeNs)) := by
  simp only [step] at stepped
  split at stepped
  · cases stepped
  · next clock =>
    have onward : session.clockNs ≤ currentTimeNs := not_lt.mp clock
    obtain ⟨⟨slice, scheduler⟩, answer, same⟩ := Option.map_eq_some_iff.mp stepped
    cases same
    rcases getNextSlice_cases answer with ⟨rfl, rfl, blocked⟩ |
        ⟨first, rest, rfl, active, pending, due, interval, rfl⟩
    · have kept := consistent_moved consistent (quiet_refl consistent)
      have stays := (orderly_moved orderly (quiet_refl consistent)).mpr orderly.final
      have bounded : InBounds session (.getNextSlice currentTimeNs) := by
        intro active ready ⟨handout, last, zero⟩
        have positive := blocked active ready
        rw [consistent.last, last] at positive
        exact absurd zero (Nat.ne_of_gt positive)
      show Consistent { session.moved session.scheduler with
        clockNs := currentTimeNs, handed := session.handed ++ [] } ∧ (Orderly { session.moved
        session.scheduler with clockNs := currentTimeNs, handed := session.handed ++ [] } ↔ _)
      rw [List.append_nil]
      constructor
      · exact ⟨kept.active, kept.queue, kept.numbered, kept.last,
          fun handout last => le_trans (kept.clock handout last) onward, kept.idle, kept.unended,
          kept.ended⟩
      · refine iff_of_true ?_ bounded
        exact ⟨stays.running, stays.numbered, stays.due, stays.apart,
          ⟨stays.timed.ordered, stays.timed.within⟩, stays.final⟩
    · refine ⟨consistent_handout consistent pending _, fun after => ?_, fun bounds => ?_⟩
      · intro _ _ ⟨handout, last, zero⟩
        have chain := (List.isChain_append.mp after.apart).2.2 handout last _ rfl
        rw [zero, Nat.zero_add] at chain
        exact chain
      · apply orderly_handout consistent orderly pending due (consistent.active.mp active)
        intro handout last
        have executed : session.scheduler.lastExecutionTime = handout.timeNs := by
          rw [consistent.last, last]
          rfl
        have before := consistent.clock handout last
        by_cases zero : handout.timeNs = 0
        · have room := bounds active ⟨first, by rw [pending]; rfl, due⟩ ⟨handout, last, zero⟩
          omega
        · have room := interval (by omega)
          omega

theorem quiet_step (orderly : Orderly session) {call : TwapCall}
    (quiet : Quiet session.scheduler scheduler)
    (bounds : (∀ state ∈ session.ended, scheduler.state = state) ↔ InBounds session call) :
    Consistent (session.moved scheduler) ∧
      (Orderly (session.moved scheduler) ↔ InBounds session call) :=
  ⟨consistent_moved consistent quiet, (orderly_moved orderly quiet).trans bounds⟩

theorem stays_live (orderly : Orderly session) (live : isFinal session.scheduler.state = false)
    (scheduler : TwapScheduler) : ∀ state ∈ session.ended, scheduler.state = state := by
  rw [ended_none consistent orderly live]
  exact nofun

theorem recordFill_step (orderly : Orderly session) {sliceId filledQuantity : Nat}
    (stepped : step session (.recordFill sliceId filledQuantity) = some next) :
    Consistent next ∧ (Orderly next ↔ InBounds session (.recordFill sliceId filledQuantity)) := by
  obtain ⟨scheduler, answer, same⟩ := Option.map_eq_some_iff.mp stepped
  cases same
  unfold TwapScheduler.recordFill at answer
  dsimp only at answer
  split at answer
  · split at answer
    · next whole =>
      cases answer
      apply quiet_step consistent orderly
      · exact ⟨rfl, ⟨rfl, rfl⟩, rfl, .inl rfl, iff_of_false nofun nofun, nofun⟩
      cases final : isFinal session.scheduler.state with
      | false =>
        refine iff_of_true (stays_live consistent orderly final _) fun cancelled => ?_
        rw [cancelled] at final
        cases final
      | true =>
        rw [ended_some consistent orderly final]
        constructor
        · intro completed cancelled
          have same : TwapState.completed = session.scheduler.state := completed _ rfl
          rw [cancelled] at same
          cases same
        · intro bounds state same
          have uncancelled : session.scheduler.state ≠ .cancelled := fun cancelled =>
            absurd whole (not_le.mpr (bounds cancelled))
          have over_ : session.scheduler.state = .completed := by
            revert final uncancelled
            cases session.scheduler.state <;> decide
          exact over_.symm.trans (Option.some.inj same)
    · next part =>
      cases answer
      apply quiet_step consistent orderly
      · exact ⟨rfl, ⟨rfl, rfl⟩, rfl, .inl rfl, consistent.active, id⟩
      exact iff_of_true orderly.final fun _ => not_le.mp part
  · cases answer

/-- A quiet call of a live scheduler keeps the order. -/
theorem live_step (orderly : Orderly session) {call : TwapCall}
    (live : isFinal session.scheduler.state = false) (quiet : Quiet session.scheduler scheduler)
    (free : InBounds session call) : Consistent (session.moved scheduler) ∧
      (Orderly (session.moved scheduler) ↔ InBounds session call) :=
  quiet_step consistent orderly quiet
    (iff_of_true (stays_live consistent orderly live scheduler) free)

theorem cancel_step (orderly : Orderly session) :
    Consistent (session.moved session.scheduler.cancel) ∧
      (Orderly (session.moved session.scheduler.cancel) ↔ InBounds session .cancel) := by
  apply quiet_step consistent orderly
  · exact ⟨rfl, ⟨rfl, rfl⟩, rfl, .inr rfl, iff_of_false nofun nofun, nofun⟩
  cases final : isFinal session.scheduler.state with
  | false =>
    refine iff_of_true (stays_live consistent orderly final _) fun completed => ?_
    rw [completed] at final
    cases final
  | true =>
    rw [ended_some consistent orderly final]
    constructor
    · intro cancelled completed
      have same : TwapState.cancelled = session.scheduler.state := cancelled _ rfl
      rw [completed] at same
      cases same
    · intro incomplete state same
      have over_ : session.scheduler.state = .cancelled := by
        have incomplete : session.scheduler.state ≠ .completed := incomplete
        revert final incomplete
        cases session.scheduler.state <;> decide
      exact over_.symm.trans (Option.some.inj same)

/-- One call keeps the order exactly when it is in bounds. -/
theorem call_step {call : TwapCall} (orderly : Orderly session)
    (stepped : step session call = some next) :
    Consistent next ∧ (Orderly next ↔ InBounds session call) := by
  cases call with
  | schedule startTimeNs => exact schedule_step consistent orderly stepped
  | getNextSlice currentTimeNs => exact getNextSlice_step consistent orderly stepped
  | recordFill sliceId filledQuantity => exact recordFill_step consistent orderly stepped
  | start =>
    cases stepped
    unfold TwapScheduler.start
    split
    · exact quiet_step consistent orderly (quiet_refl consistent)
        (iff_of_true orderly.final trivial)
    · next ready =>
      refine live_step consistent orderly (by rw [not_not.mp ready]; rfl) ?_ ?_
      · exact ⟨rfl, ⟨rfl, rfl⟩, rfl, .inl rfl, iff_of_true rfl rfl, nofun⟩
      · trivial
  | pause =>
    cases stepped
    unfold TwapScheduler.pause
    split
    · next running =>
      refine live_step consistent orderly (by rw [running]; rfl) ?_ ?_
      · exact ⟨rfl, ⟨rfl, rfl⟩, rfl, .inl rfl, iff_of_false nofun nofun, nofun⟩
      · trivial
    · exact quiet_step consistent orderly (quiet_refl consistent)
        (iff_of_true orderly.final trivial)
  | resume =>
    cases stepped
    unfold TwapScheduler.resume
    split
    · next paused =>
      refine live_step consistent orderly (by rw [paused]; rfl) ?_ ?_
      · exact ⟨rfl, ⟨rfl, rfl⟩, rfl, .inl rfl, iff_of_true rfl rfl, nofun⟩
      · trivial
    · exact quiet_step consistent orderly (quiet_refl consistent)
        (iff_of_true orderly.final trivial)
  | cancel =>
    cases stepped
    exact cancel_step consistent orderly

end

end Calls

/-! ## Runs -/

/-- Along every run of calls between two resets, under every configuration, the schedule is orderly
in every state if and only if every call is in bounds. -/
theorem orderly_iff_in_bounds (config : TwapConfig) (parentOrderId totalQuantity : Nat)
    (scheduler : TwapScheduler)
    (created : TwapScheduler.new config parentOrderId totalQuantity = some scheduler)
    (calls : List TwapCall) :
    Always step Orderly (Session.start scheduler) calls ↔
      Guarded step InBounds (Session.start scheduler) calls := by
  have fresh : scheduler.state = .idle ∧ scheduler.isActive = false ∧
      scheduler.pendingSlices = [] ∧ scheduler.lastExecutionTime = 0 := by
    obtain ⟨quantities, _, same⟩ := Option.map_eq_some_iff.mp created
    rw [← same]
    exact ⟨rfl, rfl, rfl, rfl⟩
  have orderly : Orderly (Session.start scheduler) :=
    ⟨nofun, List.Pairwise.nil, nofun, List.isChain_nil, ⟨List.Pairwise.nil, nofun⟩, nofun⟩
  have consistent : Consistent (Session.start scheduler) := by
    refine ⟨?_, ?_, List.Pairwise.nil, fresh.2.2.2, nofun, fun _ => rfl, fun _ => ?_, nofun⟩
    · show scheduler.isActive = true ↔ scheduler.state = .running
      rw [fresh.1, fresh.2.1]
      exact iff_of_false nofun nofun
    · show scheduler.pendingSlices <+: []
      exact List.prefix_nil.mpr fresh.2.2.1
    · show isFinal scheduler.state = false
      rw [fresh.1]
      rfl
  apply @always_iff_guarded_of _ _ step Consistent Orderly (fun _ _ => True) InBounds
  · exact fun _ _ _ consistent orderly _ _ stepped => (call_step consistent orderly stepped).1
  · exact fun _ _ _ consistent orderly _ stepped => (call_step consistent orderly stepped).2
  · exact consistent
  · exact orderly
  · exact guarded_of_forall (fun _ _ => trivial) _

/-- Two slices in two seconds. -/
def twoSlices : TwapConfig := { TwapConfig.default with totalDurationSecs := 2, numSlices := 2 }

/-- A run that hands both slices out, pausing in between, and fills them. -/
def wholeRun : List TwapCall :=
  [.schedule 1000, .start, .getNextSlice 2000, .recordFill 0 100, .pause, .getNextSlice 1100000000,
    .resume, .getNextSlice 1200000000, .recordFill 1 100, .getNextSlice 1300000000]

/-- Every call of that run is in bounds, so the schedule is orderly throughout. -/
theorem orderly_iff_in_bounds_whole : ∃ scheduler,
    TwapScheduler.new twoSlices 1 200 = some scheduler ∧
      Guarded step InBounds (Session.start scheduler) wholeRun ∧
        Always step Orderly (Session.start scheduler) wholeRun := by
  have guarded : ∀ scheduler ∈ TwapScheduler.new twoSlices 1 200,
      Guarded step InBounds (Session.start scheduler) wholeRun := by decide +kernel
  obtain ⟨scheduler, created⟩ := Option.isSome_iff_exists.mp
    (by decide +kernel : (TwapScheduler.new twoSlices 1 200).isSome = true)
  exact ⟨scheduler, created, guarded scheduler created,
    (orderly_iff_in_bounds twoSlices 1 200 scheduler created wholeRun).mpr
      (guarded scheduler created)⟩

/-- A run whose order is cancelled after a slice was handed out, and then filled. -/
def filledLate : List TwapCall :=
  [.schedule 1000, .start, .getNextSlice 2000, .cancel, .recordFill 0 200]

/-- The order is completed by that run after it was cancelled. -/
theorem cancelled_completed : ∃ scheduler,
    TwapScheduler.new twoSlices 1 200 = some scheduler ∧
      ¬ Always step Orderly (Session.start scheduler) filledLate := by
  have ends : ∀ scheduler ∈ TwapScheduler.new twoSlices 1 200,
      ∃ last ∈ exec step (Session.start scheduler) filledLate,
        last.ended = some .cancelled ∧ last.scheduler.state = .completed := by decide +kernel
  obtain ⟨scheduler, created⟩ := Option.isSome_iff_exists.mp
    (by decide +kernel : (TwapScheduler.new twoSlices 1 200).isSome = true)
  refine ⟨scheduler, created, fun always => ?_⟩
  obtain ⟨last, ran, ended, completed⟩ := ends scheduler created
  have state := (always.final ran).final .cancelled ended
  rw [completed] at state
  cases state

end TradingBot.Execution.SliceSchedule
