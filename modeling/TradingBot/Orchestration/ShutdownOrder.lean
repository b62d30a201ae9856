import TradingBot.Foundation.Interleaving
import TradingBot.Orchestration.GracefulShutdown

/-!
# Shutdown runs forward once

The phase is to rise, the handlers are to run once, and the reason is to stay, however the calls
interleave. The swap of the request flag guards the reason alone: every `execute_shutdown` stores
all phases and runs all handlers, and the call that won the swap stores `Signaled` late if it is
slow.
-/

open Run Interleaving

namespace TradingBot.Orchestration

/-! ## What a stage stands for -/

namespace Stage

/-- The phase that the next step stores. -/
def stores : Stage → Option ShutdownPhase
  | storeSignaled => some .signaled
  | stopIngest _ => some .stoppingIngest
  | flush _ => some .flushing
  | clean _ => some .cleaning
  | complete _ => some .terminated
  | _ => none

/-- The last phase after `Signaled` that the call has stored. -/
def reached : Stage → Nat
  | flush _ => 2
  | runHandlers _ => 3
  | readElapsed _ => 3
  | enterWait .. => 3
  | checkWait .. => 3
  | loadWorkers .. => 3
  | workerError _ => 3
  | clean _ => 3
  | readTimeout _ => 4
  | timeoutError _ => 4
  | complete _ => 4
  | readFinal _ => 5
  | returned (some _) => 5
  | _ => 0

/-- The next step runs the handlers. -/
def runs : Stage → Bool
  | runHandlers _ => true
  | _ => false

/-- The call has run the handlers. -/
def ran : Stage → Bool
  | readElapsed _ => true
  | enterWait .. => true
  | checkWait .. => true
  | loadWorkers .. => true
  | workerError _ => true
  | clean _ => true
  | readTimeout _ => true
  | timeoutError _ => true
  | complete _ => true
  | readFinal _ => true
  | returned (some _) => true
  | _ => false

/-- The next step stores the reason. -/
def storesReason : Stage → Bool
  | storeReason => true
  | _ => false

/-- The start of an `execute_shutdown` that is about to return. -/
def finalStart : Stage → Option Nat
  | readFinal startNs => some startNs
  | _ => none

end Stage

/-! ## Runs -/

namespace ShutdownOrder

/-- A coordinator with what was seen of it. -/
structure Observed where
  coordinator : ShutdownCoordinator
  /-- The number of steps so far. -/
  moment : Nat
  /-- The highest phase seen. -/
  highestPhase : Nat
  /-- The first reason seen. -/
  firstReason : Option ShutdownReason
  /-- The last moment at which no worker was active. -/
  lastDrained : Nat

/-- What is seen of a coordinator after one more step. -/
def Observed.observe (observed : Observed) (coordinator : ShutdownCoordinator) : Observed where
  coordinator := coordinator
  moment := observed.moment + 1
  highestPhase := max observed.highestPhase coordinator.state.getPhase.toUsize
  firstReason := observed.firstReason.or coordinator.state.reason
  lastDrained :=
    if coordinator.state.activeWorkers = 0 then observed.moment + 1 else observed.lastDrained

/-- A call with the moment of its first step. -/
structure TrackedCall where
  call : ShutdownCall
  began : Nat
  deriving DecidableEq, Repr

/-- The next step of a call on an observed coordinator. -/
def next (observed : Observed) (tracked : TrackedCall) : Option (Observed × TrackedCall) :=
  (nextCall observed.coordinator tracked.call).map fun after =>
    (observed.observe after.1,
      ⟨after.2, if tracked.call.stage = .swap then observed.moment else tracked.began⟩)

/-- The operations on a coordinator. -/
abbrev ShutdownPool := Pool Observed TrackedCall

/-- A step of some operation. -/
def step (pool : ShutdownPool) (move : Move Operation) : Option ShutdownPool :=
  pool.step (fun operation => ⟨enter operation, 0⟩) next move

/-- A new coordinator with handlers registered. -/
def start (timeoutSecs handlers clockNs : Nat) : ShutdownPool where
  shared := {
    coordinator := .new timeoutSecs handlers clockNs
    moment := 0
    highestPhase := 0
    firstReason := none
    lastDrained := 0 }
  calls := []

/-- The shutdown has run forward, once. -/
structure Forward (pool : ShutdownPool) : Prop where
  /-- The phase is the highest so far. -/
  phase : pool.shared.coordinator.state.getPhase.toUsize = pool.shared.highestPhase
  /-- No handler has run twice. -/
  once : ∀ runs ∈ pool.shared.coordinator.handlerRuns, runs ≤ 1
  /-- Every handler has run when some `execute_shutdown` has returned. -/
  ran : ∀ tracked ∈ pool.calls, ∀ answer, tracked.call.stage = .returned (some answer) →
    ∀ runs ∈ pool.shared.coordinator.handlerRuns, runs = 1
  /-- The reason is the first one. -/
  reason : pool.shared.coordinator.state.reason = pool.shared.firstReason
  /-- An `execute_shutdown` that returned true did so after no worker was active. -/
  drained : ∀ tracked ∈ pool.calls, tracked.call.stage = .returned (some true) →
    tracked.began ≤ pool.shared.lastDrained

/-- A call steps in order: no call has stored a later phase than it stores, none has run the
handlers before it does, and if the timeout is just over when it returns, no worker was active at
some moment since it began. -/
structure InOrder (pool : ShutdownPool) (tracked : TrackedCall) : Prop where
  phase : ∀ phase ∈ tracked.call.stage.stores, ∀ other ∈ pool.calls,
    other.call.stage.reached ≤ phase.toUsize
  handlers : tracked.call.stage.runs = true → pool.shared.coordinator.handlerRuns = [] ∨
    ∀ other ∈ pool.calls, other.call.stage.ran = false
  drained : ∀ startNs ∈ tracked.call.stage.finalStart,
    pool.shared.coordinator.clockNs - startNs = pool.shared.coordinator.timeoutNs →
      tracked.began ≤ pool.shared.lastDrained

/-- The call that moves steps in order. -/
def MovesInOrder (pool : ShutdownPool) : Move Operation → Prop
  | .start _ => True
  | .advance position => ∀ tracked ∈ pool.calls[position]?, InOrder pool tracked

/-! ## One step -/

/-- What the times kept by a call say: from its wait on, the timeout is over when the wait is, and
afterwards it is over unless no worker was active since the call began. -/
def Timely (coordinator : ShutdownCoordinator) (lastDrained began : Nat) : Stage → Prop
  | .stopIngest startNs => startNs ≤ coordinator.clockNs
  | .flush startNs => startNs ≤ coordinator.clockNs
  | .runHandlers startNs => startNs ≤ coordinator.clockNs
  | .readElapsed startNs => startNs ≤ coordinator.clockNs
  | .enterWait startNs remainingNs =>
    startNs + coordinator.timeoutNs ≤ coordinator.clockNs + remainingNs
  | .checkWait startNs remainingNs waitNs =>
    startNs + coordinator.timeoutNs ≤ waitNs + remainingNs ∧ waitNs ≤ coordinator.clockNs
  | .loadWorkers startNs remainingNs waitNs =>
    startNs + coordinator.timeoutNs ≤ waitNs + remainingNs ∧ waitNs ≤ coordinator.clockNs
  | .workerError startNs => startNs + coordinator.timeoutNs ≤ coordinator.clockNs
  | .clean startNs =>
    began ≤ lastDrained ∨ startNs + coordinator.timeoutNs ≤ coordinator.clockNs
  | .readTimeout startNs =>
    began ≤ lastDrained ∨ startNs + coordinator.timeoutNs ≤ coordinator.clockNs
  | .timeoutError startNs =>
    began ≤ lastDrained ∨ startNs + coordinator.timeoutNs ≤ coordinator.clockNs
  | .complete startNs =>
    began ≤ lastDrained ∨ startNs + coordinator.timeoutNs ≤ coordinator.clockNs
  | .readFinal startNs =>
    began ≤ lastDrained ∨ startNs + coordinator.timeoutNs ≤ coordinator.clockNs
  | _ => True

section Stages

variable {coordinator after : ShutdownCoordinator} {operation : Operation} {stage moved : Stage}

theorem reached_requested (operation : Operation) :
    operation.requested.reached = 0 ∧ operation.requested.ran = false ∧
      operation.requested.storesReason = false := by
  cases operation <;> exact ⟨rfl, rfl, rfl⟩

/-- A worker's step changes the number of workers only. -/
theorem worker_next (worker : stage = .register ∨ stage = .drop)
    (stepped : nextStage coordinator operation stage = some (after, moved)) :
    (∃ workers, after =
      { coordinator with state := { coordinator.state with activeWorkers := workers } }) ∧
      (moved = .drop ∨ moved = .returned none) := by
  rcases worker with same | same
  · subst same
    cases stepped
    exact ⟨⟨coordinator.state.registerWorker.activeWorkers, rfl⟩, .inl rfl⟩
  · subst same
    cases stepped
    exact ⟨⟨coordinator.state.unregisterWorker.activeWorkers, rfl⟩, .inr rfl⟩

section

variable (stepped : nextStage coordinator operation stage = some (after, moved))
include stepped

theorem phase_next :
    (stage.stores = none → after.state.currentPhase = coordinator.state.currentPhase ∧
      moved.reached = stage.reached) ∧
    ∀ phase, stage.stores = some phase → 1 ≤ phase.toUsize ∧
      after.state.currentPhase = phase.toUsize ∧ stage.reached ≤ phase.toUsize ∧
        (moved.reached = phase.toUsize ∨ phase.toUsize = 1 ∧ moved.reached = 0) := by
  have requested := (reached_requested operation).1
  cases stage with
  | swap =>
    simp only [nextStage] at stepped
    split at stepped <;> cases stepped
    · exact ⟨fun _ => ⟨rfl, requested⟩, nofun⟩
    · exact ⟨fun _ => ⟨rfl, rfl⟩, nofun⟩
  | storeSignaled =>
    cases stepped
    refine ⟨nofun, fun phase same => ?_⟩
    cases same
    exact ⟨Nat.le_refl 1, rfl, Nat.zero_le 1, .inr ⟨rfl, requested⟩⟩
  | checkWait _ _ _ =>
    cases stepped
    refine ⟨fun _ => ⟨rfl, ?_⟩, nofun⟩
    split <;> rfl
  | loadWorkers _ _ _ =>
    cases stepped
    refine ⟨fun _ => ⟨rfl, ?_⟩, nofun⟩
    split <;> rfl
  | readTimeout _ =>
    cases stepped
    refine ⟨fun _ => ⟨rfl, ?_⟩, nofun⟩
    split <;> rfl
  | stopIngest _ | flush _ | clean _ | complete _ =>
    cases stepped
    refine ⟨nofun, fun phase same => ?_⟩
    cases same
    exact ⟨by decide, rfl, Nat.le_of_ble_eq_true rfl, .inl rfl⟩
  | returned _ => cases stepped
  | register | drop =>
    obtain ⟨⟨workers, rfl⟩, rfl | rfl⟩ := worker_next (by simp) stepped <;>
      exact ⟨fun _ => ⟨rfl, rfl⟩, nofun⟩
  | _ =>
    cases stepped
    exact ⟨fun _ => ⟨rfl, rfl⟩, nofun⟩

theorem reason_next : (stage.storesReason = false → after.state.reason = coordinator.state.reason) ∧
    moved.storesReason.toNat + after.state.reason.isSome.toNat +
        coordinator.state.shutdownRequested.toNat ≤
      stage.storesReason.toNat + coordinator.state.reason.isSome.toNat +
        after.state.shutdownRequested.toNat := by
  have requested := (reached_requested operation).2.2
  cases stage with
  | swap =>
    simp only [nextStage] at stepped
    split at stepped <;> cases stepped
    · exact ⟨fun _ => rfl, by simp only [requested]; exact Nat.le_refl _⟩
    · have flag : coordinator.state.shutdownRequested = false := by simp_all
      refine ⟨fun _ => rfl, ?_⟩
      simp only [flag, ShutdownCoordinator.update, Stage.storesReason, Bool.toNat_true,
        Bool.toNat_false]
      omega
  | storeReason =>
    cases stepped
    refine ⟨nofun, ?_⟩
    have stored := Bool.toNat_le operation.reason.isSome
    simp only [ShutdownCoordinator.update, Stage.storesReason, Bool.toNat_true, Bool.toNat_false]
    omega
  | storeSignaled =>
    cases stepped
    exact ⟨fun _ => rfl, by simp only [requested]; exact Nat.le_refl _⟩
  | checkWait _ _ _ | loadWorkers _ _ _ | readTimeout _ =>
    cases stepped
    refine ⟨fun _ => rfl, ?_⟩
    split <;> exact Nat.le_refl _
  | register | drop =>
    obtain ⟨⟨workers, rfl⟩, rfl | rfl⟩ := worker_next (by simp) stepped <;>
      exact ⟨fun _ => rfl, Nat.le_refl _⟩
  | returned _ => cases stepped
  | _ =>
    cases stepped
    exact ⟨fun _ => rfl, Nat.le_refl _⟩

theorem handlers_next :
    (stage.runs = false → after.handlerRuns = coordinator.handlerRuns ∧ moved.ran = stage.ran) ∧
    (stage.runs = true → after.handlerRuns = coordinator.handlerRuns.map (fun runs => runs + 1) ∧
      stage.ran = false ∧ moved.ran = true) := by
  have requested := (reached_requested operation).2.1
  cases stage with
  | swap =>
    simp only [nextStage] at stepped
    split at stepped <;> cases stepped
    · exact ⟨fun _ => ⟨rfl, requested⟩, nofun⟩
    · exact ⟨fun _ => ⟨rfl, rfl⟩, nofun⟩
  | storeSignaled =>
    cases stepped
    exact ⟨fun _ => ⟨rfl, requested⟩, nofun⟩
  | runHandlers _ =>
    cases stepped
    exact ⟨nofun, fun _ => ⟨rfl, rfl, rfl⟩⟩
  | checkWait _ _ _ | loadWorkers _ _ _ | readTimeout _ =>
    cases stepped
    refine ⟨fun _ => ⟨rfl, ?_⟩, nofun⟩
    split <;> rfl
  | register | drop =>
    obtain ⟨⟨workers, rfl⟩, rfl | rfl⟩ := worker_next (by simp) stepped <;>
      exact ⟨fun _ => ⟨rfl, rfl⟩, nofun⟩
  | returned _ => cases stepped
  | _ =>
    cases stepped
    exact ⟨fun _ => ⟨rfl, rfl⟩, nofun⟩

theorem clock_next :
    after.timeoutNs = coordinator.timeoutNs ∧ coordinator.clockNs ≤ after.clockNs := by
  cases stage with
  | swap =>
    simp only [nextStage] at stepped
    split at stepped <;> cases stepped <;> exact ⟨rfl, Nat.le_refl _⟩
  | register | drop =>
    obtain ⟨⟨workers, rfl⟩, rfl | rfl⟩ := worker_next (by simp) stepped <;>
      exact ⟨rfl, Nat.le_refl _⟩
  | pass =>
    cases stepped
    exact ⟨rfl, Nat.le_add_right _ _⟩
  | returned _ => cases stepped
  | _ =>
    cases stepped
    exact ⟨rfl, Nat.le_refl _⟩

end

theorem returned_next {answer : Bool}
    (stepped : nextStage coordinator operation stage = some (after, .returned (some answer))) :
    after = coordinator ∧ ∃ startNs, stage = .readFinal startNs ∧
      answer = decide (coordinator.clockNs - startNs ≤ coordinator.timeoutNs) := by
  generalize same : Stage.returned (some answer) = moved at stepped
  cases stage with
  | swap =>
    simp only [nextStage] at stepped
    split at stepped <;> cases stepped
    · cases operation <;> cases same
    · cases same
  | storeSignaled =>
    cases stepped
    cases operation <;> cases same
  | checkWait _ _ _ | loadWorkers _ _ _ | readTimeout _ =>
    cases stepped
    split at same <;> cases same
  | readFinal startNs =>
    cases stepped
    cases same
    exact ⟨rfl, startNs, rfl, rfl⟩
  | register | drop =>
    obtain ⟨_, rfl | rfl⟩ := worker_next (by simp) stepped <;> cases same
  | returned _ => cases stepped
  | _ =>
    cases stepped
    cases same

theorem Timely.later {lastDrained drained began : Nat}
    (timely : Timely coordinator lastDrained began stage)
    (timeout : after.timeoutNs = coordinator.timeoutNs)
    (clock : coordinator.clockNs ≤ after.clockNs) (later : lastDrained ≤ drained) :
    Timely after drained began stage := by
  cases stage <;> simp only [Timely, timeout] at timely ⊢ <;> omega

theorem timely_next {lastDrained began resumed : Nat}
    (stepped : nextStage coordinator operation stage = some (after, moved))
    (timely : Timely coordinator lastDrained began stage)
    (kept : stage = .swap ∨ resumed = began)
    (drained : coordinator.state.activeWorkers = 0 → began ≤ lastDrained) :
    Timely coordinator lastDrained resumed moved := by
  have requested : Timely coordinator lastDrained resumed operation.requested := by
    cases operation <;> trivial
  cases stage with
  | swap =>
    simp only [nextStage] at stepped
    split at stepped <;> cases stepped
    · exact requested
    · trivial
  | storeSignaled =>
    cases stepped
    exact requested
  | readStart =>
    cases stepped
    exact Nat.le_refl _
  | readElapsed startNs =>
    cases stepped
    simp only [Timely] at timely ⊢
    omega
  | enterWait startNs remainingNs =>
    cases stepped
    exact ⟨timely, Nat.le_refl _⟩
  | checkWait startNs remainingNs waitNs =>
    cases stepped
    split
    · exact timely
    · simp only [Timely] at timely ⊢
      omega
  | loadWorkers startNs remainingNs waitNs =>
    have same := kept.resolve_left nofun
    cases stepped
    split
    next idle => exact .inl (same ▸ drained idle)
    · exact timely
  | workerError startNs =>
    cases stepped
    exact .inr timely
  | readTimeout startNs =>
    have same := kept.resolve_left nofun
    cases stepped
    split <;> exact same ▸ timely
  | clean startNs | timeoutError startNs | complete startNs =>
    have same := kept.resolve_left nofun
    cases stepped
    exact same ▸ timely
  | stopIngest startNs | flush startNs | runHandlers startNs =>
    cases stepped
    exact timely
  | register | drop =>
    obtain ⟨_, rfl | rfl⟩ := worker_next (by simp) stepped <;> trivial
  | returned _ => cases stepped
  | _ =>
    cases stepped
    trivial

end Stages

theorem getPhase_stored {state : ShutdownState} {phase : ShutdownPhase}
    (stored : state.currentPhase = phase.toUsize) : state.getPhase = phase := by
  unfold ShutdownState.getPhase
  rw [stored]
  cases phase <;> rfl

theorem getPhase_congr {state other : ShutdownState}
    (same : other.currentPhase = state.currentPhase) : other.getPhase = state.getPhase := by
  unfold ShutdownState.getPhase
  rw [same]

/-! ## Whole runs -/

/-- The calls that have run the handlers. -/
def hasRun (tracked : TrackedCall) : Bool := tracked.call.stage.ran

/-- The calls that are to store the reason. -/
def storing (tracked : TrackedCall) : Bool := tracked.call.stage.storesReason

/-- What the calls say about the shared state. -/
structure Tracks (pool : ShutdownPool) : Prop where
  /-- No call has stored a phase that was not seen. -/
  reached : ∀ tracked ∈ pool.calls, tracked.call.stage.reached ≤ pool.shared.highestPhase
  /-- A phase after `Signaled` was stored by some call. -/
  highest : pool.shared.highestPhase ≤ 1 ∨
    ∃ tracked ∈ pool.calls, tracked.call.stage.reached = pool.shared.highestPhase
  /-- Every call that is past the handlers has run them once. -/
  runs : ∀ runs ∈ pool.shared.coordinator.handlerRuns, runs = pool.count hasRun
  /-- At most one call stores the reason, and only while there is none. -/
  reason : pool.count storing + pool.shared.coordinator.state.reason.isSome.toNat ≤
    pool.shared.coordinator.state.shutdownRequested.toNat
  /-- The last moment without workers is past, and it is now if there are none. -/
  past : pool.shared.lastDrained ≤ pool.shared.moment
  /-- Without workers the moment is the last one without. -/
  idle : pool.shared.coordinator.state.activeWorkers = 0 →
    pool.shared.lastDrained = pool.shared.moment
  /-- Every call began in the past. -/
  began : ∀ tracked ∈ pool.calls, tracked.began ≤ pool.shared.moment
  /-- The times that every call keeps are right. -/
  timely : ∀ tracked ∈ pool.calls,
    Timely pool.shared.coordinator pool.shared.lastDrained tracked.began tracked.call.stage

theorem not_mem_start {timeoutSecs handlers clockNs : Nat} {tracked : TrackedCall} :
    tracked ∉ (start timeoutSecs handlers clockNs).calls := List.not_mem_nil

theorem tracks_start (timeoutSecs handlers clockNs : Nat) :
    Tracks (start timeoutSecs handlers clockNs) where
  reached := fun _ member => absurd member not_mem_start
  highest := .inl (Nat.zero_le 1)
  runs := fun _ member => List.eq_of_mem_replicate member
  reason := Nat.le_refl 0
  past := Nat.le_refl 0
  idle := fun _ => rfl
  began := fun _ member => absurd member not_mem_start
  timely := fun _ member => absurd member not_mem_start

theorem forward_start (timeoutSecs handlers clockNs : Nat) :
    Forward (start timeoutSecs handlers clockNs) where
  phase := rfl
  once := fun _ member => List.eq_of_mem_replicate member ▸ Nat.zero_le 1
  ran := fun _ member => absurd member not_mem_start
  reason := rfl
  drained := fun _ member => absurd member not_mem_start

theorem entered (operation : Operation) :
    (enter operation).stage.reached = 0 ∧ (enter operation).stage.ran = false ∧
      (enter operation).stage.storesReason = false ∧
      (∀ answer, (enter operation).stage ≠ .returned answer) ∧
      ∀ coordinator lastDrained, Timely coordinator lastDrained 0 (enter operation).stage := by
  cases operation <;> exact ⟨rfl, rfl, rfl, nofun, fun _ _ => trivial⟩

theorem tracks_enter {pool : ShutdownPool} (tracks : Tracks pool) (operation : Operation) :
    Tracks { pool with calls := pool.calls ++ [⟨enter operation, 0⟩] } := by
  obtain ⟨unreached, unrun, unstored, -, untimed⟩ := entered operation
  have ranSame := @count_start _ _ _ (fun operation => (⟨enter operation, 0⟩ : TrackedCall)) pool
    operation hasRun
  have storingSame := @count_start _ _ _ (fun operation => (⟨enter operation, 0⟩ : TrackedCall))
    pool operation storing
  simp only [hasRun, unrun, Bool.toNat_false, Nat.add_zero] at ranSame
  simp only [storing, unstored, Bool.toNat_false, Nat.add_zero] at storingSame
  refine ⟨?_, ?_, ?_, ?_, tracks.past, tracks.idle, ?_, ?_⟩
  · rintro tracked member
    rcases List.mem_append.mp member with old | new
    · exact tracks.reached tracked old
    · rw [List.mem_singleton.mp new]
      exact (Nat.le_of_eq unreached).trans (Nat.zero_le _)
  · refine tracks.highest.imp_right ?_
    rintro ⟨tracked, member, same⟩
    exact ⟨tracked, List.mem_append_left _ member, same⟩
  · exact fun runs member => (tracks.runs runs member).trans ranSame.symm
  · have before := tracks.reason
    exact storingSame.symm ▸ before
  · rintro tracked member
    rcases List.mem_append.mp member with old | new
    · exact tracks.began tracked old
    · rw [List.mem_singleton.mp new]
      exact Nat.zero_le _
  · rintro tracked member
    rcases List.mem_append.mp member with old | new
    · exact tracks.timely tracked old
    · rw [List.mem_singleton.mp new]
      exact untimed _ _

theorem forward_enter {pool : ShutdownPool} (forward : Forward pool) (operation : Operation) :
    Forward { pool with calls := pool.calls ++ [⟨enter operation, 0⟩] } := by
  have unreturned := (entered operation).2.2.2.1
  refine ⟨forward.phase, forward.once, ?_, forward.reason, ?_⟩
  · rintro tracked member answer returned
    rcases List.mem_append.mp member with old | new
    · exact forward.ran tracked old answer returned
    · rw [List.mem_singleton.mp new] at returned
      exact absurd returned (unreturned _)
  · rintro tracked member returned
    rcases List.mem_append.mp member with old | new
    · exact forward.drained tracked old returned
    · rw [List.mem_singleton.mp new] at returned
      exact absurd returned (unreturned _)

/-- The moment a call began, once it has made a step. -/
def TrackedCall.since (tracked : TrackedCall) (moment : Nat) : Nat :=
  if tracked.call.stage = .swap then moment else tracked.began

/-- A pool in which one call has made a step. -/
def advanced (pool : ShutdownPool) (position : Nat) (tracked : TrackedCall)
    (coordinator : ShutdownCoordinator) (moved : Stage) : ShutdownPool where
  shared := pool.shared.observe coordinator
  calls := pool.calls.set position
    ⟨⟨tracked.call.operation, moved⟩, tracked.since pool.shared.moment⟩

section Advance

variable {pool after : ShutdownPool} {position : Nat} {tracked : TrackedCall}
  {coordinator : ShutdownCoordinator} {moved : Stage}

/-- An advance runs one stage of one call. -/
theorem step_advanced (stepped : step pool (.advance position) = some after) :
    ∃ tracked, pool.calls[position]? = some tracked ∧ ∃ coordinator moved,
      nextStage pool.shared.coordinator tracked.call.operation tracked.call.stage =
        some (coordinator, moved) ∧ after = advanced pool position tracked coordinator moved := by
  obtain ⟨tracked, found, shared, later, taken, same⟩ := step_advance.mp stepped
  refine ⟨tracked, found, ?_⟩
  simp only [next, nextCall, Option.map_map, Option.map_eq_some_iff, Prod.exists] at taken
  obtain ⟨coordinator, moved, staged, made⟩ := taken
  cases made
  exact ⟨coordinator, moved, staged, same⟩

theorem mem_advanced {other : TrackedCall}
    (member : other ∈ (advanced pool position tracked coordinator moved).calls) :
    other ∈ pool.calls ∨
      other = ⟨⟨tracked.call.operation, moved⟩, tracked.since pool.shared.moment⟩ :=
  List.mem_or_eq_of_mem_set member

theorem highest_le_iff (tracks : Tracks pool) {bound : Nat} (signaled : 1 ≤ bound) :
    pool.shared.highestPhase ≤ bound ↔
      ∀ other ∈ pool.calls, other.call.stage.reached ≤ bound := by
  constructor
  · exact fun low other member => Nat.le_trans (tracks.reached other member) low
  · intro low
    rcases tracks.highest with early | ⟨other, member, same⟩
    · exact Nat.le_trans early signaled
    · exact same ▸ low other member

theorem highest_advanced (forward : Forward pool)
    (stepped : nextStage pool.shared.coordinator tracked.call.operation tracked.call.stage =
      some (coordinator, moved)) :
    (tracked.call.stage.stores = none ∧ coordinator.state.getPhase.toUsize =
        pool.shared.highestPhase ∧ moved.reached = tracked.call.stage.reached) ∨
      ∃ phase, tracked.call.stage.stores = some phase ∧ 1 ≤ phase.toUsize ∧
        coordinator.state.getPhase = phase ∧
        (moved.reached = phase.toUsize ∨ phase.toUsize = 1 ∧ moved.reached = 0) := by
  obtain ⟨quiet, loud⟩ := phase_next stepped
  cases stores : tracked.call.stage.stores with
  | none =>
    obtain ⟨same, reached⟩ := quiet stores
    exact .inl ⟨rfl, getPhase_congr same ▸ forward.phase, reached⟩
  | some phase =>
    obtain ⟨signaled, stored, _, reached⟩ := loud phase stores
    exact .inr ⟨phase, rfl, signaled, getPhase_stored stored, reached⟩

section

variable (tracks : Tracks pool)
include tracks

theorem drained_advanced (coordinator : ShutdownCoordinator) :
    pool.shared.lastDrained ≤ (pool.shared.observe coordinator).lastDrained := by
  have past := tracks.past
  simp only [Observed.observe]
  split <;> omega

theorem since_le (found : pool.calls[position]? = some tracked) :
    tracked.since pool.shared.moment ≤ pool.shared.moment := by
  have began := tracks.began tracked (List.mem_of_getElem? found)
  unfold TrackedCall.since
  split <;> omega

variable
    (stepped : nextStage pool.shared.coordinator tracked.call.operation tracked.call.stage =
      some (coordinator, moved))
include stepped

theorem phase_advanced (forward : Forward pool) :
    coordinator.state.getPhase.toUsize =
        max pool.shared.highestPhase coordinator.state.getPhase.toUsize ↔
      ∀ phase ∈ tracked.call.stage.stores, ∀ other ∈ pool.calls,
        other.call.stage.reached ≤ phase.toUsize := by
  rcases highest_advanced forward stepped with ⟨stores, same, -⟩ | ⟨phase, stores, low, same, -⟩
  · rw [stores, same, Nat.max_self]
    exact iff_of_true rfl nofun
  · rw [stores, same, eq_comm, max_eq_right_iff, highest_le_iff tracks low]
    exact ⟨fun below other there => Option.some.inj there ▸ below, fun below => below phase rfl⟩

/-- The phases that the calls have reached after a step that stores none too early. -/
theorem reached_advanced (forward : Forward pool) (found : pool.calls[position]? = some tracked)
    (inOrder : ∀ phase ∈ tracked.call.stage.stores, ∀ other ∈ pool.calls,
      other.call.stage.reached ≤ phase.toUsize) :
    (∀ other ∈ (advanced pool position tracked coordinator moved).calls,
      other.call.stage.reached ≤
        max pool.shared.highestPhase coordinator.state.getPhase.toUsize) ∧
    (max pool.shared.highestPhase coordinator.state.getPhase.toUsize ≤ 1 ∨
      ∃ other ∈ (advanced pool position tracked coordinator moved).calls,
        other.call.stage.reached =
          max pool.shared.highestPhase coordinator.state.getPhase.toUsize) := by
  have member := List.mem_of_getElem? found
  have new := mem_replacement found
    (⟨⟨tracked.call.operation, moved⟩, tracked.since pool.shared.moment⟩ : TrackedCall)
  have top := (phase_advanced tracks stepped forward).mpr inOrder
  rcases highest_advanced forward stepped with ⟨-, same, reached⟩ | ⟨phase, -, -, same, reached⟩
  · rw [← top, same]
    constructor
    · intro other there
      rcases mem_advanced there with old | rfl
      · exact tracks.reached other old
      · exact reached ▸ tracks.reached tracked member
    · refine tracks.highest.imp_right ?_
      rintro ⟨other, old, highest⟩
      by_cases moving : other = tracked
      · exact ⟨_, new, reached.trans (moving ▸ highest)⟩
      · exact ⟨other, mem_kept found old moving _, highest⟩
  · rw [← top]
    constructor
    · intro other there
      rcases mem_advanced there with old | rfl
      · exact top ▸ Nat.le_trans (tracks.reached other old) (Nat.le_max_left _ _)
      · rw [same]
        rcases reached with stored | ⟨-, unmoved⟩
        · exact Nat.le_of_eq stored
        · exact (Nat.le_of_eq unmoved).trans (Nat.zero_le _)
    · rw [same]
      rcases reached with stored | ⟨signaled, -⟩
      · exact .inr ⟨_, new, stored⟩
      · exact .inl (Nat.le_of_eq signaled)

theorem runs_advanced (found : pool.calls[position]? = some tracked) :
    ∀ runs ∈ coordinator.handlerRuns,
      runs = (advanced pool position tracked coordinator moved).count hasRun := by
  have counted : (advanced pool position tracked coordinator moved).count hasRun +
      (hasRun tracked).toNat = pool.count hasRun + moved.ran.toNat := count_advance hasRun found _
  obtain ⟨quiet, loud⟩ := handlers_next stepped
  intro runs member
  cases running : tracked.call.stage.runs with
  | false =>
    obtain ⟨same, ran⟩ := quiet running
    have before := tracks.runs runs (same ▸ member)
    simp only [hasRun, ran] at counted before ⊢
    omega
  | true =>
    obtain ⟨same, notYet, ran⟩ := loud running
    rw [same] at member
    obtain ⟨earlier, old, rfl⟩ := List.mem_map.mp member
    have before := tracks.runs earlier old
    simp only [hasRun, ran, notYet, Bool.toNat_true, Bool.toNat_false] at counted before ⊢
    omega

theorem once_advanced (forward : Forward pool) :
    (∀ runs ∈ coordinator.handlerRuns, runs ≤ 1) ↔
      (tracked.call.stage.runs = true → pool.shared.coordinator.handlerRuns = [] ∨
        ∀ other ∈ pool.calls, other.call.stage.ran = false) := by
  obtain ⟨quiet, loud⟩ := handlers_next stepped
  cases running : tracked.call.stage.runs with
  | false =>
    obtain ⟨same, -⟩ := quiet running
    rw [same]
    exact iff_of_true forward.once nofun
  | true =>
    obtain ⟨same, -, -⟩ := loud running
    have unrun : (∀ other ∈ pool.calls, other.call.stage.ran = false) ↔ pool.count hasRun = 0 := by
      simp only [Pool.count, List.countP_eq_zero, hasRun, Bool.not_eq_true]
    rw [same, unrun]
    simp only [List.forall_mem_map, forall_const]
    constructor
    · intro once
      by_cases empty : pool.shared.coordinator.handlerRuns = []
      · exact .inl empty
      · obtain ⟨runs, member⟩ := List.exists_mem_of_ne_nil _ empty
        have counted := tracks.runs runs member
        have below := once runs member
        exact .inr (by omega)
    · rintro (empty | notYet) runs member
      · rw [empty] at member
        cases member
      · have counted := tracks.runs runs member
        omega

theorem ran_advanced (found : pool.calls[position]? = some tracked)
    (once : ∀ runs ∈ coordinator.handlerRuns, runs ≤ 1) :
    ∀ other ∈ (advanced pool position tracked coordinator moved).calls, ∀ answer,
      other.call.stage = .returned (some answer) → ∀ runs ∈ coordinator.handlerRuns, runs = 1 := by
  intro other there answer returned runs member
  have counted := runs_advanced tracks stepped found runs member
  have ran : hasRun other = true := by
    unfold hasRun
    rw [returned]
    rfl
  have positive : 0 < (advanced pool position tracked coordinator moved).count hasRun :=
    List.countP_pos_iff.mpr ⟨other, there, ran⟩
  have below := once runs member
  omega

theorem reason_advanced (forward : Forward pool) (found : pool.calls[position]? = some tracked) :
    (advanced pool position tracked coordinator moved).count storing +
        coordinator.state.reason.isSome.toNat ≤ coordinator.state.shutdownRequested.toNat ∧
      coordinator.state.reason = pool.shared.firstReason.or coordinator.state.reason := by
  have counted : (advanced pool position tracked coordinator moved).count storing +
      (storing tracked).toNat = pool.count storing + moved.storesReason.toNat :=
    count_advance storing found _
  have before := tracks.reason
  obtain ⟨quiet, flagged⟩ := reason_next stepped
  constructor
  · simp only [storing] at counted before ⊢
    omega
  · rw [← forward.reason]
    cases stores : tracked.call.stage.storesReason with
    | false =>
      rw [quiet stores]
      exact Option.or_self.symm
    | true =>
      -- The call that stores is counted, so there was no reason yet.
      have storesNow : 0 < pool.count storing := count_pos found stores
      have flag := Bool.toNat_le pool.shared.coordinator.state.shutdownRequested
      have unset : pool.shared.coordinator.state.reason = none := by
        cases reason : pool.shared.coordinator.state.reason with
        | none => rfl
        | some _ =>
          rw [reason] at before
          simp only [Option.isSome_some, Bool.toNat_true] at before
          omega
      rw [unset]
      rfl

theorem timely_advanced (found : pool.calls[position]? = some tracked) :
    ∀ other ∈ (advanced pool position tracked coordinator moved).calls,
      Timely coordinator (pool.shared.observe coordinator).lastDrained other.began
        other.call.stage := by
  obtain ⟨timeout, clock⟩ := clock_next stepped
  have later := drained_advanced tracks coordinator
  have member := List.mem_of_getElem? found
  intro other there
  rcases mem_advanced there with old | rfl
  · exact (tracks.timely other old).later timeout clock later
  · have kept : tracked.call.stage = .swap ∨
        tracked.since pool.shared.moment = tracked.began := by
      unfold TrackedCall.since
      split
      next swapping => exact .inl swapping
      · exact .inr rfl
    have drained : pool.shared.coordinator.state.activeWorkers = 0 →
        tracked.began ≤ pool.shared.lastDrained :=
      fun idle => tracks.idle idle ▸ tracks.began tracked member
    exact (timely_next stepped (tracks.timely tracked member) kept drained).later timeout clock
      later

/-- An `execute_shutdown` has returned true after a moment without workers if and only if there
was one since it began or the timeout was not just over. -/
theorem true_advanced (forward : Forward pool) (found : pool.calls[position]? = some tracked) :
    (∀ other ∈ (advanced pool position tracked coordinator moved).calls,
        other.call.stage = .returned (some true) →
          other.began ≤ (pool.shared.observe coordinator).lastDrained) ↔
      ∀ startNs ∈ tracked.call.stage.finalStart,
        pool.shared.coordinator.clockNs - startNs = pool.shared.coordinator.timeoutNs →
          tracked.began ≤ pool.shared.lastDrained := by
  have later := drained_advanced tracks coordinator
  have member := List.mem_of_getElem? found
  have timely := tracks.timely tracked member
  constructor
  · intro drained startNs final just
    have stage : tracked.call.stage = .readFinal startNs := by
      cases stage : tracked.call.stage <;> rw [stage] at final <;> cases final
      rfl
    rw [stage] at stepped
    cases stepped
    have answer := drained _ (mem_replacement found _)
      (congrArg (fun answer => Stage.returned (some answer)) (decide_eq_true (Nat.le_of_eq just)))
    have began : tracked.since pool.shared.moment = tracked.began := by
      unfold TrackedCall.since
      rw [stage]
      rfl
    have before := tracks.began tracked member
    have idle := tracks.idle
    simp only [began, Observed.observe] at answer
    split at answer <;> omega
  · intro inOrder other there returned
    rcases mem_advanced there with old | rfl
    · exact Nat.le_trans (forward.drained other old returned) later
    · simp only at returned
      subst returned
      obtain ⟨-, startNs, stage, answer⟩ := returned_next stepped
      have intime := of_decide_eq_true answer.symm
      have final : startNs ∈ tracked.call.stage.finalStart := by
        rw [stage]
        rfl
      have began : tracked.since pool.shared.moment = tracked.began := by
        unfold TrackedCall.since
        rw [stage]
        rfl
      have just := inOrder startNs final
      rw [stage] at timely
      simp only [Timely] at timely
      simp only [began]
      omega

theorem tracks_advanced (forward : Forward pool) (found : pool.calls[position]? = some tracked)
    (inOrder : InOrder pool tracked) :
    Tracks (advanced pool position tracked coordinator moved) := by
  obtain ⟨reached, highest⟩ := reached_advanced tracks stepped forward found inOrder.phase
  have since := since_le tracks found
  have past := tracks.past
  refine ⟨reached, highest, runs_advanced tracks stepped found,
    (reason_advanced tracks stepped forward found).1, ?_, fun idle => if_pos idle, ?_,
    timely_advanced tracks stepped found⟩
  · simp only [advanced, Observed.observe]
    split <;> omega
  · intro other there
    rcases mem_advanced there with old | rfl
    · exact Nat.le_succ_of_le (tracks.began other old)
    · exact Nat.le_succ_of_le since

theorem forward_advanced (forward : Forward pool) (found : pool.calls[position]? = some tracked) :
    Forward (advanced pool position tracked coordinator moved) ↔ InOrder pool tracked := by
  have phases := phase_advanced tracks stepped forward
  have once := once_advanced tracks stepped forward
  have drained := true_advanced tracks stepped forward found
  constructor
  · exact fun kept => ⟨phases.mp kept.phase, once.mp kept.once, drained.mp kept.drained⟩
  · exact fun inOrder => ⟨phases.mpr inOrder.phase, once.mpr inOrder.handlers,
      ran_advanced tracks stepped found (once.mpr inOrder.handlers),
      (reason_advanced tracks stepped forward found).2, drained.mpr inOrder.drained⟩

end

end Advance

/-- A move in order keeps the pool tracked. -/
theorem tracks_step (pool : ShutdownPool) (move : Move Operation) (after : ShutdownPool)
    (tracks : Tracks pool) (forward : Forward pool) (inOrder : MovesInOrder pool move)
    (stepped : step pool move = some after) : Tracks after := by
  cases move with
  | start operation =>
    cases stepped
    exact tracks_enter tracks operation
  | advance position =>
    obtain ⟨tracked, found, coordinator, moved, staged, rfl⟩ := step_advanced stepped
    exact tracks_advanced tracks staged forward found (inOrder tracked found)

/-- One move goes forward exactly when it is in order. -/
theorem forward_step (pool : ShutdownPool) (move : Move Operation) (after : ShutdownPool)
    (tracks : Tracks pool) (forward : Forward pool) (stepped : step pool move = some after) :
    Forward after ↔ MovesInOrder pool move := by
  cases move with
  | start operation =>
    cases stepped
    exact iff_of_true (forward_enter forward operation) trivial
  | advance position =>
    obtain ⟨tracked, found, coordinator, moved, staged, rfl⟩ := step_advanced stepped
    rw [forward_advanced tracks staged forward found]
    constructor
    · exact fun inOrder other there => Option.some.inj (found.symm.trans there) ▸ inOrder
    · exact fun inOrder => inOrder tracked found

/-- The shutdown runs forward, once, along a run if and only if every step of it is in order. -/
theorem forward_iff_inOrder (timeoutSecs handlers clockNs : Nat) (moves : List (Move Operation)) :
    Always step Forward (start timeoutSecs handlers clockNs) moves ↔
      Guarded step MovesInOrder (start timeoutSecs handlers clockNs) moves :=
  @always_iff_guarded_of _ _ step Tracks Forward (fun _ _ => True) MovesInOrder
    (fun pool move after tracks forward _ inOrder stepped =>
      tracks_step pool move after tracks forward inOrder stepped)
    (fun pool move after tracks forward _ stepped =>
      forward_step pool move after tracks forward stepped)
    (start timeoutSecs handlers clockNs) (tracks_start timeoutSecs handlers clockNs)
    (forward_start timeoutSecs handlers clockNs) moves (guarded_of_forall (fun _ _ => trivial) _)

/-- So many steps of a call. -/
def advances (steps position : Nat) : List (Move Operation) :=
  List.replicate steps (.advance position)

/-- One `execute_shutdown` to its end and a second one up to the handlers, with the time of their
sleeps. -/
def twoShutdowns : List (Move Operation) :=
  List.flatten [
    [.start (.execute .userRequest)], advances 6 0,
    [.start (.tick 100000000)], advances 1 1, advances 10 0,
    [.start (.execute .signal)], advances 3 2,
    [.start (.tick 100000000)], advances 1 3, advances 2 2]

/-- A second `execute_shutdown` takes the phase back from `Terminated` and runs the handlers
again. -/
theorem second_shutdown_repeats : ¬ Always step Forward (start 30 1 0) twoShutdowns :=
  @not_always_of_view _ _ step _ (fun pool => (pool.shared.coordinator.state.getPhase,
      pool.shared.highestPhase, pool.shared.coordinator.handlerRuns))
    (.flushing, 5, [2]) Forward (start 30 1 0) twoShutdowns (by decide +kernel)
    (fun _ seen forward => by
      have once := forward.once 2 ((Prod.mk.inj (Prod.mk.inj seen).2).2 ▸ List.mem_singleton_self 2)
      exact absurd once (by decide))

end ShutdownOrder

end TradingBot.Orchestration
