import TradingBot.Foundation.MachineInt

/-!
# Graceful shutdown

`ShutdownState` and `ShutdownCoordinator` of `backend/orchestration/graceful_shutdown.rs`, with
every atomic load, store, swap and every mutex section as one step. A sleep only lets time pass,
which the clock may do between any two steps; the registered handlers run in one section of their
mutex and are represented by how often each has run.
-/

open MachineInt

namespace TradingBot.Orchestration

/-- `ShutdownPhase`. -/
inductive ShutdownPhase where
  | none
  | signaled
  | stoppingIngest
  | flushing
  | cleaning
  | terminated
  deriving DecidableEq, Repr

/-- A phase as the number that is stored for it. -/
def ShutdownPhase.toUsize : ShutdownPhase → Nat
  | .none => 0
  | .signaled => 1
  | .stoppingIngest => 2
  | .flushing => 3
  | .cleaning => 4
  | .terminated => 5

/-- `ShutdownReason`. -/
inductive ShutdownReason where
  | userRequest
  | signal
  | fatalError
  | timeout
  | resourceLimit
  | windowEnded
  deriving DecidableEq, Repr

/-- `ShutdownState`. -/
structure ShutdownState where
  shutdownRequested : Bool
  currentPhase : Nat
  reason : Option ShutdownReason
  activeWorkers : Nat
  shutdownStart : Option Nat
  errorMessage : Option String

namespace ShutdownState

def new : ShutdownState where
  shutdownRequested := false
  currentPhase := ShutdownPhase.none.toUsize
  reason := .none
  activeWorkers := 0
  shutdownStart := .none
  errorMessage := .none

def getPhase (state : ShutdownState) : ShutdownPhase :=
  match state.currentPhase with
  | 0 => .none
  | 1 => .signaled
  | 2 => .stoppingIngest
  | 3 => .flushing
  | 4 => .cleaning
  | 5 => .terminated
  | _ => .none

def setPhase (state : ShutdownState) (phase : ShutdownPhase) : ShutdownState :=
  { state with currentPhase := phase.toUsize }

def registerWorker (state : ShutdownState) : ShutdownState :=
  { state with activeWorkers := (state.activeWorkers + 1) % u64Size }

def unregisterWorker (state : ShutdownState) : ShutdownState :=
  { state with activeWorkers := (state.activeWorkers + u64Size - 1) % u64Size }

def setError (state : ShutdownState) (message : String) : ShutdownState :=
  { state with errorMessage := some message }

end ShutdownState

/-- `ShutdownCoordinator`, with the clock. -/
structure ShutdownCoordinator where
  state : ShutdownState
  /-- How often each registered handler has run. -/
  handlerRuns : List Nat
  timeoutNs : Nat
  clockNs : Nat

namespace ShutdownCoordinator

/-- `ShutdownCoordinator::new` with so many handlers registered. -/
def new (timeoutSecs handlers clockNs : Nat) : ShutdownCoordinator where
  state := .new
  handlerRuns := List.replicate handlers 0
  timeoutNs := timeoutSecs * 1000000000
  clockNs := clockNs

/-- A coordinator with its state changed. -/
def update (coordinator : ShutdownCoordinator) (change : ShutdownState → ShutdownState) :
    ShutdownCoordinator :=
  { coordinator with state := change coordinator.state }

end ShutdownCoordinator

/-- What is called on a coordinator, and what happens around it. -/
inductive Operation where
  /-- `request_shutdown`, or `initiate_shutdown`, which only calls it. -/
  | request (reason : ShutdownReason)
  | execute (reason : ShutdownReason)
  /-- A worker that registers and later drops its guard. -/
  | worker
  /-- Time that passes. -/
  | tick (passedNs : Nat)
  deriving DecidableEq, Repr

/-- Where an operation stands. The start of `execute_shutdown` is kept from its reading of the
clock on, as are its remaining timeout and the start of its wait. -/
inductive Stage where
  /-- Before the `swap` of the request flag. -/
  | swap
  /-- Before the section of the reason. -/
  | storeReason
  /-- Before the section of the start. -/
  | storeStart
  /-- Before the store of `Signaled`. -/
  | storeSignaled
  /-- Before the reading of the clock at the start of `execute_shutdown`. -/
  | readStart
  /-- Before the store of `StoppingIngest`. -/
  | stopIngest (startNs : Nat)
  /-- Before the store of `Flushing`. -/
  | flush (startNs : Nat)
  /-- Before the section in which the handlers run. -/
  | runHandlers (startNs : Nat)
  /-- Before the reading of the clock for the remaining timeout. -/
  | readElapsed (startNs : Nat)
  /-- Before the reading of the clock at the start of `wait_for_workers`. -/
  | enterWait (startNs remainingNs : Nat)
  /-- Before the reading of the clock in the loop of `wait_for_workers`. -/
  | checkWait (startNs remainingNs waitNs : Nat)
  /-- Before the load of the number of workers. -/
  | loadWorkers (startNs remainingNs waitNs : Nat)
  /-- Before the section of the error about the workers. -/
  | workerError (startNs : Nat)
  /-- Before the store of `Cleaning`. -/
  | clean (startNs : Nat)
  /-- Before the reading of the clock after the cleanup. -/
  | readTimeout (startNs : Nat)
  /-- Before the section of the error about the timeout. -/
  | timeoutError (startNs : Nat)
  /-- Before the store of `Terminated`. -/
  | complete (startNs : Nat)
  /-- Before the last reading of the clock. -/
  | readFinal (startNs : Nat)
  /-- Before the registration of a worker. -/
  | register
  /-- Before the drop of the guard. -/
  | drop
  /-- Before time passes. -/
  | pass
  /-- Returned, by `execute_shutdown` with an answer. -/
  | returned (answer : Option Bool)
  deriving DecidableEq, Repr

/-- An operation and where it stands. -/
structure ShutdownCall where
  operation : Operation
  stage : Stage
  deriving DecidableEq, Repr

/-- An operation at its first step. -/
def enter : Operation → ShutdownCall
  | .worker => ⟨.worker, .register⟩
  | .tick passedNs => ⟨.tick passedNs, .pass⟩
  | operation => ⟨operation, .swap⟩

/-- The reason an operation gives. -/
def Operation.reason : Operation → Option ShutdownReason
  | .request reason => some reason
  | .execute reason => some reason
  | _ => none

/-- Where an operation goes on when `request_shutdown` returns. -/
def Operation.requested : Operation → Stage
  | .execute _ => .readStart
  | _ => .returned none

/-- The time that passes in an operation. -/
def Operation.passedNs : Operation → Nat
  | .tick passedNs => passedNs
  | _ => 0

/-- The steps of the operations on a coordinator. -/
def nextStage (coordinator : ShutdownCoordinator) (operation : Operation) :
    Stage → Option (ShutdownCoordinator × Stage)
  | .swap =>
    if coordinator.state.shutdownRequested then some (coordinator, operation.requested)
    else some (coordinator.update fun state => { state with shutdownRequested := true },
      .storeReason)
  | .storeReason => some (coordinator.update fun state => { state with reason := operation.reason },
      .storeStart)
  | .storeStart => some (coordinator.update fun state =>
      { state with shutdownStart := some coordinator.clockNs }, .storeSignaled)
  | .storeSignaled => some (coordinator.update fun state => state.setPhase .signaled,
      operation.requested)
  | .readStart => some (coordinator, .stopIngest coordinator.clockNs)
  | .stopIngest startNs => some (coordinator.update fun state => state.setPhase .stoppingIngest,
      .flush startNs)
  | .flush startNs => some (coordinator.update fun state => state.setPhase .flushing,
      .runHandlers startNs)
  | .runHandlers startNs => some ({ coordinator with
      handlerRuns := coordinator.handlerRuns.map fun runs => runs + 1 }, .readElapsed startNs)
  | .readElapsed startNs => some (coordinator,
      .enterWait startNs (coordinator.timeoutNs - (coordinator.clockNs - startNs)))
  | .enterWait startNs remainingNs => some (coordinator,
      .checkWait startNs remainingNs coordinator.clockNs)
  | .checkWait startNs remainingNs waitNs => some (coordinator,
      if coordinator.clockNs - waitNs < remainingNs then .loadWorkers startNs remainingNs waitNs
      else .workerError startNs)
  | .loadWorkers startNs remainingNs waitNs => some (coordinator,
      if coordinator.state.activeWorkers = 0 then .clean startNs
      else .checkWait startNs remainingNs waitNs)
  | .workerError startNs => some (coordinator.update fun state => state.setError "Worker timeout",
      .clean startNs)
  | .clean startNs => some (coordinator.update fun state => state.setPhase .cleaning,
      .readTimeout startNs)
  | .readTimeout startNs => some (coordinator,
      if coordinator.timeoutNs < coordinator.clockNs - startNs then .timeoutError startNs
      else .complete startNs)
  | .timeoutError startNs => some (coordinator.update fun state =>
      state.setError "Shutdown timeout", .complete startNs)
  | .complete startNs => some (coordinator.update fun state => state.setPhase .terminated,
      .readFinal startNs)
  | .readFinal startNs => some (coordinator,
      .returned (some (decide (coordinator.clockNs - startNs ≤ coordinator.timeoutNs))))
  | .register => some (coordinator.update fun state => state.registerWorker, .drop)
  | .drop => some (coordinator.update fun state => state.unregisterWorker, .returned none)
  | .pass => some ({ coordinator with clockNs := coordinator.clockNs + operation.passedNs },
      .returned none)
  | .returned _ => none

/-- The next step of a call. -/
def nextCall (coordinator : ShutdownCoordinator) (call : ShutdownCall) :
    Option (ShutdownCoordinator × ShutdownCall) :=
  (nextStage coordinator call.operation call.stage).map fun after =>
    (after.1, { call with stage := after.2 })

end TradingBot.Orchestration
