import TradingBot.Foundation.MachineInt

/-!
# The TWAP scheduler

`twap_scheduler.rs`: an order is cut into slices that are scheduled at once and handed out one by
one. A computation that leaves the unsigned 64-bit integers, or a bound that is no bound, stops the
program.
-/

open MachineInt

namespace TradingBot.Execution

/-- `TwapConfig`. -/
structure TwapConfig where
  totalDurationSecs : Nat
  numSlices : Nat
  minIntervalMs : Nat
  randomizationWindowMs : Nat
  minSliceSize : Nat
  maxSliceSize : Nat

/-- The default configuration. -/
def TwapConfig.default : TwapConfig where
  totalDurationSecs := 3600
  numSlices := 60
  minIntervalMs := 1000
  randomizationWindowMs := 500
  minSliceSize := 100
  maxSliceSize := 1000000

/-- `OrderSide`. -/
inductive OrderSide where
  | buy
  | sell

/-- `TwapSlice`. -/
structure TwapSlice where
  sliceId : Nat
  scheduledTimeNs : Nat
  quantity : Nat
  side : OrderSide
  isFinalSlice : Bool

/-- `TwapState`. -/
inductive TwapState where
  | idle
  | scheduled
  | running
  | paused
  | completed
  | cancelled
  | failed
  deriving DecidableEq, Repr

/-- `TwapScheduler`. -/
structure TwapScheduler where
  config : TwapConfig
  state : TwapState
  parentOrderId : Nat
  totalQuantity : Nat
  executedQuantity : Nat
  slicesCreated : Nat
  nextSliceIndex : Nat
  startTimeNs : Nat
  endTimeNs : Nat
  sliceQuantities : List Nat
  pendingSlices : List TwapSlice
  isActive : Bool
  lastExecutionTime : Nat

namespace TwapConfig

/-- The duration in nanoseconds. -/
def durationNs (config : TwapConfig) : Nat := config.totalDurationSecs * 1000000000

/-- The minimum interval in nanoseconds. -/
def minIntervalNs (config : TwapConfig) : Nat := config.minIntervalMs * 1000000

/-- The offset of a slice in nanoseconds. -/
def randomizationNs (config : TwapConfig) (index : Nat) : Nat :=
  if 0 < config.randomizationWindowMs then
    index * 17 % config.randomizationWindowMs * 1000000
  else 0

/-- `calculate_slice_quantities`; a minimum above the maximum stops the program. -/
def calculateSliceQuantities (config : TwapConfig) (totalQuantity : Nat) : Option (List Nat) :=
  let numSlices := min config.numSlices (totalQuantity / max config.minSliceSize 1)
  if numSlices = 0 then some [totalQuantity]
  else if config.maxSliceSize < config.minSliceSize then none
  else
    let baseQuantity := totalQuantity / numSlices
    let remainder := totalQuantity % numSlices
    some ((List.range numSlices).map fun i =>
      let qty := baseQuantity + if i < remainder then 1 else 0
      max config.minSliceSize (min config.maxSliceSize qty))

end TwapConfig

namespace TwapScheduler

def new (config : TwapConfig) (parentOrderId totalQuantity : Nat) : Option TwapScheduler :=
  (config.calculateSliceQuantities totalQuantity).map fun sliceQuantities => {
    config := config
    state := .idle
    parentOrderId := parentOrderId
    totalQuantity := totalQuantity
    executedQuantity := 0
    slicesCreated := 0
    nextSliceIndex := 0
    startTimeNs := 0
    endTimeNs := 0
    sliceQuantities := sliceQuantities
    pendingSlices := []
    isActive := false
    lastExecutionTime := 0 }

/-- The time between two slices, without their offsets. -/
def intervalNs (scheduler : TwapScheduler) : Nat :=
  scheduler.config.durationNs / scheduler.sliceQuantities.length

/-- The time of a slice after a start. -/
def timeNs (scheduler : TwapScheduler) (startTimeNs index : Nat) : Nat :=
  startTimeNs + index * scheduler.intervalNs + scheduler.config.randomizationNs index

/-- The slices that are created for a start. -/
def slices (scheduler : TwapScheduler) (startTimeNs : Nat) : List TwapSlice :=
  scheduler.sliceQuantities.mapIdx fun i qty => {
    sliceId := i
    scheduledTimeNs := scheduler.timeNs startTimeNs i
    quantity := qty
    side := .buy
    isFinalSlice := i = scheduler.sliceQuantities.length - 1 }

/-- `schedule`. Every part of a time is no larger than the time, so the times and the end tell
whether all of them fit. -/
def schedule (scheduler : TwapScheduler) (startTimeNs : Nat) : Option (Bool × TwapScheduler) :=
  if scheduler.totalQuantity = 0 ∨ scheduler.state ≠ .idle then some (false, scheduler)
  else
    let endTimeNs := startTimeNs + scheduler.config.durationNs
    let slices := scheduler.slices startTimeNs
    if endTimeNs < u64Size ∧ ∀ slice ∈ slices, slice.scheduledTimeNs < u64Size then
      some (true, { scheduler with
        startTimeNs := startTimeNs
        endTimeNs := endTimeNs
        pendingSlices := scheduler.pendingSlices ++ slices
        slicesCreated := scheduler.slicesCreated + slices.length
        state := .scheduled })
    else none

def start (scheduler : TwapScheduler) : Bool × TwapScheduler :=
  if scheduler.state ≠ .scheduled then (false, scheduler)
  else (true, { scheduler with state := .running, isActive := true })

/-- Whether the minimum interval since the last execution is over; it is computed, and may not fit,
only after an execution at a time that is not zero. -/
def intervalOver (scheduler : TwapScheduler) (currentTimeNs : Nat) : Option Bool :=
  if 0 < scheduler.lastExecutionTime then
    if scheduler.config.minIntervalNs < u64Size then
      some (scheduler.config.minIntervalNs ≤ currentTimeNs - scheduler.lastExecutionTime)
    else none
  else some true

def getNextSlice (scheduler : TwapScheduler) (currentTimeNs : Nat) :
    Option (Option TwapSlice × TwapScheduler) :=
  if !scheduler.isActive then some (none, scheduler)
  else
    match scheduler.pendingSlices with
    | [] => some (none, scheduler)
    | slice :: rest =>
      (scheduler.intervalOver currentTimeNs).map fun (over_ : Bool) =>
        if over_ ∧ slice.scheduledTimeNs ≤ currentTimeNs then
          (some slice, { scheduler with
            pendingSlices := rest
            nextSliceIndex := scheduler.nextSliceIndex + 1
            lastExecutionTime := currentTimeNs })
        else (none, scheduler)

/-- `record_fill`; the slice of the fill is not looked at. -/
def recordFill (scheduler : TwapScheduler) (filledQuantity : Nat) : Option TwapScheduler :=
  let executedQuantity := scheduler.executedQuantity + filledQuantity
  if executedQuantity < u64Size then
    if scheduler.totalQuantity ≤ executedQuantity then
      some { scheduler with
        executedQuantity := executedQuantity
        state := .completed
        isActive := false }
    else some { scheduler with executedQuantity := executedQuantity }
  else none

def pause (scheduler : TwapScheduler) : TwapScheduler :=
  if scheduler.state = .running then { scheduler with state := .paused, isActive := false }
  else scheduler

def resume (scheduler : TwapScheduler) : Bool × TwapScheduler :=
  if scheduler.state = .paused then
    (true, { scheduler with state := .running, isActive := true })
  else (false, scheduler)

def cancel (scheduler : TwapScheduler) : TwapScheduler :=
  { scheduler with state := .cancelled, isActive := false, pendingSlices := [] }

def reset (scheduler : TwapScheduler) (newParentId newTotalQuantity : Nat) :
    Option TwapScheduler :=
  (scheduler.config.calculateSliceQuantities newTotalQuantity).map fun sliceQuantities =>
    { scheduler with
      state := .idle
      parentOrderId := newParentId
      totalQuantity := newTotalQuantity
      executedQuantity := 0
      slicesCreated := 0
      nextSliceIndex := 0
      startTimeNs := 0
      endTimeNs := 0
      pendingSlices := []
      isActive := false
      lastExecutionTime := 0
      sliceQuantities := sliceQuantities }

end TwapScheduler

end TradingBot.Execution
