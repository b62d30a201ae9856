import TradingBot.Foundation.Run
import TradingBot.Cqrs.EventStore
import TradingBot.Cqrs.PositionAggregator

/-!
# The state rebuilder

`state_rebuilder.rs`: after a crash the position aggregator is cleared and the events the store
still holds are applied to it again. JSON parsing is a parameter: a partial function from the
payload bytes to the fields that the source reads with `as_str` and `as_u64`. The source walks
the events in batches, which only paces its progress tracker; here they are one sequence.
-/

open MachineInt

namespace TradingBot

/-- The fields of a parsed payload. -/
structure Payload where
  /-- `payload[key].as_str()`. -/
  asStr : String → Option String
  /-- `payload[key].as_u64()`. -/
  asU64 : String → Option Nat

/-- Result of a state rebuild operation. -/
structure RebuildResult where
  eventsProcessed : Nat
  rebuildTimeMs : ℚ
  startSequence : Nat
  endSequence : Nat
  gapsDetected : Nat
  success : Bool
  errorMessage : Option String

/-- `RebuildResult::success`. -/
def RebuildResult.ofSuccess (eventsProcessed : Nat) (rebuildTimeMs : ℚ)
    (startSequence endSequence : Nat) : RebuildResult where
  eventsProcessed
  rebuildTimeMs
  startSequence
  endSequence
  gapsDetected := 0
  success := true
  errorMessage := none

/-- `RebuildResult::failure`. -/
def RebuildResult.ofFailure (error : String) : RebuildResult where
  eventsProcessed := 0
  rebuildTimeMs := 0
  startSequence := 0
  endSequence := 0
  gapsDetected := 0
  success := false
  errorMessage := some error

/-- `ReadModelTrait`: read model projection. -/
class ReadModel (ρ : Type) where
  /-- Project one event. -/
  projectEvent : ρ → Event → ρ
  /-- Drop the projected state. -/
  clear : ρ → ρ

/-- `StateRebuilder`: the store, the aggregator it rebuilds and an optional read model. -/
structure StateRebuilder (ρ : Type) where
  eventStore : EventStore
  positionAggregator : PositionAggregator
  readModelBuilder : Option ρ
  lastRebuildResult : Option RebuildResult
  rebuildInProgress : Bool

namespace StateRebuilder

/-- `apply_event_to_aggregator`: route one event by its type; a refused fill is ignored. -/
def applyEventToAggregator (fromSlice : List UInt8 → Option Payload)
    (aggregator : PositionAggregator) (event : Event) : Option PositionAggregator :=
  if event.eventType = "OrderFilled" ∨ event.eventType = "TradeExecuted" then
    match fromSlice event.payload with
    | none => some aggregator
    | some payload =>
      (aggregator.processFill ((payload.asStr "symbol").getD "") ((payload.asStr "side").getD "buy")
        ((payload.asU64 "quantity").getD 0) ((payload.asU64 "price").getD 0) event.sequence
        event.timestampUs).map Prod.snd
  else if event.eventType = "TickReceived" then
    match fromSlice event.payload with
    | none => some aggregator
    | some payload => some (aggregator.processTick ((payload.asStr "symbol").getD "")
        ((payload.asU64 "price").getD 0) event.timestampUs)
  else if event.eventType = "OrderPlaced" then
    match fromSlice event.payload with
    | none => some aggregator
    | some payload => some (aggregator.processOrderPlaced ((payload.asStr "symbol").getD ""))
  else if event.eventType = "OrderCancelled" then
    match fromSlice event.payload with
    | none => some aggregator
    | some payload => some (aggregator.processOrderCancelled ((payload.asStr "symbol").getD ""))
  else some aggregator

/-- The scan of `detect_gaps`, from the sequence number it expects. -/
def detectGaps (expected : Nat) : List Event → Nat
  | [] => 0
  | event :: rest =>
    (if event.sequence ≠ expected then 1 else 0) + detectGaps (event.sequence + 1) rest

variable {ρ : Type} [ReadModel ρ]

/-- `StateRebuilder::rebuild`, taking `elapsedMs` on the clock: the result and the rebuilder
after it. The replay stops where applying an event stops the thread. -/
def rebuild (fromSlice : List UInt8 → Option Payload) (elapsedMs : ℚ)
    (rebuilder : StateRebuilder ρ) (startSequence : Nat) :
    Option (RebuildResult × StateRebuilder ρ) :=
  if rebuilder.rebuildInProgress then
    some (.ofFailure "Rebuild already in progress", rebuilder)
  else
    let cleared := rebuilder.positionAggregator.clear
    let readModel := rebuilder.readModelBuilder.map ReadModel.clear
    let events := rebuilder.eventStore.getEventsFrom startSequence
    if events.isEmpty then
      let result := RebuildResult.ofSuccess 0 0 startSequence startSequence
      some (result, { rebuilder with
        positionAggregator := cleared
        readModelBuilder := readModel
        lastRebuildResult := some result })
    else do
      let rebuilt ← Run.exec (applyEventToAggregator fromSlice) cleared events
      let result := {
        eventsProcessed := events.length
        rebuildTimeMs := elapsedMs
        startSequence
        endSequence := (events.getLast?.map Event.sequence).getD startSequence
        gapsDetected := detectGaps startSequence events
        success := true
        errorMessage := none }
      return (result, { rebuilder with
        positionAggregator := rebuilt
        readModelBuilder := readModel.map fun model => events.foldl ReadModel.projectEvent model
        lastRebuildResult := some result })

end StateRebuilder

end TradingBot
