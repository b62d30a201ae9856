import TradingBot.Cqrs.EventStore
import TradingBot.Cqrs.OrdersView

/-!
# Read model builder

`ReadModelBuilder` of `read_model_builder.py` with its standard views, and the rebuild of them from
the events of a store.
-/

namespace TradingBot.Cqrs

/-- `ReadModelBuilder`, with the views that `__init__` registers. -/
structure ReadModelBuilder where
  positions : PositionsView
  orders : OrdersView
  lastSequence : Int

namespace ReadModelBuilder

/-- `__init__`. -/
def new : ReadModelBuilder := ⟨.new, .new, 0⟩

/-- An event applied to every view. -/
def applyEvent (builder : ReadModelBuilder) (event : ViewEvent) : ReadModelBuilder :=
  { builder with
    positions := builder.positions.applyEvent event.projected
    orders := builder.orders.applyEvent event }

/-- `project_event`: an event whose number is not above the last one is skipped. -/
def projectEvent (builder : ReadModelBuilder) (event : ViewEvent) : ReadModelBuilder :=
  if event.sequence ≤ builder.lastSequence then builder
  else { builder.applyEvent event with lastSequence := event.sequence }

/-- `sorted(events, key=...)`, which keeps the order of events with one number. -/
def sorted (events : List ViewEvent) : List ViewEvent :=
  events.mergeSort fun first second => first.sequence ≤ second.sequence

/-- `project_events_batch`: the count, one for each event whether it is skipped or not, and the
builder. -/
def projectEventsBatch (builder : ReadModelBuilder) (events : List ViewEvent) :
    Nat × ReadModelBuilder :=
  (sorted events).foldl (fun (count, builder) event => (count + 1, builder.projectEvent event))
    (0, builder)

/-- The types of the events of a store that a view handles. -/
def viewEventType (name : String) : ViewEventType :=
  if name = "OrderPlaced" then .orderPlaced
  else if name = "OrderFilled" then .orderFilled
  else if name = "OrderCancelled" then .orderCancelled
  else if name = "OrderModified" then .orderModified
  else if name = "PositionOpened" then .positionOpened
  else if name = "PositionClosed" then .positionClosed
  else if name = "TickReceived" then .tickReceived
  else .other

/-- The event that the views get for one of the store; an empty payload has no fields, and for one
that `loads` does not take there is none. -/
def eventOf (loads : List UInt8 → Option ViewPayload) (event : Event) : Option ViewEvent :=
  (if event.payload = [] then some { symbol := none } else loads event.payload).map fun payload =>
    { eventType := viewEventType event.eventType, payload, sequence := event.sequence }

/-- The projection of the fetched events, and whether it comes to the end. -/
def projectFetched (loads : List UInt8 → Option ViewPayload) (builder : ReadModelBuilder) :
    List Event → Bool × ReadModelBuilder
  | [] => (true, builder)
  | event :: rest =>
    match eventOf loads event with
    | none => (false, builder)
    | some projected => projectFetched loads (builder.projectEvent projected) rest

/-- The views cleared, with a last number. -/
def cleared (builder : ReadModelBuilder) (lastSequence : Int) : ReadModelBuilder :=
  ⟨builder.positions.clear, builder.orders.clear, lastSequence⟩

def rebuildFromEvents (loads : List UInt8 → Option ViewPayload) (builder : ReadModelBuilder)
    (store : EventStore) (startSequence : Nat) : Bool × ReadModelBuilder :=
  projectFetched loads (builder.cleared startSequence) (store.getEventsFrom startSequence)

end ReadModelBuilder

end TradingBot.Cqrs
