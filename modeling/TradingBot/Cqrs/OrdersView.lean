import TradingBot.Cqrs.PositionsView

/-!
# Orders view

`OrdersView` of `read_model_builder.py`: the read model of orders. Floats are rationals; the times
of creations and updates are left out.
-/

namespace TradingBot.Cqrs

/-- The values of `status`. -/
inductive OrderStatus where
  | pending
  | opened
  | partiallyFilled
  | filled
  | cancelled
  | rejected
  deriving DecidableEq, Repr

/-- `OrderState`. -/
structure OrderState where
  orderId : String
  symbol : String
  side : String
  quantity : ℚ
  filledQuantity : ℚ := 0
  price : Option ℚ := none
  status : OrderStatus := .pending

/-- The values of `event_type` that a view handles, and any other. -/
inductive ViewEventType where
  | orderPlaced
  | orderFilled
  | orderCancelled
  | orderModified
  | positionOpened
  | positionClosed
  | tickReceived
  | other
  deriving DecidableEq, Repr

/-- What the views read of the payload of an event; a missing field is none. -/
structure ViewPayload extends Payload where
  orderId : Option String := none
  /-- The price of a modification is there and null. -/
  nullPrice : Bool := false

/-- An event as the views get it; a missing number is zero. -/
structure ViewEvent where
  eventType : ViewEventType
  payload : ViewPayload
  sequence : Int

/-- The type of an event as the positions view sees it. -/
def ViewEventType.projected : ViewEventType → EventType
  | .orderPlaced => .orderPlaced
  | .orderFilled => .orderFilled
  | .orderCancelled => .orderCancelled
  | .orderModified => .other
  | .positionOpened => .positionOpened
  | .positionClosed => .positionClosed
  | .tickReceived => .tickReceived
  | .other => .other

/-- An event as the positions view gets it. -/
def ViewEvent.projected (event : ViewEvent) : ProjectedEvent :=
  ⟨event.eventType.projected, event.payload.toPayload⟩

/-- `OrdersView`, with the event count of its metadata. -/
structure OrdersView where
  orders : Dict String OrderState
  /-- The ids of the orders of a symbol, each once. -/
  ordersBySymbol : Dict String (List String)
  eventCount : Nat

namespace OrderState

/-- `status in ("open", "partially_filled")`. -/
def Active (order : OrderState) : Prop :=
  order.status = .opened ∨ order.status = .partiallyFilled

instance : DecidablePred Active := fun _ => inferInstanceAs (Decidable (_ ∨ _))

/-- What `_handle_filled` does with an order, whatever its status is. -/
def fill (order : OrderState) (fillQty : ℚ) : OrderState :=
  let filledQuantity := order.filledQuantity + fillQty
  { order with
    filledQuantity
    status := if order.quantity ≤ filledQuantity then .filled else .partiallyFilled }

theorem active_fill {order : OrderState} {fillQty : ℚ} :
    (order.fill fillQty).Active ↔ order.filledQuantity + fillQty < order.quantity := by
  unfold fill Active
  dsimp only
  by_cases complete : order.quantity ≤ order.filledQuantity + fillQty
  · rw [if_pos complete]
    exact iff_of_false (by simp) (not_lt.mpr complete)
  · rw [if_neg complete]
    exact iff_of_true (.inr rfl) (not_le.mp complete)

/-- What an order adds to the active ones of a symbol. -/
def weigh (symbol : String) (order : OrderState) : Nat :=
  if order.Active ∧ order.symbol = symbol then 1 else 0

end OrderState

namespace OrdersView

/-- `__init__`. -/
def new : OrdersView := ⟨.empty, .empty, 0⟩

/-- The order id of a payload, unless it is missing or empty. -/
def orderIdOf (payload : ViewPayload) : Option String :=
  payload.orderId.filter fun orderId => orderId ≠ ""

def getOrder (view : OrdersView) (orderId : String) : Option OrderState := view.orders.get orderId

/-- The order of the order id of a payload. -/
def orderOf (view : OrdersView) (payload : ViewPayload) : Option OrderState :=
  (orderIdOf payload).bind view.getOrder

/-- A change of the order of a payload, if the view has that order. -/
def update (view : OrdersView) (payload : ViewPayload) (change : OrderState → OrderState) :
    OrdersView :=
  match orderIdOf payload with
  | none => view
  | some orderId =>
    match view.orders.get orderId with
    | none => view
    | some order => { view with orders := view.orders.put orderId (change order) }

/-- `_handle_placed`; an order that has the id already is replaced. -/
def handlePlaced (view : OrdersView) (payload : ViewPayload) : OrdersView :=
  match orderIdOf payload with
  | none => view
  | some orderId =>
    let order : OrderState :=
      { orderId := orderId
        symbol := payload.symbol.getD ""
        side := payload.side.getD "buy"
        quantity := payload.quantity.getD 0
        price := payload.price
        status := .opened }
    let ids := (view.ordersBySymbol.get order.symbol).getD []
    { view with
      orders := view.orders.put orderId order
      ordersBySymbol := view.ordersBySymbol.put order.symbol
        (if orderId ∈ ids then ids else ids ++ [orderId]) }

def handleFilled (view : OrdersView) (payload : ViewPayload) : OrdersView :=
  view.update payload fun order => order.fill (payload.quantity.getD 0)

def handleCancelled (view : OrdersView) (payload : ViewPayload) : OrdersView :=
  view.update payload fun order => { order with status := .cancelled }

def handleModified (view : OrdersView) (payload : ViewPayload) : OrdersView :=
  view.update payload fun order =>
    { order with
      quantity := payload.quantity.getD order.quantity
      price := if payload.nullPrice then none else payload.price.or order.price }

def applyEvent (view : OrdersView) (event : ViewEvent) : OrdersView :=
  let handled :=
    match event.eventType with
    | .orderPlaced => view.handlePlaced event.payload
    | .orderFilled => view.handleFilled event.payload
    | .orderCancelled => view.handleCancelled event.payload
    | .orderModified => view.handleModified event.payload
    | _ => view
  { handled with eventCount := handled.eventCount + 1 }

def getActiveOrders (view : OrdersView) : List OrderState :=
  view.orders.values.filter fun order => order.Active

def clear (_ : OrdersView) : OrdersView := new

/-- The number of the active orders of a symbol. -/
def activeCount (view : OrdersView) (symbol : String) : Nat :=
  (view.getActiveOrders.filter fun order => order.symbol = symbol).length

variable {view : OrdersView} {payload : ViewPayload} {change : OrderState → OrderState}

theorem activeCount_eq (view : OrdersView) (symbol : String) :
    view.activeCount symbol = (view.orders.values.map (OrderState.weigh symbol)).sum := by
  unfold activeCount getActiveOrders
  induction view.orders.values with
  | nil => rfl
  | cons order rest ih =>
    rw [List.map_cons, List.sum_cons, ← ih, OrderState.weigh]
    by_cases active : order.Active
    · by_cases same : order.symbol = symbol
      · simp [active, same, Nat.add_comm]
      · simp [active, same]
    · simp [active]

theorem getOrder_update (orderId : String) :
    (view.update payload change).getOrder orderId =
      if orderIdOf payload = some orderId then (view.getOrder orderId).map change
      else view.getOrder orderId := by
  unfold update getOrder
  cases named : orderIdOf payload with
  | none => exact (if_neg nofun).symm
  | some other =>
    dsimp only
    by_cases same : other = orderId
    · rw [same, if_pos rfl]
      cases found : view.orders.get orderId with
      | none => exact found
      | some order => simp [Dict.get_put]
    · rw [if_neg fun eq => same (Option.some.inj eq)]
      cases view.orders.get other with
      | none => rfl
      | some order => simp [Dict.get_put, Ne.symm same]

/-- An update moves the count by the weight of the order. -/
theorem activeCount_update {order : OrderState} (found : view.orderOf payload = some order)
    (symbol : String) :
    (view.update payload change).activeCount symbol + order.weigh symbol =
      view.activeCount symbol + (change order).weigh symbol := by
  obtain ⟨orderId, named, there⟩ := Option.bind_eq_some_iff.mp found
  have there : view.orders.get orderId = some order := there
  rw [activeCount_eq, activeCount_eq, update, named]
  dsimp only
  rw [there]
  exact Dict.sum_put _ there _

theorem update_none (missing : view.orderOf payload = none) :
    view.update payload change = view := by
  unfold update
  cases named : orderIdOf payload with
  | none => rfl
  | some orderId =>
    have there : view.orders.get orderId = none := by
      rw [orderOf, named] at missing
      exact missing
    dsimp only
    rw [there]

end OrdersView

end TradingBot.Cqrs
