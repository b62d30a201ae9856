import Mathlib.Algebra.Order.Field.Rat
import TradingBot.Foundation.Dict

/-!
# The order manager

`order_manager.py`: orders move through a table of transitions, and fills are added to them
whatever the table says. Amounts are taken as exact, identifiers that are drawn as arguments, and
locks as reentrant: `OrderLookup` and `FillLocks` take them as they are, which is not reentrant.
-/

namespace TradingBot.Execution

/-- `OrderState`. -/
inductive OrderState where
  | created
  | submitted
  | acknowledged
  | partiallyFilled
  | filled
  | cancelled
  | rejected
  | expired
  deriving DecidableEq, Repr

def validTransitions : OrderState → List OrderState
  | .created => [.submitted, .cancelled]
  | .submitted => [.acknowledged, .rejected, .cancelled]
  | .acknowledged => [.partiallyFilled, .filled, .cancelled, .expired]
  | .partiallyFilled => [.partiallyFilled, .filled, .cancelled]
  | .filled => []
  | .cancelled => []
  | .rejected => []
  | .expired => []

/-- `Fill`. -/
structure Fill where
  orderId : String
  price : ℚ
  quantity : ℚ
  commission : ℚ
  commissionAsset : String
  tradeId : Option Int

def Fill.notionalValue (fill : Fill) : ℚ := fill.price * fill.quantity

/-- `Order`, with what its life cycle reads. -/
structure Order where
  orderId : String
  clientOrderId : String
  quantity : ℚ
  state : OrderState
  filledQuantity : ℚ
  avgFillPrice : Option ℚ
  fills : List Fill
  exchangeOrderId : Option String
  rejectReason : Option String

namespace Order

/-- A new order. -/
def new (orderId clientOrderId : String) (quantity : ℚ) : Order where
  orderId := orderId
  clientOrderId := clientOrderId
  quantity := quantity
  state := .created
  filledQuantity := 0
  avgFillPrice := none
  fills := []
  exchangeOrderId := none
  rejectReason := none

def isActive (order : Order) : Bool :=
  order.state ∉ [OrderState.filled, .cancelled, .rejected, .expired]

/-- The reason an order keeps after a transition. -/
def reasonAfter (order : Order) (newState : OrderState) (reason : Option String) :
    Option String :=
  match newState with
  | .rejected => reason
  -- An empty reason is no reason.
  | .cancelled => if reason = none ∨ reason = some "" then order.rejectReason else reason
  | _ => order.rejectReason

def transition (order : Order) (newState : OrderState) (reason : Option String) : Bool × Order :=
  if newState ∉ validTransitions order.state then (false, order)
  else (true, { order with
    state := newState
    rejectReason := order.reasonAfter newState reason })

/-- The state of an order follows the quantity filled, if the table has the transition. -/
def follow (order : Order) (oldFilled : ℚ) : Order :=
  if order.quantity ≤ order.filledQuantity then (order.transition .filled none).2
  else if oldFilled < order.filledQuantity then
    if order.state ≠ .partiallyFilled then (order.transition .partiallyFilled none).2 else order
  else order

/-- An order with a fill more, before its state follows. -/
def withFill (order : Order) (fill : Fill) : Order :=
  let fills := order.fills ++ [fill]
  let filledQuantity := order.filledQuantity + fill.quantity
  { order with
    fills := fills
    filledQuantity := filledQuantity
    avgFillPrice :=
      if 0 < filledQuantity then some ((fills.map Fill.notionalValue).sum / filledQuantity)
      else order.avgFillPrice }

def addFill (order : Order) (fill : Fill) : Bool × Order :=
  if !order.isActive then (false, order)
  else (true, (order.withFill fill).follow order.filledQuantity)

/-- A transition that the table lacks is refused, and others are made. -/
theorem transition_cases (order : Order) (newState : OrderState) (reason : Option String) :
    (order.transition newState reason).2 = order ∧ newState ∉ validTransitions order.state ∨
      newState ∈ validTransitions order.state ∧ (order.transition newState reason).2 =
        { order with state := newState, rejectReason := order.reasonAfter newState reason } := by
  unfold transition
  by_cases listed : newState ∈ validTransitions order.state
  · rw [if_neg (not_not_intro listed)]
    exact .inr ⟨listed, rfl⟩
  · rw [if_pos listed]
    exact .inl ⟨rfl, listed⟩

end Order

/-- `OrderManager`. -/
structure OrderManager where
  orders : Dict String Order
  ordersByExchangeId : Dict String String
  ordersByClientId : Dict String String

namespace OrderManager

/-- `__init__`. -/
def new : OrderManager where
  orders := .empty
  ordersByExchangeId := .empty
  ordersByClientId := .empty

/-- A manager with an order as it is now. -/
def setOrder (manager : OrderManager) (orderId : String) (order : Order) : OrderManager :=
  { manager with orders := manager.orders.put orderId order }

/-- `create_order`, with the identifiers it draws. -/
def createOrder (manager : OrderManager) (orderId clientOrderId : String) (quantity : ℚ) :
    Order × OrderManager :=
  let order := Order.new orderId clientOrderId quantity
  (order, { manager.setOrder orderId order with
    ordersByClientId := manager.ordersByClientId.put clientOrderId orderId })

/-- An order of a manager is moved, if it is there. -/
def moveOrder (manager : OrderManager) (orderId : String) (move : Order → Bool × Order) :
    Bool × OrderManager :=
  match manager.orders.get orderId with
  | none => (false, manager)
  | some order =>
    let moved := move order
    (moved.1, manager.setOrder orderId moved.2)

def submitOrder (manager : OrderManager) (orderId exchangeOrderId : String) :
    Bool × OrderManager :=
  match manager.orders.get orderId with
  | none => (false, manager)
  | some order =>
    let moved :=
      { order with exchangeOrderId := some exchangeOrderId }.transition .submitted none
    (moved.1, { manager.setOrder orderId moved.2 with
      ordersByExchangeId := manager.ordersByExchangeId.put exchangeOrderId orderId })

def acknowledgeOrder (manager : OrderManager) (orderId : String) : Bool × OrderManager :=
  manager.moveOrder orderId fun order => order.transition .acknowledged none

def addFill (manager : OrderManager) (orderId : String) (price quantity commission : ℚ)
    (commissionAsset : String) (tradeId : Option Int) : Bool × OrderManager :=
  manager.moveOrder orderId fun order => order.addFill {
    orderId := orderId
    price := price
    quantity := quantity
    commission := commission
    commissionAsset := commissionAsset
    tradeId := tradeId }

def cancelOrder (manager : OrderManager) (orderId reason : String) : Bool × OrderManager :=
  manager.moveOrder orderId fun order =>
    if !order.isActive then (false, order) else order.transition .cancelled (some reason)

def rejectOrder (manager : OrderManager) (orderId reason : String) : Bool × OrderManager :=
  manager.moveOrder orderId fun order => order.transition .rejected (some reason)

variable {manager : OrderManager} {orderId : String} {order : Order}

theorem moveOrder_missing (missing : manager.orders.get orderId = none)
    (move : Order → Bool × Order) : manager.moveOrder orderId move = (false, manager) := by
  unfold moveOrder
  rw [missing]

theorem moveOrder_found (found : manager.orders.get orderId = some order)
    (move : Order → Bool × Order) :
    manager.moveOrder orderId move = ((move order).1, manager.setOrder orderId (move order).2) := by
  unfold moveOrder
  rw [found]

end OrderManager

end TradingBot.Execution
