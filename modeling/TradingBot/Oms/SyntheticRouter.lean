import Mathlib.Data.Rat.Floor
import TradingBot.Foundation.Dict
import TradingBot.Foundation.MachineInt

/-!
# The synthetic router

`synthetic_router.rs`: an order is split into children that wait in a queue until they are routed,
and fills of the children are added up at the order. Quantities are exact, a status is read back as
it was written, and the clock's readings are arguments. An executed quantity that leaves the
unsigned 64-bit integers stops the program.
-/

open MachineInt

namespace TradingBot.Oms

/-- `SyntheticOrderType`. -/
inductive SyntheticOrderType where
  | iceberg
  | twap
  | vwap
  | sniper
  | bracket
  deriving DecidableEq, Repr

/-- `SyntheticStatus`. -/
inductive SyntheticStatus where
  | pending
  | active
  | partiallyFilled
  | fullyFilled
  | cancelled
  | failed
  deriving DecidableEq, Repr

/-- `SplitConfig`, with what the splitting reads. -/
structure SplitConfig where
  minChildSize : ℚ
  maxChildSize : ℚ
  targetChildren : Nat

/-- The default configuration. -/
def SplitConfig.default : SplitConfig where
  minChildSize := 1 / 1000
  maxChildSize := 1 / 10
  targetChildren := 10

/-- `ChildOrder`. -/
structure ChildOrder where
  childId : Nat
  parentId : Nat
  sequence : Nat
  symbol : String
  side : String
  orderType : String
  price : ℚ
  quantity : ℚ
  filledQuantity : ℚ
  status : SyntheticStatus
  exchangeOrderId : Option Nat

def ChildOrder.isComplete (child : ChildOrder) : Bool :=
  child.status ∈ [SyntheticStatus.fullyFilled, .cancelled, .failed]

/-- `SyntheticOrder`. -/
structure SyntheticOrder where
  orderId : Nat
  orderType : SyntheticOrderType
  status : SyntheticStatus
  symbol : String
  side : String
  totalQuantity : ℚ
  executedQuantity : Nat
  config : SplitConfig
  children : Dict Nat ChildOrder

/-- The conversion of a quantity to units of `1e-8`, which drops the fraction and stops at the ends
of the type. -/
def toUnits (quantity : ℚ) : Nat := min (u64Size - 1) (quantity * 100000000).floor.toNat

namespace SyntheticOrder

/-- `new`, with the reading of the clock that is its identifier. -/
def new (orderId : Nat) (orderType : SyntheticOrderType) (symbol side : String)
    (totalQuantity : ℚ) (config : SplitConfig) : SyntheticOrder where
  orderId := orderId
  orderType := orderType
  status := .pending
  symbol := symbol
  side := side
  totalQuantity := totalQuantity
  executedQuantity := 0
  config := config
  children := .empty

def startExecution (order : SyntheticOrder) : SyntheticOrder := { order with status := .active }

/-- The quantities of `generate_iceberg_children`, up to a limit. -/
def icebergQuantities (config : SplitConfig) : Nat → ℚ → List ℚ
  | 0, _ => []
  | limit + 1, remaining =>
    if config.minChildSize < remaining then
      let childQty := min remaining config.maxChildSize
      childQty :: icebergQuantities config limit (remaining - childQty)
    else []

/-- The number of children of `generate_twap_children`; a quotient by zero is infinite or no
number. -/
def numChildren (config : SplitConfig) (totalQuantity : ℚ) : Nat :=
  if config.minChildSize = 0 then if 0 < totalQuantity then config.targetChildren else 0
  else min config.targetChildren (totalQuantity / config.minChildSize).floor.toNat

/-- The quantities of `generate_twap_children`. -/
def twapQuantities (config : SplitConfig) (totalQuantity : ℚ) : List ℚ :=
  let count := numChildren config totalQuantity
  List.replicate count (totalQuantity / count)

/-- The type and the quantities of the children of an order. -/
def splitQuantities (order : SyntheticOrder) : String × List ℚ :=
  match order.orderType with
  | .iceberg => ("LIMIT", icebergQuantities order.config 100 order.totalQuantity)
  | .twap => ("LIMIT", twapQuantities order.config order.totalQuantity)
  | .vwap => ("LIMIT", twapQuantities order.config order.totalQuantity)
  | .sniper => ("MARKET", [order.totalQuantity])
  | .bracket => ("", [])

/-- The children of an order, with the reading of the clock for each; the identifier of a child is
its reading and its number, which stay in 64 bits. -/
def childrenOf (order : SyntheticOrder) (nowMs : Nat → Nat) : List ChildOrder :=
  let (orderType, quantities) := order.splitQuantities
  quantities.mapIdx fun sequence quantity => {
    childId := nowMs sequence + sequence
    parentId := order.orderId
    sequence := sequence
    symbol := order.symbol
    side := order.side
    orderType := orderType
    price := 0
    quantity := quantity
    filledQuantity := 0
    status := .pending
    exchangeOrderId := none }

def generateChildren (order : SyntheticOrder) (nowMs : Nat → Nat) :
    List ChildOrder × SyntheticOrder :=
  let children := order.childrenOf nowMs
  (children, { order with
    children := children.foldl (fun children child => children.put child.childId child)
      order.children })

/-- An order with a child as it is now. -/
def setChild (order : SyntheticOrder) (child : ChildOrder) (childId : Nat) : SyntheticOrder :=
  { order with children := order.children.put childId child }

/-- The status of a child after a fill was reported. -/
def childStatus (child : ChildOrder) (filledQty : ℚ) : SyntheticStatus :=
  if child.quantity ≤ filledQty then .fullyFilled
  else if 0 < filledQty then .partiallyFilled
  else child.status

/-- The status of an order that has executed some units. -/
def statusAfter (order : SyntheticOrder) (executed : Nat) : SyntheticStatus :=
  let totalNow : ℚ := executed / 100000000
  if order.totalQuantity * (999 / 1000) ≤ totalNow then .fullyFilled
  else if 0 < totalNow then .partiallyFilled
  else order.status

def updateChildFill (order : SyntheticOrder) (childId : Nat) (filledQty : ℚ) :
    Option (Bool × SyntheticOrder) :=
  match order.children.get childId with
  | none => some (false, order)
  | some child =>
    let filled := { child with filledQuantity := filledQty, status := childStatus child filledQty }
    -- The quantity reported is added to what was executed.
    let executed := order.executedQuantity + toUnits filledQty
    if executed < u64Size then
      some (true, { order.setChild filled childId with
        executedQuantity := executed
        status := order.statusAfter executed })
    else none

end SyntheticOrder

/-- `SyntheticRouter`. -/
structure SyntheticRouter where
  orders : Dict Nat SyntheticOrder
  pendingQueue : Dict Nat (List ChildOrder)
  maxOrders : Nat
  paused : Bool

namespace SyntheticRouter

def new (maxOrders : Nat) : SyntheticRouter where
  orders := .empty
  pendingQueue := .empty
  maxOrders := maxOrders
  paused := false

/-- A router with an order as it is now. -/
def setOrder (router : SyntheticRouter) (orderId : Nat) (order : SyntheticOrder) :
    SyntheticRouter :=
  { router with orders := router.orders.put orderId order }

def submitSynthetic (router : SyntheticRouter) (order : SyntheticOrder) (nowMs : Nat → Nat) :
    Except String Nat × SyntheticRouter :=
  if router.maxOrders ≤ router.orders.size then
    (.error "Maximum synthetic orders reached", router)
  else
    let (children, generated) := order.generateChildren nowMs
    (.ok order.orderId, { router.setOrder order.orderId generated with
      pendingQueue := router.pendingQueue.put order.orderId children })

def getNextChildToRoute (router : SyntheticRouter) (orderId : Nat) : Option ChildOrder :=
  if router.paused then none
  else (router.pendingQueue.get orderId).bind List.head?

/-- The child that is routed, in its order. -/
def routeChild (router : SyntheticRouter) (orderId childId exchangeId : Nat) :
    Bool × SyntheticRouter :=
  match router.orders.get orderId with
  | none => (false, router)
  | some order =>
    match order.children.get childId with
    | none => (false, router)
    | some child =>
      (true, router.setOrder orderId (order.setChild
        { child with exchangeOrderId := some exchangeId, status := .active } childId))

/-- `mark_child_routed`; only the child in front of its queue is routed. -/
def markChildRouted (router : SyntheticRouter) (orderId childId exchangeId : Nat) :
    Bool × SyntheticRouter :=
  match router.pendingQueue.get orderId with
  | none | some [] => (false, router)
  | some (front :: rest) =>
    if front.childId = childId then
      { router with pendingQueue := router.pendingQueue.put orderId rest }.routeChild
        orderId childId exchangeId
    else (false, router)

/-- `update_child_fill` of an order of the router. -/
def updateChildFill (router : SyntheticRouter) (orderId childId : Nat) (filledQty : ℚ) :
    Option (Bool × SyntheticRouter) :=
  match router.orders.get orderId with
  | none => some (false, router)
  | some order => (order.updateChildFill childId filledQty).map fun answer =>
      (answer.1, router.setOrder orderId answer.2)

/-- A child after its order is cancelled. -/
def cancelChild (child : ChildOrder) : ChildOrder :=
  if child.isComplete then child else { child with status := .cancelled }

def cancelSynthetic (router : SyntheticRouter) (orderId : Nat) : Bool × SyntheticRouter :=
  match router.orders.get orderId with
  | none => (false, router)
  | some order =>
    (true, { router.setOrder orderId { order with
        children := order.children.mapValues cancelChild
        status := .cancelled } with
      pendingQueue := router.pendingQueue.pop orderId })

/-- What of an order waits to be routed. -/
def waiting (order : SyntheticOrder) : ℚ :=
  ((order.children.values.filter fun child => child.status = .pending).map
    ChildOrder.quantity).sum

/-- `total_pending_quantity`; only active orders are counted. -/
def totalPendingQuantity (router : SyntheticRouter) (symbol : String) : ℚ :=
  (router.orders.values.map fun order =>
    if order.symbol = symbol ∧ order.status = .active then waiting order else 0).sum

end SyntheticRouter

end TradingBot.Oms
