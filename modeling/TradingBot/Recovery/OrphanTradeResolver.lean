import Mathlib.Algebra.Order.Group.Abs
import Mathlib.Algebra.Order.Ring.Rat
import TradingBot.Foundation.Dict

/-!
# Orphan trade resolver

`OrphanTradeResolver`: the registered local orders against the open orders of the exchange. The
exchange is the list of its open orders and whether it answers a request; floats are rationals,
and the times of discrepancies are left out.
-/

namespace TradingBot.Recovery

/-- `OrderDiscrepancyType`, as far as `reconcile` finds it. -/
inductive OrderDiscrepancyType where
  /-- Order exists on exchange but not locally. -/
  | missingLocal
  /-- Order exists locally but not on exchange. -/
  | missingExchange
  | statusMismatch
  | quantityMismatch
  deriving DecidableEq, Repr

/-- `LocalOrder`, what `reconcile` reads of it. -/
structure LocalOrder where
  orderId : String
  symbol : String
  filledQuantity : ℚ
  status : String
  exchangeOrderId : Option String := none
  deriving DecidableEq, Repr

/-- `ExchangeOrder`, what `reconcile` reads of it. -/
structure ExchangeOrder where
  orderId : String
  symbol : String
  filledQuantity : ℚ
  status : String
  deriving DecidableEq, Repr

/-- `Discrepancy`, as it is created. -/
structure Discrepancy where
  discrepancyType : OrderDiscrepancyType
  localOrder : Option LocalOrder
  exchangeOrder : Option ExchangeOrder
  severity : String
  deriving DecidableEq, Repr

/-- The exchange: its open orders, and whether a request for the orders of a symbol, or for all,
succeeds. -/
structure Exchange where
  openOrders : List ExchangeOrder
  answers : Option String → Bool

/-- `OrphanTradeResolver`. Every local order is kept under its own identifier. -/
structure OrphanTradeResolver where
  localOrders : Dict String LocalOrder
  /-- An order is registered under its identifier. -/
  keyed : ∀ key order, localOrders.get key = some order → order.orderId = key
  discrepancies : List Discrepancy
  totalDetected : Nat
  /-- Whether there is a session. -/
  started : Bool

namespace OrphanTradeResolver

/-- `__init__` and `start`. -/
def new : OrphanTradeResolver where
  localOrders := .empty
  keyed := fun _ order found => absurd found (Option.some_ne_none order).symm
  discrepancies := []
  totalDetected := 0
  started := true

def registerLocalOrder (resolver : OrphanTradeResolver) (order : LocalOrder) :
    OrphanTradeResolver :=
  { resolver with
    localOrders := resolver.localOrders.put order.orderId order
    keyed := by
      intro key other found
      rw [Dict.get_put] at found
      split at found
      · rename_i same
        cases found
        exact same.symm
      · exact resolver.keyed key other found }

def removeLocalOrder (resolver : OrphanTradeResolver) (orderId : String) : OrphanTradeResolver :=
  { resolver with
    localOrders := resolver.localOrders.pop orderId
    keyed := by
      intro key other found
      rw [Dict.get_pop] at found
      split at found
      · cases found
      · exact resolver.keyed key other found }

/-- Whether a request for a symbol restricts the orders; an absent and an empty symbol do not. -/
def requested (symbol : Option String) (order : ExchangeOrder) : Bool :=
  match symbol with
  | none => true
  | some symbol => symbol = "" || order.symbol = symbol

/-- `fetch_exchange_orders`: a request that fails gives no orders. -/
def fetchExchangeOrders (exchange : Exchange) (symbol : Option String) : List ExchangeOrder :=
  if exchange.answers symbol then exchange.openOrders.filter (requested symbol) else []

/-- `exchange_orders` of `reconcile`; an absent and an empty list of symbols ask for all. -/
def exchangeOrders (exchange : Exchange) (symbols : Option (List String)) : List ExchangeOrder :=
  match symbols with
  | none => fetchExchangeOrders exchange none
  | some [] => fetchExchangeOrders exchange none
  | some symbols => symbols.flatMap fun symbol => fetchExchangeOrders exchange (some symbol)

/-- `local_by_exchange_id`: the last local order with an exchange identifier that is not empty. -/
def localByExchangeId (resolver : OrphanTradeResolver) (id : String) : Option LocalOrder :=
  resolver.localOrders.values.reverse.find? fun order =>
    order.exchangeOrderId = some id && id ≠ ""

/-- The local order that matches an exchange order. -/
def matchingOrder (resolver : OrphanTradeResolver) (order : ExchangeOrder) : Option LocalOrder :=
  match resolver.localByExchangeId order.orderId with
  | some localOrder => some localOrder
  | none => resolver.localOrders.get order.orderId

/-- The body of the loop over the exchange orders. -/
def checkExchangeOrder (resolver : OrphanTradeResolver) (order : ExchangeOrder) :
    List Discrepancy :=
  match resolver.matchingOrder order with
  | none => [⟨.missingLocal, none, some order, "critical"⟩]
  | some localOrder =>
    (if localOrder.status ≠ order.status then
      [⟨.statusMismatch, some localOrder, some order, "high"⟩] else []) ++
    (if 1 / 10000 < |localOrder.filledQuantity - order.filledQuantity| then
      [⟨.quantityMismatch, some localOrder, some order, "high"⟩] else [])

/-- The statuses that a missing exchange order is expected of. -/
def terminalStatuses : List String := ["CANCELLED", "FILLED", "REJECTED"]

/-- The body of the loop over the local orders. -/
def checkLocalOrder (exchangeOrders : List ExchangeOrder) (order : LocalOrder) :
    List Discrepancy :=
  match order.exchangeOrderId with
  | none => []
  | some id =>
    if id ≠ "" ∧ (∀ exchangeOrder ∈ exchangeOrders, exchangeOrder.orderId ≠ id) ∧
        order.status ∉ terminalStatuses then
      [⟨.missingExchange, some order, none, "medium"⟩]
    else []

/-- `reconcile`; a resolver without a session raises. -/
def reconcile (resolver : OrphanTradeResolver) (exchange : Exchange)
    (symbols : Option (List String)) : Except String (List Discrepancy × OrphanTradeResolver) :=
  if resolver.started then
    let fetched := exchangeOrders exchange symbols
    let found := fetched.flatMap resolver.checkExchangeOrder ++
      resolver.localOrders.values.flatMap (checkLocalOrder fetched)
    .ok (found, { resolver with
      discrepancies := resolver.discrepancies ++ found
      totalDetected := resolver.totalDetected + found.length })
  else .error "Resolver not started"

end OrphanTradeResolver

end TradingBot.Recovery
