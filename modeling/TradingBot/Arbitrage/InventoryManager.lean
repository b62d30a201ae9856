import Mathlib.Data.Rat.Floor
import TradingBot.Foundation.Dict

/-!
# Inventory manager

`inventory_manager.py`: the delta of the positions, the orders that are to bring it back to zero,
and their execution. Quantities and prices are exact rationals. The readings of the clock in the ids
of the orders and the answers of the exchange are parameters.
-/

namespace TradingBot.Arbitrage

/-- `Position`, less its name and the delta of an option. -/
structure Position where
  quantity : ℚ
  averageEntryPrice : ℚ
  currentPrice : ℚ
  unrealizedPnl : ℚ

namespace Position

def marketValue (position : Position) : ℚ := position.quantity * position.currentPrice

def costBasis (position : Position) : ℚ := position.quantity * position.averageEntryPrice

def updatePrice (position : Position) (newPrice : ℚ) : Position where
  quantity := position.quantity
  averageEntryPrice := position.averageEntryPrice
  currentPrice := newPrice
  unrealizedPnl :=
    if 0 < position.quantity then (newPrice - position.averageEntryPrice) * position.quantity
    else if position.quantity < 0 then
      (position.averageEntryPrice - newPrice) * |position.quantity|
    else position.unrealizedPnl

end Position

/-- The side of an order. -/
inductive RebalanceSide where
  | buy
  | sell

/-- `RebalanceOrder`, less the time of its creation. -/
structure RebalanceOrder where
  orderId : String
  symbol : String
  side : RebalanceSide
  quantity : ℚ
  reason : String
  priority : Int

/-- The answer of the exchange to an order. -/
inductive OrderResult where
  | filled (fillPrice : ℚ)
  | unfilled
  | raised

/-- `InventoryManager`, with the data that a rebalance reads and writes. -/
structure InventoryManager where
  riskLimits : Dict String ℚ
  positions : Dict String Position
  pendingOrders : Dict String RebalanceOrder
  orderCounter : Nat
  totalRebalances : Nat
  successfulRebalances : Nat
  failedRebalances : Nat
  totalDeltaViolations : Nat

namespace InventoryManager

def maxDeltaDeviationUsdt : ℚ := 1000

def rebalanceThresholdPct : ℚ := 5 / 100

def minRebalanceSizeUsdt : ℚ := 100

/-- The limit of a symbol that has none. -/
def defaultRiskLimit : ℚ := 100000

/-- A manager of some positions. -/
def new (riskLimits : Dict String ℚ) (positions : Dict String Position) : InventoryManager :=
  ⟨riskLimits, positions, .empty, 0, 0, 0, 0, 0⟩

/-- `_generate_order_id` with the counter that it has raised. -/
def generateOrderId (clock : Nat → Nat) (counter : Nat) : String :=
  let number := String.ofList ((toString counter).toList.leftpad 6 '0')
  s!"INV-{clock counter}-{number}"

def calculatePortfolioDelta (manager : InventoryManager) : ℚ :=
  (manager.positions.values.map fun position => position.quantity * position.currentPrice).sum

def calculateNetExposure (manager : InventoryManager) : Dict String ℚ :=
  let exposures := Dict.ofList (manager.positions.entries.map fun entry =>
    (entry.1, entry.2.marketValue))
  let withTotal := exposures.put "TOTAL" exposures.values.sum
  withTotal.put "NET_DELTA" manager.calculatePortfolioDelta

def checkDeltaNeutrality (manager : InventoryManager) : (Bool × ℚ) × InventoryManager :=
  let currentDelta := manager.calculatePortfolioDelta
  if |currentDelta| ≤ maxDeltaDeviationUsdt then ((true, currentDelta), manager)
  else ((false, currentDelta),
    { manager with totalDeltaViolations := manager.totalDeltaViolations + 1 })

/-- `quantize(Decimal('0.0001'), rounding=ROUND_DOWN)`. -/
def quantizeQuantity (quantity : ℚ) : ℚ :=
  (if 0 ≤ quantity then ⌊quantity * 10000⌋ else ⌈quantity * 10000⌉ : Int) / 10000

/-- What a pass of the loop trades of a position. -/
structure Trade where
  side : RebalanceSide
  quantity : ℚ
  deviationPct : ℚ

/-- The side that reduces a position on the side of the delta. -/
def sideOf (netDelta quantity : ℚ) : Option RebalanceSide :=
  if 0 < netDelta then
    if 0 < quantity then some .sell else none
  else
    if quantity < 0 then some .buy else none

/-- A pass of the loop from the market value of the position on. -/
def tradeOf (netDelta riskLimit : ℚ) (position : Position) : Option Trade :=
  let positionValue := position.marketValue
  if positionValue = 0 then none
  else
    match sideOf netDelta position.quantity with
    | none => none
    | some side =>
      let deviationPct := |netDelta| / |positionValue|
      if deviationPct < rebalanceThresholdPct then none
      else
        let reduction := |position.quantity| * min deviationPct (1 / 2)
        if reduction * position.currentPrice < minRebalanceSizeUsdt then none
        else
          let tradeQty :=
            if riskLimit < |position.quantity - reduction| * position.currentPrice then
              |position.quantity| - riskLimit / position.currentPrice
            else reduction
          if tradeQty ≤ 0 then none else some ⟨side, tradeQty, deviationPct⟩

/-- The order of a trade. -/
def orderOf (orderId symbol : String) (trade : Trade) : RebalanceOrder where
  orderId := orderId
  symbol := symbol
  side := trade.side
  quantity := quantizeQuantity trade.quantity
  reason := "delta_rebalance"
  priority := ⌊|trade.deviationPct| * 100⌋

/-- What a trade takes off the remaining delta. -/
def Trade.taken (trade : Trade) (price : ℚ) : ℚ :=
  match trade.side with
  | .sell => trade.quantity * price
  | .buy => -trade.quantity * price

/-- The loop of `calculate_rebalance_orders` over the sorted positions, with the counter of the
ids. -/
def rebalanceLoop (clock : Nat → Nat) (riskLimits : Dict String ℚ) (netDelta : ℚ) :
    List (String × Position) → ℚ → Nat → List RebalanceOrder × Nat
  | [], _, counter => ([], counter)
  | (symbol, position) :: rest, remainingDelta, counter =>
    if symbol = "USDT" then rebalanceLoop clock riskLimits netDelta rest remainingDelta counter
    else if |remainingDelta| < minRebalanceSizeUsdt then ([], counter)
    else
      match tradeOf netDelta ((riskLimits.get symbol).getD defaultRiskLimit) position with
      | none => rebalanceLoop clock riskLimits netDelta rest remainingDelta counter
      | some trade =>
        let (orders, final) := rebalanceLoop clock riskLimits netDelta rest
          (remainingDelta - trade.taken position.currentPrice) (counter + 1)
        (orderOf (generateOrderId clock (counter + 1)) symbol trade :: orders, final)

/-- The positions, those with the largest market value first. -/
def sortedPositions (manager : InventoryManager) : List (String × Position) :=
  manager.positions.entries.mergeSort fun first second =>
    decide (|second.2.marketValue| ≤ |first.2.marketValue|)

def calculateRebalanceOrders (clock : Nat → Nat) (manager : InventoryManager) :
    List RebalanceOrder × InventoryManager :=
  let netDelta := (manager.calculateNetExposure.get "NET_DELTA").getD 0
  if |netDelta| < minRebalanceSizeUsdt then ([], manager)
  else
    let (orders, counter) := rebalanceLoop clock manager.riskLimits netDelta
      manager.sortedPositions netDelta manager.orderCounter
    (orders.mergeSort fun first second => decide (second.priority ≤ first.priority),
      { manager with orderCounter := counter })

/-- A position after an order is filled. -/
def filledPosition (order : RebalanceOrder) (fillPrice : ℚ) (position : Position) : Position :=
  let traded : Position :=
    match order.side with
    | .buy =>
      let totalCost := position.costBasis + order.quantity * fillPrice
      let totalQty := position.quantity + order.quantity
      { position with
        averageEntryPrice :=
          if 0 < totalQty then totalCost / totalQty else position.averageEntryPrice
        quantity := totalQty }
    | .sell => { position with quantity := position.quantity - order.quantity }
  traded.updatePrice fillPrice

/-- The branch of `execute_rebalance` for an order that is filled. -/
def fill (order : RebalanceOrder) (fillPrice : ℚ) (manager : InventoryManager) :
    InventoryManager :=
  { manager with
    positions :=
      match manager.positions.get order.symbol with
      | some position =>
        manager.positions.put order.symbol (filledPosition order fillPrice position)
      | none => manager.positions
    successfulRebalances := manager.successfulRebalances + 1
    pendingOrders := manager.pendingOrders.pop order.orderId }

/-- The loop of `execute_rebalance`, and whether it came to its end: an exchange that raises stops
it. -/
def executeOrders (exchange : RebalanceOrder → OrderResult) :
    InventoryManager → List RebalanceOrder → Bool × InventoryManager
  | manager, [] => (true, manager)
  | manager, order :: rest =>
    let placed := { manager with
      pendingOrders := manager.pendingOrders.put order.orderId order }
    match exchange order with
    | .raised => (false, placed)
    | .filled fillPrice => executeOrders exchange (placed.fill order fillPrice) rest
    | .unfilled =>
      executeOrders exchange
        { placed with failedRebalances := placed.failedRebalances + 1 } rest

def executeRebalance (clock : Nat → Nat) (exchange : RebalanceOrder → OrderResult) (dryRun : Bool)
    (manager : InventoryManager) : Bool × InventoryManager :=
  let (orders, counted) := manager.calculateRebalanceOrders clock
  if orders.isEmpty then (true, counted)
  else
    let started := { counted with totalRebalances := counted.totalRebalances + 1 }
    if dryRun then (true, started)
    else
      match executeOrders exchange started orders with
      | (false, stopped) => (false, stopped)
      | (true, executed) =>
        let ((isNeutral, _), checked) := executed.checkDeltaNeutrality
        (isNeutral, checked)

end InventoryManager

end TradingBot.Arbitrage
