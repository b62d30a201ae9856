import TradingBot.Backtest.MatchingEngine

/-!
# The simulation matching engine

`matching_engine_sim.rs`: orders are matched against the levels of the opposite side and what is
left of them is added to their own. A level holds its quantity, the number of its orders and their
queue. A match takes from the quantity of a level and leaves its queue and the orders in it alone.
Prices and quantities are exact; the dust below which nothing counts as left is kept.
-/

open OrderedMap

namespace TradingBot.Simulation

/-- The quantity up to which nothing is left. -/
def dust : ℚ := 1 / 100000000

/-- `OrderType`. -/
inductive OrderType where
  | limit
  | market
  | stopLoss
  | stopLimit
  | takeProfit
  | takeProfitLimit
  deriving DecidableEq, Repr

/-- `Order`, without what the engine does not read. -/
structure Order where
  orderId : Nat
  symbol : String
  side : Side
  orderType : OrderType
  timeInForce : TimeInForce
  price : ℚ
  quantity : ℚ
  filledQuantity : ℚ
  remainingQuantity : ℚ
  avgFillPrice : ℚ
  status : OrderStatus
  timestampNs : Nat
  isOco : Bool
  ocoGroupId : Option Nat

namespace Order

/-- `new_limit`: a new limit order. -/
def newLimit (orderId : Nat) (symbol : String) (side : Side) (price quantity : ℚ)
    (timeInForce : TimeInForce) : Order where
  orderId := orderId
  symbol := symbol
  side := side
  orderType := .limit
  timeInForce := timeInForce
  price := price
  quantity := quantity
  filledQuantity := 0
  remainingQuantity := quantity
  avgFillPrice := 0
  status := .new
  timestampNs := 0
  isOco := false
  ocoGroupId := none

/-- `is_filled`: whether the order is fully filled. -/
def isFilled (order : Order) : Bool := order.remainingQuantity ≤ dust ∨ order.status = .filled

/-- The average price after a fill. Nothing filled is no number in the source and zero here. -/
def averageAfter (order : Order) (actualFill fillPrice : ℚ) : ℚ :=
  (order.avgFillPrice * order.filledQuantity + fillPrice * actualFill) /
    (order.filledQuantity + actualFill)

/-- `fill`, without the quantity it returns. -/
def fill (order : Order) (fillQty fillPrice : ℚ) : Order :=
  let actualFill := min fillQty order.remainingQuantity
  let filled := { order with
    filledQuantity := order.filledQuantity + actualFill
    avgFillPrice := order.averageAfter actualFill fillPrice
    remainingQuantity := order.remainingQuantity - actualFill }
  if filled.isFilled then { filled with status := .filled }
  else if dust < filled.filledQuantity then { filled with status := .partiallyFilled }
  else filled

theorem fill_remainingQuantity (order : Order) (fillQty fillPrice : ℚ) :
    (order.fill fillQty fillPrice).remainingQuantity =
      order.remainingQuantity - min fillQty order.remainingQuantity := by
  unfold fill
  dsimp only
  split
  · rfl
  · split <;> rfl

theorem fill_same (order : Order) (fillQty fillPrice : ℚ) :
    (order.fill fillQty fillPrice).orderId = order.orderId ∧
      (order.fill fillQty fillPrice).side = order.side ∧
        (order.fill fillQty fillPrice).price = order.price := by
  unfold fill
  dsimp only
  split
  · exact ⟨rfl, rfl, rfl⟩
  · split <;> exact ⟨rfl, rfl, rfl⟩

end Order

/-- `FeeTier`: fee tier based on 30-day volume. -/
structure FeeTier where
  makerFeeBps : ℚ
  takerFeeBps : ℚ
  min30dVolume : ℚ

/-- The fee tiers of a new engine. -/
def binanceFeeTiers : List FeeTier := [
  { makerFeeBps := 10, takerFeeBps := 10, min30dVolume := 0 },
  { makerFeeBps := 9, takerFeeBps := 10, min30dVolume := 50 },
  { makerFeeBps := 8, takerFeeBps := 9, min30dVolume := 500 },
  { makerFeeBps := 7, takerFeeBps := 8, min30dVolume := 1000 },
  { makerFeeBps := 0, takerFeeBps := 6, min30dVolume := 5000 }]

/-- `Fill`: fill execution record. -/
structure Fill where
  fillId : Nat
  orderId : Nat
  symbol : String
  side : Side
  price : ℚ
  quantity : ℚ
  commission : ℚ
  commissionAsset : String
  timestampNs : Nat
  isMaker : Bool

/-- `PriceLevel`: order book level. -/
structure PriceLevel where
  price : ℚ
  totalQuantity : ℚ
  orderCount : Nat
  /-- Identifiers of the orders at this level. -/
  orders : List Nat

/-- The levels of one side by price. -/
abbrev Levels := OrderedMap ℚ PriceLevel

/-- `MatchingEngine`: matching engine state. -/
structure MatchingEngine where
  bids : Levels
  asks : Levels
  orders : OrderedMap Nat Order
  ocoGroups : OrderedMap Nat (List Nat)
  fills : List Fill
  feeTiers : List FeeTier
  userFeeTier : Fin feeTiers.length
  nextOrderId : Nat
  nextFillId : Nat
  bestBid : Option ℚ
  bestAsk : Option ℚ
  lastTradePrice : Option ℚ
  maxOrdersPerSecond : Nat
  orderTimestamps : List Nat

namespace MatchingEngine

def new : MatchingEngine where
  bids := .empty
  asks := .empty
  orders := .empty
  ocoGroups := .empty
  fills := []
  feeTiers := binanceFeeTiers
  userFeeTier := ⟨0, by decide⟩
  nextOrderId := 1
  nextFillId := 1
  bestBid := none
  bestAsk := none
  lastTradePrice := none
  maxOrdersPerSecond := 100
  orderTimestamps := []

/-- The levels of a side. -/
def levels (engine : MatchingEngine) : Side → Levels
  | .buy => engine.bids
  | .sell => engine.asks

/-- The engine with other levels on a side. -/
def setLevels (engine : MatchingEngine) (side : Side) (levels : Levels) : MatchingEngine :=
  match side with
  | .buy => { engine with bids := levels }
  | .sell => { engine with asks := levels }

theorem levels_setLevels (engine : MatchingEngine) (side other : Side) (levels : Levels) :
    (engine.setLevels side levels).levels other =
      if other = side then levels else engine.levels other := by
  cases side <;> cases other <;> rfl

@[simp] theorem orders_setLevels (engine : MatchingEngine) (side : Side) (levels : Levels) :
    (engine.setLevels side levels).orders = engine.orders := by
  cases side <;> rfl

@[simp] theorem fills_setLevels (engine : MatchingEngine) (side : Side) (levels : Levels) :
    (engine.setLevels side levels).fills = engine.fills := by
  cases side <;> rfl

/-- The timestamps `check_rate_limit` keeps, those of the last second; a clock that goes back
underflows. -/
def recentTimestamps (timestampNs : Nat) : List Nat → Option (List Nat)
  | [] => some []
  | first :: rest =>
    if timestampNs < first then none
    else if 1000000000 < timestampNs - first then recentTimestamps timestampNs rest
    else some (first :: rest)

/-- `check_rate_limit`: rate limiting check. -/
def checkRateLimit (engine : MatchingEngine) (timestampNs : Nat) :
    Option (Except String Unit × MatchingEngine) :=
  (recentTimestamps timestampNs engine.orderTimestamps).map fun recent =>
    if engine.maxOrdersPerSecond ≤ recent.length then
      (.error "Rate limit exceeded", { engine with orderTimestamps := recent })
    else (.ok (), { engine with orderTimestamps := recent ++ [timestampNs] })

/-- `validate_order`: validate order parameters. -/
def validateOrder (order : Order) : Except String Unit :=
  if order.quantity < 1 / 1000 then .error "Quantity too small"
  else if order.price ≤ 0 then .error "Invalid price"
  else .ok ()

/-- `submit_oco_order`: the order is noted in its group. -/
def submitOcoOrder (engine : MatchingEngine) (order : Order) : MatchingEngine :=
  let groupId := order.ocoGroupId.getD engine.nextOrderId
  { engine with
    ocoGroups := engine.ocoGroups.insert groupId
      ((engine.ocoGroups.lookup groupId).getD [] ++ [order.orderId]) }

/-- The record `execute_match` makes of a match. -/
def matchFill (engine : MatchingEngine) (order : Order) (price fillQty : ℚ) (timestampNs : Nat) :
    Fill where
  fillId := engine.nextFillId
  orderId := order.orderId
  symbol := order.symbol
  side := order.side
  price := price
  quantity := fillQty
  -- The source takes the maker fee for every match.
  commission := fillQty * price * (engine.feeTiers.get engine.userFeeTier).makerFeeBps / 10000
  commissionAsset := if order.side = .buy then "BTC" else "USDT"
  timestampNs := timestampNs
  isMaker := false

/-- The engine after the record of a match. -/
def recordFill (engine : MatchingEngine) (fill : Fill) : MatchingEngine :=
  { engine with
    lastTradePrice := some fill.price
    nextFillId := engine.nextFillId + 1
    fills := engine.fills ++ [fill] }

/-- The levels of a side after a match at one of them, which is removed when it is empty. -/
def consume (levels : Levels) (price : ℚ) (level : PriceLevel) (fillQty : ℚ) : Levels :=
  if level.totalQuantity - fillQty < dust then levels.erase price
  else levels.insert price { level with totalQuantity := level.totalQuantity - fillQty }

theorem match_progress {order : Order} {levels : Levels} {side : End} {price : ℚ}
    {level : PriceLevel} (best : levels.edge side = some (price, level)) :
    (consume levels price level (min order.remainingQuantity level.totalQuantity)).size <
        levels.size ∨
      (order.fill (min order.remainingQuantity level.totalQuantity) price).remainingQuantity =
        0 := by
  unfold consume
  by_cases emptied :
      level.totalQuantity - min order.remainingQuantity level.totalQuantity < dust
  · rw [if_pos emptied]
    exact .inl (size_erase_lt (lookup_edge best))
  · have positive : 0 < dust := by decide +kernel
    have whole : min order.remainingQuantity level.totalQuantity = order.remainingQuantity := by
      refine min_eq_left (le_of_not_ge fun less => emptied ?_)
      rw [min_eq_right less, sub_self]
      exact positive
    rw [Order.fill_remainingQuantity, whole, min_self, sub_self]
    exact .inr rfl

/-- The loop of `process_limit_order` and `process_market_order`, on the asks from the lowest for
a buy and on the bids from the highest for a sell, as long as the best price can match: the fills
in order, the order and the engine after it. -/
def sweep (canMatch : Order → ℚ → Bool) (engine : MatchingEngine) (order : Order)
    (timestampNs : Nat) : List Fill × Order × MatchingEngine :=
  if dust < order.remainingQuantity then
    match _best : (engine.levels order.side.opposite).edge order.side.bestEnd with
    | none => ([], order, engine)
    | some (price, level) =>
      if canMatch order price then
        let fillQty := min order.remainingQuantity level.totalQuantity
        let fill := engine.matchFill order price fillQty timestampNs
        let later := sweep canMatch
          ((engine.recordFill fill).setLevels order.side.opposite
            (consume (engine.levels order.side.opposite) price level fillQty))
          (order.fill fillQty price) timestampNs
        (fill :: later.1, later.2)
      else ([], order, engine)
  else ([], order, engine)
termination_by
  if dust < order.remainingQuantity then (engine.levels order.side.opposite).size + 1 else 0
decreasing_by
  rename_i opened _
  have progress := @match_progress order _ _ _ _ _best
  rw [if_pos opened, (order.fill_same _ _).2.1, levels_setLevels, if_pos rfl]
  split
  · cases progress with
    | inl smaller => omega
    | inr done =>
      rename_i unfilled
      exact absurd unfilled (by rw [done]; decide +kernel)
  · exact Nat.succ_pos _

/-- Whether the prices of a limit order and a level cross. -/
def crosses (order : Order) (price : ℚ) : Bool :=
  match order.side with
  | .buy => price ≤ order.price
  | .sell => order.price ≤ price

def processLimitOrder (engine : MatchingEngine) (order : Order) (timestampNs : Nat) :
    List Fill × Order × MatchingEngine :=
  engine.sweep crosses order timestampNs

/-- `process_market_order`: the loop ends with something left where the liquidity ends, and there
a fill-or-kill order is cancelled and its fills are not returned. -/
def processMarketOrder (engine : MatchingEngine) (order : Order) (timestampNs : Nat) :
    List Fill × Order × MatchingEngine :=
  let swept := engine.sweep (fun _ _ => true) order timestampNs
  if dust < swept.2.1.remainingQuantity ∧ swept.2.1.timeInForce = .fok then
    ([], { swept.2.1 with status := .cancelled }, swept.2.2)
  else swept

/-- `add_to_book`: add order to book. -/
def addToBook (engine : MatchingEngine) (order : Order) : MatchingEngine :=
  let entry := ((engine.levels order.side).lookup order.price).getD {
    price := order.price
    totalQuantity := 0
    orderCount := 0
    orders := [] }
  engine.setLevels order.side ((engine.levels order.side).insert order.price { entry with
    totalQuantity := entry.totalQuantity + order.remainingQuantity
    orderCount := entry.orderCount + 1
    orders := entry.orders ++ [order.orderId] })

/-- `update_best_prices`: update best bid/ask prices. -/
def updateBestPrices (engine : MatchingEngine) : MatchingEngine :=
  { engine with
    bestBid := (engine.bids.edge .high).map Prod.fst
    bestAsk := (engine.asks.edge .low).map Prod.fst }

/-- `orders.insert`. -/
def record (engine : MatchingEngine) (orderId : Nat) (order : Order) : MatchingEngine :=
  { engine with orders := engine.orders.insert orderId order }

/-- Whether an order is added to the book after its matching. -/
def rests (order : Order) : Bool := !order.isFilled ∧ order.status ≠ .cancelled

/-- The end of `submit_order`: what is left goes to the book and the order is kept. -/
def settle (engine : MatchingEngine) (order : Order) : MatchingEngine :=
  ((if rests order then engine.addToBook order else engine).record order.orderId
    order).updateBestPrices

/-- What `submit_order` makes of the type of an order. -/
def process (engine : MatchingEngine) (order : Order) (timestampNs : Nat) :
    Except String (List Fill × Order × MatchingEngine) :=
  match order.orderType with
  | .limit => .ok (engine.processLimitOrder order timestampNs)
  | .market => .ok (engine.processMarketOrder order timestampNs)
  | _ => .error "Order type not supported in simulation"

/-- The part of `submit_order` behind the rate limit. -/
def submitLimited (engine : MatchingEngine) (order : Order) (timestampNs : Nat) :
    Except String (List Fill) × MatchingEngine :=
  if order.isOco then (.ok [], engine.submitOcoOrder order)
  else
    match validateOrder order with
    | .error error => (.error error, engine)
    | .ok () =>
      match engine.process order timestampNs with
      | .error error => (.error error, engine)
      | .ok (fills, matched, after) => (.ok fills, after.settle matched)

/-- `submit_order`: submit order to the book. -/
def submitOrder (engine : MatchingEngine) (order : Order) (timestampNs : Nat) :
    Option (Except String (List Fill) × MatchingEngine) :=
  (engine.checkRateLimit timestampNs).map fun limited =>
    match limited.1 with
    | .error error => (.error error, limited.2)
    | .ok () => limited.2.submitLimited { order with timestampNs := timestampNs } timestampNs

/-- The levels of a side after `cancel_order` takes an order out of its level. -/
def withdraw (levels : Levels) (orderId : Nat) (order : Order) : Levels :=
  match levels.lookup order.price with
  | none => levels
  | some level =>
    let reduced := { level with
      totalQuantity := level.totalQuantity - order.remainingQuantity
      orders := level.orders.filter fun id => id ≠ orderId }
    if reduced.totalQuantity < dust then levels.erase order.price
    else levels.insert order.price reduced

/-- `cancel_order`: cancel order. -/
def cancelOrder (engine : MatchingEngine) (orderId : Nat) : Except String Unit × MatchingEngine :=
  match engine.orders.lookup orderId with
  | none => (.error "Order not found", engine)
  | some order =>
    if order.status = .filled ∨ order.status = .cancelled then
      (.error "Order already filled or cancelled", engine)
    else
      let levels := withdraw (engine.levels order.side) orderId order
      (.ok (), ((engine.setLevels order.side levels).record orderId
        { order with status := .cancelled }).updateBestPrices)

end MatchingEngine

end TradingBot.Simulation
