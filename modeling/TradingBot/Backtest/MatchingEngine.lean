import Mathlib.Data.Rat.Floor
import TradingBot.Foundation.OrderedMap

/-!
# The backtest matching engine

`matching_engine.rs`: orders are validated against the rules of a symbol, matched against the
opposite side of an aggregated book and, where their type allows, added to their own side.
Prices and quantities are exact; a side is a map ordered by price, whose lowest ask and highest
bid are its ends. Time stamps and funding are left out: the matching reads neither.
-/

open OrderedMap

namespace TradingBot

/-- One part of a message that shows numbers. -/
inductive MessagePart (φ : Type := ℚ) where
  | text (text : String)
  | number (number : φ)

/-- `MatchingError`: error types for matching engine operations. -/
inductive MatchingError (φ : Type := ℚ) where
  | invalidPrice (price : φ) (reason : List (MessagePart φ))
  /-- The quantity or the notional value is out of bounds. -/
  | invalidQuantity (quantity : φ) (reason : List (MessagePart φ))
  | insufficientBalance (asset : String) (required available : φ)
  | orderNotFound (orderId : Nat)
  | marketClosed
  | rateLimitExceeded

/-- `Side`: order side. -/
inductive Side where
  | buy
  | sell
  deriving DecidableEq, Repr

/-- The side an order is matched against. -/
def Side.opposite : Side → Side
  | .buy => .sell
  | .sell => .buy

/-- The end of the opposite side where an order is matched: the lowest ask or the highest bid. -/
def Side.bestEnd : Side → End
  | .buy => .low
  | .sell => .high

/-- `OrderType`. -/
inductive OrderType where
  | market
  /-- The limit price or better. -/
  | limit
  /-- A stop that becomes a market order. -/
  | stopMarket
  /-- A stop that becomes a limit order. -/
  | stopLimit
  deriving DecidableEq, Repr

/-- `TimeInForce`. -/
inductive TimeInForce where
  /-- Good till cancel. -/
  | gtc
  /-- Immediate or cancel. -/
  | ioc
  /-- Fill or kill. -/
  | fok
  /-- Good till date. -/
  | gtd
  deriving DecidableEq, Repr

/-- `OrderStatus`. -/
inductive OrderStatus where
  | new
  | partiallyFilled
  | filled
  | cancelled
  | rejected
  | expired
  deriving DecidableEq, Repr

/-- `Order`. -/
structure Order (φ : Type := ℚ) where
  orderId : Nat
  symbol : String
  side : Side
  orderType : OrderType
  timeInForce : TimeInForce
  price : φ
  quantity : φ
  filledQuantity : φ
  remainingQuantity : φ
  status : OrderStatus

namespace Order

def new (orderId : Nat) (symbol : String) (side : Side) (orderType : OrderType)
    (price quantity : ℚ) (timeInForce : TimeInForce) : Order where
  orderId := orderId
  symbol := symbol
  side := side
  orderType := orderType
  timeInForce := timeInForce
  price := price
  quantity := quantity
  filledQuantity := 0
  remainingQuantity := quantity
  status := .new

/-- The order is of the kind that waits in the book for what is left of it. -/
def Rests (order : Order) : Prop :=
  order.orderType = .limit ∧ (order.timeInForce = .gtc ∨ order.timeInForce = .gtd)

instance (order : Order) : Decidable order.Rests := inferInstanceAs (Decidable (_ ∧ _))

def isFilled (order : Order) : Bool :=
  decide (order.remainingQuantity ≤ 0) || order.status == .filled

/-- `fill`, without the value it returns. -/
def fill (order : Order) (quantity : ℚ) : Order :=
  let fillQty := min quantity order.remainingQuantity
  let filled := { order with
    filledQuantity := order.filledQuantity + fillQty
    remainingQuantity := order.remainingQuantity - fillQty }
  if filled.remainingQuantity ≤ 0 then { filled with status := .filled }
  else if 0 < filled.filledQuantity then { filled with status := .partiallyFilled }
  else filled

theorem fill_remainingQuantity (order : Order) (quantity : ℚ) :
    (order.fill quantity).remainingQuantity =
      order.remainingQuantity - min quantity order.remainingQuantity := by
  unfold fill
  dsimp only
  split
  · rfl
  · split <;> rfl

theorem fill_filledQuantity (order : Order) (quantity : ℚ) :
    (order.fill quantity).filledQuantity =
      order.filledQuantity + min quantity order.remainingQuantity := by
  unfold fill
  dsimp only
  split
  · rfl
  · split <;> rfl

/-- What a fill leaves alone. -/
structure SameOrder (first second : Order) : Prop where
  orderId : second.orderId = first.orderId
  side : second.side = first.side
  orderType : second.orderType = first.orderType
  timeInForce : second.timeInForce = first.timeInForce
  price : second.price = first.price

theorem SameOrder.refl (order : Order) : SameOrder order order := ⟨rfl, rfl, rfl, rfl, rfl⟩

theorem SameOrder.trans {first second third : Order} (left : SameOrder first second)
    (right : SameOrder second third) : SameOrder first third where
  orderId := right.orderId.trans left.orderId
  side := right.side.trans left.side
  orderType := right.orderType.trans left.orderType
  timeInForce := right.timeInForce.trans left.timeInForce
  price := right.price.trans left.price

/-- A fill changes an order's quantity and status only. -/
theorem sameOrder_fill (order : Order) (quantity : ℚ) : SameOrder order (order.fill quantity) := by
  unfold fill
  dsimp only
  split
  · exact ⟨rfl, rfl, rfl, rfl, rfl⟩
  · split <;> exact ⟨rfl, rfl, rfl, rfl, rfl⟩

end Order

/-- `Trade`: a trade execution record. -/
structure Trade (φ : Type := ℚ) where
  tradeId : Nat
  orderId : Nat
  symbol : String
  side : Side
  price : φ
  quantity : φ
  commission : φ
  commissionAsset : String
  /-- Whether the commission is the maker's. -/
  isMaker : Bool

/-- `SymbolRules`: the trading rules of a symbol. -/
structure SymbolRules (φ : Type := ℚ) where
  symbol : String
  baseAsset : String
  quoteAsset : String
  pricePrecision : Nat
  quantityPrecision : Nat
  tickSize : φ
  lotSize : φ
  minQuantity : φ
  maxQuantity : φ
  minPrice : φ
  maxPrice : φ
  minNotional : φ
  makerFeeRate : φ
  takerFeeRate : φ

/-- `f64::round`: to the nearest integer, halves away from zero. -/
def f64Round (value : ℚ) : Int :=
  if 0 ≤ value then ⌊value + 1 / 2⌋ else ⌈value - 1 / 2⌉

namespace SymbolRules

/-- `for_symbol`: default rules for common symbols. -/
def forSymbol (symbol : String) : SymbolRules :=
  if symbol = "BTCUSDT" then {
    symbol := "BTCUSDT"
    baseAsset := "BTC"
    quoteAsset := "USDT"
    pricePrecision := 2
    quantityPrecision := 5
    tickSize := 0.01
    lotSize := 0.001
    minQuantity := 0.001
    maxQuantity := 1000
    minPrice := 0.01
    maxPrice := 1000000
    minNotional := 10
    makerFeeRate := 0.0002
    takerFeeRate := 0.0004 }
  else if symbol = "ETHUSDT" then {
    symbol := "ETHUSDT"
    baseAsset := "ETH"
    quoteAsset := "USDT"
    pricePrecision := 2
    quantityPrecision := 4
    tickSize := 0.01
    lotSize := 0.001
    minQuantity := 0.001
    maxQuantity := 10000
    minPrice := 0.01
    maxPrice := 100000
    minNotional := 10
    makerFeeRate := 0.0002
    takerFeeRate := 0.0004 }
  else if symbol = "SOLUSDT" then {
    symbol := "SOLUSDT"
    baseAsset := "SOL"
    quoteAsset := "USDT"
    pricePrecision := 3
    quantityPrecision := 2
    tickSize := 0.001
    lotSize := 0.01
    minQuantity := 0.01
    maxQuantity := 100000
    minPrice := 0.001
    maxPrice := 10000
    minNotional := 10
    makerFeeRate := 0.0002
    takerFeeRate := 0.0004 }
  else {
    symbol := symbol
    baseAsset := "BASE"
    quoteAsset := "USDT"
    pricePrecision := 3
    quantityPrecision := 3
    tickSize := 0.001
    lotSize := 0.001
    minQuantity := 0.001
    maxQuantity := 10000
    minPrice := 0.001
    maxPrice := 100000
    minNotional := 10
    makerFeeRate := 0.0002
    takerFeeRate := 0.0004 }

def normalizePrice (rules : SymbolRules) (price : ℚ) : ℚ :=
  f64Round (price / rules.tickSize) * rules.tickSize

def normalizeQuantity (rules : SymbolRules) (quantity : ℚ) : ℚ :=
  f64Round (quantity / rules.lotSize) * rules.lotSize

def validateOrder (rules : SymbolRules) (price quantity : ℚ) : Except MatchingError Unit :=
  if price < rules.minPrice ∨ rules.maxPrice < price then
    .error (.invalidPrice price [.text "Price must be between ", .number rules.minPrice,
      .text " and ", .number rules.maxPrice])
  else if quantity < rules.minQuantity ∨ rules.maxQuantity < quantity then
    .error (.invalidQuantity quantity [.text "Quantity must be between ",
      .number rules.minQuantity, .text " and ", .number rules.maxQuantity])
  else if price * quantity < rules.minNotional then
    .error (.invalidQuantity quantity [.text "Notional value ", .number (price * quantity),
      .text " below minimum ", .number rules.minNotional])
  else .ok ()

theorem minQuantity_pos (symbol : String) : 0 < (forSymbol symbol).minQuantity := by
  unfold forSymbol
  split
  · norm_num
  · split
    · norm_num
    · split
      · norm_num
      · norm_num

end SymbolRules

/-- `PriceLevel`: an order book level. -/
structure PriceLevel (φ : Type := ℚ) where
  price : φ
  /-- Quantity of all its orders. -/
  quantity : φ
  /-- Number of its orders. -/
  orderCount : Nat

/-- The levels of one side by price. -/
abbrev Levels := OrderedMap ℚ PriceLevel

/-- `MatchingEngine`. -/
structure MatchingEngine where
  symbolRules : SymbolRules
  bids : Levels
  asks : Levels
  orders : OrderedMap Nat Order
  /-- The last thousand trades, oldest first. -/
  trades : List Trade
  orderIdCounter : Nat
  tradeIdCounter : Nat
  currentPrice : ℚ

/-- The arguments of `submit_order`. -/
structure OrderRequest (φ : Type := ℚ) where
  symbol : String
  side : Side
  orderType : OrderType
  price : φ
  quantity : φ
  timeInForce : TimeInForce

namespace MatchingEngine

def new (symbol : String) (initialPrice : ℚ) : MatchingEngine where
  symbolRules := .forSymbol symbol
  bids := .empty
  asks := .empty
  orders := .empty
  trades := []
  orderIdCounter := 1
  tradeIdCounter := 1
  currentPrice := (SymbolRules.forSymbol symbol).normalizePrice initialPrice

def bestBid (engine : MatchingEngine) : Option ℚ := (engine.bids.edge .high).map Prod.fst

def bestAsk (engine : MatchingEngine) : Option ℚ := (engine.asks.edge .low).map Prod.fst

/-- The levels of a side. -/
def levels (engine : MatchingEngine) : Side → Levels
  | .buy => engine.bids
  | .sell => engine.asks

/-- The engine with other levels on a side. -/
def setLevels (engine : MatchingEngine) (side : Side) (levels : Levels) : MatchingEngine :=
  match side with
  | .buy => { engine with bids := levels }
  | .sell => { engine with asks := levels }

/-- `execute_fill`: the trade, and the engine that has recorded it. -/
def executeFill (engine : MatchingEngine) (order : Order) (price quantity : ℚ) (isMaker : Bool) :
    Trade × MatchingEngine :=
  let feeRate :=
    if isMaker then engine.symbolRules.makerFeeRate else engine.symbolRules.takerFeeRate
  let trade : Trade := {
    tradeId := engine.tradeIdCounter
    orderId := order.orderId
    symbol := order.symbol
    side := order.side
    price := price
    quantity := quantity
    commission := price * quantity * feeRate
    commissionAsset := engine.symbolRules.quoteAsset
    isMaker := isMaker }
  (trade, { engine with
    tradeIdCounter := engine.tradeIdCounter + 1
    currentPrice := price
    trades := (if 1000 ≤ engine.trades.length then engine.trades.tail else engine.trades) ++
      [trade] })

/-- The price of a level is worse than the limit of an incoming limit order: above it for a
buy, below it for a sell. -/
def beyondLimit (order : Order) (price : ℚ) : Prop :=
  order.orderType = .limit ∧ order.side.bestEnd.Nearer order.price price

instance (order : Order) (price : ℚ) : Decidable (beyondLimit order price) :=
  inferInstanceAs (Decidable (_ ∧ _))

@[simp] theorem levels_setLevels (engine : MatchingEngine) (side : Side) (levels : Levels) :
    (engine.setLevels side levels).levels side = levels := by
  cases side <;> rfl

@[simp] theorem levels_setLevels_opposite (engine : MatchingEngine) (side : Side)
    (levels : Levels) :
    (engine.setLevels side.opposite levels).levels side = engine.levels side := by
  cases side <;> rfl

theorem levels_setLevels_other {side other : Side} (differ : other ≠ side)
    (engine : MatchingEngine) (levels : Levels) :
    (engine.setLevels side levels).levels other = engine.levels other := by
  cases side with
  | buy =>
    cases other with
    | buy => exact absurd rfl differ
    | sell => rfl
  | sell =>
    cases other with
    | buy => rfl
    | sell => exact absurd rfl differ

@[simp] theorem orders_setLevels (engine : MatchingEngine) (side : Side) (levels : Levels) :
    (engine.setLevels side levels).orders = engine.orders := by
  cases side <;> rfl

@[simp] theorem orderIdCounter_setLevels (engine : MatchingEngine) (side : Side)
    (levels : Levels) : (engine.setLevels side levels).orderIdCounter = engine.orderIdCounter := by
  cases side <;> rfl

@[simp] theorem symbolRules_setLevels (engine : MatchingEngine) (side : Side) (levels : Levels) :
    (engine.setLevels side levels).symbolRules = engine.symbolRules := by
  cases side <;> rfl

@[simp] theorem levels_executeFill (engine : MatchingEngine) (order : Order) (price quantity : ℚ)
    (isMaker : Bool) (side : Side) :
    (engine.executeFill order price quantity isMaker).2.levels side = engine.levels side := by
  cases side <;> rfl

/-- The levels of a side after a fill at its best level. -/
def consume (levels : Levels) (price : ℚ) (level : PriceLevel) (fillQty : ℚ) : Levels :=
  if level.quantity ≤ fillQty then levels.erase price
  else levels.insert price { level with quantity := level.quantity - fillQty }

theorem fill_progress {order : Order} {levels : Levels} {side : End} {price : ℚ}
    {level : PriceLevel} (best : levels.edge side = some (price, level)) :
    (consume levels price level (min order.remainingQuantity level.quantity)).size < levels.size ∨
      (order.fill (min order.remainingQuantity level.quantity)).remainingQuantity = 0 := by
  unfold consume
  by_cases emptied : level.quantity ≤ min order.remainingQuantity level.quantity
  · rw [if_pos emptied]
    exact .inl (size_erase_lt (lookup_edge best))
  · have whole : min order.remainingQuantity level.quantity = order.remainingQuantity :=
      min_eq_left (le_of_not_ge fun less => emptied (le_min less le_rfl))
    rw [Order.fill_remainingQuantity, whole, min_self, sub_self]
    exact .inr rfl

/-- The loop of `match_order`, on the asks from the lowest for a buy and on the bids from the
highest for a sell: the trades in order, the order and the engine after it. -/
def matchOrder (engine : MatchingEngine) (order : Order) : List Trade × Order × MatchingEngine :=
  if 0 < order.remainingQuantity then
    match _best : (engine.levels order.side.opposite).edge order.side.bestEnd with
    | none => ([], order, engine)
    | some (price, level) =>
      if beyondLimit order price then ([], order, engine)
      else
        let fillQty := min order.remainingQuantity level.quantity
        let executed := engine.executeFill order price fillQty false
        let later := matchOrder
          (executed.2.setLevels order.side.opposite
            (consume (engine.levels order.side.opposite) price level fillQty))
          (order.fill fillQty)
        (executed.1 :: later.1, later.2)
  else ([], order, engine)
termination_by
  if 0 < order.remainingQuantity then (engine.levels order.side.opposite).size + 1 else 0
decreasing_by
  rename_i opened _
  have progress := @fill_progress order _ _ _ _ _best
  rw [if_pos opened, (order.sameOrder_fill _).side, levels_setLevels]
  split
  · cases progress with
    | inl smaller => omega
    | inr done =>
      rename_i unfilled
      exact absurd unfilled (by rw [done]; exact lt_irrefl 0)
  · exact Nat.succ_pos _

def addToBook (engine : MatchingEngine) (order : Order) : MatchingEngine :=
  let levels := engine.levels order.side
  let level := (levels.lookup order.price).getD {
    price := order.price
    quantity := 0
    orderCount := 0 }
  engine.setLevels order.side (levels.insert order.price { level with
    quantity := level.quantity + order.remainingQuantity
    orderCount := level.orderCount + 1 })

/-- The order `submit_order` builds from a request: validated, normalized and numbered. -/
def accept (engine : MatchingEngine) (request : OrderRequest) : Except MatchingError Order :=
  let price := engine.symbolRules.normalizePrice request.price
  let quantity := engine.symbolRules.normalizeQuantity request.quantity
  match engine.symbolRules.validateOrder price quantity with
  | .error error => .error error
  | .ok () => .ok (.new engine.orderIdCounter request.symbol request.side request.orderType price
      quantity request.timeInForce)

/-- The status `submit_order` gives an order that traded and is not filled. -/
def markPartial (order : Order) : Order :=
  if 0 < order.filledQuantity ∧ 0 < order.remainingQuantity then
    { order with status := .partiallyFilled }
  else order

/-- The order and the book after the matching in `submit_order`. -/
def settle (engine : MatchingEngine) (order : Order) : Order × MatchingEngine :=
  let order := markPartial order
  if 0 < order.remainingQuantity ∧ order.orderType = .limit then
    match order.timeInForce with
    | .gtc | .gtd => (order, engine.addToBook order)
    | .ioc | .fok =>
      if order.orderType = .limit ∧ order.timeInForce = .fok then
        ({ order with status := .cancelled }, engine)
      else (order, engine)
  else (order, engine)

/-- `order_id_counter += 1`. -/
def drawOrderId (engine : MatchingEngine) : MatchingEngine :=
  { engine with orderIdCounter := engine.orderIdCounter + 1 }

/-- `orders.insert`. -/
def record (engine : MatchingEngine) (orderId : Nat) (order : Order) : MatchingEngine :=
  { engine with orders := engine.orders.insert orderId order }

@[simp] theorem levels_drawOrderId (engine : MatchingEngine) (side : Side) :
    engine.drawOrderId.levels side = engine.levels side := by
  cases side <;> rfl

@[simp] theorem levels_record (engine : MatchingEngine) (orderId : Nat) (order : Order)
    (side : Side) : (engine.record orderId order).levels side = engine.levels side := by
  cases side <;> rfl

/-- `submit_order` with the trades it generates: nothing changes unless the order is valid. -/
def submit (engine : MatchingEngine) (request : OrderRequest) :
    Except MatchingError (Order × List Trade) × MatchingEngine :=
  match engine.accept request with
  | .error error => (.error error, engine)
  | .ok order =>
    let matched := matchOrder engine.drawOrderId order
    let settled := matched.2.2.settle matched.2.1
    (.ok (settled.1, matched.1), settled.2.record order.orderId settled.1)

def submitOrder (engine : MatchingEngine) (request : OrderRequest) :
    Except MatchingError Order × MatchingEngine :=
  ((engine.submit request).1.map Prod.fst, (engine.submit request).2)

/-- The levels of a side after `cancel_order` takes what is left of an order from its level. -/
def withdraw (levels : Levels) (order : Order) : Levels :=
  match levels.lookup order.price with
  | none => levels
  | some level =>
    let reduced := { level with
      quantity := level.quantity - order.remainingQuantity
      orderCount := level.orderCount - 1 }
    if reduced.quantity ≤ 0 then levels.erase order.price
    else levels.insert order.price reduced

def cancelOrder (engine : MatchingEngine) (orderId : Nat) :
    Except MatchingError Order × MatchingEngine :=
  match engine.orders.lookup orderId with
  | none => (.error (.orderNotFound orderId), engine)
  | some order =>
    if order.isFilled then (.error (.orderNotFound orderId), engine)
    else
      let levels := withdraw (engine.levels order.side) order
      let cancelled := { order with status := .cancelled }
      (.ok cancelled, (engine.setLevels order.side levels).record orderId cancelled)

end MatchingEngine

/-- A call of the engine. -/
inductive EngineCall where
  | submit (request : OrderRequest)
  | cancel (orderId : Nat)

/-- The engine after a call. -/
def MatchingEngine.step (engine : MatchingEngine) : EngineCall → Option MatchingEngine
  | .submit request => some (engine.submitOrder request).2
  | .cancel orderId => some (engine.cancelOrder orderId).2

end TradingBot
