import TradingBot.Foundation.Binary64
import TradingBot.Backtest.MatchingEngine

/-!
# The backtest matching engine in floats

The engine of `matching_engine.rs` with its prices and quantities as the floats they are: every sum
and difference is rounded, and a price or a quantity may be NaN. The levels of a side are ordered
by `total_cmp`, as comparisons of floats are no order of keys.
-/

open OrderedMap

namespace TradingBot

namespace FloatEngine

/-- The float of a literal. -/
def literal (value : ℚ) : Float := Float.ofInt value.num / Float.ofNat value.den

/-- `f64::round`: to the nearest integer, halves away from zero. -/
def f64Round (value : Float) : Float :=
  if value.isNaN || value == 0 || literal (2 ^ 52) ≤ value.abs then value
  else
    let whole := value.abs.toUInt64.toFloat
    let rounded := if literal 0.5 ≤ value.abs - whole then whole + literal 1 else whole
    if value < 0 then -rounded else rounded

/-! ## Orders and rules -/

/-- `Order::new`. -/
def newOrder (orderId : Nat) (symbol : String) (side : Side) (orderType : OrderType)
    (price quantity : Float) (timeInForce : TimeInForce) : Order Float where
  orderId := orderId
  symbol := symbol
  side := side
  orderType := orderType
  timeInForce := timeInForce
  price := price
  quantity := quantity
  filledQuantity := 0
  remainingQuantity := quantity
  status := .new

def isFilled (order : Order Float) : Bool :=
  decide (order.remainingQuantity ≤ 0) || order.status == .filled

/-- `fill`, without the value it returns. -/
def fill (order : Order Float) (quantity : Float) : Order Float :=
  let fillQty := Binary64.min quantity order.remainingQuantity
  let filled := { order with
    filledQuantity := order.filledQuantity + fillQty
    remainingQuantity := order.remainingQuantity - fillQty }
  if filled.remainingQuantity ≤ 0 then { filled with status := .filled }
  else if 0 < filled.filledQuantity then { filled with status := .partiallyFilled }
  else filled

def forSymbol (symbol : String) : SymbolRules Float :=
  let rules := SymbolRules.forSymbol symbol
  { symbol := rules.symbol
    baseAsset := rules.baseAsset
    quoteAsset := rules.quoteAsset
    pricePrecision := rules.pricePrecision
    quantityPrecision := rules.quantityPrecision
    tickSize := literal rules.tickSize
    lotSize := literal rules.lotSize
    minQuantity := literal rules.minQuantity
    maxQuantity := literal rules.maxQuantity
    minPrice := literal rules.minPrice
    maxPrice := literal rules.maxPrice
    minNotional := literal rules.minNotional
    makerFeeRate := literal rules.makerFeeRate
    takerFeeRate := literal rules.takerFeeRate }

def normalizePrice (rules : SymbolRules Float) (price : Float) : Float :=
  f64Round (price / rules.tickSize) * rules.tickSize

def normalizeQuantity (rules : SymbolRules Float) (quantity : Float) : Float :=
  f64Round (quantity / rules.lotSize) * rules.lotSize

def validateOrder (rules : SymbolRules Float) (price quantity : Float) :
    Except (MatchingError Float) Unit :=
  if price < rules.minPrice ∨ rules.maxPrice < price then
    .error (.invalidPrice price [.text "Price must be between ", .number rules.minPrice,
      .text " and ", .number rules.maxPrice])
  else if quantity < rules.minQuantity ∨ rules.maxQuantity < quantity then
    .error (.invalidQuantity quantity [.text "Quantity must be between ",
      .number rules.minQuantity, .text " and ", .number rules.maxQuantity])
  else if price * quantity < rules.minNotional then
    .error (.invalidQuantity quantity [.text "Notional value ", .number (price * quantity),
      .text " below minimum ", .number rules.minNotional])
  else .ok ()

/-! ## The engine -/

/-- The levels of one side by price. -/
abbrev Levels := OrderedMap Binary64.Key (PriceLevel Float)

end FloatEngine

/-- `MatchingEngine`, in floats. -/
structure FloatEngine where
  symbolRules : SymbolRules Float
  bids : FloatEngine.Levels
  asks : FloatEngine.Levels
  orders : OrderedMap Nat (Order Float)
  /-- The last thousand trades, oldest first. -/
  trades : List (Trade Float)
  orderIdCounter : Nat
  tradeIdCounter : Nat
  currentPrice : Float

namespace FloatEngine

def new (symbol : String) (initialPrice : Float) : FloatEngine where
  symbolRules := forSymbol symbol
  bids := .empty
  asks := .empty
  orders := .empty
  trades := []
  orderIdCounter := 1
  tradeIdCounter := 1
  currentPrice := normalizePrice (forSymbol symbol) initialPrice

/-- The levels of a side. -/
def levels (engine : FloatEngine) : Side → Levels
  | .buy => engine.bids
  | .sell => engine.asks

/-- The engine with other levels on a side. -/
def setLevels (engine : FloatEngine) (side : Side) (levels : Levels) : FloatEngine :=
  match side with
  | .buy => { engine with bids := levels }
  | .sell => { engine with asks := levels }

/-- `execute_fill`: the trade, and the engine that has recorded it. -/
def executeFill (engine : FloatEngine) (order : Order Float) (price quantity : Float)
    (isMaker : Bool) : Trade Float × FloatEngine :=
  let feeRate :=
    if isMaker then engine.symbolRules.makerFeeRate else engine.symbolRules.takerFeeRate
  let trade : Trade Float := {
    tradeId := engine.tradeIdCounter
    orderId := order.orderId
    symbol := order.symbol
    side := order.side
    price := price
    quantity := quantity
    commission := price * quantity * feeRate
    commissionAsset := engine.symbolRules.quoteAsset
    isMaker := isMaker }
  (trade, { engine with
    tradeIdCounter := engine.tradeIdCounter + 1
    currentPrice := price
    trades := (if 1000 ≤ engine.trades.length then engine.trades.tail else engine.trades) ++
      [trade] })

/-- The price of a level is worse than the limit of an incoming limit order. -/
def beyondLimit (order : Order Float) (price : Float) : Prop :=
  order.orderType = .limit ∧
    match order.side with
    | .buy => order.price < price
    | .sell => price < order.price

instance (order : Order Float) : DecidablePred (beyondLimit order) := fun price => by
  unfold beyondLimit
  cases order.side <;> infer_instance

/-- The levels of a side after a fill at its best level. -/
def consume (levels : Levels) (price : Binary64.Key) (level : PriceLevel Float)
    (fillQty : Float) : Levels :=
  if level.quantity ≤ fillQty then levels.erase price
  else levels.insert price { level with quantity := level.quantity - fillQty }

@[simp] theorem levels_setLevels (engine : FloatEngine) (side : Side) (levels : Levels) :
    (engine.setLevels side levels).levels side = levels := by
  cases side <;> rfl

/-- A fill changes the numbers of an order and its status. -/
theorem fill_eq (order : Order Float) (quantity : Float) :
    ∃ filledQuantity status, fill order quantity = { order with
      filledQuantity := filledQuantity
      remainingQuantity := order.remainingQuantity -
        Binary64.min quantity order.remainingQuantity
      status := status } := by
  unfold fill
  dsimp only
  split
  · exact ⟨_, _, rfl⟩
  · split <;> exact ⟨_, _, rfl⟩

/-- A fill that leaves a part of the level leaves nothing that is positive of the order. -/
theorem fill_partial {order : Order Float} {level : PriceLevel Float}
    (opened : 0 < order.remainingQuantity)
    (part : ¬level.quantity ≤ Binary64.min order.remainingQuantity level.quantity) :
    ¬0 < (fill order (Binary64.min order.remainingQuantity level.quantity)).remainingQuantity := by
  have number := (Binary64.isNaN_of_lt opened).2
  obtain ⟨less, same⟩ | ⟨-, same⟩ := Binary64.min_cases number level.quantity
  · rw [same] at part
    exact absurd (Binary64.le_self (Binary64.isNaN_of_lt less).1) part
  · obtain ⟨_, _, filled⟩ := fill_eq order order.remainingQuantity
    rw [same, filled, Binary64.min_self]
    exact Binary64.not_pos_sub_self order.remainingQuantity

/-- The loop of `match_order`, on the asks from the lowest for a buy and on the bids from the
highest for a sell: the trades in order, the order and the engine after it. -/
def matchOrder (engine : FloatEngine) (order : Order Float) :
    List (Trade Float) × Order Float × FloatEngine :=
  if _opened : 0 < order.remainingQuantity then
    match _best : (engine.levels order.side.opposite).edge order.side.bestEnd with
    | none => ([], order, engine)
    | some (price, level) =>
      if beyondLimit order price.float then ([], order, engine)
      else
        let fillQty := Binary64.min order.remainingQuantity level.quantity
        let executed := engine.executeFill order price.float fillQty false
        let later := matchOrder
          (executed.2.setLevels order.side.opposite
            (consume (engine.levels order.side.opposite) price level fillQty))
          (fill order fillQty)
        (executed.1 :: later.1, later.2)
  else ([], order, engine)
termination_by
  if 0 < order.remainingQuantity then (engine.levels order.side.opposite).size + 1 else 0
decreasing_by
  have side : (fill order fillQty).side = order.side := by
    obtain ⟨_, _, filled⟩ := fill_eq order fillQty
    rw [filled]
  rw [if_pos _opened, side, levels_setLevels]
  split
  · next still =>
    have emptied : level.quantity ≤ fillQty :=
      not_not.mp fun part => fill_partial _opened part still
    unfold consume
    rw [if_pos emptied]
    exact Nat.succ_lt_succ (size_erase_lt (lookup_edge _best))
  · exact Nat.succ_pos _

def addToBook (engine : FloatEngine) (order : Order Float) : FloatEngine :=
  let levels := engine.levels order.side
  let level := (levels.lookup ⟨order.price⟩).getD {
    price := order.price
    quantity := 0
    orderCount := 0 }
  engine.setLevels order.side (levels.insert ⟨order.price⟩ { level with
    quantity := level.quantity + order.remainingQuantity
    orderCount := level.orderCount + 1 })

/-- The order `submit_order` builds from a request: validated, normalized and numbered. -/
def accept (engine : FloatEngine) (request : OrderRequest Float) :
    Except (MatchingError Float) (Order Float) :=
  let price := normalizePrice engine.symbolRules request.price
  let quantity := normalizeQuantity engine.symbolRules request.quantity
  match validateOrder engine.symbolRules price quantity with
  | .error error => .error error
  | .ok () => .ok (newOrder engine.orderIdCounter request.symbol request.side request.orderType
      price quantity request.timeInForce)

/-- The status `submit_order` gives an order that traded and is not filled. -/
def markPartial (order : Order Float) : Order Float :=
  if 0 < order.filledQuantity ∧ 0 < order.remainingQuantity then
    { order with status := .partiallyFilled }
  else order

/-- The order and the book after the matching in `submit_order`. -/
def settle (engine : FloatEngine) (order : Order Float) : Order Float × FloatEngine :=
  let order := markPartial order
  if 0 < order.remainingQuantity ∧ order.orderType = .limit then
    match order.timeInForce with
    | .gtc | .gtd => (order, engine.addToBook order)
    | .ioc | .fok =>
      if order.orderType = .limit ∧ order.timeInForce = .fok then
        ({ order with status := .cancelled }, engine)
      else (order, engine)
  else (order, engine)

/-- `order_id_counter += 1`. -/
def drawOrderId (engine : FloatEngine) : FloatEngine :=
  { engine with orderIdCounter := engine.orderIdCounter + 1 }

/-- `orders.insert`. -/
def record (engine : FloatEngine) (orderId : Nat) (order : Order Float) : FloatEngine :=
  { engine with orders := engine.orders.insert orderId order }

/-- `submit_order` with the trades it generates: nothing changes unless the order is valid. -/
def submit (engine : FloatEngine) (request : OrderRequest Float) :
    Except (MatchingError Float) (Order Float × List (Trade Float)) × FloatEngine :=
  match engine.accept request with
  | .error error => (.error error, engine)
  | .ok order =>
    let matched := matchOrder engine.drawOrderId order
    let settled := matched.2.2.settle matched.2.1
    (.ok (settled.1, matched.1), settled.2.record order.orderId settled.1)

def submitOrder (engine : FloatEngine) (request : OrderRequest Float) :
    Except (MatchingError Float) (Order Float) × FloatEngine :=
  ((engine.submit request).1.map Prod.fst, (engine.submit request).2)

/-- The levels of a side after `cancel_order` takes what is left of an order from its level. -/
def withdraw (levels : Levels) (order : Order Float) : Levels :=
  match levels.lookup ⟨order.price⟩ with
  | none => levels
  | some level =>
    let reduced := { level with
      quantity := level.quantity - order.remainingQuantity
      orderCount := level.orderCount - 1 }
    if reduced.quantity ≤ 0 then levels.erase ⟨order.price⟩
    else levels.insert ⟨order.price⟩ reduced

def cancelOrder (engine : FloatEngine) (orderId : Nat) :
    Except (MatchingError Float) (Order Float) × FloatEngine :=
  match engine.orders.lookup orderId with
  | none => (.error (.orderNotFound orderId), engine)
  | some order =>
    if isFilled order then (.error (.orderNotFound orderId), engine)
    else
      let levels := withdraw (engine.levels order.side) order
      let cancelled := { order with status := .cancelled }
      (.ok cancelled, (engine.setLevels order.side levels).record orderId cancelled)

end FloatEngine

end TradingBot
