import TradingBot.Foundation.Dict
import TradingBot.Foundation.PackedFormat

/-!
# State serializer

A trading state is turned into a dictionary, written as JSON and compressed. The binary form puts
a packed header in front of the compressed bytes and a checksum behind them. An exception of the
source is an error here.
-/

open PackedFormat

namespace TradingBot.Persistence

/-! ## Dictionaries -/

/-- A value that `json` writes and reads; the numbers with a fraction are a parameter. -/
inductive Json (φ : Type) where
  | null
  | bool (value : Bool)
  | int (value : Int)
  | float (value : φ)
  | str (value : String)
  | array (items : List (Json φ))
  | object (entries : List (String × Json φ))

namespace Json

variable {φ : Type}

/-- `data[key]`. -/
def item (data : Json φ) (key : String) : Except String (Json φ) :=
  match data with
  | .object entries =>
    match entries.lookup key with
    | some value => .ok value
    | none => .error s!"KeyError: {key}"
  | _ => .error "TypeError: object is not subscriptable by a string"

/-- `data.get(key)`. -/
def get (data : Json φ) (key : String) : Except String (Json φ) :=
  match data with
  | .object entries => .ok ((entries.lookup key).getD .null)
  | _ => .error "AttributeError: object has no attribute 'get'"

/-- `data.items()`. -/
def items (data : Json φ) : Except String (List (String × Json φ)) :=
  match data with
  | .object entries => .ok entries
  | _ => .error "AttributeError: object has no attribute 'items'"

end Json

/-- `PositionSide`. -/
inductive PositionSide where
  | long
  | short
  | flat

/-- The value of a side. -/
def PositionSide.value : PositionSide → String
  | .long => "long"
  | .short => "short"
  | .flat => "flat"

/-- `PositionSide(value)`. -/
def PositionSide.ofValue {φ : Type} : Json φ → Except String PositionSide
  | .str "long" => .ok .long
  | .str "short" => .ok .short
  | .str "flat" => .ok .flat
  | _ => .error "ValueError: not a valid PositionSide"

/-- `OrderStatus`. -/
inductive OrderStatus where
  | pending
  | opened
  | partiallyFilled
  | filled
  | cancelled
  | rejected

/-- The value of a status. -/
def OrderStatus.value : OrderStatus → String
  | .pending => "pending"
  | .opened => "open"
  | .partiallyFilled => "partially_filled"
  | .filled => "filled"
  | .cancelled => "cancelled"
  | .rejected => "rejected"

/-- `OrderStatus(value)`. -/
def OrderStatus.ofValue {φ : Type} : Json φ → Except String OrderStatus
  | .str "pending" => .ok .pending
  | .str "open" => .ok .opened
  | .str "partially_filled" => .ok .partiallyFilled
  | .str "filled" => .ok .filled
  | .str "cancelled" => .ok .cancelled
  | .str "rejected" => .ok .rejected
  | _ => .error "ValueError: not a valid OrderStatus"

/-- `PositionState`. Its annotations are not checked, so a field holds any value. -/
structure PositionState (φ : Type) where
  symbol : Json φ
  side : PositionSide
  quantity : Json φ
  entryPrice : Json φ
  currentPrice : Json φ
  unrealizedPnl : Json φ
  leverage : Json φ
  margin : Json φ
  liquidationPrice : Json φ
  openedAt : Json φ
  lastUpdated : Json φ

namespace PositionState

variable {φ : Type}

def toDict (position : PositionState φ) : Json φ :=
  .object [("symbol", position.symbol), ("side", .str position.side.value),
    ("quantity", position.quantity), ("entry_price", position.entryPrice),
    ("current_price", position.currentPrice), ("unrealized_pnl", position.unrealizedPnl),
    ("leverage", position.leverage), ("margin", position.margin),
    ("liquidation_price", position.liquidationPrice), ("opened_at", position.openedAt),
    ("last_updated", position.lastUpdated)]

def fromDict (data : Json φ) : Except String (PositionState φ) := do
  let symbol ← data.item "symbol"
  let side ← PositionSide.ofValue (← data.item "side")
  let quantity ← data.item "quantity"
  let entryPrice ← data.item "entry_price"
  let currentPrice ← data.item "current_price"
  let unrealizedPnl ← data.item "unrealized_pnl"
  let leverage ← data.item "leverage"
  let margin ← data.item "margin"
  let liquidationPrice ← data.get "liquidation_price"
  let openedAt ← data.item "opened_at"
  let lastUpdated ← data.item "last_updated"
  .ok { symbol, side, quantity, entryPrice, currentPrice, unrealizedPnl, leverage, margin,
        liquidationPrice, openedAt, lastUpdated }

theorem fromDict_toDict (position : PositionState φ) :
    fromDict position.toDict = .ok position := by
  cases position with
  | mk symbol side _ _ _ _ _ _ _ _ _ =>
    cases side <;> rfl

end PositionState

/-- `OrderState`. -/
structure OrderState (φ : Type) where
  orderId : Json φ
  symbol : Json φ
  side : Json φ
  orderType : Json φ
  quantity : Json φ
  price : Json φ
  filledQuantity : Json φ
  averageFillPrice : Json φ
  status : OrderStatus
  createdAt : Json φ
  updatedAt : Json φ
  exchangeOrderId : Json φ

namespace OrderState

variable {φ : Type}

def toDict (order : OrderState φ) : Json φ :=
  .object [("order_id", order.orderId), ("symbol", order.symbol), ("side", order.side),
    ("order_type", order.orderType), ("quantity", order.quantity), ("price", order.price),
    ("filled_quantity", order.filledQuantity), ("average_fill_price", order.averageFillPrice),
    ("status", .str order.status.value), ("created_at", order.createdAt),
    ("updated_at", order.updatedAt), ("exchange_order_id", order.exchangeOrderId)]

def fromDict (data : Json φ) : Except String (OrderState φ) := do
  let orderId ← data.item "order_id"
  let symbol ← data.item "symbol"
  let side ← data.item "side"
  let orderType ← data.item "order_type"
  let quantity ← data.item "quantity"
  let price ← data.get "price"
  let filledQuantity ← data.item "filled_quantity"
  let averageFillPrice ← data.item "average_fill_price"
  let status ← OrderStatus.ofValue (← data.item "status")
  let createdAt ← data.item "created_at"
  let updatedAt ← data.item "updated_at"
  let exchangeOrderId ← data.get "exchange_order_id"
  .ok { orderId, symbol, side, orderType, quantity, price, filledQuantity, averageFillPrice,
        status, createdAt, updatedAt, exchangeOrderId }

theorem fromDict_toDict (order : OrderState φ) : fromDict order.toDict = .ok order := by
  cases order with
  | mk _ _ _ _ _ _ _ _ status _ _ _ =>
    cases status <;> rfl

end OrderState

/-- `TradingState`. -/
structure TradingState (φ : Type) where
  timestamp : Json φ
  positions : Dict String (PositionState φ)
  orders : Dict String (OrderState φ)
  balances : Json φ
  totalEquity : Json φ
  realizedPnl : Json φ
  sessionStart : Json φ
  tradeCount : Json φ

namespace TradingState

variable {φ : Type}

/-- The dictionary of the dictionaries of states. -/
def objectOf {α : Type} (toDict : α → Json φ) (states : Dict String α) : Json φ :=
  .object (states.entries.map fun entry => (entry.1, toDict entry.2))

def toDict (state : TradingState φ) : Json φ :=
  .object [("timestamp", state.timestamp),
    ("positions", objectOf PositionState.toDict state.positions),
    ("orders", objectOf OrderState.toDict state.orders), ("balances", state.balances),
    ("total_equity", state.totalEquity), ("realized_pnl", state.realizedPnl),
    ("session_start", state.sessionStart), ("trade_count", state.tradeCount)]

/-- The state of an item of a dictionary. -/
def stateOf {α : Type} (fromDict : Json φ → Except String α) (item : String × Json φ) :
    Except String (String × α) :=
  (fromDict item.2).map (item.1, ·)

/-- The states of the items of a dictionary. -/
def statesOf {α : Type} (fromDict : Json φ → Except String α) (data : Json φ) :
    Except String (Dict String α) := do
  let states ← (← data.items).mapM (stateOf fromDict)
  .ok (Dict.ofList states)

def fromDict (data : Json φ) : Except String (TradingState φ) := do
  let timestamp ← data.item "timestamp"
  let positions ← statesOf PositionState.fromDict (← data.item "positions")
  let orders ← statesOf OrderState.fromDict (← data.item "orders")
  let balances ← data.item "balances"
  let totalEquity ← data.item "total_equity"
  let realizedPnl ← data.item "realized_pnl"
  let sessionStart ← data.item "session_start"
  let tradeCount ← data.item "trade_count"
  .ok { timestamp, positions, orders, balances, totalEquity, realizedPnl, sessionStart,
        tradeCount }

theorem statesOf_objectOf {α : Type} {toDict : α → Json φ} {fromDict : Json φ → Except String α}
    (inverse : ∀ state, fromDict (toDict state) = .ok state) (states : Dict String α) :
    statesOf fromDict (objectOf toDict states) = .ok states := by
  have read : ∀ entries : List (String × α),
      (entries.map fun entry => (entry.1, toDict entry.2)).mapM (stateOf fromDict) =
        .ok entries := by
    intro entries
    induction entries with
    | nil => rfl
    | cons entry rest ih =>
      have first : stateOf fromDict (entry.1, toDict entry.2) = .ok entry := by
        simp only [stateOf, inverse, Except.map]
      simp only [List.map_cons, List.mapM_cons, first, ih, bind, Except.bind, pure, Except.pure]
  simp only [statesOf, objectOf, Json.items, read, bind, Except.bind, Dict.ofList_entries]

theorem fromDict_toDict (state : TradingState φ) : fromDict state.toDict = .ok state := by
  have timestamp : state.toDict.item "timestamp" = .ok state.timestamp := rfl
  have positions : state.toDict.item "positions" =
    .ok (objectOf PositionState.toDict state.positions) := rfl
  have orders : state.toDict.item "orders" =
    .ok (objectOf OrderState.toDict state.orders) := rfl
  have balances : state.toDict.item "balances" = .ok state.balances := rfl
  have totalEquity : state.toDict.item "total_equity" = .ok state.totalEquity := rfl
  have realizedPnl : state.toDict.item "realized_pnl" = .ok state.realizedPnl := rfl
  have sessionStart : state.toDict.item "session_start" = .ok state.sessionStart := rfl
  have tradeCount : state.toDict.item "trade_count" = .ok state.tradeCount := rfl
  simp only [fromDict, timestamp, positions, orders, balances, totalEquity, realizedPnl,
    sessionStart, tradeCount, statesOf_objectOf PositionState.fromDict_toDict,
    statesOf_objectOf OrderState.fromDict_toDict, bind, Except.bind]

end TradingState

/-! ## The binary form -/

/-- What the serializer takes from the standard library. -/
structure Encoding (φ : Type) where
  /-- `json.dumps` with the separators of the source, in UTF-8. -/
  dumps : Json φ → List UInt8
  /-- `json.loads` of bytes in UTF-8. -/
  loads : List UInt8 → Except String (Json φ)
  /-- `zlib.compress` at level 6. -/
  compress : List UInt8 → List UInt8
  /-- `zlib.decompress`. -/
  decompress : List UInt8 → Except String (List UInt8)
  /-- `zlib.crc32`. -/
  crc32 : List UInt8 → Nat
  /-- The pattern of a `float`. -/
  doubleBits : φ → UInt64
  /-- `float` of an `int`, which may be too large. -/
  floatOfInt : Int → Except String φ

namespace StateSerializer

variable {φ : Type}

def magicBytes : List UInt8 := [0x5A, 0x41, 0x49, 0x44]

def formatVersion : Nat := 1

/-- The format of the header, `<4sBBdI`. -/
def headerFormat : List Field := [.bytes 4, .unsigned 1, .unsigned 1, .double, .unsigned 4]

/-- The format of the checksum, `<I`. -/
def footerFormat : List Field := [.unsigned 4]

/-- The pattern that `struct.pack` writes for a number. -/
def asDouble (encoding : Encoding φ) : Json φ → Except String UInt64
  | .float value => .ok (encoding.doubleBits value)
  | .int value => (encoding.floatOfInt value).map encoding.doubleBits
  | .bool value => (encoding.floatOfInt value.toNat).map encoding.doubleBits
  | _ => .error "struct.error: required argument is not a float"

def serializeBinary (encoding : Encoding φ) (state : TradingState φ) :
    Except String (List UInt8) := do
  let compressed := encoding.compress (encoding.dumps state.toDict)
  let timestamp ← asDouble encoding state.timestamp
  let header ← pack headerFormat [.bytes magicBytes, .unsigned formatVersion, .unsigned 1,
    .double timestamp, .unsigned compressed.length]
  let checksum := encoding.crc32 (header ++ compressed) % 2 ^ 32
  let footer ← pack footerFormat [.unsigned checksum]
  .ok (header ++ compressed ++ footer)

/-- `data[start:stop]`. -/
def sliced (data : List UInt8) (start stop : Nat) : List UInt8 :=
  (data.drop start).take (stop - start)

/-- The last part of `deserialize_binary`, whose exceptions are caught. -/
def parse (encoding : Encoding φ) (compressed : List UInt8) : Option (TradingState φ) :=
  (encoding.decompress compressed >>= encoding.loads >>= TradingState.fromDict).toOption

/-- The part of `deserialize_binary` behind the header. -/
def deserializePayload (encoding : Encoding φ) (data : List UInt8) (version dataLen : Nat) :
    Except String (Option (TradingState φ)) :=
  if version ≠ formatVersion then .ok none
  else do
    let stored ← unpack footerFormat (sliced data (17 + dataLen) (17 + dataLen + 4))
    let computed := encoding.crc32 (data.take (17 + dataLen)) % 2 ^ 32
    if stored ≠ [.unsigned computed] then .ok none
    else .ok (parse encoding (sliced data 17 (17 + dataLen)))

def deserializeBinary (encoding : Encoding φ) (data : List UInt8) :
    Except String (Option (TradingState φ)) :=
  if data.length < 21 then .ok none
  else if data.take 4 ≠ magicBytes then .ok none
  else do
    match ← unpack headerFormat (data.take 17) with
    | [_, .unsigned version, _, _, .unsigned dataLen] =>
      deserializePayload encoding data version dataLen
    | _ => .error "ValueError: wrong number of values to unpack"

end StateSerializer

end TradingBot.Persistence
