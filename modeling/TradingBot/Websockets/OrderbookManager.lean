import Mathlib.Algebra.Order.Ring.Rat
import TradingBot.Foundation.OrderedMap

/-!
# The local order book

`orderbook_manager.py`: a snapshot and the updates after it, kept in two sorted dictionaries of
price levels and trimmed to a maximal depth. Bids are kept at the negated price, so the best
level of either side is the first one. Prices and quantities are exact; the keys, which are floats,
are exact but in `applyDeltaText`.
-/

namespace TradingBot

/-- `OrderBookState`: order book synchronization state. -/
inductive OrderBookState where
  /-- No data yet. -/
  | disconnected
  /-- Being set up. -/
  | initializing
  /-- Waiting for a snapshot. -/
  | synchronizing
  /-- In use. -/
  | ready
  /-- An update was missed. -/
  | stale

/-- `PriceLevel`: a single price level in the order book. -/
structure BookLevel where
  price : ℚ
  quantity : ℚ
  orderCount : Nat := 1
  deriving DecidableEq, Repr

/-- `OrderBookSnapshot`: the order book at a point in time. -/
structure OrderBookSnapshot where
  symbol : String
  bids : List (ℚ × ℚ)
  asks : List (ℚ × ℚ)
  timestamp : Int
  /-- Id of the last update the snapshot contains. -/
  lastUpdateId : Int

/-- The arguments of `apply_delta`. -/
structure DepthUpdate where
  bids : List (ℚ × ℚ)
  asks : List (ℚ × ℚ)
  updateId : Int
  timestamp : Int

/-- The arguments of `apply_delta` as they come, with prices and quantities as texts. -/
structure DepthMessage where
  bids : List (String × String)
  asks : List (String × String)
  updateId : Int
  timestamp : Int

/-- The number that decimal digits stand for. -/
def digitsNumber (digits : List Char) : Nat := Nat.ofDigitChars 10 digits 0

/-- The exponent of a decimal: nothing, or `e` and a signed number. -/
def decimalExponent : List Char → Option Int
  | [] => some 0
  | letter :: rest =>
    let (negative, digits) := match rest with
      | '-' :: digits => (true, digits)
      | '+' :: digits => (false, digits)
      | digits => (false, digits)
    if (letter = 'e' ∨ letter = 'E') ∧ digits ≠ [] ∧ digits.all Char.isDigit then
      some (if negative then -(digitsNumber digits : Int) else digitsNumber digits)
    else none

/-- A decimal without sign: digits on one side of the point at least, then an exponent. -/
def unsignedDecimal (text : List Char) : Option ℚ :=
  let whole := text.takeWhile Char.isDigit
  let (fraction, rest) := match text.dropWhile Char.isDigit with
    | '.' :: rest => (rest.takeWhile Char.isDigit, rest.dropWhile Char.isDigit)
    | rest => ([], rest)
  if whole = [] ∧ fraction = [] then none
  else (decimalExponent rest).map fun exponent =>
    let power : Int := exponent - fraction.length
    if 0 ≤ power then digitsNumber (whole ++ fraction) * 10 ^ power.toNat
    else digitsNumber (whole ++ fraction) / 10 ^ (-power).toNat

/-- `Decimal(text)` for the texts of finite numbers: blanks around it and underscores in it are
dropped; any other text raises. -/
def decimalOfText (text : String) : Option ℚ :=
  let trimmed := ((text.toList.dropWhile Char.isWhitespace).reverse.dropWhile
    Char.isWhitespace).reverse
  match trimmed.filter fun letter => letter ≠ '_' with
  | '-' :: rest => (unsignedDecimal rest).map fun value => -value
  | '+' :: rest => unsignedDecimal rest
  | rest => unsignedDecimal rest

/-- A sorted dictionary of price levels. -/
abbrev BookSide := OrderedMap ℚ BookLevel

/-- `LocalOrderBook`. -/
structure LocalOrderBook where
  symbol : String
  maxDepth : Nat
  /-- Bids at their negated prices. -/
  bids : BookSide
  /-- Asks at their prices. -/
  asks : BookSide
  lastUpdateId : Int
  /-- Id of the snapshot. -/
  firstUpdateId : Option Int
  timestamp : Int
  state : OrderBookState
  updateCount : Nat

namespace LocalOrderBook

/-- `__init__`. -/
def new (symbol : String) (maxDepth : Nat) : LocalOrderBook where
  symbol := symbol
  maxDepth := maxDepth
  bids := .empty
  asks := .empty
  lastUpdateId := 0
  firstUpdateId := none
  timestamp := 0
  state := .disconnected
  updateCount := 0

/-- The key of a bid. -/
def bidKey (price : ℚ) : ℚ := -price

/-- The key of an ask. -/
def askKey (price : ℚ) : ℚ := price

/-- The loop of `set_snapshot` over the levels of one side. -/
def loadSide (key : ℚ → ℚ) (levels : List (ℚ × ℚ)) : BookSide :=
  levels.foldl (fun side level =>
    side.insert (key level.1) { price := level.1, quantity := level.2 }) .empty

def setSnapshot (book : LocalOrderBook) (snapshot : OrderBookSnapshot) : LocalOrderBook :=
  { book with
    bids := loadSide bidKey snapshot.bids
    asks := loadSide askKey snapshot.asks
    lastUpdateId := snapshot.lastUpdateId
    firstUpdateId := some snapshot.lastUpdateId
    timestamp := snapshot.timestamp
    state := .ready }

/-- The loop of `apply_delta` over the updates of one side: a quantity of zero removes the
level, any other quantity sets it. -/
def updateSide (key : ℚ → ℚ) (side : BookSide) (levels : List (ℚ × ℚ)) : BookSide :=
  levels.foldl (fun side level =>
    if level.2 = 0 then side.erase (key level.1)
    else side.insert (key level.1) { price := level.1, quantity := level.2 }) side

/-- The loop of `_trim_depth` over one side. -/
def trimSide (maxDepth : Nat) (side : BookSide) : BookSide :=
  if maxDepth < side.size then trimSide maxDepth side.dropLast else side
termination_by side.size
decreasing_by
  simp only [OrderedMap.size, OrderedMap.dropLast, List.length_dropLast] at *
  omega

/-- `apply_delta`: whether the update was applied, and the book after it. -/
def applyDelta (book : LocalOrderBook) (delta : DepthUpdate) : Bool × LocalOrderBook :=
  if book.firstUpdateId.isSome ∧ delta.updateId ≤ book.lastUpdateId then (false, book)
  else
    let checked :=
      if book.firstUpdateId.isSome ∧ book.lastUpdateId + 1 < delta.updateId then
        { book with state := .stale }
      else book
    (true, { checked with
      bids := trimSide checked.maxDepth (updateSide bidKey checked.bids delta.bids)
      asks := trimSide checked.maxDepth (updateSide askKey checked.asks delta.asks)
      lastUpdateId := delta.updateId
      timestamp := delta.timestamp
      updateCount := checked.updateCount + 1
      state := .ready })

/-- The loop of `apply_delta` over the texts of one side, and whether it came to its end: a text
that `Decimal` refuses raises after the updates before it. -/
def updateSideText (decimal : String → Option ℚ) (key : ℚ → ℚ) :
    BookSide → List (String × String) → Bool × BookSide
  | side, [] => (true, side)
  | side, (priceText, quantityText) :: rest =>
    match decimal priceText, decimal quantityText with
    | some price, some quantity =>
      updateSideText decimal key (updateSide key side [(price, quantity)]) rest
    | _, _ => (false, side)

/-- `apply_delta` on the texts of a message: what it returns, or nothing where it raises, and the
book after it. `Decimal` is any reading of texts as exact numbers, and `float` any rounding of
these to the keys of the levels. -/
def applyDeltaText (decimal : String → Option ℚ) (float : ℚ → ℚ) (book : LocalOrderBook)
    (message : DepthMessage) : Option Bool × LocalOrderBook :=
  if book.firstUpdateId.isSome ∧ message.updateId ≤ book.lastUpdateId then (some false, book)
  else
    let checked :=
      if book.firstUpdateId.isSome ∧ book.lastUpdateId + 1 < message.updateId then
        { book with state := .stale }
      else book
    let (bidsDone, bids) := updateSideText decimal (bidKey ∘ float) checked.bids message.bids
    if !bidsDone then (none, { checked with bids := bids })
    else
      let (asksDone, asks) := updateSideText decimal (askKey ∘ float) checked.asks message.asks
      if !asksDone then (none, { checked with bids := bids, asks := asks })
      else (some true, { checked with
        bids := trimSide checked.maxDepth bids
        asks := trimSide checked.maxDepth asks
        lastUpdateId := message.updateId
        timestamp := message.timestamp
        updateCount := checked.updateCount + 1
        state := .ready })

def getBestBid (book : LocalOrderBook) : Option BookLevel :=
  book.bids.entries.head?.map Prod.snd

def getBestAsk (book : LocalOrderBook) : Option BookLevel :=
  book.asks.entries.head?.map Prod.snd

/-- The loop of `get_bids` and `get_asks`: price and quantity of the first levels. -/
def topLevels (side : BookSide) (depth : Nat) : List (ℚ × ℚ) :=
  (side.entries.take depth).map fun entry => (entry.2.price, entry.2.quantity)

def getBids (book : LocalOrderBook) (depth : Nat) : List (ℚ × ℚ) := topLevels book.bids depth

def getAsks (book : LocalOrderBook) (depth : Nat) : List (ℚ × ℚ) := topLevels book.asks depth

/-! ## What the calls do -/

theorem trimSide_eq_take (maxDepth : Nat) (side : BookSide) :
    trimSide maxDepth side = side.take maxDepth := by
  fun_induction trimSide maxDepth side with
  | case1 side larger ih =>
    rw [ih]
    unfold OrderedMap.size at larger
    simp only [OrderedMap.take, OrderedMap.dropLast, List.dropLast_eq_take, List.take_take]
    congr 2
    omega
  | case2 side within =>
    unfold OrderedMap.size at within
    simp only [OrderedMap.take, List.take_of_length_le (Nat.le_of_not_lt within)]

theorem applyDelta_skipped {book : LocalOrderBook} {delta : DepthUpdate}
    (loaded : book.firstUpdateId.isSome) (old : delta.updateId ≤ book.lastUpdateId) :
    book.applyDelta delta = (false, book) := if_pos ⟨loaded, old⟩

/-- A fresh delta is applied. -/
theorem applyDelta_applied {book : LocalOrderBook} {delta : DepthUpdate}
    (fresh : book.firstUpdateId.isSome → book.lastUpdateId < delta.updateId) :
    book.applyDelta delta = (true, { book with
      bids := (updateSide bidKey book.bids delta.bids).take book.maxDepth
      asks := (updateSide askKey book.asks delta.asks).take book.maxDepth
      lastUpdateId := delta.updateId
      timestamp := delta.timestamp
      updateCount := book.updateCount + 1
      state := .ready }) := by
  have new : ¬(book.firstUpdateId.isSome ∧ delta.updateId ≤ book.lastUpdateId) := fun old =>
    absurd old.2 (not_le.mpr (fresh old.1))
  simp only [applyDelta, if_neg new, trimSide_eq_take]
  split <;> rfl

end LocalOrderBook

end TradingBot
