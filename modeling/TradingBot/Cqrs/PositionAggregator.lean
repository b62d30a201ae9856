import Mathlib.Data.List.AList
import TradingBot.Foundation.MachineInt

/-!
# The position aggregator

`position_aggregator.rs`: positions by symbol, moved by fills and marked by ticks, with two
atomic shadows of the totals. A fill is `none` where a checked `i64` operation overflows, which
stops the thread; `as` conversions keep the value modulo the width, as they do in the source.
The read and write guards on the map are not part of the state here: each operation is the
whole of its critical section.
-/

open MachineInt

namespace TradingBot.PositionAggregator

/-- `MAX_SYMBOLS`: maximum number of symbols to track. -/
def maxSymbols : Nat := 100

/-- A single position with all its metrics. -/
structure Position where
  symbol : String
  /-- Net quantity (positive = long, negative = short). -/
  quantity : Int
  averagePriceMicros : Nat
  realizedPnlMicros : Int
  lastPriceMicros : Nat
  openOrdersCount : Nat
  lastUpdateUs : Nat
  deriving DecidableEq, Repr

namespace Position

/-- `Position::new`: a flat position. -/
def new (symbol : String) : Position where
  symbol
  quantity := 0
  averagePriceMicros := 0
  realizedPnlMicros := 0
  lastPriceMicros := 0
  openOrdersCount := 0
  lastUpdateUs := 0

/-- `Position::unrealized_pnl_micros`: the mark-to-market value less the cost basis. -/
def unrealizedPnlMicros (position : Position) : Option Int :=
  if position.quantity = 0 ∨ position.lastPriceMicros = 0 then some 0
  else do
    let currentValue ← i64 (position.quantity * castI64 position.lastPriceMicros)
    let costBasis ← i64 (position.quantity * castI64 position.averagePriceMicros)
    i64 (currentValue - costBasis)

/-- `Position::total_pnl_micros`: realized plus unrealized. -/
def totalPnlMicros (position : Position) : Option Int := do
  let unrealized ← position.unrealizedPnlMicros
  i64 (position.realizedPnlMicros + unrealized)

def isFlat (position : Position) : Bool := position.quantity = 0

end Position

/-- Errors that can occur during position aggregation. -/
inductive AggregatorError where
  /-- A guarded computation would leave its type. -/
  | overflowRisk (message : String)
  | maxSymbolsReached (max : Nat)
  | invalidSide (side : String)
  /-- Declared by the source, raised nowhere. -/
  | invalidPrice (message : String)

/-- The closing quantity of `process_fill`: the smaller of the position and the fill. -/
def Position.closeQty (position : Position) (signedFill : Int) : Option Int :=
  if 0 < position.quantity then (i64 (-signedFill)).map fun sold => min position.quantity sold
  else (i64 (-position.quantity)).map fun held => min held signedFill

/-- The realized PnL of `process_fill`, `(exit_price - entry_price) * close_qty`, behind its
three overflow checks. -/
def Position.realizedPnl (position : Position) (closeQty : Int) (price : Nat) :
    Option (Except AggregatorError Int) := do
  let pnlPerUnit ← i64 (castI64 price - castI64 position.averagePriceMicros)
  let perUnitAbs ← i64 |pnlPerUnit|
  if i64Max / max perUnitAbs 1 < |closeQty| then
    return .error (.overflowRisk "PnL calculation would overflow")
  let realizedPnl ← i64 (pnlPerUnit * closeQty)
  if 0 < realizedPnl ∧ i64Max - realizedPnl < position.realizedPnlMicros then
    return .error (.overflowRisk "realized PnL would overflow")
  if realizedPnl < 0 ∧ position.realizedPnlMicros < i64Min - realizedPnl then
    return .error (.overflowRisk "realized PnL would underflow")
  return .ok realizedPnl

/-- The part of `process_fill` that closes: the PnL a signed fill realizes against the
position, zero where the fill does not reduce it. -/
def Position.closePnl (position : Position) (signedFill : Int) (price : Nat) :
    Option (Except AggregatorError Int) :=
  if (0 < position.quantity ∧ signedFill < 0) ∨ (position.quantity < 0 ∧ 0 < signedFill) then do
    let closeQty ← position.closeQty signedFill
    if 0 < closeQty ∧ 0 < position.averagePriceMicros then position.realizedPnl closeQty price
    else return .ok 0
  else some (.ok 0)

/-- The part of `process_fill` that moves the quantity and the average price. -/
def Position.adjust (position : Position) (side : String) (fillQuantity : Int) (price : Nat) :
    Option Position :=
  if side = "buy" then
    if 0 ≤ position.quantity then do
      -- Adding to long or opening long: recalculate average
      let totalCost := position.quantity.toNat * position.averagePriceMicros +
        fillQuantity.toNat * price
      let quantity ← i64 (position.quantity + fillQuantity)
      let average := if 0 < quantity then castU64 (totalCost / quantity.toNat)
        else position.averagePriceMicros
      return { position with quantity, averagePriceMicros := average }
    else do
      -- Covering short position
      let quantity ← i64 (position.quantity + fillQuantity)
      let average := if 0 < quantity then price
        else if quantity = 0 then 0 else position.averagePriceMicros
      return { position with quantity, averagePriceMicros := average }
  else
    if position.quantity ≤ 0 then do
      -- Adding to short or opening short
      let held ← i64 (-position.quantity)
      let totalCost := held.toNat * position.averagePriceMicros + fillQuantity.toNat * price
      let quantity ← i64 (position.quantity - fillQuantity)
      if quantity < 0 then do
        let short ← i64 (-quantity)
        return { position with quantity, averagePriceMicros := castU64 (totalCost / short.toNat) }
      else return { position with quantity }
    else do
      -- Closing long position
      let quantity ← i64 (position.quantity - fillQuantity)
      let average := if quantity < 0 then price
        else if quantity = 0 then 0 else position.averagePriceMicros
      return { position with quantity, averagePriceMicros := average }

theorem mean_lt {held added average price bound : Nat} (some_ : 0 < held + added)
    (averageFits : average < bound) (priceFits : price < bound) :
    (held * average + added * price) / (held + added) < bound := by
  rw [Nat.div_lt_iff_lt_mul some_]
  have first : held * (average + 1) ≤ held * bound := Nat.mul_le_mul_left held averageFits
  have second : added * (price + 1) ≤ added * bound := Nat.mul_le_mul_left added priceFits
  rw [Nat.mul_comm bound, Nat.add_mul]
  rw [Nat.mul_succ] at first second
  omega

theorem Position.adjust_realized (position : Position) (realizedPnl fillQuantity : Int)
    (side : String) (price : Nat) :
    { position with realizedPnlMicros := realizedPnl }.adjust side fillQuantity price =
      (position.adjust side fillQuantity price).map fun moved =>
        { moved with realizedPnlMicros := realizedPnl } := by
  unfold Position.adjust
  split <;> split
  · cases i64 (position.quantity + fillQuantity) <;> rfl
  · cases i64 (position.quantity + fillQuantity) <;> rfl
  · cases i64 (-position.quantity) with
    | none => rfl
    | some held =>
      cases i64 (position.quantity - fillQuantity) with
      | none => rfl
      | some left =>
        by_cases short : left < 0
        · cases fits : i64 (-left) <;> simp [short, fits]
        · simp [short]
  · cases i64 (position.quantity - fillQuantity) <;> rfl

end TradingBot.PositionAggregator

namespace TradingBot

open PositionAggregator

/-- `PositionAggregator`: the positions and their atomic shadows. -/
structure PositionAggregator where
  positions : AList fun _ : String => Position
  atomicRealizedPnl : Int
  atomicPositionCount : Nat
  lastSequence : Nat
  /-- Number of calculations refused for their overflow risk. -/
  overflowDetected : Nat

namespace PositionAggregator

def new : PositionAggregator where
  positions := ∅
  atomicRealizedPnl := 0
  atomicPositionCount := 0
  lastSequence := 0
  overflowDetected := 0

/-- The count `update_atomic_counters` stores: positions that are not flat. -/
def openPositions (positions : AList fun _ : String => Position) : Nat :=
  (positions.entries.filter fun entry => !entry.2.isFlat).length

/-- `overflow_detected.fetch_add(1)`. -/
def flagOverflow (aggregator : PositionAggregator) : PositionAggregator :=
  { aggregator with overflowDetected := castU64 (aggregator.overflowDetected + 1) }

/-- The conversion of a side to a signed quantity; any other text is an invalid side. -/
def signedFill (side : String) (fillQuantity : Int) : Except AggregatorError Int :=
  if side = "buy" then .ok fillQuantity
  else if side = "sell" then .ok (-fillQuantity)
  else .error (.invalidSide side)

/-- `PositionAggregator::process_fill`: the result and the aggregator after the call. -/
def processFill (aggregator : PositionAggregator) (symbol side : String)
    (quantity price sequence timestampUs : Nat) :
    Option (Except AggregatorError Unit × PositionAggregator) :=
  if i64Max < quantity then
    some (.error (.overflowRisk "quantity exceeds i64::MAX"), aggregator.flagOverflow)
  else if symbol ∉ aggregator.positions ∧ maxSymbols ≤ aggregator.positions.keys.length then
    some (.error (.maxSymbolsReached maxSymbols), aggregator)
  else
    let position := (aggregator.positions.lookup symbol).getD (Position.new symbol)
    let entered := { aggregator with positions := aggregator.positions.insert symbol position }
    match signedFill side quantity with
    | .error refused => some (.error refused, entered)
    | .ok signed => do
      match ← position.closePnl signed price with
      | .error refused => return (.error refused, entered.flagOverflow)
      | .ok realizedPnl =>
        let booked ← i64 (position.realizedPnlMicros + realizedPnl)
        let moved ← { position with realizedPnlMicros := booked }.adjust side quantity price
        let marked := { moved with lastPriceMicros := price, lastUpdateUs := timestampUs }
        let positions := entered.positions.insert symbol marked
        return (.ok (), { entered with
          positions
          atomicRealizedPnl := castI64 (entered.atomicRealizedPnl + realizedPnl)
          lastSequence := sequence
          atomicPositionCount := openPositions positions })

/-- Rewrite a tracked position in place; an unknown symbol is left alone. -/
def modify (aggregator : PositionAggregator) (symbol : String) (change : Position → Position) :
    PositionAggregator :=
  match aggregator.positions.lookup symbol with
  | none => aggregator
  | some position =>
    { aggregator with positions := aggregator.positions.insert symbol (change position) }

/-- `PositionAggregator::process_tick`: mark a tracked position to a price. -/
def processTick (aggregator : PositionAggregator) (symbol : String) (price timestampUs : Nat) :
    PositionAggregator :=
  aggregator.modify symbol fun position =>
    { position with lastPriceMicros := price, lastUpdateUs := timestampUs }

def processOrderPlaced (aggregator : PositionAggregator) (symbol : String) :
    PositionAggregator :=
  aggregator.modify symbol fun position =>
    { position with openOrdersCount := min (position.openOrdersCount + 1) u32Max }

def processOrderCancelled (aggregator : PositionAggregator) (symbol : String) :
    PositionAggregator :=
  aggregator.modify symbol fun position =>
    { position with openOrdersCount := position.openOrdersCount - 1 }

/-- `PositionAggregator::clear`: drop all positions, for rebuild operations. -/
def clear (aggregator : PositionAggregator) : PositionAggregator :=
  { aggregator with positions := ∅, atomicRealizedPnl := 0, atomicPositionCount := 0 }

def getPosition (aggregator : PositionAggregator) (symbol : String) : Option Position :=
  aggregator.positions.lookup symbol

def getFastRealizedPnl (aggregator : PositionAggregator) : Int := aggregator.atomicRealizedPnl

def getFastPositionCount (aggregator : PositionAggregator) : Nat :=
  aggregator.atomicPositionCount

/-- The position of a symbol, flat and new where the aggregator tracks none. -/
def positionOf (aggregator : PositionAggregator) (symbol : String) : Position :=
  (aggregator.getPosition symbol).getD (Position.new symbol)

/-- An insertion changes the position of its symbol only. -/
theorem positionOf_of_insert {aggregator next : PositionAggregator} {symbol : String}
    {position : Position} (inserted : next.positions = aggregator.positions.insert symbol position)
    (other : String) :
    next.positionOf other = if other = symbol then position else aggregator.positionOf other := by
  unfold positionOf getPosition
  rw [inserted]
  by_cases same : other = symbol
  · rw [same, if_pos rfl, AList.lookup_insert, Option.getD_some]
  · rw [if_neg same, AList.lookup_insert_ne same]

/-- The state after a fill that returns `Ok`: the symbol's position has realized the closing
part and moved, the others are as they were, and the shadows follow. -/
theorem processFill_ok {aggregator next : PositionAggregator} {symbol side : String}
    {quantity price sequence timestampUs : Nat}
    (accepted : aggregator.processFill symbol side quantity price sequence timestampUs =
      some (.ok (), next)) :
    ∃ signed realizedPnl moved,
      signedFill side quantity = .ok signed ∧
      (aggregator.positionOf symbol).closePnl signed price = some (.ok realizedPnl) ∧
      (aggregator.positionOf symbol).adjust side quantity price = some moved ∧
      next.positions = aggregator.positions.insert symbol { moved with
        realizedPnlMicros := (aggregator.positionOf symbol).realizedPnlMicros + realizedPnl
        lastPriceMicros := price
        lastUpdateUs := timestampUs } ∧
      next.atomicRealizedPnl = castI64 (aggregator.atomicRealizedPnl + realizedPnl) ∧
      next.atomicPositionCount = openPositions next.positions := by
  unfold processFill at accepted
  split at accepted
  · simp at accepted
  split at accepted
  · simp at accepted
  simp only at accepted
  split at accepted
  · simp at accepted
  rename_i signed named
  simp only [Option.bind_eq_bind, Option.bind_eq_some_iff] at accepted
  obtain ⟨closed, closes, accepted⟩ := accepted
  cases closed with
  | error refused => simp at accepted
  | ok realizedPnl =>
    simp only [Option.bind_eq_some_iff] at accepted
    obtain ⟨booked, fits, changed, adjusted, accepted⟩ := accepted
    obtain ⟨_, rfl⟩ := i64_eq_some.mp fits
    rw [Position.adjust_realized] at adjusted
    obtain ⟨moved, moves, rfl⟩ := Option.map_eq_some_iff.mp adjusted
    simp only [Option.pure_def, Option.some.injEq, Prod.mk.injEq, true_and] at accepted
    subst accepted
    exact ⟨signed, realizedPnl, moved, named, closes, moves, AList.insert_insert _, rfl, rfl⟩

/-- A refused fill leaves the totals. Where it is too large or finds no room it leaves the
positions too, and elsewhere it makes sure of an entry for its symbol. -/
theorem processFill_refused {aggregator next : PositionAggregator} {symbol side : String}
    {quantity price sequence timestampUs : Nat} {refusal : AggregatorError}
    (refused : aggregator.processFill symbol side quantity price sequence timestampUs =
      some (.error refusal, next)) :
    (next.positions = aggregator.positions ∧
        (i64Max < quantity ∨ maxSymbols ≤ aggregator.positions.keys.length) ∨
      next.positions = aggregator.positions.insert symbol (aggregator.positionOf symbol) ∧
        ¬i64Max < quantity ∧
        (symbol ∈ aggregator.positions ∨ ¬maxSymbols ≤ aggregator.positions.keys.length)) ∧
      next.atomicRealizedPnl = aggregator.atomicRealizedPnl ∧
      next.atomicPositionCount = aggregator.atomicPositionCount ∧
      next.lastSequence = aggregator.lastSequence := by
  unfold processFill at refused
  by_cases large : i64Max < quantity
  · rw [if_pos large] at refused
    cases refused
    exact ⟨.inl ⟨rfl, .inl large⟩, rfl, rfl, rfl⟩
  by_cases full : symbol ∉ aggregator.positions ∧ maxSymbols ≤ aggregator.positions.keys.length
  · rw [if_neg large, if_pos full] at refused
    cases refused
    exact ⟨.inl ⟨rfl, .inr full.2⟩, rfl, rfl, rfl⟩
  have room : symbol ∈ aggregator.positions ∨
      ¬maxSymbols ≤ aggregator.positions.keys.length := by
    by_cases tracked : symbol ∈ aggregator.positions
    · exact .inl tracked
    · exact .inr fun used => full ⟨tracked, used⟩
  rw [if_neg large, if_neg full] at refused
  simp only at refused
  split at refused
  · cases refused
    exact ⟨.inr ⟨rfl, large, room⟩, rfl, rfl, rfl⟩
  simp only [Option.bind_eq_bind, Option.bind_eq_some_iff] at refused
  obtain ⟨closed, _, refused⟩ := refused
  cases closed with
  | error reason =>
    cases refused
    exact ⟨.inr ⟨rfl, large, room⟩, rfl, rfl, rfl⟩
  | ok realizedPnl =>
    -- From here on the fill is booked.
    simp only [Option.bind_eq_some_iff] at refused
    obtain ⟨_, _, _, _, booked⟩ := refused
    cases booked

theorem getPosition_modify (aggregator : PositionAggregator) (symbol other : String)
    (change : Position → Position) :
    (aggregator.modify symbol change).getPosition other =
      if other = symbol then (aggregator.getPosition symbol).map change
      else aggregator.getPosition other := by
  unfold modify getPosition
  by_cases same : other = symbol
  · subst same
    cases found : aggregator.positions.lookup other with
    | none => simp [found]
    | some position => simp
  · cases found : aggregator.positions.lookup symbol with
    | none => simp [same]
    | some position => simp [same, AList.lookup_insert_ne same]

end PositionAggregator

end TradingBot
