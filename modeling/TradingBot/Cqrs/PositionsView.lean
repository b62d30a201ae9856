import Mathlib.Algebra.Order.Field.Rat
import TradingBot.Foundation.Dict

/-!
# Positions view

`PositionsView` of `read_model_builder.py`: the read model of positions that events are projected
into. Floats are rationals; the times of updates are left out.
-/

namespace TradingBot.Cqrs

/-- `PositionState`. -/
structure PositionState where
  symbol : String
  quantity : ℚ := 0
  averagePrice : ℚ := 0
  unrealizedPnl : ℚ := 0
  realizedPnl : ℚ := 0
  lastPrice : ℚ := 0
  openOrdersCount : Nat := 0

/-- What the view reads of the payload of an event; a missing field is none. -/
structure Payload where
  symbol : Option String
  side : Option String := none
  quantity : Option ℚ := none
  price : Option ℚ := none

/-- The values of `event_type` that the view handles, and any other. -/
inductive EventType where
  | orderFilled
  | positionOpened
  | positionClosed
  | tickReceived
  | orderPlaced
  | orderCancelled
  | other

/-- An event. -/
structure ProjectedEvent where
  eventType : EventType
  payload : Payload

/-- `PositionsView`, with the event count of its metadata. -/
structure PositionsView where
  positions : Dict String PositionState
  eventCount : Nat

namespace PositionState

/-- The branches of `_handle_fill` on a position: a buy moves the average, and any other side
sells what is held at most. -/
def fill (pos : PositionState) (side : String) (quantity price : ℚ) : PositionState :=
  let filled :=
    if side = "buy" then
      let totalCost := pos.quantity * pos.averagePrice + quantity * price
      let held := pos.quantity + quantity
      { pos with
        quantity := held
        averagePrice := if 0 < held then totalCost / held else pos.averagePrice }
    else if 0 < pos.quantity then
      let sellQuantity := min quantity pos.quantity
      { pos with
        realizedPnl := pos.realizedPnl + (price - pos.averagePrice) * sellQuantity
        quantity := pos.quantity - sellQuantity }
    else pos
  { filled with lastPrice := price }

section Fills

variable {pos : PositionState} {quantity price : ℚ}

theorem averagePrice_sell {side : String} (sells : side ≠ "buy") :
    (pos.fill side quantity price).averagePrice = pos.averagePrice := by
  dsimp only [fill]
  rw [if_neg sells]
  split <;> rfl

theorem sell_part {side : String} (sells : side ≠ "buy") (long : 0 < pos.quantity)
    (part : quantity ≤ pos.quantity) :
    (pos.fill side quantity price).quantity = pos.quantity - quantity ∧
      (pos.fill side quantity price).realizedPnl =
        pos.realizedPnl + (price - pos.averagePrice) * quantity := by
  dsimp only [fill]
  rw [if_neg sells, if_pos long, min_eq_left part]
  exact ⟨rfl, rfl⟩

theorem sell_rest {side : String} (sells : side ≠ "buy") (held : 0 ≤ pos.quantity)
    (more : pos.quantity ≤ quantity) : (pos.fill side quantity price).quantity = 0 := by
  dsimp only [fill]
  rw [if_neg sells]
  split
  · dsimp only
    rw [min_eq_right more, sub_self]
  · rename_i flat
    exact le_antisymm (not_lt.mp flat) held

end Fills

end PositionState

namespace PositionsView

/-- `__init__`. -/
def new : PositionsView := ⟨.empty, 0⟩

/-- The symbol of a payload, unless it is missing or empty. -/
def symbolOf (payload : Payload) : Option String :=
  payload.symbol.filter fun symbol => symbol ≠ ""

/-- A change of the position of the symbol of a payload, if the view has that position. -/
def update (view : PositionsView) (payload : Payload)
    (change : PositionState → PositionState) : PositionsView :=
  match symbolOf payload with
  | none => view
  | some symbol =>
    match view.positions.get symbol with
    | none => view
    | some pos => { view with positions := view.positions.put symbol (change pos) }

def handleFill (view : PositionsView) (payload : Payload) : PositionsView :=
  match symbolOf payload with
  | none => view
  | some symbol =>
    let pos := (view.positions.get symbol).getD { symbol := symbol }
    { view with
      positions := view.positions.put symbol (pos.fill (payload.side.getD "buy")
        (payload.quantity.getD 0) (payload.price.getD 0)) }

def handleClose (view : PositionsView) (payload : Payload) : PositionsView :=
  view.update payload fun pos => { pos with quantity := 0, unrealizedPnl := 0 }

def handleTick (view : PositionsView) (payload : Payload) : PositionsView :=
  let price := payload.price.getD 0
  view.update payload fun pos =>
    { pos with
      lastPrice := price
      unrealizedPnl := if pos.quantity ≠ 0 then (price - pos.averagePrice) * pos.quantity
        else pos.unrealizedPnl }

def handleOrderPlaced (view : PositionsView) (payload : Payload) : PositionsView :=
  view.update payload fun pos => { pos with openOrdersCount := pos.openOrdersCount + 1 }

def handleOrderCancelled (view : PositionsView) (payload : Payload) : PositionsView :=
  view.update payload fun pos => { pos with openOrdersCount := pos.openOrdersCount - 1 }

def applyEvent (view : PositionsView) (event : ProjectedEvent) : PositionsView :=
  let handled :=
    match event.eventType with
    | .orderFilled => view.handleFill event.payload
    | .positionOpened => view.handleFill event.payload
    | .positionClosed => view.handleClose event.payload
    | .tickReceived => view.handleTick event.payload
    | .orderPlaced => view.handleOrderPlaced event.payload
    | .orderCancelled => view.handleOrderCancelled event.payload
    | .other => view
  { handled with eventCount := handled.eventCount + 1 }

def clear (_ : PositionsView) : PositionsView := new

def getPosition (view : PositionsView) (symbol : String) : Option PositionState :=
  view.positions.get symbol

/-- The position of a symbol, a new one where the view has none. -/
def positionOf (view : PositionsView) (symbol : String) : PositionState :=
  (view.getPosition symbol).getD { symbol := symbol }

theorem positionOf_fill (view : PositionsView) (symbol side other : String)
    (quantity price : ℚ) :
    (view.applyEvent ⟨.orderFilled, ⟨some symbol, some side, some quantity, some price⟩⟩).positionOf
        other =
      if other = symbol ∧ symbol ≠ "" then (view.positionOf symbol).fill side quantity price
      else view.positionOf other := by
  by_cases named : symbol = ""
  · subst named
    rw [if_neg fun both => both.2 rfl]
    rfl
  · have found : symbolOf ⟨some symbol, some side, some quantity, some price⟩ = some symbol := by
      simp [symbolOf, named]
    dsimp only [applyEvent, handleFill]
    rw [found]
    dsimp only [positionOf, getPosition]
    rw [Dict.get_put]
    by_cases same : other = symbol
    · rw [if_pos same, if_pos ⟨same, named⟩]
      rfl
    · rw [if_neg same, if_neg fun both => same both.1]

theorem eventCount_applyEvent (view : PositionsView) (event : ProjectedEvent) :
    (view.applyEvent event).eventCount = view.eventCount + 1 := by
  have updated : ∀ change, (view.update event.payload change).eventCount = view.eventCount := by
    intro change
    unfold update
    split
    · rfl
    · split <;> rfl
  have filled : (view.handleFill event.payload).eventCount = view.eventCount := by
    unfold handleFill
    split <;> rfl
  unfold applyEvent
  dsimp only
  congr 1
  cases event.eventType with
  | orderFilled => exact filled
  | positionOpened => exact filled
  | positionClosed => exact updated _
  | tickReceived => exact updated _
  | orderPlaced => exact updated _
  | orderCancelled => exact updated _
  | other => rfl

/-- An update changes the position its payload names only. -/
theorem positionOf_update (view : PositionsView) (payload : Payload)
    (change : PositionState → PositionState) (other : String) :
    (view.update payload change).positionOf other =
      if symbolOf payload = some other ∧ (view.getPosition other).isSome then
        change (view.positionOf other)
      else view.positionOf other := by
  unfold update positionOf getPosition
  cases named : symbolOf payload with
  | none => exact (if_neg fun both => nomatch both.1).symm
  | some symbol =>
    dsimp only
    by_cases same : symbol = other
    · subst same
      cases found : view.positions.get symbol with
      | none => simp [found]
      | some pos => simp [Dict.get_put]
    · rw [if_neg fun both => same (Option.some.inj both.1)]
      cases view.positions.get symbol with
      | none => rfl
      | some pos => simp [Dict.get_put, Ne.symm same]

theorem positionOf_handleFill (view : PositionsView) (payload : Payload) (other : String) :
    (view.handleFill payload).positionOf other =
      if symbolOf payload = some other then
        (view.positionOf other).fill (payload.side.getD "buy") (payload.quantity.getD 0)
          (payload.price.getD 0)
      else view.positionOf other := by
  unfold handleFill positionOf getPosition
  cases named : symbolOf payload with
  | none => exact (if_neg nofun).symm
  | some symbol =>
    dsimp only
    rw [Dict.get_put]
    by_cases same : other = symbol
    · rw [if_pos same, if_pos (congrArg some same.symm), same]
      rfl
    · rw [if_neg same, if_neg fun eq => same (Option.some.inj eq).symm]

end PositionsView

end TradingBot.Cqrs
