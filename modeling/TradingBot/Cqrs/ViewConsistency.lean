import Mathlib.Tactic.Linarith
import Mathlib.Tactic.LinearCombination
import Mathlib.Tactic.Ring
import TradingBot.Cqrs.ReadModelBuilder
import TradingBot.Foundation.Run

/-!
# Consistency of the views

The positions view counts the open orders of a symbol only once it has a position, and counts an
order down only when it is cancelled. The orders view lets a late fill set the status of an order
that is cancelled. A fill moves the average and the last price, but not what they are worth. The two
views agree exactly along the streams that have no such event.
-/

open Run

namespace TradingBot.Cqrs

namespace ViewConsistency

/-- A builder and the ids of the orders that were cancelled. -/
structure Session where
  builder : ReadModelBuilder
  cancelled : List String

/-- A session of a new builder. -/
def Session.start : Session := ⟨.new, []⟩

/-- The id that an event cancels, if any. -/
def cancels (event : ViewEvent) : List String :=
  if event.eventType = .orderCancelled then (OrdersView.orderIdOf event.payload).toList else []

/-- An event is projected; a cancel that is skipped cancels nothing. -/
def step (session : Session) (event : ViewEvent) : Option Session := some
  { builder := session.builder.projectEvent event
    cancelled := if event.sequence ≤ session.builder.lastSequence then session.cancelled
      else cancels event ++ session.cancelled }

/-- The open orders that the positions view counts for every symbol are the active orders of the
orders view. -/
def Counted (positions : PositionsView) (orders : OrdersView) : Prop :=
  ∀ symbol, (positions.positionOf symbol).openOrdersCount = orders.activeCount symbol

/-- No order that was cancelled is active. -/
def Settled (orders : OrdersView) (cancelled : List String) : Prop :=
  ∀ orderId ∈ cancelled, ∀ order, orders.getOrder orderId = some order → ¬ order.Active

/-- The unrealized gain of a position is that of its quantity at its last price. -/
def AtMark (pos : PositionState) : Prop :=
  pos.unrealizedPnl = (pos.lastPrice - pos.averagePrice) * pos.quantity

/-- Every position is worth what it is at its last price. -/
def Marked (positions : PositionsView) : Prop := ∀ symbol, AtMark (positions.positionOf symbol)

/-- The views agree. -/
structure Consistent (session : Session) : Prop where
  counted : Counted session.builder.positions session.builder.orders
  settled : Settled session.builder.orders session.cancelled
  marked : Marked session.builder.positions

/-- What a fill adds to the gain of a position at the last price is nothing: it is flat, it is
bought at the last price, or the rest of a sell gains at the new price what the whole did. -/
def KeepsMark (pos : PositionState) (side : String) (quantity price : ℚ) : Prop :=
  pos.quantity = 0 ∨
    if side = "buy" then price = pos.lastPrice
    else (price - pos.averagePrice) * (pos.quantity - min quantity pos.quantity) =
      (pos.lastPrice - pos.averagePrice) * pos.quantity

instance (pos : PositionState) (side : String) (quantity price : ℚ) :
    Decidable (KeepsMark pos side quantity price) := inferInstanceAs (Decidable (_ ∨ ite _ _ _))

/-- The fill of a payload keeps the mark of the position of its symbol. -/
def FillAtMark (positions : PositionsView) (payload : Payload) : Prop :=
  ∀ symbol ∈ PositionsView.symbolOf payload, KeepsMark (positions.positionOf symbol)
    (payload.side.getD "buy") (payload.quantity.getD 0) (payload.price.getD 0)

/-- The position of the symbol of a payload, if the view has it. -/
def entryOf (positions : PositionsView) (payload : Payload) : Option PositionState :=
  (PositionsView.symbolOf payload).bind positions.getPosition

/-- An order is placed once, and no negative quantity is filled. -/
def Regular (session : Session) (payload : ViewPayload) : ViewEventType → Prop
  | .orderPlaced => ∀ orderId ∈ OrdersView.orderIdOf payload,
      session.builder.orders.getOrder orderId = none ∧ orderId ∉ session.cancelled
  | .orderFilled => 0 ≤ payload.quantity.getD 0
  | .positionOpened => 0 ≤ payload.quantity.getD 0
  | _ => True

/-- An event of a regular stream. -/
def Promised (session : Session) (event : ViewEvent) : Prop :=
  Regular session event.payload event.eventType

/-- An order is placed where its symbol has a position, a fill leaves an order as active as it was
and the position at its mark, and a cancel is of an active order of its symbol, or of no active
order while its symbol has none. -/
def Agreeable (session : Session) (payload : ViewPayload) : ViewEventType → Prop
  | .orderPlaced => (OrdersView.orderIdOf payload).isSome =
      (entryOf session.builder.positions payload.toPayload).isSome
  | .orderFilled =>
      (∀ order ∈ session.builder.orders.orderOf payload,
        (order.filledQuantity + payload.quantity.getD 0 < order.quantity ↔ order.Active)) ∧
        FillAtMark session.builder.positions payload.toPayload
  | .positionOpened => FillAtMark session.builder.positions payload.toPayload
  | .orderCancelled =>
      (∃ order ∈ session.builder.orders.orderOf payload,
        order.Active ∧ order.symbol = payload.symbol.getD "") ∨
      (∀ order ∈ session.builder.orders.orderOf payload, ¬ order.Active) ∧
        session.builder.orders.activeCount (payload.symbol.getD "") = 0
  | _ => True

/-- An event that is not skipped is one on which the views agree. -/
def InBounds (session : Session) (event : ViewEvent) : Prop :=
  session.builder.lastSequence < event.sequence →
    Agreeable session event.payload event.eventType

instance (positions : PositionsView) (payload : Payload) :
    Decidable (FillAtMark positions payload) :=
  inferInstanceAs (Decidable (∀ symbol ∈ PositionsView.symbolOf payload, _))

instance (session : Session) (payload : ViewPayload) : DecidablePred (Regular session payload)
  | .orderPlaced => inferInstanceAs
      (Decidable (∀ orderId ∈ OrdersView.orderIdOf payload, _ = none ∧ orderId ∉ _))
  | .orderFilled => inferInstanceAs (Decidable (_ ≤ _))
  | .positionOpened => inferInstanceAs (Decidable (_ ≤ _))
  | .orderCancelled => inferInstanceAs (Decidable True)
  | .orderModified => inferInstanceAs (Decidable True)
  | .positionClosed => inferInstanceAs (Decidable True)
  | .tickReceived => inferInstanceAs (Decidable True)
  | .other => inferInstanceAs (Decidable True)

instance (session : Session) : DecidablePred (Promised session) := fun _ =>
  inferInstanceAs (Decidable (Regular _ _ _))

instance (session : Session) (payload : ViewPayload) : DecidablePred (Agreeable session payload)
  | .orderPlaced => inferInstanceAs (Decidable (_ = _))
  | .orderFilled => inferInstanceAs
      (Decidable ((∀ order ∈ session.builder.orders.orderOf payload, (_ ↔ order.Active)) ∧ _))
  | .positionOpened => inferInstanceAs (Decidable (FillAtMark _ _))
  | .orderCancelled => inferInstanceAs (Decidable
      ((∃ order ∈ session.builder.orders.orderOf payload, order.Active ∧ order.symbol = _) ∨
        (∀ order ∈ session.builder.orders.orderOf payload, ¬ order.Active) ∧ _))
  | .orderModified => inferInstanceAs (Decidable True)
  | .positionClosed => inferInstanceAs (Decidable True)
  | .tickReceived => inferInstanceAs (Decidable True)
  | .other => inferInstanceAs (Decidable True)

instance (session : Session) : DecidablePred (InBounds session) := fun _ =>
  inferInstanceAs (Decidable (_ → _))

/-- Nothing is held short, and the empty symbol has no open order. -/
structure Sound (positions : PositionsView) : Prop where
  held : ∀ symbol, 0 ≤ (positions.positionOf symbol).quantity
  unnamed : (positions.positionOf "").openOrdersCount = 0

/-! ## Symbols -/

section Symbols

variable {positions : PositionsView} {payload : Payload}

theorem symbolOf_eq_some {symbol : String} :
    PositionsView.symbolOf payload = some symbol ↔
      payload.symbol.getD "" = symbol ∧ symbol ≠ "" := by
  unfold PositionsView.symbolOf
  cases payload.symbol with
  | none =>
    refine iff_of_false (by simp) fun both => both.2 both.1.symm
  | some other =>
    rw [Option.filter_eq_some_iff, Option.some.injEq, decide_eq_true_iff]
    exact Iff.rfl

theorem entryOf_isSome {symbol : String} (same : payload.symbol.getD "" = symbol) :
    (entryOf positions payload).isSome = true ↔
      PositionsView.symbolOf payload = some symbol ∧ (positions.getPosition symbol).isSome := by
  unfold entryOf
  constructor
  · intro there
    obtain ⟨pos, found⟩ := Option.isSome_iff_exists.mp there
    obtain ⟨other, named, got⟩ := Option.bind_eq_some_iff.mp found
    have other_ : other = symbol := (symbolOf_eq_some.mp named).1.symm.trans same
    subst other_
    exact ⟨named, Option.isSome_iff_exists.mpr ⟨pos, got⟩⟩
  · rintro ⟨named, there⟩
    rw [named]
    exact there

theorem openOrdersCount_absent {symbol : String}
    (absent : (positions.getPosition symbol).isSome ≠ true) :
    (positions.positionOf symbol).openOrdersCount = 0 := by
  have none_ : positions.getPosition symbol = none := by
    cases found : positions.getPosition symbol with
    | none => rfl
    | some pos => exact absurd (by rw [found]; rfl) absent
  unfold PositionsView.positionOf
  rw [none_]
  rfl

end Symbols

/-! ## Counts -/

section Counts

variable {positions : PositionsView} {orders : OrdersView} {payload : ViewPayload}

theorem activeCount_placed (fresh : ∀ orderId ∈ OrdersView.orderIdOf payload,
      orders.getOrder orderId = none) (symbol : String) :
    (orders.handlePlaced payload).activeCount symbol = orders.activeCount symbol +
      if (OrdersView.orderIdOf payload).isSome ∧ payload.symbol.getD "" = symbol then 1 else 0 := by
  unfold OrdersView.handlePlaced
  cases named : OrdersView.orderIdOf payload with
  | none => simp
  | some orderId =>
    have absent : orders.orders.get orderId = none := fresh orderId (Option.mem_def.mpr named)
    rw [OrdersView.activeCount_eq, OrdersView.activeCount_eq]
    dsimp only
    rw [Dict.values_put_fresh _ absent, List.map_append, List.sum_append]
    simp [OrderState.weigh, OrderState.Active]

theorem openOrdersCount_placed (symbol : String) :
    ((positions.handleOrderPlaced payload.toPayload).positionOf symbol).openOrdersCount =
      (positions.positionOf symbol).openOrdersCount +
        if (entryOf positions payload.toPayload).isSome ∧ payload.symbol.getD "" = symbol then 1
        else 0 := by
  unfold PositionsView.handleOrderPlaced
  rw [PositionsView.positionOf_update]
  by_cases same : payload.symbol.getD "" = symbol
  · by_cases there : (entryOf positions payload.toPayload).isSome
    · rw [if_pos ((entryOf_isSome same).mp there), if_pos ⟨there, same⟩]
    · rw [if_neg (mt (entryOf_isSome same).mpr there), if_neg fun both => there both.1]
      rfl
  · rw [if_neg fun both => same (symbolOf_eq_some.mp both.1).1, if_neg fun both => same both.2]
    rfl

theorem counted_placed_iff (counted : Counted positions orders)
    (fresh : ∀ orderId ∈ OrdersView.orderIdOf payload, orders.getOrder orderId = none) :
    Counted (positions.handleOrderPlaced payload.toPayload) (orders.handlePlaced payload) ↔
      (OrdersView.orderIdOf payload).isSome = (entryOf positions payload.toPayload).isSome := by
  constructor
  · intro after
    have here := after (payload.symbol.getD "")
    rw [openOrdersCount_placed, activeCount_placed fresh, counted] at here
    cases named : (OrdersView.orderIdOf payload).isSome
    · cases there : (entryOf positions payload.toPayload).isSome
      · rfl
      · simp [named, there] at here
    · cases there : (entryOf positions payload.toPayload).isSome
      · simp [named, there] at here
      · rfl
  · intro same symbol
    rw [openOrdersCount_placed, activeCount_placed fresh, counted, same]

theorem openOrdersCount_cancelled (unnamed : (positions.positionOf "").openOrdersCount = 0)
    (symbol : String) :
    ((positions.handleOrderCancelled payload.toPayload).positionOf symbol).openOrdersCount =
      (positions.positionOf symbol).openOrdersCount -
        if payload.symbol.getD "" = symbol then 1 else 0 := by
  unfold PositionsView.handleOrderCancelled
  rw [PositionsView.positionOf_update]
  by_cases same : payload.symbol.getD "" = symbol
  · rw [if_pos same]
    split
    · rfl
    · next missing =>
      -- Without a position, or without a name, there is nothing to count down.
      have zero : (positions.positionOf symbol).openOrdersCount = 0 := by
        by_cases empty : symbol = ""
        · rw [empty]
          exact unnamed
        · refine openOrdersCount_absent fun there => missing ⟨?_, there⟩
          exact symbolOf_eq_some.mpr ⟨same, empty⟩
      omega
  · rw [if_neg fun both => same (symbolOf_eq_some.mp both.1).1, if_neg same]
    rfl

theorem weigh_cancelled (order : OrderState) (symbol : String) :
    OrderState.weigh symbol { order with status := .cancelled } = 0 := by
  simp [OrderState.weigh, OrderState.Active]

theorem activeCount_cancelled {order : OrderState} (found : order ∈ orders.orderOf payload)
    (active : order.Active) (symbol : String) :
    (orders.handleCancelled payload).activeCount symbol +
        (if order.symbol = symbol then 1 else 0) = orders.activeCount symbol := by
  have moved := @OrdersView.activeCount_update orders payload
    (fun order => { order with status := .cancelled }) order found symbol
  rw [weigh_cancelled, OrderState.weigh] at moved
  unfold OrdersView.handleCancelled
  simpa only [active, true_and, add_zero] using moved

theorem activeCount_cancelled_inactive
    (inactive : ∀ order ∈ orders.orderOf payload, ¬ order.Active) (symbol : String) :
    (orders.handleCancelled payload).activeCount symbol = orders.activeCount symbol := by
  unfold OrdersView.handleCancelled
  cases found : orders.orderOf payload with
  | none => rw [OrdersView.update_none found]
  | some order =>
    have moved := @OrdersView.activeCount_update orders payload
      (fun order => { order with status := .cancelled }) order found symbol
    have notActive : ¬ order.Active := inactive order found
    rw [weigh_cancelled, OrderState.weigh, if_neg fun both => notActive both.1] at moved
    exact moved

theorem counted_cancelled_active {order : OrderState} (counted : Counted positions orders)
    (unnamed : (positions.positionOf "").openOrdersCount = 0)
    (found : order ∈ orders.orderOf payload) (active : order.Active) :
    Counted (positions.handleOrderCancelled payload.toPayload) (orders.handleCancelled payload) ↔
      order.symbol = payload.symbol.getD "" := by
  constructor
  · intro after
    have here := after order.symbol
    have before := counted order.symbol
    have moved := activeCount_cancelled found active order.symbol
    by_contra other
    rw [openOrdersCount_cancelled unnamed, if_neg (Ne.symm other)] at here
    rw [if_pos rfl] at moved
    omega
  · intro same symbol
    have before := counted symbol
    have moved := activeCount_cancelled found active symbol
    rw [same] at moved
    rw [openOrdersCount_cancelled unnamed]
    omega

theorem counted_cancelled_inactive (counted : Counted positions orders)
    (unnamed : (positions.positionOf "").openOrdersCount = 0)
    (inactive : ∀ order ∈ orders.orderOf payload, ¬ order.Active) :
    Counted (positions.handleOrderCancelled payload.toPayload) (orders.handleCancelled payload) ↔
      orders.activeCount (payload.symbol.getD "") = 0 := by
  have kept := activeCount_cancelled_inactive inactive
  constructor
  · intro after
    have here := after (payload.symbol.getD "")
    have before := counted (payload.symbol.getD "")
    rw [openOrdersCount_cancelled unnamed, kept, if_pos rfl] at here
    omega
  · intro zero symbol
    have before := counted symbol
    rw [openOrdersCount_cancelled unnamed, kept]
    by_cases same : payload.symbol.getD "" = symbol
    · rw [if_pos same]
      rw [same] at zero
      omega
    · rw [if_neg same]
      exact before

/-- A cancel is counted alike in both views exactly if it is of an active order of its symbol, or of
no active order while its symbol has none. -/
theorem counted_cancelled_iff (counted : Counted positions orders)
    (unnamed : (positions.positionOf "").openOrdersCount = 0) :
    Counted (positions.handleOrderCancelled payload.toPayload) (orders.handleCancelled payload) ↔
      (∃ order ∈ orders.orderOf payload,
        order.Active ∧ order.symbol = payload.symbol.getD "") ∨
      (∀ order ∈ orders.orderOf payload, ¬ order.Active) ∧
        orders.activeCount (payload.symbol.getD "") = 0 := by
  by_cases active : ∃ order ∈ orders.orderOf payload, order.Active
  · obtain ⟨order, found, active⟩ := active
    rw [counted_cancelled_active counted unnamed found active]
    constructor
    · exact fun same => .inl ⟨order, found, active, same⟩
    · rintro (⟨other, there, -, same⟩ | ⟨inactive, -⟩)
      · rw [Option.mem_def.mp found] at there
        cases there
        exact same
      · exact absurd active (inactive order found)
  · have inactive : ∀ order ∈ orders.orderOf payload, ¬ order.Active :=
      fun order found is => active ⟨order, found, is⟩
    rw [counted_cancelled_inactive counted unnamed inactive]
    constructor
    · exact fun zero => .inr ⟨inactive, zero⟩
    · rintro (⟨order, found, is, -⟩ | ⟨-, zero⟩)
      · exact absurd is (inactive order found)
      · exact zero

theorem openOrdersCount_fill (pos : PositionState) (side : String) (quantity price : ℚ) :
    (pos.fill side quantity price).openOrdersCount = pos.openOrdersCount := by
  unfold PositionState.fill
  dsimp only
  split
  · rfl
  · split <;> rfl

theorem openOrdersCount_filled (payload : Payload) (symbol : String) :
    ((positions.handleFill payload).positionOf symbol).openOrdersCount =
      (positions.positionOf symbol).openOrdersCount := by
  rw [PositionsView.positionOf_handleFill]
  split
  · exact openOrdersCount_fill _ _ _ _
  · rfl

theorem counted_filled_iff (counted : Counted positions orders) :
    Counted (positions.handleFill payload.toPayload) (orders.handleFilled payload) ↔
      ∀ order ∈ orders.orderOf payload,
        (order.filledQuantity + payload.quantity.getD 0 < order.quantity ↔ order.Active) := by
  unfold OrdersView.handleFilled
  cases found : orders.orderOf payload with
  | none =>
    refine iff_of_true (fun symbol => ?_) fun _ member => nomatch member
    rw [OrdersView.update_none found, openOrdersCount_filled, counted]
  | some order =>
    have moved := @OrdersView.activeCount_update orders payload
      (fun order => order.fill (payload.quantity.getD 0)) order found
    have symbol_ : (order.fill (payload.quantity.getD 0)).symbol = order.symbol := rfl
    constructor
    · rintro after _ ⟨⟩
      have here := after order.symbol
      have moved := moved order.symbol
      rw [openOrdersCount_filled, counted] at here
      unfold OrderState.weigh at moved
      rw [symbol_] at moved
      rw [← OrderState.active_fill]
      by_cases active : order.Active
      · by_cases after : (order.fill (payload.quantity.getD 0)).Active
        · exact iff_of_true after active
        · rw [if_pos ⟨active, rfl⟩, if_neg fun both => after both.1] at moved
          omega
      · by_cases after : (order.fill (payload.quantity.getD 0)).Active
        · rw [if_neg fun both => active both.1, if_pos ⟨after, rfl⟩] at moved
          omega
        · exact iff_of_false after active
    · intro same symbol
      have same := same order rfl
      have moved := moved symbol
      unfold OrderState.weigh at moved
      rw [symbol_] at moved
      simp only [OrderState.active_fill, same] at moved
      rw [openOrdersCount_filled, counted]
      omega

theorem counted_update {change : PositionState → PositionState} (counted : Counted positions orders)
    (kept : ∀ pos, (change pos).openOrdersCount = pos.openOrdersCount) :
    Counted (positions.update payload.toPayload change) orders := by
  intro symbol
  rw [PositionsView.positionOf_update]
  split
  · exact (kept _).trans (counted symbol)
  · exact counted symbol

theorem counted_modified (counted : Counted positions orders) :
    Counted positions (orders.handleModified payload) := by
  intro symbol
  rw [counted symbol]
  unfold OrdersView.handleModified
  cases found : orders.orderOf payload with
  | none => rw [OrdersView.update_none found]
  | some order =>
    have moved := @OrdersView.activeCount_update orders payload
      (fun order => { order with
        quantity := payload.quantity.getD order.quantity
        price := if payload.nullPrice then none else payload.price.or order.price }) order found
      symbol
    exact (Nat.add_right_cancel moved).symm

end Counts

/-! ## Settled orders -/

section SettledOrders

variable {orders : OrdersView} {payload : ViewPayload} {cancelled : List String}

theorem settled_placed (settled : Settled orders cancelled)
    (fresh : ∀ orderId ∈ OrdersView.orderIdOf payload, orderId ∉ cancelled) :
    Settled (orders.handlePlaced payload) cancelled := by
  unfold OrdersView.handlePlaced
  cases named : OrdersView.orderIdOf payload with
  | none => exact settled
  | some placed =>
    intro orderId member order found
    have other : orderId ≠ placed := by
      intro same
      exact fresh placed (Option.mem_def.mpr named) (same ▸ member)
    obtain ⟨same, -⟩ | ⟨-, before⟩ := Dict.get_put_eq_some.mp found
    · exact absurd same other
    · exact settled orderId member order before

theorem settled_update {change : OrderState → OrderState} (settled : Settled orders cancelled)
    (kept : ∀ order ∈ orders.orderOf payload, (change order).Active → order.Active) :
    Settled (orders.update payload change) cancelled := by
  intro orderId member order found
  rw [OrdersView.getOrder_update] at found
  split at found
  · next named =>
    obtain ⟨before, there, rfl⟩ := Option.map_eq_some_iff.mp found
    have here : orders.orderOf payload = some before := by
      unfold OrdersView.orderOf
      rw [named]
      exact there
    exact fun active => settled orderId member before there (kept before here active)
  · exact settled orderId member order found

theorem settled_cancelled (settled : Settled orders cancelled) :
    Settled (orders.handleCancelled payload)
      ((OrdersView.orderIdOf payload).toList ++ cancelled) := by
  unfold OrdersView.handleCancelled
  intro orderId member order found
  obtain here | before := List.mem_append.mp member
  · have named : OrdersView.orderIdOf payload = some orderId := by simpa using here
    rw [OrdersView.getOrder_update, if_pos named] at found
    obtain ⟨old, -, rfl⟩ := Option.map_eq_some_iff.mp found
    simp [OrderState.Active]
  · refine settled_update settled (fun order _ active => ?_) orderId before order found
    simp [OrderState.Active] at active

end SettledOrders

/-! ## Marks -/

section Marks

variable {positions : PositionsView} {payload : Payload}

theorem atMark_fill_iff {pos : PositionState} {side : String} {quantity price : ℚ}
    (marked : AtMark pos) (held : 0 ≤ pos.quantity) (filled : 0 ≤ quantity) :
    AtMark (pos.fill side quantity price) ↔ KeepsMark pos side quantity price := by
  unfold AtMark at marked
  unfold AtMark PositionState.fill KeepsMark
  dsimp only
  by_cases buys : side = "buy"
  · simp only [if_pos buys]
    by_cases long : 0 < pos.quantity + quantity
    · rw [if_pos long, marked]
      -- The cost of what is held now is that of both parts.
      have cost : (price - (pos.quantity * pos.averagePrice + quantity * price) /
          (pos.quantity + quantity)) * (pos.quantity + quantity) =
            (price - pos.averagePrice) * pos.quantity := by
        rw [sub_mul, div_mul_cancel₀ _ long.ne']
        ring
      rw [cost]
      constructor
      · intro same
        by_cases flat : pos.quantity = 0
        · exact .inl flat
        · have equal := mul_right_cancel₀ flat same
          exact .inr (by linear_combination -equal)
      · rintro (flat | same)
        · rw [flat, mul_zero, mul_zero]
        · rw [same]
    · have flat : pos.quantity = 0 := by linarith
      have none_ : quantity = 0 := by linarith
      refine iff_of_true ?_ (.inl flat)
      rw [if_neg long, marked, flat, none_]
      ring
  · simp only [if_neg buys]
    by_cases long : 0 < pos.quantity
    · simp only [if_pos long]
      rw [marked]
      constructor
      · exact fun same => .inr same.symm
      · rintro (flat | same)
        · exact absurd flat long.ne'
        · exact same.symm
    · have flat : pos.quantity = 0 := le_antisymm (not_lt.mp long) held
      refine iff_of_true ?_ (.inl flat)
      simp only [if_neg long]
      rw [marked, flat, mul_zero, mul_zero]

theorem marked_filled_iff (marked : Marked positions) (sound : Sound positions)
    (filled : 0 ≤ payload.quantity.getD 0) :
    Marked (positions.handleFill payload) ↔ FillAtMark positions payload := by
  constructor
  · intro after symbol named
    have here := after symbol
    rw [PositionsView.positionOf_handleFill, if_pos (Option.mem_def.mp named)] at here
    exact (atMark_fill_iff (marked symbol) (sound.held symbol) filled).mp here
  · intro kept symbol
    rw [PositionsView.positionOf_handleFill]
    split
    · next named =>
      exact (atMark_fill_iff (marked symbol) (sound.held symbol) filled).mpr (kept symbol named)
    · exact marked symbol

theorem marked_update {change : PositionState → PositionState} (marked : Marked positions)
    (kept : ∀ pos, AtMark pos → AtMark (change pos)) :
    Marked (positions.update payload change) := by
  intro symbol
  rw [PositionsView.positionOf_update]
  split
  · exact kept _ (marked symbol)
  · exact marked symbol

theorem marked_tick (marked : Marked positions) : Marked (positions.handleTick payload) := by
  refine marked_update marked fun pos atMark => ?_
  unfold AtMark at atMark ⊢
  dsimp only
  by_cases flat : pos.quantity = 0
  · rw [if_neg (not_not_intro flat), atMark, flat, mul_zero, mul_zero]
  · rw [if_pos flat]

theorem marked_close (marked : Marked positions) : Marked (positions.handleClose payload) := by
  refine marked_update marked fun pos _ => ?_
  show (0 : ℚ) = _ * 0
  rw [mul_zero]

end Marks

/-! ## Soundness -/

section Soundness

variable {positions : PositionsView} {payload : Payload}

/-- An update that keeps quantities nonnegative keeps the view sound. -/
theorem sound_update {change : PositionState → PositionState} (sound : Sound positions)
    (kept : ∀ pos, 0 ≤ pos.quantity → 0 ≤ (change pos).quantity) :
    Sound (positions.update payload change) := by
  constructor
  · intro symbol
    rw [PositionsView.positionOf_update]
    split
    · exact kept _ (sound.held symbol)
    · exact sound.held symbol
  · rw [PositionsView.positionOf_update,
      if_neg fun both => (symbolOf_eq_some.mp both.1).2 rfl]
    exact sound.unnamed

theorem quantity_fill {pos : PositionState} {side : String} {quantity price : ℚ}
    (held : 0 ≤ pos.quantity) (filled : 0 ≤ quantity) :
    0 ≤ (pos.fill side quantity price).quantity := by
  unfold PositionState.fill
  dsimp only
  split
  · exact add_nonneg held filled
  · split
    · exact sub_nonneg.mpr (min_le_right quantity pos.quantity)
    · exact held

theorem sound_filled (sound : Sound positions) (filled : 0 ≤ payload.quantity.getD 0) :
    Sound (positions.handleFill payload) := by
  constructor
  · intro symbol
    rw [PositionsView.positionOf_handleFill]
    split
    · exact quantity_fill (sound.held symbol) filled
    · exact sound.held symbol
  · rw [openOrdersCount_filled]
    exact sound.unnamed

end Soundness

/-! ## Steps -/

section Steps

variable {session next : Session} {event : ViewEvent}

/-- An event that was seen is skipped. -/
theorem step_skipped (skipped : event.sequence ≤ session.builder.lastSequence) :
    step session event = some session := by
  unfold step ReadModelBuilder.projectEvent
  rw [if_pos skipped, if_pos skipped]

/-- A new event is projected and moves the mark. -/
theorem step_projected (above : session.builder.lastSequence < event.sequence) :
    step session event = some
      { builder := { session.builder.applyEvent event with lastSequence := event.sequence }
        cancelled := cancels event ++ session.cancelled } := by
  unfold step ReadModelBuilder.projectEvent
  rw [if_neg (not_le.mpr above), if_neg (not_le.mpr above)]

/-- Each promised event keeps the positions sound. -/
theorem sound_step (sound : Sound session.builder.positions) (promised : Promised session event)
    (taken : step session event = some next) : Sound next.builder.positions := by
  obtain skipped | above := le_or_gt event.sequence session.builder.lastSequence
  · rw [step_skipped skipped] at taken
    cases taken
    exact sound
  · rw [step_projected above] at taken
    cases taken
    obtain ⟨eventType, payload, sequence⟩ := event
    suffices handled : ∀ handled : PositionsView, Sound handled →
        Sound { handled with eventCount := handled.eventCount + 1 } by
      refine handled _ ?_
      cases eventType with
      | orderPlaced => exact sound_update sound fun _ held => held
      | orderFilled => exact sound_filled sound promised
      | orderCancelled => exact sound_update sound fun _ held => held
      | orderModified => exact sound
      | positionOpened => exact sound_filled sound promised
      | positionClosed => exact sound_update sound fun _ _ => le_refl (0 : ℚ)
      | tickReceived => exact sound_update sound fun _ held => held
      | other => exact sound
    exact fun _ kept => ⟨kept.held, kept.unnamed⟩

/-- One event keeps the views consistent exactly when it is in bounds. -/
theorem consistent_step_iff (sound : Sound session.builder.positions)
    (consistent : Consistent session) (promised : Promised session event)
    (taken : step session event = some next) : Consistent next ↔ InBounds session event := by
  obtain skipped | above := le_or_gt event.sequence session.builder.lastSequence
  · rw [step_skipped skipped] at taken
    cases taken
    exact iff_of_true consistent fun above => absurd skipped (not_le.mpr above)
  · rw [step_projected above] at taken
    cases taken
    obtain ⟨counted, settled, marked⟩ := consistent
    refine Iff.trans ?_ (forall_prop_of_true above).symm
    obtain ⟨eventType, payload, sequence⟩ := event
    cases eventType with
    | orderPlaced =>
      have placed := counted_placed_iff counted fun orderId named => (promised orderId named).1
      refine ⟨fun after => placed.mp after.counted, fun bound => ⟨placed.mpr bound, ?_, ?_⟩⟩
      · exact settled_placed settled fun orderId named => (promised orderId named).2
      · exact marked_update marked fun _ atMark => atMark
    | orderFilled =>
      have filled := @counted_filled_iff _ _ payload counted
      have marks := marked_filled_iff marked sound promised
      refine ⟨fun after => ⟨filled.mp after.counted, marks.mp after.marked⟩, fun bound => ?_⟩
      refine ⟨filled.mpr bound.1, ?_, marks.mpr bound.2⟩
      exact settled_update settled fun order there active =>
        (bound.1 order there).mp (OrderState.active_fill.mp active)
    | orderCancelled =>
      have cancelled := @counted_cancelled_iff _ _ payload counted sound.unnamed
      refine ⟨fun after => cancelled.mp after.counted, fun bound => ⟨cancelled.mpr bound, ?_, ?_⟩⟩
      · exact settled_cancelled settled
      · exact marked_update marked fun _ atMark => atMark
    | orderModified =>
      have modified := @counted_modified _ _ payload counted
      refine iff_of_true ⟨modified, ?_, marked⟩ trivial
      exact settled_update settled fun _ _ active => active
    | positionOpened =>
      have marks := marked_filled_iff marked sound promised
      refine ⟨fun after => marks.mp after.marked, fun bound => ⟨fun symbol => ?_, settled, ?_⟩⟩
      · exact (openOrdersCount_filled payload.toPayload symbol).trans (counted symbol)
      · exact marks.mpr bound
    | positionClosed =>
      have closed : Counted (session.builder.positions.handleClose payload.toPayload) _ :=
        counted_update counted fun _ => rfl
      exact iff_of_true ⟨closed, settled, marked_close marked⟩ trivial
    | tickReceived =>
      have ticked : Counted (session.builder.positions.handleTick payload.toPayload) _ :=
        counted_update counted fun _ => rfl
      exact iff_of_true ⟨ticked, settled, marked_tick marked⟩ trivial
    | other => exact iff_of_true ⟨counted, settled, marked⟩ trivial

theorem consistent_start : Consistent .start where
  counted := fun _ => rfl
  settled := fun _ member => nomatch member
  marked := fun _ => (mul_zero _).symm

/-- Along any regular stream, with events of all types, the views of a new builder agree after every
event precisely as long as every event is in bounds. -/
theorem views_consistent_iff (events : List ViewEvent)
    (promised : Guarded step Promised .start events) :
    Always step Consistent .start events ↔ Guarded step InBounds .start events := by
  refine @always_iff_guarded_of _ _ step (fun session => Sound session.builder.positions)
    Consistent Promised InBounds ?_ ?_ .start ⟨fun _ => le_refl _, rfl⟩ consistent_start events
    promised
  · exact fun _ _ _ sound _ promised _ taken => sound_step sound promised taken
  · exact fun _ _ _ sound consistent promised taken =>
      consistent_step_iff sound consistent promised taken

end Steps

/-- A position is opened, an order for more of it is placed, filled in a part at the last price,
turned into a market order and cancelled, with ticks between. -/
def partlyFilled : List ViewEvent :=
  let event (sequence : Int) (eventType : ViewEventType) (payload : Payload)
    (orderId : Option String) (nullPrice : Bool) : ViewEvent :=
    ⟨eventType, ⟨payload, orderId, nullPrice⟩, sequence⟩
  [event 1 .positionOpened ⟨some "BTC/USDT", some "buy", some 1, some 45000⟩ none false,
    event 2 .orderPlaced ⟨some "BTC/USDT", some "buy", some 2, some 46000⟩ (some "ord_001") false,
    event 3 .tickReceived ⟨some "BTC/USDT", none, none, some 46000⟩ none false,
    event 4 .orderFilled ⟨some "BTC/USDT", some "buy", some 1, some 46000⟩ (some "ord_001") false,
    event 5 .orderModified ⟨none, none, some 3, none⟩ (some "ord_001") true,
    event 6 .orderCancelled ⟨some "BTC/USDT", none, none, none⟩ (some "ord_001") false,
    event 7 .tickReceived ⟨some "BTC/USDT", none, none, some 47000⟩ none false]

/-- The views agree along that stream. -/
theorem partlyFilled_consistent : Always step Consistent .start partlyFilled :=
  (views_consistent_iff partlyFilled (by decide +kernel)).mpr (by decide +kernel)

/-- A new builder gets the first order of a symbol. -/
def firstOrder : List ViewEvent :=
  [⟨.orderPlaced, ⟨⟨some "BTC/USDT", some "buy", some (1 / 2), some 45000⟩, some "ord_001", false⟩,
    1⟩]

/-- The first order of a symbol is active, and not counted: the positions view has no position of
the symbol. -/
theorem first_order_uncounted :
    Guarded step Promised .start firstOrder ∧ ¬ Always step Consistent .start firstOrder := by
  refine ⟨by decide +kernel, fun always => ?_⟩
  have counted := (always.2 _ rfl).counted "BTC/USDT"
  revert counted
  decide +kernel

end ViewConsistency

end TradingBot.Cqrs
