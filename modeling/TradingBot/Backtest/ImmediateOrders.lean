import TradingBot.Backtest.FloatEngine

/-!
# Orders that are not to wait

A fill-or-kill order is to be filled whole or not at all, and an immediate-or-cancel order is to be
closed when the call returns. The loop takes what is offered within the limit, level by level, so
both come down to what the rounded subtractions leave of the quantity: offers that make up the
quantity exactly may still leave a remainder.
-/

open OrderedMap

namespace TradingBot.FloatEngine

/-! ## What is offered and what is left -/

/-- The quantities of the levels within the limit of an order, as they are matched. -/
def offers (order : Order Float) (levels : Levels) : List Float :=
  ((levels.entriesFrom order.side.bestEnd).takeWhile fun entry =>
    ¬beyondLimit order entry.1.float).map fun entry => entry.2.quantity

/-- What is left of a quantity when offers are taken as long as something is left. -/
def leftOf : Float → List Float → Float
  | quantity, [] => quantity
  | quantity, offer :: rest =>
    if 0 < quantity then leftOf (quantity - Binary64.min quantity offer) rest else quantity

/-- What is left of a quantity when trades are taken from it one after another. -/
def leftAfter (quantity : Float) (trades : List (Trade Float)) : Float :=
  trades.foldl (fun left trade => left - trade.quantity) quantity

/-- A status that is not open. -/
def Terminal (status : OrderStatus) : Prop := status ≠ .new ∧ status ≠ .partiallyFilled

variable {engine : FloatEngine} {order : Order Float} {levels : Levels}

/-- Nothing is taken for a quantity that is not positive. -/
theorem leftOf_of_not_pos {quantity : Float} (closed : ¬0 < quantity) (offers : List Float) :
    leftOf quantity offers = quantity := by
  cases offers with
  | nil => rfl
  | cons offer rest => exact if_neg closed

/-- A fill keeps what the offers depend on. -/
theorem offers_fill (order : Order Float) (quantity : Float) (levels : Levels) :
    offers (fill order quantity) levels = offers order levels := by
  obtain ⟨_, _, filled⟩ := fill_eq order quantity
  rw [filled]
  rfl

/-- Without a level, or with the best one beyond the limit, nothing is offered. -/
theorem offers_none (quiet : ∀ best ∈ levels.edge order.side.bestEnd,
    beyondLimit order best.1.float) : offers order levels = [] := by
  rw [← head?_entriesFrom] at quiet
  unfold offers
  cases parts : levels.entriesFrom order.side.bestEnd with
  | nil => rfl
  | cons best rest =>
    rw [parts] at quiet
    rw [List.takeWhile_cons_of_neg (by simpa using quiet best rfl)]
    rfl

/-- The best level within the limit is offered first. -/
theorem offers_best {best : Binary64.Key × PriceLevel Float}
    (found : levels.edge order.side.bestEnd = some best)
    (within : ¬beyondLimit order best.1.float) :
    offers order levels = best.2.quantity :: offers order (levels.erase best.1) := by
  unfold offers
  rw [entriesFrom_edge found, List.takeWhile_cons_of_pos (by simpa using within)]
  rfl

/-! ## The loop -/

/-- A fill after which nothing is left marks the order. -/
theorem fill_filled {quantity : Float} (done : (fill order quantity).remainingQuantity ≤ 0) :
    (fill order quantity).status = .filled := by
  obtain ⟨_, _, filled⟩ := fill_eq order quantity
  rw [filled] at done
  unfold fill
  dsimp only
  rw [if_pos done]

/-- A fill after which something is left keeps an order open. -/
theorem fill_open {quantity : Float} (open_ : ¬Terminal order.status)
    (left : ¬(fill order quantity).remainingQuantity ≤ 0) :
    ¬Terminal (fill order quantity).status := by
  obtain ⟨_, _, filled⟩ := fill_eq order quantity
  rw [filled] at left
  unfold fill
  dsimp only
  rw [if_neg left]
  split
  · exact fun terminal => terminal.2 rfl
  · exact open_

/-- What the loop of `match_order` leaves. -/
structure Matching (engine : FloatEngine) (order : Order Float) (trades : List (Trade Float))
    (matched : Order Float) (after : FloatEngine) : Prop where
  /-- The offers leave the rest. -/
  left : matched.remainingQuantity =
    leftOf order.remainingQuantity (offers order (engine.levels order.side.opposite))
  /-- So do the trades. -/
  accounted : matched.remainingQuantity = leftAfter order.remainingQuantity trades
  /-- There is a trade if something is wanted and offered. -/
  untraded : trades = [] ↔
    ¬0 < order.remainingQuantity ∨ offers order (engine.levels order.side.opposite) = []
  /-- Without a trade nothing changes. -/
  unchanged : trades = [] → matched = order ∧ after = engine
  /-- An order of which nothing is left is marked. -/
  filled : trades ≠ [] → matched.remainingQuantity ≤ 0 → matched.status = .filled
  /-- An order of which something is left stays open. -/
  stillOpen : ¬Terminal order.status → ¬matched.remainingQuantity ≤ 0 → ¬Terminal matched.status
  /-- The order is the same otherwise. -/
  same : ∃ filledQuantity remainingQuantity status, matched = { order with
    filledQuantity := filledQuantity
    remainingQuantity := remainingQuantity
    status := status }
  /-- Its own side is untouched. -/
  own : after.levels order.side = engine.levels order.side

/-- A loop that does not begin leaves all as it is. -/
theorem matching_none (quiet : ¬0 < order.remainingQuantity ∨
    offers order (engine.levels order.side.opposite) = []) :
    Matching engine order [] order engine where
  left := by
    cases quiet with
    | inl closed => exact (leftOf_of_not_pos closed _).symm
    | inr nothing => rw [nothing, leftOf]
  accounted := rfl
  untraded := iff_of_true rfl quiet
  unchanged := fun _ => ⟨rfl, rfl⟩
  filled := fun traded => absurd rfl traded
  stillOpen := fun open_ _ => open_
  same := ⟨_, _, _, rfl⟩
  own := rfl

/-- A round and what the loop leaves after it are what the loop leaves. -/
theorem matching_round {price : Binary64.Key} {level : PriceLevel Float}
    {trades : List (Trade Float)} {matched : Order Float} {after : FloatEngine}
    (opened : 0 < order.remainingQuantity)
    (best : (engine.levels order.side.opposite).edge order.side.bestEnd = some (price, level))
    (within : ¬beyondLimit order price.float)
    (later : Matching
      ((engine.executeFill order price.float
        (Binary64.min order.remainingQuantity level.quantity) false).2.setLevels
          order.side.opposite (consume (engine.levels order.side.opposite) price level
            (Binary64.min order.remainingQuantity level.quantity)))
      (fill order (Binary64.min order.remainingQuantity level.quantity)) trades matched after) :
    Matching engine order ((engine.executeFill order price.float
      (Binary64.min order.remainingQuantity level.quantity) false).1 :: trades) matched after := by
  obtain ⟨_, _, filled⟩ :=
    fill_eq order (Binary64.min order.remainingQuantity level.quantity)
  have number := (Binary64.isNaN_of_lt opened).2
  have side : (fill order (Binary64.min order.remainingQuantity level.quantity)).side =
      order.side := by rw [filled]
  have rest : (fill order (Binary64.min order.remainingQuantity level.quantity)).remainingQuantity =
      order.remainingQuantity - Binary64.min order.remainingQuantity level.quantity := by
    rw [filled, Binary64.min_left_min number]
  have offered := offers_best best within
  have left := later.left
  rw [side, levels_setLevels, offers_fill] at left
  constructor
  · rw [left, offered, leftOf, if_pos opened, rest]
    by_cases emptied :
        level.quantity ≤ Binary64.min order.remainingQuantity level.quantity
    · unfold consume
      rw [if_pos emptied]
    · have closed := fill_partial opened emptied
      rw [rest] at closed
      rw [leftOf_of_not_pos closed, leftOf_of_not_pos closed]
  · rw [later.accounted, rest]
    rfl
  · rw [offered]
    exact iff_of_false nofun (not_or.mpr ⟨not_not_intro opened, nofun⟩)
  · nofun
  · intro _ done
    by_cases none_ : trades = []
    · obtain ⟨same, -⟩ := later.unchanged none_
      rw [same] at done ⊢
      exact fill_filled done
    · exact later.filled none_ done
  · intro open_ undone
    by_cases ended :
        (fill order (Binary64.min order.remainingQuantity level.quantity)).remainingQuantity ≤ 0
    · have quiet := later.untraded.mpr (.inl (Binary64.not_lt_of_le ended))
      rw [(later.unchanged quiet).1] at undone
      exact absurd ended undone
    · exact later.stillOpen (fill_open open_ ended) undone
  · obtain ⟨filledQuantity, remainingQuantity, status, same⟩ := later.same
    refine ⟨filledQuantity, remainingQuantity, status, ?_⟩
    rw [same, filled]
  · have own := later.own
    rw [side] at own
    rw [own]
    cases order.side <;> rfl

/-- What the loop leaves of any order on any book. -/
theorem matchOrder_matching (engine : FloatEngine) (order : Order Float) :
    Matching engine order (engine.matchOrder order).1 (engine.matchOrder order).2.1
      (engine.matchOrder order).2.2 := by
  fun_induction FloatEngine.matchOrder engine order with
  | case1 engine order opened none_ =>
    exact matching_none (.inr (offers_none fun best found => by rw [none_] at found; cases found))
  | case2 engine order opened price level best limit =>
    refine matching_none (.inr (offers_none fun other found => ?_))
    rw [best] at found
    cases found
    exact limit
  | case3 engine order opened price level best limit fillQty executed later ih =>
    exact matching_round opened best limit ih
  | case4 engine order closed => exact matching_none (.inl closed)

/-! ## What is settled -/

/-- The status of an order that traded in part is the only thing that is marked. -/
theorem markPartial_eq (order : Order Float) :
    ∃ status, markPartial order = { order with status := status } := by
  unfold markPartial
  split
  · exact ⟨_, rfl⟩
  · exact ⟨_, rfl⟩

/-- An open order stays open when it is marked. -/
theorem markPartial_open (open_ : ¬Terminal order.status) :
    ¬Terminal (markPartial order).status := by
  unfold markPartial
  split
  · exact fun terminal => terminal.2 rfl
  · exact open_

/-- An order of which nothing positive is left is settled as it is. -/
theorem settle_closed (closed : ¬0 < order.remainingQuantity) :
    engine.settle order = (order, engine) := by
  have marked : markPartial order = order := if_neg fun partial_ => closed partial_.2
  unfold settle
  rw [marked]
  exact if_neg fun left => closed left.1

/-- What is left of a fill-or-kill order is cancelled. -/
theorem settle_fok (left : 0 < order.remainingQuantity) (limit : order.orderType = .limit)
    (fok : order.timeInForce = .fok) :
    engine.settle order = ({ markPartial order with status := .cancelled }, engine) := by
  obtain ⟨status, marked⟩ := markPartial_eq order
  unfold settle
  rw [marked]
  simp only [left, limit, fok, and_self, if_true]

/-- What is left of an immediate-or-cancel order is only marked. -/
theorem settle_ioc (left : 0 < order.remainingQuantity) (limit : order.orderType = .limit)
    (ioc : order.timeInForce = .ioc) :
    engine.settle order = (markPartial order, engine) := by
  obtain ⟨status, marked⟩ := markPartial_eq order
  unfold settle
  rw [marked]
  simp only [left, limit, ioc, and_self, if_true, reduceCtorEq, and_false, if_false]

/-! ## Time in force -/

/-- The quantity a request is accepted with. -/
def ordered (engine : FloatEngine) (request : OrderRequest Float) : Float :=
  normalizeQuantity engine.symbolRules request.quantity

/-- The order is filled, and its whole quantity was traded: nothing is left, and that is what the
trades leave of the quantity. -/
structure Completed (quantity : Float) (order : Order Float) (trades : List (Trade Float)) :
    Prop where
  status : order.status = .filled
  left : order.remainingQuantity ≤ 0
  whole : order.remainingQuantity = leftAfter quantity trades

/-- The order is cancelled, nothing was traded, and book, trades, price and the number of the next
trade are as before. -/
structure Killed (engine : FloatEngine) (order : Order Float) (trades : List (Trade Float))
    (after : FloatEngine) : Prop where
  status : order.status = .cancelled
  untraded : trades = []
  bids : after.bids = engine.bids
  asks : after.asks = engine.asks
  trades : after.trades = engine.trades
  currentPrice : after.currentPrice = engine.currentPrice
  tradeIdCounter : after.tradeIdCounter = engine.tradeIdCounter

/-- The order leaves nothing in the book, and what is not filled of it is closed: cancelling it
later changes no level. -/
structure ClosedAtOnce (engine : FloatEngine) (order : Order Float) (after : FloatEngine) :
    Prop where
  /-- Its own side is as before. -/
  own : after.levels order.side = engine.levels order.side
  /-- An order that is not filled is closed. -/
  closed : ¬order.remainingQuantity ≤ 0 → Terminal order.status ∧
    ∀ side, (after.cancelOrder order.orderId).2.levels side = after.levels side

/-- A limit order that is accepted is handled as its time in force says. -/
def InForce (engine : FloatEngine) (request : OrderRequest Float) : Prop :=
  ∀ order trades, (engine.submit request).1 = .ok (order, trades) → request.orderType = .limit →
    (request.timeInForce = .fok → Completed (ordered engine request) order trades ∨
      Killed engine order trades (engine.submit request).2) ∧
    (request.timeInForce = .ioc → ClosedAtOnce engine order (engine.submit request).2)

/-- The offers within the limit of an accepted order leave nothing of its quantity; or there are
none, where the order is fill-or-kill. Its quantity is a positive number then. -/
def Suits (engine : FloatEngine) (request : OrderRequest Float) : Prop :=
  ∀ order, engine.accept request = .ok order → request.orderType = .limit →
    (request.timeInForce = .fok → 0 < ordered engine request ∧
      (offers order (engine.levels request.side.opposite) = [] ∨
        leftOf (ordered engine request) (offers order (engine.levels request.side.opposite)) ≤
          0)) ∧
    (request.timeInForce = .ioc →
      leftOf (ordered engine request) (offers order (engine.levels request.side.opposite)) ≤ 0)

section Accepted

variable {request : OrderRequest Float} {trades : List (Trade Float)} {matched : Order Float}
  {after : FloatEngine}

/-- An accepted order is a new one with what was requested. -/
theorem accept_ok (accepted : engine.accept request = .ok order) :
    order = newOrder engine.orderIdCounter request.symbol request.side request.orderType
      (normalizePrice engine.symbolRules request.price) (ordered engine request)
      request.timeInForce := by
  unfold FloatEngine.accept at accepted
  dsimp only at accepted
  split at accepted
  · cases accepted
  · exact (Except.ok.inj accepted).symm

/-- A refused request is answered with its error. -/
theorem submit_error {error : MatchingError Float}
    (refused : engine.accept request = .error error) :
    engine.submit request = (.error error, engine) := by
  unfold FloatEngine.submit
  rw [refused]

/-- An accepted order is matched and settled. -/
theorem submit_ok (accepted : engine.accept request = .ok order)
    (loop : engine.drawOrderId.matchOrder order = (trades, matched, after)) :
    engine.submit request = (.ok ((after.settle matched).1, trades),
      (after.settle matched).2.record order.orderId (after.settle matched).1) := by
  unfold FloatEngine.submit
  rw [accepted]
  dsimp only
  rw [loop]

/-- The kind of an order is that of its request, and it is what the loop leaves of it. -/
theorem matched_kind (loop : Matching engine order trades matched after) :
    matched.orderType = order.orderType ∧ matched.timeInForce = order.timeInForce ∧
      matched.side = order.side := by
  obtain ⟨_, _, _, same⟩ := loop.same
  rw [same]
  exact ⟨rfl, rfl, rfl⟩

/-- A number that is drawn changes no level. -/
theorem levels_drawOrderId (engine : FloatEngine) (side : Side) :
    engine.drawOrderId.levels side = engine.levels side := by
  cases side <;> rfl

/-- A new fill-or-kill order is completed or killed exactly if its quantity is positive and the
offers are none or leave nothing of it. -/
theorem fok_iff (new : order.status = .new) (limit : order.orderType = .limit)
    (fok : order.timeInForce = .fok)
    (loop : Matching engine.drawOrderId order trades matched after) :
    Completed order.remainingQuantity (after.settle matched).1 trades ∨
      Killed engine (after.settle matched).1 trades
        ((after.settle matched).2.record order.orderId (after.settle matched).1) ↔
    0 < order.remainingQuantity ∧ (offers order (engine.levels order.side.opposite) = [] ∨
      leftOf order.remainingQuantity (offers order (engine.levels order.side.opposite)) ≤ 0) := by
  have kind := matched_kind loop
  have left := loop.left
  have untraded := loop.untraded
  rw [levels_drawOrderId] at left untraded
  rw [← left]
  by_cases opened : 0 < order.remainingQuantity
  · rw [and_iff_right opened]
    by_cases nothing : offers order (engine.levels order.side.opposite) = []
    · -- Nothing is offered: the order is killed.
      have quiet := untraded.mpr (.inr nothing)
      obtain ⟨same, unchanged⟩ := loop.unchanged quiet
      rw [same, unchanged, settle_fok opened limit fok]
      exact iff_of_true (.inr ⟨rfl, quiet, rfl, rfl, rfl, rfl, rfl⟩) (.inl nothing)
    · have traded : trades ≠ [] := fun quiet =>
        (untraded.mp quiet).elim (absurd opened) nothing
      rw [or_iff_right nothing]
      by_cases done : matched.remainingQuantity ≤ 0
      · rw [settle_closed (Binary64.not_lt_of_le done)]
        exact iff_of_true (.inl ⟨loop.filled traded done, done, loop.accounted⟩) done
      · -- Something is left, whether it is settled as cancelled or is NaN.
        have rest : (after.settle matched).1.remainingQuantity = matched.remainingQuantity := by
          by_cases some_ : 0 < matched.remainingQuantity
          · obtain ⟨status, marked⟩ := markPartial_eq matched
            rw [settle_fok some_ (kind.1.trans limit) (kind.2.1.trans fok), marked]
          · rw [settle_closed some_]
        refine iff_of_false (fun handled => ?_) done
        cases handled with
        | inl completed => exact done (rest ▸ completed.left)
        | inr killed => exact traded killed.untraded
  · -- A quantity that is not positive is not matched, and the order stays new.
    have quiet := untraded.mpr (.inl opened)
    obtain ⟨same, unchanged⟩ := loop.unchanged quiet
    rw [same, unchanged, settle_closed opened]
    refine iff_of_false (fun handled => ?_) fun suits => opened suits.1
    cases handled with
    | inl completed => cases new.symm.trans completed.status
    | inr killed => cases new.symm.trans killed.status

/-- A new immediate-or-cancel order is closed at once exactly if the offers leave nothing of it. -/
theorem ioc_iff (new : order.status = .new) (limit : order.orderType = .limit)
    (ioc : order.timeInForce = .ioc)
    (loop : Matching engine.drawOrderId order trades matched after) :
    ClosedAtOnce engine (after.settle matched).1
        ((after.settle matched).2.record order.orderId (after.settle matched).1) ↔
      leftOf order.remainingQuantity (offers order (engine.levels order.side.opposite)) ≤ 0 := by
  have kind := matched_kind loop
  have left := loop.left
  have own := loop.own
  rw [levels_drawOrderId] at left own
  rw [← left]
  by_cases done : matched.remainingQuantity ≤ 0
  · rw [settle_closed (Binary64.not_lt_of_le done)]
    refine iff_of_true ⟨?_, fun undone => absurd done undone⟩ done
    rw [kind.2.2, ← own]
    cases order.side <;> rfl
  · have open_ := loop.stillOpen (by rw [new]; exact fun terminal => terminal.1 rfl) done
    refine iff_of_false (fun closed => ?_) done
    by_cases some_ : 0 < matched.remainingQuantity
    · obtain ⟨status, marked⟩ := markPartial_eq matched
      rw [settle_ioc some_ (kind.1.trans limit) (kind.2.1.trans ioc)] at closed
      exact markPartial_open open_ (closed.closed (by rw [marked]; exact done)).1
    · rw [settle_closed some_] at closed
      exact open_ (closed.closed done).1

end Accepted

/-- In every state of the engine, an order is handled as its time in force says exactly if the book
suits it. -/
theorem inForce_iff (engine : FloatEngine) (request : OrderRequest Float) :
    InForce engine request ↔ Suits engine request := by
  unfold InForce Suits
  cases accepted : engine.accept request with
  | error error =>
    rw [submit_error accepted]
    exact iff_of_true (fun _ _ returned => by cases returned) fun _ taken => by cases taken
  | ok order =>
    have loop := matchOrder_matching engine.drawOrderId order
    rw [submit_ok accepted rfl]
    have made := accept_ok accepted
    have side : order.side = request.side := by rw [made]; rfl
    have new : order.status = .new := by rw [made]; rfl
    have whole : order.remainingQuantity = ordered engine request := by rw [made]; rfl
    have fok : request.orderType = .limit → request.timeInForce = .fok → _ :=
      fun limit force => fok_iff new (by rw [made]; exact limit) (by rw [made]; exact force) loop
    have ioc : request.orderType = .limit → request.timeInForce = .ioc → _ :=
      fun limit force => ioc_iff new (by rw [made]; exact limit) (by rw [made]; exact force) loop
    rw [side, whole] at fok ioc
    constructor
    · intro handled other same limit
      cases same
      have both := handled _ _ rfl limit
      exact ⟨fun force => (fok limit force).mp (both.1 force),
        fun force => (ioc limit force).mp (both.2 force)⟩
    · intro suits other others returned limit
      cases returned
      have both := suits order rfl limit
      exact ⟨fun force => (fok limit force).mpr (both.1 force),
        fun force => (ioc limit force).mpr (both.2 force)⟩

/-- A new engine on which quantities of bitcoin are offered at 50100, 50101 and so on. -/
def offering (quantities : List Float) : FloatEngine :=
  (quantities.foldl (fun (engine, price) quantity =>
    ((engine.submitOrder ⟨"BTCUSDT", .sell, .limit, price, quantity, .gtc⟩).2, price + 1))
    (new "BTCUSDT" 50000, 50100)).1

/-- A limit order that all of these offers are good enough for. -/
def wanted (quantity : Float) (timeInForce : TimeInForce) : OrderRequest Float :=
  ⟨"BTCUSDT", .buy, .limit, 50200, quantity, timeInForce⟩

/-- An order that traded, with something left and a status that is not filled, was neither completed
nor killed. -/
theorem not_inForce_of_fok {request : OrderRequest Float} {count : Nat}
    (limit : request.orderType = .limit) (fok : request.timeInForce = .fok)
    (shown : (engine.submit request).1.toOption.map
      (fun result => (result.1.status, result.2.length)) = some (.cancelled, count + 1)) :
    ¬InForce engine request := by
  intro handled
  cases returned : (engine.submit request).1 with
  | error error =>
    rw [returned] at shown
    cases shown
  | ok result =>
    rw [returned] at shown
    obtain ⟨status, traded⟩ := Prod.mk.inj (Option.some.inj shown)
    cases (handled result.1 result.2 returned limit).1 fok with
    | inl completed => cases completed.status.symm.trans status
    | inr killed =>
      rw [killed.untraded] at traded
      cases traded

/-- Half of a coin and then no more is offered: the fill-or-kill order for a whole one is cancelled
after a trade, and the immediate-or-cancel order stays partially filled. Offers of 0.1, 0.1 and 0.2
do not fill an order for 0.4 either, of which the subtractions leave a remainder. -/
theorem inForce_fails : ¬InForce (offering [0.5]) (wanted 1 .fok) ∧
    ¬InForce (offering [0.5]) (wanted 1 .ioc) ∧
    ¬InForce (offering [0.1, 0.1, 0.2]) (wanted 0.4 .fok) := by
  refine ⟨@not_inForce_of_fok _ _ 0 rfl rfl (by decide +kernel), fun handled => ?_,
    @not_inForce_of_fok _ _ 2 rfl rfl (by decide +kernel)⟩
  have shown : ((offering [0.5]).submit (wanted 1 .ioc)).1.toOption.map
      (fun result => (result.1.status, decide (result.1.remainingQuantity ≤ 0))) =
        some (.partiallyFilled, false) := by
    decide +kernel
  cases returned : ((offering [0.5]).submit (wanted 1 .ioc)).1 with
  | error error =>
    rw [returned] at shown
    cases shown
  | ok result =>
    rw [returned] at shown
    obtain ⟨status, left⟩ := Prod.mk.inj (Option.some.inj shown)
    have closed := ((handled result.1 result.2 returned rfl).2 rfl).closed
    exact (closed (of_decide_eq_false left)).1.2 status

end TradingBot.FloatEngine
