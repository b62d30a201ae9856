import Mathlib.Algebra.Order.BigOperators.Group.List
import TradingBot.Foundation.FifoQueue
import TradingBot.Foundation.Run
import TradingBot.Simulation.MatchingEngine

/-!
# Levels, queues and orders

A level is to hold what is left of the orders in its queue, and an order that rested is to report
what was executed of it, first in, first out. A match breaks this, as it takes from the level
alone; so does a cancellation that leaves others in the queue, and an order that may not rest but
does. The three agree along exactly those runs that do none of these.
-/

open OrderedMap Run

namespace TradingBot.Simulation

open TradingBot.Simulation.MatchingEngine

/-- What price-time priority makes of the orders: the queue with what is left of each resting
order at every side and price, and the quantity each order is to report as filled. -/
structure Ledger where
  queues : Side → ℚ → List (Nat × ℚ)
  expected : Nat → ℚ

namespace Ledger

/-- The ledger without orders. -/
def new : Ledger where
  queues := fun _ _ => []
  expected := fun _ => 0

/-- A ledger with another queue at a side and price. -/
def setQueue (ledger : Ledger) (side : Side) (price : ℚ) (queue : List (Nat × ℚ)) : Ledger :=
  { ledger with
    queues := fun other at_ =>
      if other = side ∧ at_ = price then queue else ledger.queues other at_ }

/-- A ledger after a fill is executed against the queue it hit. -/
def execute (ledger : Ledger) (fill : Fill) : Ledger :=
  let queue := ledger.queues fill.side.opposite fill.price
  { ledger.setQueue fill.side.opposite fill.price (FifoQueue.execute queue fill.quantity) with
    expected := fun id => ledger.expected id + FifoQueue.share queue fill.quantity id }

/-- A ledger with an order that was submitted, which waits in its queue if it rests. -/
def place (ledger : Ledger) (order : Order) : Ledger :=
  let placed :=
    if rests order then
      ledger.setQueue order.side order.price
        (ledger.queues order.side order.price ++ [(order.orderId, order.remainingQuantity)])
    else ledger
  { placed with expected := Function.update ledger.expected order.orderId order.filledQuantity }

/-- A ledger without a cancelled order. -/
def withdraw (ledger : Ledger) (orderId : Nat) (order : Order) : Ledger :=
  ledger.setQueue order.side order.price
    ((ledger.queues order.side order.price).filter fun entry => entry.1 ≠ orderId)

end Ledger

/-- One call on an engine. -/
inductive SimCall where
  | submit (order : Order) (timestampNs : Nat)
  | cancel (orderId : Nat)

/-- An engine with the ledger of its calls. -/
structure Session where
  engine : MatchingEngine
  ledger : Ledger

/-- The ledger after a submission: the fills it added are executed, and the order is placed if the
engine keeps it. -/
def Session.submitted (session : Session) (orderId : Nat) (after : MatchingEngine) : Ledger :=
  let executed :=
    (after.fills.drop session.engine.fills.length).foldl Ledger.execute session.ledger
  match session.engine.orders.lookup orderId, after.orders.lookup orderId with
  | none, some order => executed.place order
  | _, _ => executed

/-- The ledger after a cancellation. -/
def Session.cancelled (session : Session) (orderId : Nat) : Ledger :=
  match (session.engine.cancelOrder orderId).1, session.engine.orders.lookup orderId with
  | .ok (), some order => session.ledger.withdraw orderId order
  | _, _ => session.ledger

/-- A session after a call. -/
def step (session : Session) : SimCall → Option Session
  | .submit order timestampNs =>
    (session.engine.submitOrder order timestampNs).map fun answer =>
      { engine := answer.2, ledger := session.submitted order.orderId answer.2 }
  | .cancel orderId =>
    some {
      engine := (session.engine.cancelOrder orderId).2
      ledger := session.cancelled orderId }

/-- A session of a new engine. -/
def Session.start : Session where
  engine := .new
  ledger := .new

/-- What is left of the order with an identifier. -/
def remainingOf (orders : OrderedMap Nat Order) (id : Nat) : ℚ :=
  ((orders.lookup id).map Order.remainingQuantity).getD 0

/-- An order of a kind that may wait in the book. -/
def Order.MayRest (order : Order) : Prop :=
  order.orderType ≠ .market ∧ order.timeInForce ≠ .ioc ∧ order.timeInForce ≠ .fok

instance (order : Order) : Decidable order.MayRest := inferInstanceAs (Decidable (_ ∧ _ ∧ _))

/-- A level holds what is left of the orders in its queue, and their number; they are live and of
a kind that may wait. -/
structure LevelAgrees (orders : OrderedMap Nat Order) (level : PriceLevel) : Prop where
  total : level.totalQuantity = (level.orders.map (remainingOf orders)).sum
  count : level.orderCount = level.orders.length
  live : ∀ id ∈ level.orders, ∃ order, orders.lookup id = some order ∧
    order.status ≠ .filled ∧ order.status ≠ .cancelled
  kind : ∀ id ∈ level.orders, ∀ order, orders.lookup id = some order → order.MayRest

/-- Every level agrees with its queue, and every order reports what was filled of it. -/
structure Agrees (session : Session) : Prop where
  levels : ∀ side price level, (session.engine.levels side).lookup price = some level →
    LevelAgrees session.engine.orders level
  filled : ∀ id order, session.engine.orders.lookup id = some order →
    order.filledQuantity = session.ledger.expected id

/-- Whether an order is matched: a valid limit or market order that is not one of a group. -/
def matched (order : Order) : Bool :=
  !order.isOco && (validateOrder order).isOk &&
    (order.orderType = .limit || order.orderType = .market)

/-- Whether a submission gets as far as the matching. -/
def processed (engine : MatchingEngine) (order : Order) (timestampNs : Nat) : Bool :=
  match engine.checkRateLimit timestampNs with
  | some (.ok (), _) => matched order
  | _ => false

/-- Whether an order finds something to trade with. -/
def Trades (engine : MatchingEngine) (order : Order) : Prop :=
  dust < order.remainingQuantity ∧
    ∃ best ∈ (engine.levels order.side.opposite).edge order.side.bestEnd,
      order.orderType = .limit → crosses order best.1 = true

/-- A submission keeps the agreement: it does not get to the matching, or it finds nothing to
trade with and does not rest, or may, or is a market order to be killed. A cancellation does if it
is refused, or if it leaves no level at the price of its order, or nothing is left of the order and
it is not in the queue. -/
def Harmless (session : Session) : SimCall → Prop
  | .submit order timestampNs => processed session.engine order timestampNs = true →
    ¬Trades session.engine order ∧ (rests order = true →
      order.MayRest ∨ order.orderType = .market ∧ order.timeInForce = .fok)
  | .cancel orderId => ∀ order ∈ session.engine.orders.lookup orderId,
    order.status = .filled ∨ order.status = .cancelled ∨
      ∀ level ∈ (session.engine.levels order.side).lookup order.price,
        level.totalQuantity - order.remainingQuantity < dust ∨
          orderId ∉ level.orders ∧ order.remainingQuantity = 0

/-- A submitted order has an identifier that is not taken. -/
def Fresh (session : Session) : SimCall → Prop
  | .submit order _ => session.engine.orders.lookup order.orderId = none
  | .cancel _ => True

instance (engine : MatchingEngine) (order : Order) : Decidable (Trades engine order) :=
  inferInstanceAs (Decidable (_ ∧ ∃ best ∈ _, _ → _))

instance (session : Session) : DecidablePred (Harmless session)
  | .submit .. => inferInstanceAs (Decidable (_ → _ ∧ (_ → _ ∨ _ ∧ _)))
  | .cancel _ => inferInstanceAs (Decidable (∀ order ∈ _, _ ∨ _ ∨ ∀ level ∈ _, _ ∨ _ ∧ _))

instance (session : Session) : DecidablePred (Fresh session)
  | .submit .. => inferInstanceAs (Decidable (_ = _))
  | .cancel _ => inferInstanceAs (Decidable True)

/-! ## The ledger -/

namespace Ledger

/-- Something is left of every order in the queues. -/
def Left (ledger : Ledger) : Prop :=
  ∀ side price, ∀ entry ∈ ledger.queues side price, 0 < entry.2

variable {ledger : Ledger} {fill : Fill} {fills : List Fill}

theorem left_execute (left : ledger.Left) (fill : Fill) : (ledger.execute fill).Left := by
  intro side price entry member
  have member : entry ∈ if side = fill.side.opposite ∧ price = fill.price then
      FifoQueue.execute (ledger.queues fill.side.opposite fill.price) fill.quantity
    else ledger.queues side price := member
  split at member
  · exact FifoQueue.execute_pos (left _ _) _ entry member
  · exact left side price entry member

theorem le_execute (left : ledger.Left) (positive : 0 < fill.quantity) (id : Nat) :
    ledger.expected id ≤ (ledger.execute fill).expected id :=
  le_add_of_nonneg_right (FifoQueue.share_nonneg (left _ _) (le_of_lt positive) id)

theorem le_executes (left : ledger.Left) (positive : ∀ fill ∈ fills, 0 < fill.quantity)
    (id : Nat) : ledger.expected id ≤ (fills.foldl execute ledger).expected id := by
  induction fills generalizing ledger with
  | nil => exact le_refl _
  | cons fill rest ih =>
    obtain ⟨first, later⟩ := List.forall_mem_cons.mp positive
    exact le_trans (le_execute left first id) (ih (left_execute left fill) later)

theorem lt_executes (left : ledger.Left) (positive : ∀ fill_ ∈ fill :: fills, 0 < fill_.quantity)
    {front : Nat × ℚ} {rest : List (Nat × ℚ)}
    (queue : ledger.queues fill.side.opposite fill.price = front :: rest) :
    ledger.expected front.1 < ((fill :: fills).foldl execute ledger).expected front.1 := by
  obtain ⟨first, later⟩ := List.forall_mem_cons.mp positive
  have shared : 0 < FifoQueue.share (ledger.queues fill.side.opposite fill.price) fill.quantity
      front.1 := by
    have some_ := left fill.side.opposite fill.price
    rw [queue] at some_ ⊢
    exact FifoQueue.share_front_pos some_ first
  exact lt_of_lt_of_le (lt_add_of_pos_right _ shared)
    (le_executes (left_execute left fill) later front.1)

theorem expected_place (ledger : Ledger) (order : Order) (id : Nat) :
    (ledger.place order).expected id =
      if id = order.orderId then order.filledQuantity else ledger.expected id := by
  show Function.update ledger.expected order.orderId order.filledQuantity id = _
  rw [Function.update_apply]

theorem mem_place {ledger : Ledger} {order : Order} {side : Side} {price : ℚ} {entry : Nat × ℚ} :
    entry ∈ (ledger.place order).queues side price ↔
      entry ∈ ledger.queues side price ∨ (rests order = true ∧ side = order.side ∧
        price = order.price) ∧ entry = (order.orderId, order.remainingQuantity) := by
  unfold place
  dsimp only
  cases rests order with
  | false => simp
  | true =>
    rw [if_pos rfl]
    show entry ∈ (if side = order.side ∧ price = order.price then _ else _) ↔ _
    by_cases here : side = order.side ∧ price = order.price
    · obtain ⟨rfl, rfl⟩ := here
      simp
    · rw [if_neg here]
      exact (or_iff_left fun all => here all.1.2).symm

end Ledger

/-! ## The matching -/

section Matching

variable {canMatch : Order → ℚ → Bool} {engine : MatchingEngine} {order : Order}
  {timestampNs : Nat}

theorem sweep_frame (canMatch : Order → ℚ → Bool) (engine : MatchingEngine) (order : Order)
    (timestampNs : Nat) :
    (engine.sweep canMatch order timestampNs).2.2.orders = engine.orders ∧
      (engine.sweep canMatch order timestampNs).2.2.fills =
        engine.fills ++ (engine.sweep canMatch order timestampNs).1 ∧
      (engine.sweep canMatch order timestampNs).2.1.orderId = order.orderId := by
  fun_induction MatchingEngine.sweep canMatch engine order timestampNs with
  | case1 => exact ⟨rfl, (List.append_nil _).symm, rfl⟩
  | case2 engine order opened price level best matches_ fillQty fill later ih =>
    refine ⟨ih.1.trans (orders_setLevels _ _ _), ih.2.1.trans ?_,
      ih.2.2.trans (order.fill_same _ _).1⟩
    rw [fills_setLevels]
    exact (List.append_cons engine.fills fill _).symm
  | case3 => exact ⟨rfl, (List.append_nil _).symm, rfl⟩
  | case4 => exact ⟨rfl, (List.append_nil _).symm, rfl⟩

/-- All levels hold something. -/
def Positive (levels : Levels) : Prop :=
  ∀ price level, levels.lookup price = some level → 0 < level.totalQuantity

theorem positive_consume {levels : Levels} {price fillQty : ℚ} {level : PriceLevel}
    (positive : Positive levels) : Positive (consume levels price level fillQty) := by
  intro other found there
  unfold consume at there
  split at there
  · rw [lookup_erase] at there
    split at there
    · cases there
    · exact positive other found there
  · next kept =>
    rw [lookup_insert] at there
    split at there
    · cases there
      exact lt_of_lt_of_le (by decide +kernel) (not_lt.mp kept)
    · exact positive other found there

theorem sweep_fills (positive : Positive (engine.levels order.side.opposite)) :
    ∀ fill ∈ (engine.sweep canMatch order timestampNs).1, 0 < fill.quantity := by
  fun_induction MatchingEngine.sweep canMatch engine order timestampNs with
  | case1 => exact fun _ member => by cases member
  | case2 engine order opened price level best matches_ fillQty fill later ih =>
    refine List.forall_mem_cons.mpr ⟨?_, ih ?_⟩
    · exact lt_min (lt_trans (by decide +kernel) opened) (positive price level (lookup_edge best))
    · rw [(order.fill_same _ _).2.1, levels_setLevels, if_pos rfl]
      exact positive_consume positive
  | case3 => exact fun _ member => by cases member
  | case4 => exact fun _ member => by cases member

theorem sweep_quiet (quiet : dust < order.remainingQuantity →
    ∀ best ∈ (engine.levels order.side.opposite).edge order.side.bestEnd,
      canMatch order best.1 = false) :
    engine.sweep canMatch order timestampNs = ([], order, engine) := by
  fun_cases MatchingEngine.sweep canMatch engine order timestampNs with
  | case2 opened price level best matches_ =>
    exact absurd matches_ (Bool.eq_false_iff.mp (quiet opened _ best))
  | _ => rfl

theorem sweep_first (opened : dust < order.remainingQuantity) {best : ℚ × PriceLevel}
    (found : (engine.levels order.side.opposite).edge order.side.bestEnd = some best)
    (matches_ : canMatch order best.1 = true) : ∃ fill rest,
      (engine.sweep canMatch order timestampNs).1 = fill :: rest ∧
        fill.side = order.side ∧ fill.price = best.1 := by
  fun_cases MatchingEngine.sweep canMatch engine order timestampNs with
  | case1 _ none => exact absurd (none.symm.trans found) (Option.some_ne_none best).symm
  | case2 _ price level there =>
    cases there.symm.trans found
    exact ⟨_, _, rfl, rfl, rfl⟩
  | case3 _ price level there fails =>
    cases there.symm.trans found
    exact absurd matches_ fails
  | case4 closed => exact absurd opened closed

/-- An order that did not trade: a market order that is to be filled or killed is killed. -/
def untraded (order : Order) : Order :=
  if dust < order.remainingQuantity ∧ order.orderType = .market ∧ order.timeInForce = .fok then
    { order with status := .cancelled }
  else order

theorem orderId_untraded (order : Order) : (untraded order).orderId = order.orderId := by
  unfold untraded
  split <;> rfl

variable {done : List Fill × Order × MatchingEngine}

/-- An order is taken as a limit or a market order. -/
theorem process_cases (taken : engine.process order timestampNs = .ok done) :
    order.orderType = .limit ∧ done = engine.processLimitOrder order timestampNs ∨
      order.orderType = .market ∧ done = engine.processMarketOrder order timestampNs := by
  unfold MatchingEngine.process at taken
  split at taken
  · next kind =>
    cases taken
    exact .inl ⟨kind, rfl⟩
  · next kind =>
    cases taken
    exact .inr ⟨kind, rfl⟩
  · cases taken

theorem process_quiet (quiet : ¬Trades engine order)
    (taken : engine.process order timestampNs = .ok done) :
    done.2 = (untraded order, engine) := by
  rcases process_cases taken with ⟨kind, rfl⟩ | ⟨kind, rfl⟩
  · have swept : engine.sweep crosses order timestampNs = ([], order, engine) := by
      apply sweep_quiet
      intro opened best found
      by_contra matches_
      exact quiet ⟨opened, best, found, fun _ => Bool.not_eq_false _ ▸ matches_⟩
    have kept : untraded order = order := if_neg fun all => by
      rw [kind] at all
      cases all.2.1
    unfold MatchingEngine.processLimitOrder
    rw [swept, kept]
  · have swept : engine.sweep (fun _ _ => true) order timestampNs = ([], order, engine) := by
      apply sweep_quiet
      intro opened best found
      refine absurd ⟨opened, best, found, fun limit => ?_⟩ quiet
      rw [kind] at limit
      cases limit
    unfold MatchingEngine.processMarketOrder untraded
    rw [swept]
    dsimp only
    by_cases killed : dust < order.remainingQuantity ∧ order.timeInForce = .fok
    · rw [if_pos killed, if_pos ⟨killed.1, kind, killed.2⟩]
    · rw [if_neg killed, if_neg fun all => killed ⟨all.1, all.2.2⟩]

/-- What an order that finds something to trade with does: it adds fills that take something to the
history, of which the first is at the best level, and leaves the orders that are kept alone. -/
structure Traded (engine : MatchingEngine) (order : Order) (best : ℚ)
    (after : MatchingEngine) : Prop where
  orders : after.orders = engine.orders
  fills : ∃ fill rest, after.fills = engine.fills ++ fill :: rest ∧
    fill.side = order.side ∧ fill.price = best ∧ ∀ other ∈ fill :: rest, 0 < other.quantity

theorem sweep_traded (positive : Positive (engine.levels order.side.opposite))
    (opened : dust < order.remainingQuantity) {best : ℚ × PriceLevel}
    (found : (engine.levels order.side.opposite).edge order.side.bestEnd = some best)
    (matches_ : canMatch order best.1 = true) :
    Traded engine order best.1 (engine.sweep canMatch order timestampNs).2.2 := by
  have frame := sweep_frame canMatch engine order timestampNs
  have takes := @sweep_fills canMatch engine order timestampNs positive
  obtain ⟨fill, rest, fills, side, price⟩ := @sweep_first canMatch engine order timestampNs opened
    best found matches_
  rw [fills] at takes
  refine ⟨frame.1, fill, rest, ?_, side, price, takes⟩
  rw [frame.2.1, fills]

theorem process_traded (positive : Positive (engine.levels order.side.opposite))
    (trades : Trades engine order) (taken : engine.process order timestampNs = .ok done) :
    done.2.1.orderId = order.orderId ∧
      ∃ best ∈ (engine.levels order.side.opposite).edge order.side.bestEnd,
        Traded engine order best.1 done.2.2 := by
  obtain ⟨opened, best, found, matches_⟩ := trades
  rcases process_cases taken with ⟨kind, rfl⟩ | ⟨_, rfl⟩
  · exact ⟨(sweep_frame crosses engine order timestampNs).2.2, best, found,
      sweep_traded positive opened found (matches_ kind)⟩
  · have same : (engine.processMarketOrder order timestampNs).2.1.orderId =
        (engine.sweep (fun _ _ => true) order timestampNs).2.1.orderId ∧
        (engine.processMarketOrder order timestampNs).2.2 =
          (engine.sweep (fun _ _ => true) order timestampNs).2.2 := by
      unfold MatchingEngine.processMarketOrder
      dsimp only
      split <;> exact ⟨rfl, rfl⟩
    rw [same.1, same.2]
    exact ⟨(sweep_frame _ engine order timestampNs).2.2, best, found,
      sweep_traded positive opened found rfl⟩

end Matching

/-! ## Submissions -/

section Submissions

variable {engine limited after : MatchingEngine} {order : Order} {timestampNs : Nat}
  {answer : Except String (List Fill) × MatchingEngine}

/-- Two engines have the same book, orders and fills. -/
structure SameBook (first second : MatchingEngine) : Prop where
  levels : ∀ side, second.levels side = first.levels side
  orders : second.orders = first.orders
  fills : second.fills = first.fills

theorem checkRateLimit_same {result : Except String Unit}
    (checked : engine.checkRateLimit timestampNs = some (result, limited)) :
    SameBook engine limited := by
  obtain ⟨recent, _, same⟩ := Option.map_eq_some_iff.mp checked
  split at same <;> cases same <;> exact ⟨fun side => by cases side <;> rfl, rfl, rfl⟩

/-- A limited submission is refused or settles a match. -/
theorem submitLimited_cases (engine : MatchingEngine) (order : Order) (timestampNs : Nat) :
    matched order = false ∧ SameBook engine (engine.submitLimited order timestampNs).2 ∨
      matched order = true ∧ ∃ done, engine.process order timestampNs = .ok done ∧
        (engine.submitLimited order timestampNs).2 = done.2.2.settle done.2.1 := by
  have same : SameBook engine engine := ⟨fun _ => rfl, rfl, rfl⟩
  unfold matched submitLimited
  cases order.isOco with
  | true =>
    rw [if_pos rfl]
    exact .inl ⟨rfl, fun side => (by cases side <;> rfl), rfl, rfl⟩
  | false =>
    rw [if_neg Bool.false_ne_true]
    cases validateOrder order with
    | error error => exact .inl ⟨rfl, same⟩
    | ok _ =>
      unfold process
      cases order.orderType with
      | limit => exact .inr ⟨rfl, _, rfl, rfl⟩
      | market => exact .inr ⟨rfl, _, rfl, rfl⟩
      | _ => exact .inl ⟨rfl, same⟩

/-- A submission is refused or settles a match. -/
theorem submit_cases (taken : engine.submitOrder order timestampNs = some answer) :
    processed engine order timestampNs = false ∧ SameBook engine answer.2 ∨
      processed engine order timestampNs = true ∧ ∃ limited done, SameBook engine limited ∧
        limited.process { order with timestampNs := timestampNs } timestampNs = .ok done ∧
          answer.2 = done.2.2.settle done.2.1 := by
  obtain ⟨⟨result, limited⟩, checked, rfl⟩ := Option.map_eq_some_iff.mp taken
  have same := checkRateLimit_same checked
  unfold processed
  rw [checked]
  cases result with
  | error error => exact .inl ⟨rfl, same⟩
  | ok _ =>
    rcases submitLimited_cases limited { order with timestampNs := timestampNs } timestampNs with
      ⟨refused, still⟩ | ⟨accepted, done, processed_, settled⟩
    · exact .inl ⟨refused, fun side => (still.levels side).trans (same.levels side),
        still.orders.trans same.orders, still.fills.trans same.fills⟩
    · exact .inr ⟨accepted, limited, done, same, processed_, settled⟩

theorem lookup_addToBook (engine : MatchingEngine) (order : Order) (side : Side) (price : ℚ) :
    ((engine.addToBook order).levels side).lookup price =
      if side = order.side ∧ price = order.price then
        let entry := ((engine.levels order.side).lookup order.price).getD {
          price := order.price
          totalQuantity := 0
          orderCount := 0
          orders := [] }
        some { entry with
          totalQuantity := entry.totalQuantity + order.remainingQuantity
          orderCount := entry.orderCount + 1
          orders := entry.orders ++ [order.orderId] }
      else (engine.levels side).lookup price := by
  unfold addToBook
  dsimp only
  rw [levels_setLevels]
  by_cases here : side = order.side
  · rw [if_pos here, lookup_insert, here]
    exact if_congr (and_iff_right rfl).symm rfl rfl
  · rw [if_neg here, if_neg fun both => here both.1]

theorem levels_settle (engine : MatchingEngine) (order : Order) (side : Side) :
    (engine.settle order).levels side =
      (if rests order then engine.addToBook order else engine).levels side := by
  cases side <;> rfl

theorem orders_settle (engine : MatchingEngine) (order : Order) :
    (engine.settle order).orders = engine.orders.insert order.orderId order := by
  have same : (if rests order then engine.addToBook order else engine).orders = engine.orders := by
    split
    · exact orders_setLevels _ _ _
    · rfl
  show (if rests order then engine.addToBook order else engine).orders.insert _ _ = _
  rw [same]

theorem fills_settle (engine : MatchingEngine) (order : Order) :
    (engine.settle order).fills = engine.fills := by
  show (if rests order then engine.addToBook order else engine).fills = _
  split
  · exact fills_setLevels _ _ _
  · rfl

end Submissions

/-! ## Agreement along a step -/

/-- The orders in a queue are those of its side and price with something left, they wait in the
queue of the ledger too, and the orders of the ledger are known to the engine. -/
structure Placed (session : Session) : Prop where
  own : ∀ side price level, (session.engine.levels side).lookup price = some level →
    level.orders ≠ [] ∧ ∀ id ∈ level.orders, ∀ order,
      session.engine.orders.lookup id = some order →
        order.side = side ∧ order.price = price ∧ dust < order.remainingQuantity
  queued : ∀ side price level, (session.engine.levels side).lookup price = some level →
    ∀ id ∈ level.orders, id ∈ (session.ledger.queues side price).map Prod.fst
  left : session.ledger.Left
  known : ∀ side price, ∀ entry ∈ session.ledger.queues side price,
    ∃ order, session.engine.orders.lookup entry.1 = some order

section Agreement

variable {session next : Session} {orders after : OrderedMap Nat Order} {level : PriceLevel}
  {side : Side} {price : ℚ} {order : Order} {limited : MatchingEngine}

theorem LevelAgrees.congr (agrees : LevelAgrees orders level)
    (same : ∀ id ∈ level.orders, after.lookup id = orders.lookup id) :
    LevelAgrees after level where
  total := by
    rw [agrees.total]
    refine congrArg List.sum (List.map_congr_left fun id member => ?_)
    unfold remainingOf
    rw [same id member]
  count := agrees.count
  live := fun id member => same id member ▸ agrees.live id member
  kind := fun id member => same id member ▸ agrees.kind id member

theorem LevelAgrees.not_mem (agrees : LevelAgrees orders level) {id : Nat}
    (fresh : orders.lookup id = none) : id ∉ level.orders := by
  intro member
  obtain ⟨order, there, _⟩ := agrees.live id member
  exact absurd (fresh.symm.trans there) (Option.some_ne_none order).symm

theorem positive_levels (agrees : Agrees session) (placed : Placed session) (side : Side) :
    Positive (session.engine.levels side) := by
  intro price level there
  have shown := agrees.levels side price level there
  obtain ⟨some_, own⟩ := placed.own side price level there
  rw [shown.total]
  apply List.sum_pos
  · intro quantity member
    obtain ⟨id, among, rfl⟩ := List.mem_map.mp member
    obtain ⟨order, found, _⟩ := shown.live id among
    unfold remainingOf
    rw [found]
    exact lt_trans (by decide +kernel) (own id among order found).2.2
  · exact fun none => some_ (List.map_eq_nil_iff.mp none)

theorem live_of_rests (rest : rests order = true) : dust < order.remainingQuantity ∧
    order.status ≠ .filled ∧ order.status ≠ .cancelled := by
  have resting := of_decide_eq_true rest
  have unfilled : ¬(order.remainingQuantity ≤ dust ∨ order.status = .filled) := by
    intro filled
    rw [show order.isFilled = true from decide_eq_true filled] at resting
    exact Bool.false_ne_true resting.1
  exact ⟨not_le.mp fun less => unfilled (.inl less), fun filled => unfilled (.inr filled),
    resting.2⟩

theorem LevelAgrees.lookup_others (agrees : LevelAgrees orders level)
    (fresh : orders.lookup order.orderId = none) : ∀ id ∈ level.orders,
      (orders.insert order.orderId order).lookup id = orders.lookup id := by
  intro id member
  have different : id ≠ order.orderId := by
    rintro rfl
    exact agrees.not_mem fresh member
  rw [lookup_insert, if_neg different]

theorem LevelAgrees.append (agrees : LevelAgrees orders level)
    (fresh : orders.lookup order.orderId = none) (rest : rests order = true)
    (may : order.MayRest) :
    LevelAgrees (orders.insert order.orderId order) { level with
      totalQuantity := level.totalQuantity + order.remainingQuantity
      orderCount := level.orderCount + 1
      orders := level.orders ++ [order.orderId] } := by
  have here : (orders.insert order.orderId order).lookup order.orderId = some order := by
    rw [lookup_insert, if_pos rfl]
  have before := agrees.congr (agrees.lookup_others fresh)
  exact {
    total := by
      show level.totalQuantity + order.remainingQuantity =
        ((level.orders ++ [order.orderId]).map _).sum
      rw [List.map_append, List.sum_append, before.total, List.map_singleton, List.sum_singleton]
      unfold remainingOf
      rw [here]
      rfl
    count := by
      show level.orderCount + 1 = (level.orders ++ [order.orderId]).length
      rw [agrees.count, List.length_append]
      rfl
    live := by
      intro id member
      rcases List.mem_append.mp member with old | new
      · exact before.live id old
      · rw [List.mem_singleton.mp new]
        exact ⟨order, here, (live_of_rests rest).2⟩
    kind := by
      intro id member other found
      rcases List.mem_append.mp member with old | new
      · exact before.kind id old other found
      · rw [List.mem_singleton.mp new, here] at found
        cases found
        exact may }

theorem lookup_settle (same : SameBook session.engine limited) (order : Order) (side : Side)
    (price : ℚ) :
    ((limited.settle order).levels side).lookup price =
      if rests order = true ∧ side = order.side ∧ price = order.price then
        let entry := ((session.engine.levels order.side).lookup order.price).getD {
          price := order.price
          totalQuantity := 0
          orderCount := 0
          orders := [] }
        some { entry with
          totalQuantity := entry.totalQuantity + order.remainingQuantity
          orderCount := entry.orderCount + 1
          orders := entry.orders ++ [order.orderId] }
      else (session.engine.levels side).lookup price := by
  rw [levels_settle]
  by_cases rest : rests order = true
  · rw [if_pos rest, lookup_addToBook, same.levels, same.levels]
    exact if_congr (and_iff_right rest).symm rfl rfl
  · rw [if_neg rest, if_neg fun all => rest all.1, same.levels]

theorem levelAgrees_empty (orders : OrderedMap Nat Order) (price : ℚ) :
    LevelAgrees orders { price := price, totalQuantity := 0, orderCount := 0, orders := [] } where
  total := rfl
  count := rfl
  live := fun _ member => by cases member
  kind := fun _ member => by cases member

theorem settle_agrees (agrees : Agrees session) (same : SameBook session.engine limited)
    (fresh : session.engine.orders.lookup order.orderId = none) :
    Agrees { engine := limited.settle order, ledger := session.ledger.place order } ↔
      (rests order = true → order.MayRest) := by
  have orders : (limited.settle order).orders =
      session.engine.orders.insert order.orderId order := by
    rw [orders_settle, same.orders]
  constructor
  · intro after rest
    have shown := after.levels order.side order.price _
      ((lookup_settle same order _ _).trans (if_pos ⟨rest, rfl, rfl⟩))
    refine shown.kind order.orderId (List.mem_append_right _ (List.mem_singleton.mpr rfl)) order ?_
    show (limited.settle order).orders.lookup order.orderId = _
    rw [orders, lookup_insert, if_pos rfl]
  · intro may
    constructor
    · intro side price level there
      show LevelAgrees (limited.settle order).orders level
      rw [lookup_settle same] at there
      rw [orders]
      split at there
      · next here =>
        have entry : LevelAgrees session.engine.orders
            (((session.engine.levels order.side).lookup order.price).getD
              { price := order.price, totalQuantity := 0, orderCount := 0, orders := [] }) := by
          cases before : (session.engine.levels order.side).lookup order.price with
          | none => exact levelAgrees_empty _ _
          | some level => exact agrees.levels _ _ level before
        cases there
        exact entry.append fresh here.1 (may here.1)
      · have shown := agrees.levels side price level there
        exact shown.congr (shown.lookup_others fresh)
    · intro id found there
      have there : (limited.settle order).orders.lookup id = some found := there
      rw [orders, lookup_insert] at there
      rw [Ledger.expected_place]
      split at there
      · next here =>
        cases there
        rw [if_pos here]
      · next different =>
        rw [if_neg different]
        exact agrees.filled id found there

theorem mem_settled (same : SameBook session.engine limited)
    (there : ((limited.settle order).levels side).lookup price = some level) : ∀ id ∈ level.orders,
      (∃ before, (session.engine.levels side).lookup price = some before ∧ id ∈ before.orders) ∨
        (rests order = true ∧ side = order.side ∧ price = order.price) ∧ id = order.orderId := by
  intro id member
  rw [lookup_settle same] at there
  split at there
  · next here =>
    cases there
    rcases List.mem_append.mp member with old | new
    · rw [here.2.1, here.2.2]
      cases held : (session.engine.levels order.side).lookup order.price with
      | none =>
        rw [held] at old
        cases old
      | some before =>
        rw [held] at old
        exact .inl ⟨before, rfl, old⟩
    · exact .inr ⟨here, List.mem_singleton.mp new⟩
  · exact .inl ⟨level, there, member⟩

theorem settled_ne_nil (placed : Placed session) (same : SameBook session.engine limited)
    (there : ((limited.settle order).levels side).lookup price = some level) :
    level.orders ≠ [] := by
  rw [lookup_settle same] at there
  split at there
  · cases there
    exact List.append_ne_nil_of_right_ne_nil _ (List.cons_ne_nil _ _)
  · exact (placed.own side price level there).1

theorem settle_placed (agrees : Agrees session) (placed : Placed session)
    (same : SameBook session.engine limited)
    (fresh : session.engine.orders.lookup order.orderId = none) :
    Placed { engine := limited.settle order, ledger := session.ledger.place order } := by
  have orders : (limited.settle order).orders =
      session.engine.orders.insert order.orderId order := by
    rw [orders_settle, same.orders]
  constructor
  · intro side price level there
    refine ⟨settled_ne_nil placed same there, fun id member found kept => ?_⟩
    have kept : (limited.settle order).orders.lookup id = some found := kept
    rw [orders] at kept
    rcases mem_settled same there id member with ⟨before, held, old⟩ | ⟨here, rfl⟩
    · rw [(agrees.levels side price before held).lookup_others fresh id old] at kept
      exact (placed.own side price before held).2 id old found kept
    · rw [lookup_insert, if_pos rfl] at kept
      cases kept
      exact ⟨here.2.1.symm, here.2.2.symm, (live_of_rests here.1).1⟩
  · intro side price level there id member
    rcases mem_settled same there id member with ⟨before, held, old⟩ | ⟨here, rfl⟩
    · obtain ⟨entry, waits, rfl⟩ :=
        List.mem_map.mp (placed.queued side price before held id old)
      exact List.mem_map_of_mem (Ledger.mem_place.mpr (.inl waits))
    · exact List.mem_map_of_mem (Ledger.mem_place.mpr (.inr ⟨here, rfl⟩))
  · intro side price entry member
    rcases Ledger.mem_place.mp member with old | ⟨here, rfl⟩
    · exact placed.left side price entry old
    · exact lt_trans (by decide +kernel) (live_of_rests here.1).1
  · intro side price entry member
    show ∃ found, (limited.settle order).orders.lookup entry.1 = some found
    rw [orders, lookup_insert]
    by_cases here : entry.1 = order.orderId
    · exact ⟨order, if_pos here⟩
    · rw [if_neg here]
      rcases Ledger.mem_place.mp member with old | ⟨_, rfl⟩
      · exact placed.known side price entry old
      · exact absurd rfl here

theorem untraded_rests (order : Order) :
    (rests (untraded order) = true → (untraded order).MayRest) ↔
      (rests order = true →
        order.MayRest ∨ order.orderType = .market ∧ order.timeInForce = .fok) := by
  unfold untraded
  by_cases killed : dust < order.remainingQuantity ∧ order.orderType = .market ∧
      order.timeInForce = .fok
  · rw [if_pos killed]
    refine iff_of_true (fun rest => ?_) fun _ => .inr killed.2
    exact absurd rfl (live_of_rests rest).2.2
  · rw [if_neg killed]
    refine forall_congr' fun rest => ?_
    exact (or_iff_left fun both => killed ⟨(live_of_rests rest).1, both⟩).symm

/-- After a trade some order does not report what was executed of it. -/
theorem trade_disagrees (agrees : Agrees session) (placed : Placed session)
    (fresh : session.engine.orders.lookup order.orderId = none) {best : ℚ × PriceLevel}
    (found : (session.engine.levels order.side.opposite).edge order.side.bestEnd = some best)
    {fill : Fill} {rest : List Fill} (side : fill.side = order.side) (price : fill.price = best.1)
    (positive : ∀ other ∈ fill :: rest, 0 < other.quantity) {settled : Order}
    (same : settled.orderId = order.orderId) {engine : MatchingEngine}
    (orders : engine.orders = session.engine.orders.insert settled.orderId settled) :
    ¬Agrees {
      engine := engine
      ledger := ((fill :: rest).foldl Ledger.execute session.ledger).place settled } := by
  intro after
  have held := lookup_edge found
  -- Someone waits at the best level, and the ledger knows who was first.
  obtain ⟨id, among⟩ := List.exists_mem_of_ne_nil _ (placed.own _ _ _ held).1
  have waits := placed.queued _ _ _ held id among
  cases queue : session.ledger.queues order.side.opposite best.1 with
  | nil =>
    rw [queue] at waits
    cases waits
  | cons front others =>
    have queue_ : session.ledger.queues fill.side.opposite fill.price = front :: others := by
      rw [side, price]
      exact queue
    have grown := Ledger.lt_executes placed.left positive queue_
    obtain ⟨maker, known⟩ := placed.known order.side.opposite best.1 front
      (queue ▸ List.mem_cons_self)
    have different : front.1 ≠ settled.orderId := by
      intro equal
      rw [equal, same] at known
      exact absurd (fresh.symm.trans known) (Option.some_ne_none maker).symm
    have kept : engine.orders.lookup front.1 = some maker := by
      rw [orders, lookup_insert, if_neg different]
      exact known
    have reported := after.filled front.1 maker kept
    rw [Ledger.expected_place, if_neg different, agrees.filled front.1 maker known] at reported
    exact absurd grown (by rw [← reported]; exact lt_irrefl _)

end Agreement

/-! ## Cancellations -/

section Cancellations

variable {session next : Session} {orderId : Nat} {order : Order}

theorem lookup_withdraw (levels : Levels) (orderId : Nat) (order : Order) (price : ℚ) :
    (withdraw levels orderId order).lookup price =
      if price = order.price then
        (levels.lookup order.price).bind fun level =>
          if level.totalQuantity - order.remainingQuantity < dust then none
          else some { level with
            totalQuantity := level.totalQuantity - order.remainingQuantity
            orders := level.orders.filter fun id => id ≠ orderId }
      else levels.lookup price := by
  unfold withdraw
  by_cases here : price = order.price
  · rw [if_pos here, here]
    cases held : levels.lookup order.price with
    | none => exact held
    | some level =>
      rw [Option.bind_some]
      dsimp only
      split
      · rw [lookup_erase, if_pos rfl]
      · rw [lookup_insert, if_pos rfl]
  · rw [if_neg here]
    cases levels.lookup order.price with
    | none => rfl
    | some level =>
      dsimp only
      split
      · rw [lookup_erase, if_neg here]
      · rw [lookup_insert, if_neg here]

/-- The engine after a cancellation that is not refused. -/
def withdrawn (engine : MatchingEngine) (orderId : Nat) (order : Order) : MatchingEngine :=
  ((engine.setLevels order.side (withdraw (engine.levels order.side) orderId order)).record orderId
    { order with status := .cancelled }).updateBestPrices

theorem cancel_live (found : session.engine.orders.lookup orderId = some order)
    (live : ¬(order.status = .filled ∨ order.status = .cancelled)) :
    (session.engine.cancelOrder orderId).2 = withdrawn session.engine orderId order ∧
      session.cancelled orderId = session.ledger.withdraw orderId order := by
  unfold Session.cancelled cancelOrder
  rw [found]
  dsimp only
  rw [if_neg live]
  exact ⟨rfl, rfl⟩

theorem cancel_refused (dead : ∀ order, session.engine.orders.lookup orderId = some order →
      order.status = .filled ∨ order.status = .cancelled) :
    (session.engine.cancelOrder orderId).2 = session.engine ∧
      session.cancelled orderId = session.ledger := by
  unfold Session.cancelled cancelOrder
  cases found : session.engine.orders.lookup orderId with
  | none => exact ⟨rfl, rfl⟩
  | some order =>
    dsimp only
    rw [if_pos (dead order found)]
    exact ⟨rfl, rfl⟩

/-- The level at a side and price after a cancellation. -/
theorem lookup_withdrawn (engine : MatchingEngine) (orderId : Nat) (order : Order) (side : Side)
    (price : ℚ) :
    ((withdrawn engine orderId order).levels side).lookup price =
      if side = order.side ∧ price = order.price then
        ((engine.levels order.side).lookup order.price).bind fun level =>
          if level.totalQuantity - order.remainingQuantity < dust then none
          else some { level with
            totalQuantity := level.totalQuantity - order.remainingQuantity
            orders := level.orders.filter fun id => id ≠ orderId }
      else (engine.levels side).lookup price := by
  have same : (withdrawn engine orderId order).levels side =
      (engine.setLevels order.side (withdraw (engine.levels order.side) orderId order)).levels
        side := by
    cases side <;> rfl
  rw [same, levels_setLevels]
  by_cases here : side = order.side
  · rw [if_pos here, lookup_withdraw, here]
    exact if_congr (and_iff_right rfl).symm rfl rfl
  · rw [if_neg here, if_neg fun both => here both.1]

theorem orders_withdrawn (engine : MatchingEngine) (orderId : Nat) (order : Order) (id : Nat) :
    (withdrawn engine orderId order).orders.lookup id =
      if id = orderId then some { order with status := .cancelled }
      else engine.orders.lookup id := by
  show ((engine.setLevels _ _).orders.insert _ _).lookup id = _
  rw [orders_setLevels, lookup_insert]

theorem orders_withdrawn_other (engine : MatchingEngine) (order : Order) {level : PriceLevel}
    (absent : orderId ∉ level.orders) : ∀ id ∈ level.orders,
      (withdrawn engine orderId order).orders.lookup id = engine.orders.lookup id := by
  intro id member
  have different : id ≠ orderId := by
    rintro rfl
    exact absent member
  rw [orders_withdrawn, if_neg different]

theorem filter_absent {level : PriceLevel} (absent : orderId ∉ level.orders) :
    level.orders.filter (fun id => id ≠ orderId) = level.orders := by
  apply List.filter_eq_self.mpr
  intro id member
  exact decide_eq_true fun same => absent (same ▸ member)

/-- What a cancellation leaves at the price of its order is no level, or it does not matter to the
level. -/
def Clears (engine : MatchingEngine) (orderId : Nat) (order : Order) : Prop :=
  ∀ level ∈ (engine.levels order.side).lookup order.price,
    level.totalQuantity - order.remainingQuantity < dust ∨
      orderId ∉ level.orders ∧ order.remainingQuantity = 0

theorem level_before (placed : Placed session)
    (found : session.engine.orders.lookup orderId = some order)
    (clears : Clears session.engine orderId order) {side : Side} {price : ℚ} {level : PriceLevel}
    (kept : ((withdrawn session.engine orderId order).levels side).lookup price = some level) :
    (session.engine.levels side).lookup price = some level ∧ orderId ∉ level.orders := by
  rw [lookup_withdrawn] at kept
  split at kept
  · next here =>
    obtain ⟨before, held, reduced⟩ := Option.bind_eq_some_iff.mp kept
    split at reduced
    · cases reduced
    · next stays =>
      obtain ⟨absent, nothing⟩ := (clears before held).resolve_left stays
      rw [nothing, sub_zero, filter_absent absent] at reduced
      cases reduced
      rw [here.1, here.2]
      exact ⟨held, absent⟩
  · next elsewhere =>
    refine ⟨kept, fun member => elsewhere ?_⟩
    have own := (placed.own side price level kept).2 orderId member order found
    exact ⟨own.1.symm, own.2.1.symm⟩

theorem cancel_agrees (agrees : Agrees session) (placed : Placed session)
    (found : session.engine.orders.lookup orderId = some order) :
    Agrees {
      engine := withdrawn session.engine orderId order
      ledger := session.ledger.withdraw orderId order } ↔
        Clears session.engine orderId order := by
  constructor
  · intro after level held
    by_cases goes : level.totalQuantity - order.remainingQuantity < dust
    · exact .inl goes
    · have kept := lookup_withdrawn session.engine orderId order order.side order.price
      rw [if_pos ⟨rfl, rfl⟩, show (session.engine.levels order.side).lookup order.price = some level
        from held, Option.bind_some, if_neg goes] at kept
      have shown := after.levels order.side order.price _ kept
      have before := agrees.levels order.side order.price level held
      have absent : orderId ∉ level.orders := by
        intro member
        have fewer : (level.orders.filter fun id => id ≠ orderId).length < level.orders.length :=
          List.length_filter_lt_length_iff_exists.mpr ⟨orderId, member, by simp⟩
        exact absurd (before.count.symm.trans shown.count) (Nat.ne_of_gt fewer)
      -- What the queue holds did not change, so the level may not lose anything either.
      have unchanged : LevelAgrees (withdrawn session.engine orderId order).orders level :=
        before.congr (orders_withdrawn_other session.engine order absent)
      have total : level.totalQuantity - order.remainingQuantity =
          ((level.orders.filter fun id => id ≠ orderId).map
            (remainingOf (withdrawn session.engine orderId order).orders)).sum := shown.total
      rw [filter_absent absent, ← unchanged.total] at total
      exact .inr ⟨absent, by linarith⟩
  · intro clears
    constructor
    · intro side price level kept
      obtain ⟨held, absent⟩ := level_before placed found clears kept
      apply (agrees.levels side price level held).congr
      exact orders_withdrawn_other session.engine order absent
    · intro id other there
      rw [orders_withdrawn] at there
      split at there
      · next same =>
        cases there
        exact same ▸ agrees.filled orderId order found
      · exact agrees.filled id other there

theorem cancel_placed (placed : Placed session)
    (found : session.engine.orders.lookup orderId = some order)
    (clears : Clears session.engine orderId order) :
    Placed {
      engine := withdrawn session.engine orderId order
      ledger := session.ledger.withdraw orderId order } := by
  have queue : ∀ side price entry,
      entry ∈ (session.ledger.withdraw orderId order).queues side price →
        entry ∈ session.ledger.queues side price := by
    intro side price entry member
    have member : entry ∈ if side = order.side ∧ price = order.price then
        (session.ledger.queues order.side order.price).filter fun entry => entry.1 ≠ orderId
      else session.ledger.queues side price := member
    split at member
    · next here =>
      rw [here.1, here.2]
      exact (List.mem_filter.mp member).1
    · exact member
  constructor
  · intro side price level kept
    obtain ⟨held, absent⟩ := level_before placed found clears kept
    have own := placed.own side price level held
    refine ⟨own.1, fun id member other there => ?_⟩
    rw [orders_withdrawn_other session.engine order absent id member] at there
    exact own.2 id member other there
  · intro side price level kept id member
    obtain ⟨held, absent⟩ := level_before placed found clears kept
    have queued := placed.queued side price level held id member
    show id ∈ (if side = order.side ∧ price = order.price then
      (session.ledger.queues order.side order.price).filter fun entry => entry.1 ≠ orderId
        else session.ledger.queues side price).map Prod.fst
    split
    · next here =>
      obtain ⟨entry, there, rfl⟩ := List.mem_map.mp queued
      rw [here.1, here.2] at there
      refine List.mem_map.mpr ⟨entry, List.mem_filter.mpr ⟨there, decide_eq_true ?_⟩, rfl⟩
      exact fun same => absent (same ▸ member)
    · exact queued
  · intro side price entry member
    exact placed.left side price entry (queue side price entry member)
  · intro side price entry member
    obtain ⟨other, known⟩ := placed.known side price entry (queue side price entry member)
    show ∃ found, (withdrawn session.engine orderId order).orders.lookup entry.1 = some found
    rw [orders_withdrawn]
    split
    · exact ⟨_, rfl⟩
    · exact ⟨other, known⟩

end Cancellations

/-! ## Runs -/

section Runs

variable {session next : Session} {order : Order} {timestampNs : Nat} {orderId : Nat}
  {answer : Except String (List Fill) × MatchingEngine}

theorem submitted_same (same : SameBook session.engine answer.2)
    (fresh : session.engine.orders.lookup order.orderId = none) :
    session.submitted order.orderId answer.2 = session.ledger := by
  unfold Session.submitted
  rw [same.fills, List.drop_length, same.orders, fresh]
  rfl

theorem submitted_settled {limited after : MatchingEngine} {settled : Order} {fills : List Fill}
    (fresh : session.engine.orders.lookup order.orderId = none)
    (same : settled.orderId = order.orderId)
    (filled : limited.fills = session.engine.fills ++ fills)
    (done : after = limited.settle settled) :
    session.submitted order.orderId after =
      (fills.foldl Ledger.execute session.ledger).place settled := by
  have recorded : after.orders.lookup order.orderId = some settled := by
    rw [done, orders_settle, lookup_insert, if_pos same.symm]
  have added : after.fills.drop session.engine.fills.length = fills := by
    rw [done, fills_settle, filled]
    exact List.drop_left
  unfold Session.submitted
  rw [fresh, recorded, added]

theorem same_agrees {engine after : MatchingEngine} {ledger : Ledger}
    (same : SameBook engine after) (agrees : Agrees { engine := engine, ledger := ledger }) :
    Agrees { engine := after, ledger := ledger } where
  levels := by
    intro side price level there
    show LevelAgrees after.orders level
    rw [same.orders]
    exact agrees.levels side price level (same.levels side ▸ there)
  filled := fun id order there => agrees.filled id order (same.orders ▸ there)

theorem same_placed {engine after : MatchingEngine} {ledger : Ledger}
    (same : SameBook engine after) (placed : Placed { engine := engine, ledger := ledger }) :
    Placed { engine := after, ledger := ledger } where
  own := by
    intro side price level there
    show level.orders ≠ [] ∧ ∀ id ∈ level.orders, ∀ order, after.orders.lookup id = some order → _
    rw [same.orders]
    exact placed.own side price level (same.levels side ▸ there)
  queued := fun side price level there =>
    placed.queued side price level (same.levels side ▸ there)
  left := placed.left
  known := by
    intro side price entry member
    show ∃ order, after.orders.lookup entry.1 = some order
    rw [same.orders]
    exact placed.known side price entry member

theorem submit_refused (fresh : session.engine.orders.lookup order.orderId = none)
    (refused : processed session.engine order timestampNs = false)
    (taken : session.engine.submitOrder order timestampNs = some answer) :
    SameBook session.engine answer.2 ∧
      session.submitted order.orderId answer.2 = session.ledger := by
  rcases submit_cases taken with ⟨_, same⟩ | ⟨accepted, _⟩
  · exact ⟨same, submitted_same same fresh⟩
  · exact absurd (refused.symm.trans accepted) Bool.false_ne_true

theorem submit_quiet (fresh : session.engine.orders.lookup order.orderId = none)
    (accepted : processed session.engine order timestampNs = true)
    (quiet : ¬Trades session.engine order)
    (taken : session.engine.submitOrder order timestampNs = some answer) :
    ∃ limited, SameBook session.engine limited ∧
      answer.2 = limited.settle (untraded { order with timestampNs := timestampNs }) ∧
        session.submitted order.orderId answer.2 =
          session.ledger.place (untraded { order with timestampNs := timestampNs }) := by
  rcases submit_cases taken with ⟨refused, _⟩ | ⟨_, limited, done, same, processed_, settled⟩
  · exact absurd (refused.symm.trans accepted) Bool.false_ne_true
  · have still : ¬Trades limited { order with timestampNs := timestampNs } := by
      unfold Trades
      rw [same.levels]
      exact quiet
    rw [process_quiet still processed_] at settled
    have none_ : limited.fills = session.engine.fills ++ [] :=
      same.fills.trans (List.append_nil _).symm
    have kept : (untraded { order with timestampNs := timestampNs }).orderId = order.orderId :=
      orderId_untraded _
    exact ⟨limited, same, settled, submitted_settled fresh kept none_ settled⟩

theorem submit_trades (agrees : Agrees session) (placed : Placed session)
    (fresh : session.engine.orders.lookup order.orderId = none)
    (accepted : processed session.engine order timestampNs = true)
    (trades : Trades session.engine order)
    (taken : session.engine.submitOrder order timestampNs = some answer) :
    ¬Agrees { engine := answer.2, ledger := session.submitted order.orderId answer.2 } := by
  rcases submit_cases taken with ⟨refused, _⟩ | ⟨_, limited, done, same, processed_, settled⟩
  · exact absurd (refused.symm.trans accepted) Bool.false_ne_true
  · have still : Trades limited { order with timestampNs := timestampNs } := by
      unfold Trades
      rw [same.levels]
      exact trades
    have positive : Positive (limited.levels order.side.opposite) := by
      rw [same.levels]
      exact positive_levels agrees placed _
    obtain ⟨kept, best, found, traded⟩ :=
      @process_traded limited { order with timestampNs := timestampNs } timestampNs done positive
        still processed_
    obtain ⟨fill, rest, fills, side, price, takes⟩ := traded.fills
    have filled : done.2.2.fills = session.engine.fills ++ fill :: rest := by
      rw [fills, same.fills]
    rw [submitted_settled fresh kept filled settled]
    have here : (session.engine.levels order.side.opposite).edge order.side.bestEnd =
        some best := by
      rw [← same.levels]
      exact found
    apply trade_disagrees agrees placed fresh here side price takes kept
    rw [settled, orders_settle, traded.orders, same.orders]

theorem agrees_submit (agrees : Agrees session) (placed : Placed session)
    (fresh : session.engine.orders.lookup order.orderId = none)
    (taken : session.engine.submitOrder order timestampNs = some answer) :
    Agrees { engine := answer.2, ledger := session.submitted order.orderId answer.2 } ↔
      Harmless session (.submit order timestampNs) := by
  cases accepted : processed session.engine order timestampNs with
  | false =>
    obtain ⟨same, still⟩ := submit_refused fresh accepted taken
    rw [still]
    refine iff_of_true (same_agrees same agrees) fun processed_ => ?_
    exact absurd (accepted.symm.trans processed_) Bool.false_ne_true
  | true =>
    by_cases trades : Trades session.engine order
    · exact iff_of_false (submit_trades agrees placed fresh accepted trades taken)
        fun harmless => (harmless accepted).1 trades
    · obtain ⟨limited, same, settled, still⟩ := submit_quiet fresh accepted trades taken
      have free : session.engine.orders.lookup
          (untraded { order with timestampNs := timestampNs }).orderId = none := by
        rw [orderId_untraded]
        exact fresh
      rw [settled] at still ⊢
      rw [still, settle_agrees agrees same free, untraded_rests]
      exact ⟨fun rest _ => ⟨trades, rest⟩, fun harmless => (harmless accepted).2⟩

theorem placed_submit (agrees : Agrees session) (placed : Placed session)
    (fresh : session.engine.orders.lookup order.orderId = none)
    (harmless : Harmless session (.submit order timestampNs))
    (taken : session.engine.submitOrder order timestampNs = some answer) :
    Placed { engine := answer.2, ledger := session.submitted order.orderId answer.2 } := by
  cases accepted : processed session.engine order timestampNs with
  | false =>
    obtain ⟨same, still⟩ := submit_refused fresh accepted taken
    rw [still]
    exact same_placed same placed
  | true =>
    obtain ⟨limited, same, settled, still⟩ :=
      submit_quiet fresh accepted (harmless accepted).1 taken
    have free : session.engine.orders.lookup
        (untraded { order with timestampNs := timestampNs }).orderId = none := by
      rw [orderId_untraded]
      exact fresh
    rw [settled] at still ⊢
    rw [still]
    exact settle_placed agrees placed same free

/-- A cancellation finds nothing open or withdraws it. -/
theorem cancel_cases (session : Session) (orderId : Nat) :
    (∀ order, session.engine.orders.lookup orderId = some order →
        order.status = .filled ∨ order.status = .cancelled) ∨
      ∃ order, session.engine.orders.lookup orderId = some order ∧
        ¬(order.status = .filled ∨ order.status = .cancelled) := by
  by_cases dead : ∀ order, session.engine.orders.lookup orderId = some order →
      order.status = .filled ∨ order.status = .cancelled
  · exact .inl dead
  · push Not at dead
    obtain ⟨order, found, live⟩ := dead
    exact .inr ⟨order, found, not_or.mpr live⟩

theorem harmless_live (found : session.engine.orders.lookup orderId = some order)
    (live : ¬(order.status = .filled ∨ order.status = .cancelled)) :
    Harmless session (.cancel orderId) ↔ Clears session.engine orderId order := by
  constructor
  · intro harmless
    exact ((harmless order found).resolve_left fun filled => live (.inl filled)).resolve_left
      fun cancelled => live (.inr cancelled)
  · intro clears other there
    cases found.symm.trans there
    exact .inr (.inr clears)

theorem agrees_cancel (agrees : Agrees session) (placed : Placed session) (orderId : Nat) :
    Agrees {
      engine := (session.engine.cancelOrder orderId).2
      ledger := session.cancelled orderId } ↔ Harmless session (.cancel orderId) := by
  rcases cancel_cases session orderId with dead | ⟨order, found, live⟩
  · rw [(cancel_refused dead).1, (cancel_refused dead).2]
    refine iff_of_true agrees fun order found => ?_
    rcases dead order found with filled | cancelled
    · exact .inl filled
    · exact .inr (.inl cancelled)
  · rw [(cancel_live found live).1, (cancel_live found live).2, cancel_agrees agrees placed found]
    exact (harmless_live found live).symm

theorem placed_cancel (placed : Placed session) (harmless : Harmless session (.cancel orderId)) :
    Placed {
      engine := (session.engine.cancelOrder orderId).2
      ledger := session.cancelled orderId } := by
  rcases cancel_cases session orderId with dead | ⟨order, found, live⟩
  · rw [(cancel_refused dead).1, (cancel_refused dead).2]
    exact placed
  · rw [(cancel_live found live).1, (cancel_live found live).2]
    exact cancel_placed placed found ((harmless_live found live).mp harmless)

/-- One call keeps the agreement exactly when it is harmless. -/
theorem agrees_step {call : SimCall} (agrees : Agrees session) (placed : Placed session)
    (fresh : Fresh session call) (taken : step session call = some next) :
    Agrees next ↔ Harmless session call := by
  cases call with
  | submit order timestampNs =>
    obtain ⟨answer, answered, rfl⟩ := Option.map_eq_some_iff.mp taken
    exact agrees_submit agrees placed fresh answered
  | cancel orderId =>
    cases taken
    exact agrees_cancel agrees placed orderId

theorem placed_step {call : SimCall} (agrees : Agrees session) (placed : Placed session)
    (fresh : Fresh session call) (harmless : Harmless session call)
    (taken : step session call = some next) : Placed next := by
  cases call with
  | submit order timestampNs =>
    obtain ⟨answer, answered, rfl⟩ := Option.map_eq_some_iff.mp taken
    exact placed_submit agrees placed fresh harmless answered
  | cancel orderId =>
    cases taken
    exact placed_cancel placed harmless

theorem agrees_start : Agrees Session.start where
  levels := fun side _ _ there => by cases side <;> cases there
  filled := fun _ _ there => by cases there

theorem placed_start : Placed Session.start where
  own := fun side _ _ there => by cases side <;> cases there
  queued := fun side _ _ there => by cases side <;> cases there
  left := fun _ _ _ member => by cases member
  known := fun _ _ _ member => by cases member

/-- In a run of orders with identifiers that are not taken, levels, queues and orders agree in
every state if and only if every call is harmless. -/
theorem agree_iff_harmless (calls : List SimCall)
    (fresh : Guarded step Fresh Session.start calls) :
    Always step Agrees Session.start calls ↔ Guarded step Harmless Session.start calls :=
  always_iff_guarded_of
    (fun _ _ _ placed agrees fresh harmless taken =>
      placed_step agrees placed fresh harmless taken)
    (fun _ _ _ placed agrees fresh taken => agrees_step agrees placed fresh taken)
    placed_start agrees_start calls fresh

/-- A bid and an ask that do not cross, of which the bid is cancelled. -/
def apart : List SimCall :=
  [.submit (.newLimit 1 "BTCUSDT" .buy 49000 1 .gtc) 0,
    .submit (.newLimit 2 "BTCUSDT" .sell 50000 1 .gtc) 1, .cancel 1]

/-- Orders that do not meet agree with their levels until one is cancelled and after. -/
theorem apart_agree : Guarded step Fresh Session.start apart ∧
    Always step Agrees Session.start apart :=
  ⟨by decide +kernel, (agree_iff_harmless apart (by decide +kernel)).mpr (by decide +kernel)⟩

/-- An ask of one bitcoin that a bid of half a bitcoin hits. -/
def partialHit : List SimCall :=
  [.submit (.newLimit 1 "BTCUSDT" .sell 50000 1 .gtc) 1000,
    .submit (.newLimit 2 "BTCUSDT" .buy 50000 (1 / 2) .gtc) 2000]

/-- After a partial hit the level holds half of what its order still asks. -/
theorem hit_level_disagrees : Guarded step Fresh Session.start partialHit ∧
    ¬Always step Agrees Session.start partialHit := by
  refine ⟨by decide +kernel, ?_⟩
  have reached : (exec step Session.start partialHit).map (fun session =>
      ((session.engine.asks.lookup 50000).map fun level => (level.totalQuantity,
        (level.orders.map (remainingOf session.engine.orders)).sum))) =
      some (some (1 / 2, 1)) := by
    decide +kernel
  refine not_always_of_view reached fun final half agrees => ?_
  obtain ⟨level, there, both⟩ := Option.map_eq_some_iff.mp half
  have total := (agrees.levels .sell 50000 level there).total
  rw [(Prod.mk.inj both).1, (Prod.mk.inj both).2] at total
  exact absurd total (by decide +kernel)

end Runs

end TradingBot.Simulation
