import Mathlib.Algebra.Order.BigOperators.Group.List
import TradingBot.Backtest.MatchingEngine

/-!
# What matching does

The loop of `match_order` as one relation between the engine and order before it and the
trades, order and engine after it: what it keeps, what it takes from the opposite side and in
which order, and why it stops. Each round empties the best level or fills the order.
-/

open OrderedMap

namespace TradingBot.OrderMatching

/-- The quantity of some trades. -/
def traded (trades : List Trade) : ℚ := (trades.map Trade.quantity).sum

/-- The quantity of the trades at a price. -/
def tradedAt (trades : List Trade) (price : ℚ) : ℚ :=
  traded (trades.filter fun trade => trade.price = price)

/-- Every level has a positive quantity. -/
def Positive (levels : Levels) : Prop :=
  ∀ price level, levels.lookup price = some level → 0 < level.quantity

@[simp] theorem traded_nil : traded [] = 0 := rfl

@[simp] theorem traded_cons (trade : Trade) (rest : List Trade) :
    traded (trade :: rest) = trade.quantity + traded rest := rfl

theorem tradedAt_cons_same (trade : Trade) (rest : List Trade) :
    tradedAt (trade :: rest) trade.price = trade.quantity + tradedAt rest trade.price := by
  simp [tradedAt]

variable {price : ℚ} {trades : List Trade} {engine : MatchingEngine} {request : OrderRequest}
  {order : Order}

theorem tradedAt_cons_other {trade : Trade} (other : trade.price ≠ price) (rest : List Trade) :
    tradedAt (trade :: rest) price = tradedAt rest price := by
  simp [tradedAt, other]

theorem tradedAt_eq_zero (none : ∀ trade ∈ trades, trade.price ≠ price) :
    tradedAt trades price = 0 := by
  have empty : trades.filter (fun trade => trade.price = price) = [] :=
    List.filter_eq_nil_iff.mpr fun trade member => by simpa using none trade member
  rw [tradedAt, empty, traded_nil]

/-! ## One round -/

section Round

variable {levels : Levels} {price : ℚ} {level : PriceLevel} {fillQty : ℚ}

theorem lookup_consume_other {other : ℚ} (differ : other ≠ price) :
    (MatchingEngine.consume levels price level fillQty).lookup other = levels.lookup other := by
  unfold MatchingEngine.consume
  split
  · rw [lookup_erase, if_neg differ]
  · rw [lookup_insert, if_neg differ]

/-- Consuming a level removes it or takes the fill from it. -/
theorem lookup_consume_same :
    (MatchingEngine.consume levels price level fillQty).lookup price =
      if level.quantity ≤ fillQty then none
      else some { level with quantity := level.quantity - fillQty } := by
  unfold MatchingEngine.consume
  split
  · rw [lookup_erase, if_pos rfl]
  · rw [lookup_insert, if_pos rfl]

theorem consume_shrinks (nonneg : 0 ≤ fillQty) (present : levels.lookup price = some level)
    {other : ℚ} {found : PriceLevel}
    (kept : (MatchingEngine.consume levels price level fillQty).lookup other = some found) :
    ∃ before, levels.lookup other = some before ∧ found.quantity ≤ before.quantity := by
  by_cases same : other = price
  · rw [same, lookup_consume_same] at kept
    by_cases emptied : level.quantity ≤ fillQty
    · rw [if_pos emptied] at kept
      cases kept
    · rw [if_neg emptied] at kept
      cases kept
      exact ⟨level, same ▸ present, sub_le_self _ nonneg⟩
  · rw [lookup_consume_other same] at kept
    exact ⟨found, kept, le_rfl⟩

theorem positive_consume (positive : Positive levels) :
    Positive (MatchingEngine.consume levels price level fillQty) := by
  intro other found present
  by_cases same : other = price
  · rw [same, lookup_consume_same] at present
    by_cases emptied : level.quantity ≤ fillQty
    · rw [if_pos emptied] at present
      cases present
    · rw [if_neg emptied] at present
      cases present
      exact sub_pos.mpr (not_le.mp emptied)
  · rw [lookup_consume_other same] at present
    exact positive other found present

end Round

/-! ## The loop -/

/-- The trades, order and engine that matching an order leads to. -/
structure Execution (engine : MatchingEngine) (order : Order) (trades : List Trade)
    (matched : Order) (after : MatchingEngine) : Prop where
  same : order.SameOrder matched
  filled : matched.filledQuantity = order.filledQuantity + traded trades
  /-- What is filled is no longer left. -/
  conserved : matched.filledQuantity + matched.remainingQuantity =
    order.filledQuantity + order.remainingQuantity
  /-- No more is filled than was left. -/
  nonneg : 0 ≤ order.remainingQuantity → 0 ≤ matched.remainingQuantity
  /-- Every trade is within the limit. -/
  within : ∀ trade ∈ trades, ¬MatchingEngine.beyondLimit order trade.price
  /-- Every trade takes something at a level of the opposite side. -/
  present : ∀ trade ∈ trades, 0 < trade.quantity ∧
    ∃ level, (engine.levels order.side.opposite).lookup trade.price = some level
  /-- The prices go from the best level to worse ones. -/
  ordered : trades.Pairwise fun first second =>
    order.side.bestEnd.Nearer first.price second.price
  /-- A level better than the price of a trade is taken whole and gone. -/
  thorough : ∀ trade ∈ trades, ∀ price level,
    (engine.levels order.side.opposite).lookup price = some level →
    order.side.bestEnd.Nearer price trade.price →
    tradedAt trades price = level.quantity ∧
      (after.levels order.side.opposite).lookup price = none
  /-- Levels of the opposite side only lose quantity. -/
  shrunk : ∀ price found, (after.levels order.side.opposite).lookup price = some found →
    ∃ level, (engine.levels order.side.opposite).lookup price = some level ∧
      found.quantity ≤ level.quantity
  /-- The levels left have positive quantities. -/
  positive : Positive (after.levels order.side.opposite)
  /-- An order that is not filled has met the end of the book or its limit. -/
  stopped : 0 < matched.remainingQuantity →
    ∀ best, (after.levels order.side.opposite).edge order.side.bestEnd = some best →
      MatchingEngine.beyondLimit order best.1
  /-- The order's own side is untouched. -/
  own : after.levels order.side = engine.levels order.side
  orders : after.orders = engine.orders
  orderIdCounter : after.orderIdCounter = engine.orderIdCounter
  symbolRules : after.symbolRules = engine.symbolRules

variable {engine : MatchingEngine} {order : Order}

theorem beyondLimit_same {first second : Order} (same : first.SameOrder second) (price : ℚ) :
    MatchingEngine.beyondLimit second price ↔ MatchingEngine.beyondLimit first price := by
  unfold MatchingEngine.beyondLimit
  rw [same.orderType, same.side, same.price]

theorem traded_nonneg (takes : ∀ trade ∈ trades, 0 < trade.quantity) : 0 ≤ traded trades := by
  apply List.sum_nonneg
  intro quantity member
  obtain ⟨trade, tradeMember, same⟩ := List.mem_map.mp member
  exact same ▸ le_of_lt (takes trade tradeMember)

theorem Execution.no_trades {matched : Order} {after : MatchingEngine}
    (execution : Execution engine order trades matched after)
    (nothing : order.remainingQuantity = 0) : trades = [] := by
  have left := execution.nonneg (le_of_eq nothing.symm)
  have filled := execution.filled
  have conserved := execution.conserved
  cases trades with
  | nil => rfl
  | cons first rest =>
    have takes := (execution.present first List.mem_cons_self).1
    have more := traded_nonneg fun trade member =>
      (execution.present trade (List.mem_cons_of_mem _ member)).1
    rw [traded_cons] at filled
    linarith

theorem execution_done (positive : Positive (engine.levels order.side.opposite))
    (stopped : 0 < order.remainingQuantity →
      ∀ best, (engine.levels order.side.opposite).edge order.side.bestEnd = some best →
        MatchingEngine.beyondLimit order best.1) :
    Execution engine order [] order engine where
  same := .refl order
  filled := by rw [traded_nil, add_zero]
  conserved := rfl
  nonneg left := left
  within trade member := by cases member
  present trade member := by cases member
  ordered := .nil
  thorough trade member := by cases member
  shrunk price found present := ⟨found, present, le_rfl⟩
  positive := positive
  stopped := stopped
  own := rfl
  orders := rfl
  orderIdCounter := rfl
  symbolRules := rfl

section FirstRound

variable {price fillQty : ℚ} {level : PriceLevel} {trades : List Trade} {matched : Order}
  {after : MatchingEngine}

/-- The engine after a round. -/
def afterRound (engine : MatchingEngine) (order : Order) (price : ℚ) (level : PriceLevel)
    (fillQty : ℚ) : MatchingEngine :=
  (engine.executeFill order price fillQty false).2.setLevels order.side.opposite
    (MatchingEngine.consume (engine.levels order.side.opposite) price level fillQty)

/-- A round consumes from the level it matches. -/
theorem levels_afterRound :
    (afterRound engine order price level fillQty).levels (order.fill fillQty).side.opposite =
      MatchingEngine.consume (engine.levels order.side.opposite) price level fillQty := by
  rw [(order.sameOrder_fill fillQty).side]
  exact MatchingEngine.levels_setLevels _ _ _

theorem left_afterRound (atMost : fillQty ≤ order.remainingQuantity) :
    (order.fill fillQty).filledQuantity = order.filledQuantity + fillQty ∧
      (order.fill fillQty).remainingQuantity = order.remainingQuantity - fillQty := by
  rw [Order.fill_filledQuantity, Order.fill_remainingQuantity, min_eq_left atMost]
  exact ⟨rfl, rfl⟩

theorem emptied_of_trades (quantity : fillQty = min order.remainingQuantity level.quantity)
    (later : Execution (afterRound engine order price level fillQty) (order.fill fillQty) trades
      matched after) (some_ : trades ≠ []) : level.quantity = fillQty := by
  by_contra differ
  have whole : fillQty = order.remainingQuantity := by
    rw [quantity]
    apply min_eq_left
    apply le_of_not_ge
    intro less
    apply differ
    rw [quantity, min_eq_right less]
  have nothing : (order.fill fillQty).remainingQuantity = 0 := by
    rw [(left_afterRound (le_of_eq whole)).2, whole, sub_self]
  exact some_ (later.no_trades nothing)

theorem gone_of_trades (quantity : fillQty = min order.remainingQuantity level.quantity)
    (later : Execution (afterRound engine order price level fillQty) (order.fill fillQty) trades
      matched after) (some_ : trades ≠ []) :
    (MatchingEngine.consume (engine.levels order.side.opposite) price level fillQty).lookup price =
      none :=
  lookup_consume_same.trans (if_pos (le_of_eq (emptied_of_trades quantity later some_)))

theorem later_trades (takes : 0 ≤ fillQty)
    (found : (engine.levels order.side.opposite).lookup price = some level)
    (quantity : fillQty = min order.remainingQuantity level.quantity)
    (later : Execution (afterRound engine order price level fillQty) (order.fill fillQty) trades
      matched after) {trade : Trade} (member : trade ∈ trades) :
    trade.price ≠ price ∧
      ∃ standing, (engine.levels order.side.opposite).lookup trade.price = some standing := by
  obtain ⟨between, there⟩ := (later.present trade member).2
  rw [levels_afterRound] at there
  obtain ⟨standing, stood, _⟩ := consume_shrinks takes found there
  refine ⟨?_, standing, stood⟩
  intro same
  rw [same, gone_of_trades quantity later (List.ne_nil_of_mem member)] at there
  cases there

/-- A level better than the price of a later trade is taken whole by the round and the later
ones. -/
theorem thorough_later (takes : 0 ≤ fillQty)
    (found : (engine.levels order.side.opposite).lookup price = some level)
    (quantity : fillQty = min order.remainingQuantity level.quantity)
    (later : Execution (afterRound engine order price level fillQty) (order.fill fillQty) trades
      matched after) {trade first : Trade} (member : trade ∈ trades)
    (here : first.price = price) (whole : first.quantity = fillQty) {other : ℚ}
    {standing : PriceLevel}
    (stood : (engine.levels order.side.opposite).lookup other = some standing)
    (nearer : order.side.bestEnd.Nearer other trade.price) :
    tradedAt (first :: trades) other = standing.quantity ∧
      (after.levels order.side.opposite).lookup other = none := by
  have side := (order.sameOrder_fill fillQty).side
  have some_ := List.ne_nil_of_mem member
  by_cases same : other = price
  · subst same
    cases found.symm.trans stood
    have alone : tradedAt trades other = 0 := tradedAt_eq_zero fun trade member =>
      (later_trades takes found quantity later member).1
    constructor
    · have counted := tradedAt_cons_same first trades
      rw [here, whole, alone, add_zero] at counted
      rw [counted, emptied_of_trades quantity later some_]
    · by_contra remains
      obtain ⟨rest, left⟩ := Option.ne_none_iff_exists'.mp remains
      rw [← side] at left
      obtain ⟨_, there, _⟩ := later.shrunk other rest left
      rw [levels_afterRound, gone_of_trades quantity later some_] at there
      cases there
  · have laterThorough := later.thorough trade member other standing
    rw [levels_afterRound, lookup_consume_other same, side] at laterThorough
    have taken := laterThorough stood nearer
    have elsewhere : first.price ≠ other := fun equal => same (equal.symm.trans here)
    exact ⟨(tradedAt_cons_other elsewhere trades).trans taken.1, taken.2⟩

/-- A round at the best level before an execution is an execution. -/
theorem execution_round (positive : Positive (engine.levels order.side.opposite))
    (opened : 0 < order.remainingQuantity)
    (best : (engine.levels order.side.opposite).edge order.side.bestEnd = some (price, level))
    (limit : ¬MatchingEngine.beyondLimit order price)
    (quantity : fillQty = min order.remainingQuantity level.quantity)
    (later : Execution (afterRound engine order price level fillQty) (order.fill fillQty) trades
      matched after) :
    Execution engine order ((engine.executeFill order price fillQty false).1 :: trades)
      matched after := by
  have same := order.sameOrder_fill fillQty
  have found := lookup_edge best
  have takes : 0 < fillQty := quantity ▸ lt_min opened (positive price level found)
  have atMost : fillQty ≤ order.remainingQuantity := quantity ▸ min_le_left _ _
  have left := left_afterRound atMost
  exact {
    same := same.trans later.same
    filled := by
      rw [later.filled, left.1, traded_cons, add_assoc]
      rfl
    conserved := by
      rw [later.conserved, left.1, left.2]
      ring
    nonneg := fun _ => later.nonneg (by
      rw [left.2]
      exact sub_nonneg.mpr atMost)
    within := by
      intro trade member
      cases member with
      | head => exact limit
      | tail _ member =>
        exact fun beyond => later.within trade member ((beyondLimit_same same _).mpr beyond)
    present := by
      intro trade member
      cases member with
      | head => exact ⟨takes, level, found⟩
      | tail _ member =>
        have before := later_trades (le_of_lt takes) found quantity later member
        exact ⟨(later.present trade member).1, before.2⟩
    ordered := by
      have ordered := later.ordered
      rw [same.side] at ordered
      refine List.pairwise_cons.mpr ⟨?_, ordered⟩
      intro trade member
      obtain ⟨elsewhere, standing, stood⟩ :=
        later_trades (le_of_lt takes) found quantity later member
      exact nearer_edge best stood elsewhere
    thorough := by
      intro trade member other standing stood nearer
      cases member with
      | head =>
        by_cases here : other = price
        · exact absurd nearer (by rw [here]; exact End.nearer_irrefl _ _)
        · exact absurd nearer (End.nearer_asymm (nearer_edge best stood here))
      | tail _ member =>
        exact thorough_later (le_of_lt takes) found quantity later member rfl rfl stood nearer
    shrunk := by
      intro other rest remains
      rw [← same.side] at remains
      obtain ⟨middle, there, less⟩ := later.shrunk other rest remains
      rw [levels_afterRound] at there
      obtain ⟨standing, stood, more⟩ := consume_shrinks (le_of_lt takes) found there
      exact ⟨standing, stood, less.trans more⟩
    positive := same.side ▸ later.positive
    stopped := by
      intro unfilled other edge
      rw [← same.side] at edge
      exact (beyondLimit_same same _).mp (later.stopped unfilled other edge)
    own := by
      have own := later.own
      rw [same.side] at own
      apply own.trans
      unfold afterRound
      rw [MatchingEngine.levels_setLevels_opposite, MatchingEngine.levels_executeFill]
    orders := later.orders.trans (MatchingEngine.orders_setLevels _ _ _)
    orderIdCounter := later.orderIdCounter.trans (MatchingEngine.orderIdCounter_setLevels _ _ _)
    symbolRules := later.symbolRules.trans (MatchingEngine.symbolRules_setLevels _ _ _) }

end FirstRound

/-- The loop of the matching is an execution. -/
theorem matchOrder_execution (engine : MatchingEngine) (order : Order)
    (positive : Positive (engine.levels order.side.opposite)) :
    Execution engine order (engine.matchOrder order).1 (engine.matchOrder order).2.1
      (engine.matchOrder order).2.2 := by
  fun_induction MatchingEngine.matchOrder engine order with
  | case1 engine order opened none =>
    exact execution_done positive fun _ best found => by simp [none] at found
  | case2 engine order opened price level best limit =>
    apply execution_done positive
    intro _ other found
    cases best.symm.trans found
    exact limit
  | case3 engine order opened price level best limit fillQty executed later ih =>
    apply execution_round positive opened best limit rfl
    apply ih
    rw [(order.sameOrder_fill _).side, MatchingEngine.levels_setLevels]
    exact positive_consume positive
  | case4 engine order closed => exact execution_done positive fun opened => absurd opened closed

theorem matchOrder_quiet
    (quiet : ∀ best, (engine.levels order.side.opposite).edge order.side.bestEnd = some best →
      MatchingEngine.beyondLimit order best.1) :
    engine.matchOrder order = ([], order, engine) := by
  fun_cases MatchingEngine.matchOrder engine order with
  | case1 opened none => rfl
  | case2 opened price level best limit => rfl
  | case3 opened price level best limit fillQty executed later => exact absurd (quiet _ best) limit
  | case4 closed => rfl

theorem matchOrder_takes {price : ℚ} {level : PriceLevel}
    (positive : Positive (engine.levels order.side.opposite))
    (opened : 0 < order.remainingQuantity)
    (best : (engine.levels order.side.opposite).edge order.side.bestEnd = some (price, level))
    (limit : ¬MatchingEngine.beyondLimit order price) :
    ∀ rest, ((engine.matchOrder order).2.2.levels order.side.opposite).lookup price = some rest →
      rest.quantity < level.quantity := by
  intro rest left
  have found := lookup_edge best
  have takes : 0 < min order.remainingQuantity level.quantity :=
    lt_min opened (positive price level found)
  revert left
  fun_cases MatchingEngine.matchOrder engine order with
  | case1 _ none => cases best.symm.trans none
  | case2 _ other standing edge beyond =>
    cases best.symm.trans edge
    exact absurd beyond limit
  | case3 _ other standing edge within fillQty executed later =>
    cases best.symm.trans edge
    intro left
    have execution := matchOrder_execution (afterRound engine order price level fillQty)
      (order.fill fillQty) (by
        rw [levels_afterRound]
        exact positive_consume positive)
    have shrunk := execution.shrunk price rest
    rw [levels_afterRound, lookup_consume_same, (order.sameOrder_fill fillQty).side] at shrunk
    obtain ⟨between, there, less⟩ := shrunk left
    split at there
    · cases there
    · cases there
      exact lt_of_le_of_lt less (sub_lt_self _ takes)
  | case4 closed => exact absurd opened closed

/-! ## Before and after the loop -/

/-- What an accepted request has become. -/
theorem accept_ok (accepted : engine.accept request = .ok order) :
    order = .new engine.orderIdCounter request.symbol request.side request.orderType
        (engine.symbolRules.normalizePrice request.price)
        (engine.symbolRules.normalizeQuantity request.quantity) request.timeInForce ∧
      engine.symbolRules.minQuantity ≤ engine.symbolRules.normalizeQuantity request.quantity := by
  unfold MatchingEngine.accept at accepted
  dsimp only at accepted
  cases valid : engine.symbolRules.validateOrder
      (engine.symbolRules.normalizePrice request.price)
      (engine.symbolRules.normalizeQuantity request.quantity) with
  | error error =>
    rw [valid] at accepted
    cases accepted
  | ok accepted_ =>
    rw [valid] at accepted
    refine ⟨(Except.ok.inj accepted).symm, ?_⟩
    unfold SymbolRules.validateOrder at valid
    split at valid
    · cases valid
    · split at valid
      · cases valid
      · rename_i bounds
        exact not_lt.mp fun small => bounds (.inl small)

theorem levels_addToBook (engine : MatchingEngine) (order : Order) :
    ((engine.addToBook order).levels order.side.opposite =
      engine.levels order.side.opposite) := by
  unfold MatchingEngine.addToBook
  cases order.side <;> rfl

theorem lookup_addToBook (engine : MatchingEngine) (order : Order) (side : Side) (price : ℚ) :
    ((engine.addToBook order).levels side).lookup price =
      if side = order.side ∧ price = order.price then
        let level := ((engine.levels order.side).lookup order.price).getD {
          price := order.price
          quantity := 0
          orderCount := 0 }
        some { level with
          quantity := level.quantity + order.remainingQuantity
          orderCount := level.orderCount + 1 }
      else (engine.levels side).lookup price := by
  unfold MatchingEngine.addToBook
  by_cases own : side = order.side
  · subst own
    rw [MatchingEngine.levels_setLevels, lookup_insert]
    by_cases same : price = order.price
    · rw [if_pos same, if_pos ⟨rfl, same⟩]
    · rw [if_neg same, if_neg fun here => same here.2]
  · rw [MatchingEngine.levels_setLevels_other own, if_neg fun here => own here.1]

theorem markPartial_untraded (untraded : order.filledQuantity = 0) :
    MatchingEngine.markPartial order = order := by
  unfold MatchingEngine.markPartial
  rw [untraded]
  exact if_neg fun traded => absurd traded.1 (lt_irrefl 0)

theorem markPartial_eq (order : Order) :
    ∃ status, MatchingEngine.markPartial order = { order with status := status } := by
  unfold MatchingEngine.markPartial
  split
  · exact ⟨_, rfl⟩
  · exact ⟨order.status, rfl⟩

theorem sameOrder_status (order : Order) (status : OrderStatus) :
    order.SameOrder { order with status := status } := ⟨rfl, rfl, rfl, rfl, rfl⟩

theorem settle_rests (left : 0 < order.remainingQuantity) (rests : order.Rests) :
    engine.settle order =
      (MatchingEngine.markPartial order, engine.addToBook (MatchingEngine.markPartial order)) := by
  obtain ⟨status, marked⟩ := markPartial_eq order
  unfold MatchingEngine.settle
  rw [marked]
  simp only [left, rests.1, and_self, if_true]
  cases rests.2 with
  | inl gtc => simp only [gtc]
  | inr gtd => simp only [gtd]

theorem settle_leaves {engine : MatchingEngine} {order : Order}
    (leaves : ¬(0 < order.remainingQuantity ∧ order.Rests)) :
    (engine.settle order).2 = engine ∧
      ((engine.settle order).1 = MatchingEngine.markPartial order ∨
        (engine.settle order).1 =
          { MatchingEngine.markPartial order with status := .cancelled }) := by
  obtain ⟨status, marked⟩ := markPartial_eq order
  unfold MatchingEngine.settle
  rw [marked]
  dsimp only
  by_cases open_ : 0 < order.remainingQuantity ∧ order.orderType = .limit
  · rw [if_pos open_]
    cases tif : order.timeInForce with
    | gtc => exact absurd ⟨open_.1, open_.2, .inl tif⟩ leaves
    | gtd => exact absurd ⟨open_.1, open_.2, .inr tif⟩ leaves
    | ioc =>
      rw [if_neg fun fok => TimeInForce.noConfusion fok.2]
      exact ⟨rfl, .inl rfl⟩
    | fok =>
      rw [if_pos ⟨open_.2, rfl⟩]
      exact ⟨rfl, .inr rfl⟩
  · rw [if_neg open_]
    exact ⟨rfl, .inl rfl⟩

/-- Settling sets the order's status. -/
theorem settle_cases (engine : MatchingEngine) (order : Order) :
    ∃ status, (engine.settle order).1 = { order with status := status } ∧
      ((engine.settle order).2 = engine ∨
        0 < order.remainingQuantity ∧
          (engine.settle order).2 = engine.addToBook { order with status := status }) := by
  obtain ⟨status, marked⟩ := markPartial_eq order
  by_cases waits : 0 < order.remainingQuantity ∧ order.Rests
  · rw [settle_rests waits.1 waits.2, marked]
    exact ⟨status, rfl, .inr ⟨waits.1, rfl⟩⟩
  · have leaves := @settle_leaves engine order waits
    rw [marked] at leaves
    cases leaves.2 with
    | inl kept => exact ⟨status, kept, .inl leaves.1⟩
    | inr cancelled => exact ⟨.cancelled, cancelled, .inl leaves.1⟩

theorem levels_settle_opposite (after : MatchingEngine) (matched : Order) :
    (after.settle matched).2.levels matched.side.opposite =
      after.levels matched.side.opposite := by
  obtain ⟨status, _, book⟩ := settle_cases after matched
  cases book with
  | inl kept => rw [kept]
  | inr added =>
    rw [added.2]
    exact levels_addToBook after { matched with status := status }

theorem settle_frame (engine : MatchingEngine) (order : Order) :
    (engine.settle order).2.orders = engine.orders ∧
      (engine.settle order).2.orderIdCounter = engine.orderIdCounter := by
  obtain ⟨status, _, book⟩ := settle_cases engine order
  cases book with
  | inl kept => rw [kept]; exact ⟨rfl, rfl⟩
  | inr added =>
    rw [added.2]
    exact ⟨MatchingEngine.orders_setLevels _ _ _, MatchingEngine.orderIdCounter_setLevels _ _ _⟩

/-- A refused request changes nothing. -/
theorem submit_error {error : MatchingError} (refused : engine.accept request = .error error) :
    engine.submit request = (.error error, engine) := by
  simp only [MatchingEngine.submit, refused]

/-- An accepted request is matched, settled and recorded. -/
theorem submit_ok {matched : Order} {after : MatchingEngine}
    (accepted : engine.accept request = .ok order)
    (executed : engine.drawOrderId.matchOrder order = (trades, matched, after)) :
    engine.submit request = (.ok ((after.settle matched).1, trades),
      (after.settle matched).2.record order.orderId (after.settle matched).1) := by
  simp only [MatchingEngine.submit, accepted, executed]

/-! ## Cancellation -/

theorem lookup_withdraw_other {levels : Levels} (differ : price ≠ order.price) :
    (MatchingEngine.withdraw levels order).lookup price = levels.lookup price := by
  unfold MatchingEngine.withdraw
  split
  · rfl
  · dsimp only
    split
    · rw [lookup_erase, if_neg differ]
    · rw [lookup_insert, if_neg differ]

theorem lookup_withdraw_same (levels : Levels) (order : Order) :
    (MatchingEngine.withdraw levels order).lookup order.price =
      (levels.lookup order.price).bind fun level =>
        if level.quantity - order.remainingQuantity ≤ 0 then none
        else some { level with
          quantity := level.quantity - order.remainingQuantity
          orderCount := level.orderCount - 1 } := by
  unfold MatchingEngine.withdraw
  cases found : levels.lookup order.price with
  | none => exact found
  | some level =>
    dsimp only
    rw [Option.bind_some]
    split
    · rw [lookup_erase, if_pos rfl]
    · rw [lookup_insert, if_pos rfl]

theorem lookup_withdrawn_other {side : Side}
    (elsewhere : ¬(side = order.side ∧ price = order.price)) :
    ((engine.setLevels order.side (MatchingEngine.withdraw (engine.levels order.side) order)).levels
      side).lookup price = (engine.levels side).lookup price := by
  by_cases own : side = order.side
  · subst own
    rw [MatchingEngine.levels_setLevels]
    exact lookup_withdraw_other fun same => elsewhere ⟨rfl, same⟩
  · rw [MatchingEngine.levels_setLevels_other own]

theorem cancelOrder_refused {orderId : Nat}
    (closed : ∀ order, engine.orders.lookup orderId = some order → order.isFilled = true) :
    engine.cancelOrder orderId = (.error (.orderNotFound orderId), engine) := by
  unfold MatchingEngine.cancelOrder
  cases found : engine.orders.lookup orderId with
  | none => rfl
  | some order => exact if_pos (closed order found)

theorem cancelOrder_open {orderId : Nat} (found : engine.orders.lookup orderId = some order)
    (open_ : ¬order.isFilled = true) :
    engine.cancelOrder orderId = (.ok { order with status := .cancelled },
      (engine.setLevels order.side
        (MatchingEngine.withdraw (engine.levels order.side) order)).record orderId
          { order with status := .cancelled }) := by
  unfold MatchingEngine.cancelOrder
  rw [found]
  exact if_neg open_

/-- A cancellation does nothing or withdraws an open order. -/
theorem cancel_cases (engine : MatchingEngine) (orderId : Nat) :
    (engine.cancelOrder orderId).2 = engine ∨
      ∃ order, engine.orders.lookup orderId = some order ∧ ¬order.isFilled = true ∧
        (engine.cancelOrder orderId).2 = (engine.setLevels order.side
          (MatchingEngine.withdraw (engine.levels order.side) order)).record orderId
            { order with status := .cancelled } := by
  by_cases closed : ∀ order, engine.orders.lookup orderId = some order → order.isFilled = true
  · rw [cancelOrder_refused closed]
    exact .inl rfl
  · have ⟨order, open_⟩ := not_forall.mp closed
    have ⟨found, unfilled⟩ := Classical.not_imp.mp open_
    exact .inr ⟨order, found, unfilled, by rw [cancelOrder_open found unfilled]⟩

end TradingBot.OrderMatching
