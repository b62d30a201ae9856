import TradingBot.Backtest.OrderMatching
import TradingBot.Foundation.Run

/-!
# Uncrossed books and best prices

In every run of submissions and cancellations the two sides stay apart, and every submission
trades from the best level on, within its limit, without leaving a better level behind. The
book alone carries the invariant: positive levels, and every bid below every ask.
-/

open OrderedMap Run

namespace TradingBot.BestPrice

open OrderMatching

/-- Every bid is below every ask. -/
def Apart (engine : MatchingEngine) : Prop :=
  ∀ bid ask bidLevel askLevel, engine.bids.lookup bid = some bidLevel →
    engine.asks.lookup ask = some askLevel → bid < ask

/-- The best bid is below the best ask. -/
def Uncrossed (engine : MatchingEngine) : Prop :=
  ∀ bid ask, engine.bestBid = some bid → engine.bestAsk = some ask → bid < ask

/-- A price is no worse than a limit. -/
def NoWorse (side : Side) (price limit : ℚ) : Prop :=
  match side with
  | .buy => price ≤ limit
  | .sell => limit ≤ price

/-- The trades of a submission, with the order it returns and the engine after it. -/
structure Fair (engine : MatchingEngine) (request : OrderRequest) (order : Order)
    (trades : List Trade) (after : MatchingEngine) : Prop where
  /-- The limit is the normalized price. -/
  price : order.price = engine.symbolRules.normalizePrice request.price
  /-- A limit order trades within its limit. -/
  limit : request.orderType = .limit →
    ∀ trade ∈ trades, NoWorse request.side trade.price order.price
  /-- The trades go from the best price to worse ones. -/
  ordered : trades.Pairwise fun first second =>
    request.side.bestEnd.Nearer first.price second.price
  /-- A level better than a trade is traded whole and leaves the book. -/
  thorough : ∀ trade ∈ trades, ∀ price level,
    (engine.levels request.side.opposite).lookup price = some level →
    request.side.bestEnd.Nearer price trade.price →
    tradedAt trades price = level.quantity ∧
      (after.levels request.side.opposite).lookup price = none
  filled : order.filledQuantity = traded trades
  /-- The quantity filled and the quantity left are the normalized quantity. -/
  total : order.filledQuantity + order.remainingQuantity =
    engine.symbolRules.normalizeQuantity request.quantity

/-- Whatever a submission returns was traded fairly. -/
def TradesFairly (engine : MatchingEngine) : EngineCall → Prop
  | .submit request => ∀ order trades, (engine.submit request).1 = .ok (order, trades) →
      Fair engine request order trades (engine.submit request).2
  | .cancel _ => True

/-- What holds of every engine. -/
structure Sound (engine : MatchingEngine) : Prop where
  /-- Both sides hold positive levels. -/
  positive : ∀ side, Positive (engine.levels side)
  /-- The sides are apart. -/
  apart : Apart engine
  /-- Every valid quantity is positive. -/
  rules : 0 < engine.symbolRules.minQuantity

theorem apart_iff (engine : MatchingEngine) (side : Side) :
    Apart engine ↔ ∀ own other ownLevel otherLevel,
      (engine.levels side).lookup own = some ownLevel →
      (engine.levels side.opposite).lookup other = some otherLevel →
      side.bestEnd.Nearer own other := by
  cases side with
  | buy => rfl
  | sell =>
    constructor
    · exact fun apart own other ownLevel otherLevel mine yours =>
        apart other own otherLevel ownLevel yours mine
    · exact fun apart bid ask bidLevel askLevel yours mine =>
        apart ask bid askLevel bidLevel mine yours

theorem uncrossed_of_apart {engine : MatchingEngine} (apart : Apart engine) :
    Uncrossed engine := by
  intro bid ask bestBid bestAsk
  obtain ⟨bidEntry, bidFound, sameBid⟩ := Option.map_eq_some_iff.mp bestBid
  obtain ⟨askEntry, askFound, sameAsk⟩ := Option.map_eq_some_iff.mp bestAsk
  rw [← sameBid, ← sameAsk]
  exact apart _ _ _ _ (lookup_edge bidFound) (lookup_edge askFound)

/-! ## Submission -/

section Submission

variable {engine : MatchingEngine} {request : OrderRequest} {order : Order}

theorem apart_of_execution {trades : List Trade} {matched : Order} {after : MatchingEngine}
    (apart : Apart engine) (execution : Execution engine order trades matched after) :
    Apart after := by
  rw [apart_iff after order.side]
  intro own other ownLevel otherLevel mine yours
  rw [execution.own] at mine
  obtain ⟨before, there, _⟩ := execution.shrunk other otherLevel yours
  exact (apart_iff engine order.side).mp apart own other ownLevel before mine there

theorem apart_addToBook (apart : Apart engine)
    (beyond : ∀ best, (engine.levels order.side.opposite).edge order.side.bestEnd = some best →
      MatchingEngine.beyondLimit order best.1) :
    Apart (engine.addToBook order) := by
  rw [apart_iff _ order.side]
  intro own other ownLevel otherLevel mine yours
  rw [levels_addToBook] at yours
  unfold MatchingEngine.addToBook at mine
  rw [MatchingEngine.levels_setLevels, lookup_insert] at mine
  by_cases new : own = order.price
  · cases edge : (engine.levels order.side.opposite).edge order.side.bestEnd with
    | none =>
      rw [edge_eq_none.mp edge other] at yours
      cases yours
    | some best =>
      have limit := (beyond best edge).2
      rw [new]
      by_cases same : other = best.1
      · exact same ▸ limit
      · exact End.nearer_trans limit (nearer_edge edge yours same)
  · rw [if_neg new] at mine
    exact (apart_iff engine order.side).mp apart own other ownLevel otherLevel mine yours

theorem positive_addToBook (positive : ∀ side, Positive (engine.levels side))
    (left : 0 < order.remainingQuantity) (side : Side) :
    Positive ((engine.addToBook order).levels side) := by
  have own : Positive ((engine.addToBook order).levels order.side) := by
    unfold MatchingEngine.addToBook
    rw [MatchingEngine.levels_setLevels]
    intro price level found
    rw [lookup_insert] at found
    by_cases new : price = order.price
    · rw [if_pos new] at found
      cases found
      cases before : (engine.levels order.side).lookup order.price with
      | none =>
        simp only [Option.getD_none]
        linarith
      | some level =>
        have standing := positive order.side order.price level before
        simp only [Option.getD_some]
        linarith
    · rw [if_neg new] at found
      exact positive order.side price level found
  have other : Positive ((engine.addToBook order).levels order.side.opposite) := by
    rw [levels_addToBook]
    exact positive order.side.opposite
  cases side <;> cases kind : order.side <;> simp only [kind, Side.opposite] at own other <;>
    assumption

theorem accepted_quantity (sound : Sound engine) (accepted : engine.accept request = .ok order) :
    0 < order.remainingQuantity := by
  have made := accept_ok accepted
  rw [made.1]
  exact lt_of_lt_of_le sound.rules made.2

/-- Settling a matched order keeps the engine sound. -/
theorem sound_settle {trades : List Trade} {matched : Order} {after : MatchingEngine}
    (sound : Sound engine) (execution : Execution engine order trades matched after) :
    Sound (after.settle matched).2 := by
  have sides : ∀ side, Positive (after.levels side) := by
    have own : Positive (after.levels order.side) := execution.own ▸ sound.positive order.side
    have other := execution.positive
    intro side
    cases side <;> cases kind : order.side <;> simp only [kind, Side.opposite] at own other <;>
      assumption
  have apart := apart_of_execution sound.apart execution
  have rules : 0 < after.symbolRules.minQuantity := execution.symbolRules ▸ sound.rules
  obtain ⟨status, _, book⟩ := settle_cases after matched
  cases book with
  | inl kept =>
    rw [kept]
    exact ⟨sides, apart, rules⟩
  | inr added =>
    have same := execution.same.trans (sameOrder_status matched status)
    rw [added.2]
    constructor
    · exact positive_addToBook sides added.1
    · apply apart_addToBook apart
      intro best edge
      rw [same.side] at edge
      exact (beyondLimit_same same _).mpr (execution.stopped added.1 best edge)
    · unfold MatchingEngine.addToBook
      rw [MatchingEngine.symbolRules_setLevels]
      exact rules

/-- A submission keeps the engine sound. -/
theorem sound_submit (sound : Sound engine) (request : OrderRequest) :
    Sound (engine.submit request).2 := by
  cases accepted : engine.accept request with
  | error error =>
    rw [submit_error accepted]
    exact sound
  | ok order =>
    have numbered : Sound engine.drawOrderId :=
      ⟨fun side => engine.levels_drawOrderId side ▸ sound.positive side, sound.apart, sound.rules⟩
    have execution := matchOrder_execution engine.drawOrderId order (numbered.positive _)
    have settled := sound_settle numbered execution
    rw [submit_ok accepted rfl]
    exact ⟨fun side => (MatchingEngine.levels_record _ _ _ side).symm ▸ settled.positive side,
      settled.apart, settled.rules⟩

theorem noWorse_of_within {price : ℚ} (limit : order.orderType = .limit)
    (within : ¬MatchingEngine.beyondLimit order price) : NoWorse order.side price order.price := by
  have inside : ¬order.side.bestEnd.Nearer order.price price := fun nearer =>
    within ⟨limit, nearer⟩
  cases kind : order.side with
  | buy =>
    rw [kind] at inside
    exact not_lt.mp inside
  | sell =>
    rw [kind] at inside
    exact not_lt.mp inside

theorem fair_submit (sound : Sound engine) (request : OrderRequest) :
    TradesFairly engine (.submit request) := by
  intro returned trades result
  cases accepted : engine.accept request with
  | error error =>
    rw [submit_error accepted] at result
    cases result
  | ok order =>
    have made := (accept_ok accepted).1
    have side : order.side = request.side := by rw [made]; rfl
    have type : order.orderType = request.orderType := by rw [made]; rfl
    have price : order.price = engine.symbolRules.normalizePrice request.price := by
      rw [made]; rfl
    have unfilled : order.filledQuantity = 0 := by rw [made]; rfl
    have left : order.remainingQuantity =
        engine.symbolRules.normalizeQuantity request.quantity := by rw [made]; rfl
    have execution := matchOrder_execution engine.drawOrderId order
      (engine.levels_drawOrderId _ ▸ sound.positive _)
    rw [submit_ok accepted rfl] at result ⊢
    obtain ⟨status, settled, _⟩ := settle_cases (engine.drawOrderId.matchOrder order).2.2
      (engine.drawOrderId.matchOrder order).2.1
    have same := execution.same
    cases result
    rw [settled]
    have ordered := execution.ordered
    have thorough := execution.thorough
    rw [side] at ordered thorough
    rw [MatchingEngine.levels_drawOrderId] at thorough
    have opposite := levels_settle_opposite (engine.drawOrderId.matchOrder order).2.2
      (engine.drawOrderId.matchOrder order).2.1
    rw [same.side, side] at opposite
    exact {
      price := same.price.trans price
      limit := fun limit trade member => by
        have within := execution.within trade member
        rw [← side]
        show NoWorse order.side trade.price (engine.drawOrderId.matchOrder order).2.1.price
        rw [same.price]
        exact noWorse_of_within (type.trans limit) within
      ordered := ordered
      thorough := fun trade member other level found nearer => by
        have whole := thorough trade member other level found nearer
        rw [MatchingEngine.levels_record, opposite]
        exact whole
      filled := by
        have filled := execution.filled
        rw [unfilled, zero_add] at filled
        exact filled
      total := by
        have conserved := execution.conserved
        rw [unfilled, left, zero_add] at conserved
        exact conserved }

end Submission

/-! ## Cancellation -/

theorem withdraw_levels {levels : Levels} (positive : Positive levels) (order : Order)
    {price : ℚ} {level : PriceLevel}
    (found : (MatchingEngine.withdraw levels order).lookup price = some level) :
    0 < level.quantity ∧ ∃ before, levels.lookup price = some before := by
  by_cases same : price = order.price
  · rw [same, lookup_withdraw_same] at found
    obtain ⟨before, there, kept⟩ := Option.bind_eq_some_iff.mp found
    split at kept
    · cases kept
    · rename_i more
      cases kept
      exact ⟨not_le.mp more, before, same ▸ there⟩
  · rw [lookup_withdraw_other same] at found
    exact ⟨positive price level found, level, found⟩

theorem cancel_levels {engine : MatchingEngine} (positive : ∀ side, Positive (engine.levels side))
    (orderId : Nat) (side : Side) {price : ℚ} {level : PriceLevel}
    (found : ((engine.cancelOrder orderId).2.levels side).lookup price = some level) :
    0 < level.quantity ∧ ∃ before, (engine.levels side).lookup price = some before := by
  cases cancel_cases engine orderId with
  | inl kept =>
    rw [kept] at found
    exact ⟨positive side price level found, level, found⟩
  | inr cancelled =>
    obtain ⟨order, _, _, after⟩ := cancelled
    rw [after, MatchingEngine.levels_record] at found
    by_cases own : side = order.side
    · rw [own, MatchingEngine.levels_setLevels] at found
      rw [own]
      exact withdraw_levels (positive order.side) order found
    · have other : order.side = side.opposite := by
        cases side <;> cases kind : order.side <;> simp_all [Side.opposite]
      rw [other, MatchingEngine.levels_setLevels_opposite] at found
      exact ⟨positive side price level found, level, found⟩

/-- A cancellation keeps the engine sound. -/
theorem sound_cancel {engine : MatchingEngine} (sound : Sound engine) (orderId : Nat) :
    Sound (engine.cancelOrder orderId).2 where
  positive side price level found := (cancel_levels sound.positive orderId side found).1
  apart bid ask bidLevel askLevel bidFound askFound := by
    obtain ⟨_, bidBefore, bidThere⟩ := cancel_levels sound.positive orderId .buy bidFound
    obtain ⟨_, askBefore, askThere⟩ := cancel_levels sound.positive orderId .sell askFound
    exact sound.apart bid ask bidBefore askBefore bidThere askThere
  rules := by
    cases cancel_cases engine orderId with
    | inl kept =>
      rw [kept]
      exact sound.rules
    | inr cancelled =>
      obtain ⟨order, _, _, after⟩ := cancelled
      rw [after]
      exact (MatchingEngine.symbolRules_setLevels _ _ _).symm ▸ sound.rules

/-! ## Runs -/

/-- A new engine is sound. -/
theorem sound_new (symbol : String) (initialPrice : ℚ) : Sound (.new symbol initialPrice) where
  positive side price level found := by cases side <;> cases found
  apart bid ask bidLevel askLevel found := by cases found
  rules := SymbolRules.minQuantity_pos symbol

/-- Every call keeps the engine sound. -/
theorem sound_step (engine : MatchingEngine) (call : EngineCall) (next : MatchingEngine)
    (sound : Sound engine) (stepped : engine.step call = some next) : Sound next := by
  cases call with
  | submit request =>
    cases stepped
    exact sound_submit sound request
  | cancel orderId =>
    cases stepped
    exact sound_cancel sound orderId

/-- Every run of a new engine is sound. -/
theorem sound_run (symbol : String) (initialPrice : ℚ) (calls : List EngineCall) :
    Always MatchingEngine.step Sound (.new symbol initialPrice) calls :=
  always_of_preserved sound_step (sound_new symbol initialPrice) calls

/-- In every run of submissions and cancellations on a new engine the book is never crossed, and
every submission trades from the best price on, within its limit, leaving no better level
behind, and accounts for its whole quantity. -/
theorem uncrossed_and_fair (symbol : String) (initialPrice : ℚ) (calls : List EngineCall) :
    Always MatchingEngine.step Uncrossed (.new symbol initialPrice) calls ∧
      Guarded MatchingEngine.step TradesFairly (.new symbol initialPrice) calls := by
  have always := sound_run symbol initialPrice calls
  refine ⟨always.imp fun engine sound => uncrossed_of_apart sound.apart, always.guarded ?_⟩
  intro engine call sound
  cases call with
  | submit request => exact fair_submit sound request
  | cancel orderId => trivial

end TradingBot.BestPrice
