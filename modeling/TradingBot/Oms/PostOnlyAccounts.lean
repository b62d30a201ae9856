import TradingBot.Foundation.Run
import TradingBot.Oms.PostOnlyManager

/-!
# Accounts of post-only orders

An order that is posted is recorded under one id and returned under the next, so that its fills are
not found again. An order that is refused for want of a market state is built and not counted.
-/

open Run MachineInt

namespace TradingBot.Oms.PostOnly

/-- One call on a manager, or a builder of it. -/
inductive PostOnlyCall where
  | update (state : MarketState)
  /-- `prepare_post_only_order`. -/
  | prepare (nowNs : Nat) (symbol : String) (isBuy : Bool) (size requestedPrice : ℚ)
  /-- `build` of an order builder. -/
  | build (nowNs : Nat) (symbol : String) (isBuy : Bool) (size price : ℚ)
  /-- `record_fill`. -/
  | fill (orderId : Nat) (fillSize fillPrice takerFeeRate : ℚ)

/-- A manager with the ids that were returned, the orders that were returned as posted, the newest
first, and whether an order was prepared without a builder. -/
structure Session where
  manager : PostOnlyManager
  returned : List Nat
  posted : List PostOnlyOrder
  direct : Bool

/-- A session of a new manager. -/
def Session.start (minSpreadBps : ℚ) (maxHistory : Nat) : Session where
  manager := .new minSpreadBps maxHistory
  returned := []
  posted := []
  direct := false

/-- A session after an order was returned. -/
def Session.answered (session : Session) (answer : PostOnlyOrder × PostOnlyManager)
    (direct : Bool) : Session where
  manager := answer.2
  returned := answer.1.orderId :: session.returned
  posted := if answer.1.isPosted then answer.1 :: session.posted else session.posted
  direct := session.direct || direct

/-- A session after a call; every call is answered. -/
def step (session : Session) : PostOnlyCall → Option Session
  | .update state => some { session with manager := session.manager.updateMarketState state }
  | .prepare nowNs symbol isBuy size requestedPrice => some (session.answered
      (session.manager.preparePostOnlyOrder nowNs symbol isBuy size requestedPrice) true)
  | .build nowNs symbol isBuy size price => some (session.answered
      (session.manager.build nowNs symbol isBuy size price) false)
  | .fill orderId fillSize fillPrice takerFeeRate => some { session with
      manager := session.manager.recordFill orderId fillSize fillPrice takerFeeRate }

/-- The newest orders that were posted. -/
def Session.newest (session : Session) : List PostOnlyOrder :=
  session.posted.take session.manager.maxHistory

/-- A fill of one of the newest posted orders adds to the savings, and one of an order that was
never returned changes nothing. -/
def CountsFill (session : Session) (call : PostOnlyCall) (next : Session) : Prop :=
  match call with
  | .fill orderId fillSize fillPrice takerFeeRate =>
    ((∃ order ∈ session.newest, order.orderId = orderId) →
      next.manager.feeSavings =
        session.manager.feeSavings + fillSize * fillPrice * takerFeeRate) ∧
    (orderId ∉ session.returned → next.manager = session.manager)
  | _ => True

/-- The books follow the orders: the newest posted orders are in the history as they were returned,
the orders of builders add up, and fills are counted. -/
structure Follows (session : Session) (call : PostOnlyCall) (next : Session) : Prop where
  kept : ∀ order ∈ next.newest, order ∈ next.manager.recentOrders
  counted : next.direct = false →
    next.manager.totalOrders = next.manager.postedOrders + next.manager.rejectedOrders
  fills : CountsFill session call next

/-- The price of an order can be posted at the market of a manager. -/
def WouldPost (manager : PostOnlyManager) (isBuy : Bool) (price : ℚ) : Prop :=
  ∃ market ∈ manager.marketState, market.Posts manager.minSpreadBps isBuy price

instance (manager : PostOnlyManager) (isBuy : Bool) (price : ℚ) :
    Decidable (WouldPost manager isBuy price) :=
  inferInstanceAs (Decidable (∃ market ∈ manager.marketState, _))

/-- A call is in bounds if no order is posted, and no order of a builder comes before a market
state while all orders are those of builders. -/
def InBounds (session : Session) : PostOnlyCall → Prop
  | .prepare _ _ isBuy _ requestedPrice => ¬ WouldPost session.manager isBuy requestedPrice
  | .build _ _ isBuy _ price => ¬ WouldPost session.manager isBuy price ∧
      (session.direct = false → session.manager.marketState ≠ none)
  | _ => True

instance (session : Session) : DecidablePred (InBounds session)
  | .prepare _ _ _ _ _ => inferInstanceAs (Decidable (¬ WouldPost _ _ _))
  | .build _ _ _ _ _ => inferInstanceAs (Decidable (¬ WouldPost _ _ _ ∧ (_ = false → _ ≠ none)))
  | .update _ | .fill _ _ _ _ => inferInstanceAs (Decidable True)

/-- Nothing was posted yet, and the orders of builders were counted. -/
structure Quiet (session : Session) : Prop where
  enabled : session.manager.enabled = true
  history : 1 ≤ session.manager.maxHistory
  recent : session.manager.recentOrders = []
  posted : session.posted = []
  none_ : session.manager.postedOrders = 0
  counted : session.direct = false →
    session.manager.totalOrders = session.manager.rejectedOrders

section Accounts

variable {manager : PostOnlyManager} {session next : Session} {call : PostOnlyCall}
  {isBuy : Bool} {price : ℚ}

theorem castU64_succ_ne (counter : Nat) : castU64 (counter + 1) ≠ counter := by
  unfold castU64 u64Size
  omega

/-- An order that cannot be posted is returned under its own id, and is counted if there is a
market state. -/
theorem prepare_refuses (enabled : manager.enabled = true)
    (refused : ¬ WouldPost manager isBuy price) (nowNs : Nat) (symbol : String) (size : ℚ) :
    (manager.preparePostOnlyOrder nowNs symbol isBuy size price).1.isPosted = false ∧
      ∃ adjustedOrders totalAdjustments,
        (manager.preparePostOnlyOrder nowNs symbol isBuy size price).2 =
          { manager.drawId with
            rejectedOrders :=
              if manager.marketState = none then manager.rejectedOrders
              else castU64 (manager.rejectedOrders + 1)
            adjustedOrders := adjustedOrders
            totalAdjustments := totalAdjustments } := by
  cases present : manager.marketState with
  | none =>
    unfold PostOnlyManager.preparePostOnlyOrder
    simp only [PostOnlyManager.drawId, enabled, present, Bool.not_true, Bool.false_eq_true,
      if_false, if_true]
    exact ⟨trivial, _, _, rfl⟩
  | some market =>
    obtain ⟨order, prepared, -, side, same, -, unposted⟩ :=
      PostOnlyManager.prepare_validates enabled present nowNs symbol isBuy size price
    have refused_ : ¬ market.Posts manager.drawId.minSpreadBps order.isBuy
        order.requestedPrice := by
      rw [side, same]
      exact fun posts => refused ⟨market, present, posts⟩
    obtain ⟨posted, -, adjusted, total, counted⟩ :=
      @PostOnlyManager.validate_refuses manager.drawId market order refused_
    rw [prepared, posted, unposted]
    exact ⟨rfl, adjusted, total, counted⟩

theorem build_refuses (enabled : manager.enabled = true) (refused : ¬ WouldPost manager isBuy price)
    (nowNs : Nat) (symbol : String) (size : ℚ) :
    (manager.build nowNs symbol isBuy size price).1.isPosted = false ∧
      ∃ adjustedOrders totalAdjustments, (manager.build nowNs symbol isBuy size price).2 =
        { manager.incrementTotal.drawId with
          rejectedOrders :=
            if manager.marketState = none then manager.rejectedOrders
            else castU64 (manager.rejectedOrders + 1)
          adjustedOrders := adjustedOrders
          totalAdjustments := totalAdjustments } :=
  @prepare_refuses manager.incrementTotal isBuy price enabled refused nowNs symbol size

/-- An order that can be posted is recorded under its own id, and returned under the next one. -/
theorem prepare_posts (enabled : manager.enabled = true) (history : 1 ≤ manager.maxHistory)
    (recent : manager.recentOrders = []) (posts : WouldPost manager isBuy price) (nowNs : Nat)
    (symbol : String) (size : ℚ) :
    ∃ entry, entry.orderId = manager.orderCounter ∧
      (manager.preparePostOnlyOrder nowNs symbol isBuy size price).2.recentOrders = [entry] ∧
      (manager.preparePostOnlyOrder nowNs symbol isBuy size price).2.maxHistory =
        manager.maxHistory ∧
      (manager.preparePostOnlyOrder nowNs symbol isBuy size price).1.isPosted = true ∧
      (manager.preparePostOnlyOrder nowNs symbol isBuy size price).1.orderId =
        castU64 (manager.orderCounter + 1) := by
  obtain ⟨market, present, posts⟩ := posts
  obtain ⟨order, prepared, own, side, same, -, -⟩ :=
    PostOnlyManager.prepare_validates enabled present nowNs symbol isBuy size price
  have posts_ : market.Posts manager.drawId.minSpreadBps order.isBuy order.requestedPrice := by
    rw [side, same]
    exact posts
  have room : ¬ manager.maxHistory ≤ 0 := by omega
  rw [prepared, PostOnlyManager.validate_posts posts_]
  obtain ⟨adjusted, total, counted⟩ := manager.drawId.countAdjustments_eq order
    (PostOnlyManager.adjustmentsOf market order.isBuy order.requestedPrice)
  simp only [counted]
  simp only [PostOnlyManager.post, PostOnlyManager.recordOrder, PostOnlyManager.drawId, recent,
    List.length_nil, if_neg room, List.nil_append]
  refine ⟨_, ?_, rfl, trivial, trivial, trivial⟩
  exact own

/-! ## One call -/

theorem recordFill_quiet (quiet : Quiet session) (orderId : Nat)
    (fillSize fillPrice takerFeeRate : ℚ) :
    session.manager.recordFill orderId fillSize fillPrice takerFeeRate = session.manager := by
  unfold PostOnlyManager.recordFill
  rw [quiet.recent]
  rfl

theorem quiet_refused (quiet : Quiet session) (refused : ¬ WouldPost session.manager isBuy price)
    {nowNs : Nat} {symbol : String} {size : ℚ}
    (taken : step session (.prepare nowNs symbol isBuy size price) = some next ∨
      step session (.build nowNs symbol isBuy size price) = some next ∧
        (session.direct = false → session.manager.marketState ≠ none)) : Quiet next := by
  rcases taken with prepared | ⟨built, present⟩
  · obtain ⟨posted, adjusted, total, same⟩ :=
      prepare_refuses quiet.enabled refused nowNs symbol size
    cases prepared
    unfold Session.answered
    rw [posted, same]
    exact ⟨quiet.enabled, quiet.history, quiet.recent, quiet.posted, quiet.none_, by simp⟩
  · obtain ⟨posted, adjusted, total, same⟩ :=
      build_refuses quiet.enabled refused nowNs symbol size
    cases built
    unfold Session.answered
    rw [posted, same]
    refine ⟨quiet.enabled, quiet.history, quiet.recent, quiet.posted, quiet.none_, ?_⟩
    intro builders
    have builders_ : session.direct = false := by simpa using builders
    simp only [if_neg (present builders_)]
    show castU64 (session.manager.totalOrders + 1) = castU64 (session.manager.rejectedOrders + 1)
    rw [quiet.counted builders_]

/-- A call in bounds keeps the session quiet. -/
theorem quiet_step (quiet : Quiet session) (met : InBounds session call)
    (taken : step session call = some next) : Quiet next := by
  cases call with
  | update state =>
    cases taken
    exact ⟨quiet.enabled, quiet.history, quiet.recent, quiet.posted, quiet.none_, quiet.counted⟩
  | prepare nowNs symbol isBuy size requestedPrice => exact quiet_refused quiet met (.inl taken)
  | build nowNs symbol isBuy size price =>
    exact quiet_refused quiet met.1 (.inr ⟨taken, met.2⟩)
  | fill orderId fillSize fillPrice takerFeeRate =>
    cases taken
    simp only [recordFill_quiet quiet]
    exact quiet

theorem follows_of_quiet (quiet : Quiet session) (after : Quiet next)
    (taken : step session call = some next) : Follows session call next := by
  refine ⟨?_, ?_, ?_⟩
  · unfold Session.newest
    rw [after.posted]
    simp
  · intro builders
    rw [after.counted builders, after.none_, Nat.zero_add]
  · cases call with
    | update | prepare | build => trivial
    | fill orderId fillSize fillPrice takerFeeRate =>
      cases taken
      refine ⟨?_, fun _ => recordFill_quiet quiet orderId fillSize fillPrice takerFeeRate⟩
      rintro ⟨order, newest, -⟩
      unfold Session.newest at newest
      rw [quiet.posted] at newest
      simp at newest

theorem not_follows_posted {answer : PostOnlyOrder × PostOnlyManager} {direct : Bool}
    {entry : PostOnlyOrder} {counter : Nat} (own : entry.orderId = counter)
    (recent : answer.2.recentOrders = [entry]) (history : 1 ≤ answer.2.maxHistory)
    (posted : answer.1.isPosted = true) (returned : answer.1.orderId = castU64 (counter + 1)) :
    ¬ Follows session call (session.answered answer direct) := by
  intro follows
  have newest : answer.1 ∈ (session.answered answer direct).newest := by
    unfold Session.newest Session.answered
    simp only [posted, if_true]
    obtain ⟨rest, length⟩ := Nat.exists_eq_add_of_le' history
    rw [length, List.take_succ_cons]
    exact List.mem_cons_self
  have kept : answer.1 ∈ answer.2.recentOrders := follows.kept answer.1 newest
  rw [recent, List.mem_singleton] at kept
  rw [kept, own] at returned
  exact castU64_succ_ne counter returned.symm

theorem inBounds_of_follows (quiet : Quiet session) (taken : step session call = some next)
    (follows : Follows session call next) : InBounds session call := by
  cases call with
  | update | fill => trivial
  | prepare nowNs symbol isBuy size requestedPrice =>
    cases taken
    intro posts
    obtain ⟨entry, own, recent, length, posted, returned⟩ :=
      prepare_posts quiet.enabled quiet.history quiet.recent posts nowNs symbol size
    exact not_follows_posted own recent (length ▸ quiet.history) posted returned follows
  | build nowNs symbol isBuy size price =>
    cases taken
    have refused : ¬ WouldPost session.manager isBuy price := by
      intro posts
      have posts_ : WouldPost session.manager.incrementTotal isBuy price := posts
      obtain ⟨entry, own, recent, length, posted, returned⟩ :=
        @prepare_posts session.manager.incrementTotal isBuy price quiet.enabled quiet.history
          quiet.recent posts_ nowNs symbol size
      exact not_follows_posted own recent (length ▸ quiet.history) posted returned follows
    refine ⟨refused, fun builders absent => ?_⟩
    obtain ⟨posted, adjusted, total, same⟩ :=
      build_refuses quiet.enabled refused nowNs symbol size
    have counted := follows.counted (by simpa [Session.answered] using builders)
    simp only [Session.answered, same, if_pos absent] at counted
    have counted_ : castU64 (session.manager.totalOrders + 1) =
        session.manager.postedOrders + session.manager.rejectedOrders := counted
    rw [quiet.none_, Nat.zero_add, ← quiet.counted builders] at counted_
    exact castU64_succ_ne session.manager.totalOrders counted_

end Accounts

/-- The books follow the orders of a run exactly if every call is in bounds. -/
theorem follows_iff_in_bounds (minSpreadBps : ℚ) (maxHistory : Nat) (history : 1 ≤ maxHistory)
    (calls : List PostOnlyCall) :
    Performs step Follows (Session.start minSpreadBps maxHistory) calls ↔
      Offered step InBounds (Session.start minSpreadBps maxHistory) calls := by
  have taken : ∀ session call, ∃ next, step session call = some next := by
    intro session call
    cases call <;> exact ⟨_, rfl⟩
  have start : Quiet (Session.start minSpreadBps maxHistory) :=
    ⟨rfl, history, rfl, rfl, rfl, fun _ => rfl⟩
  refine @performs_iff _ _ step (fun session _ => Quiet session) Follows InBounds ?_ ?_ _ _ start
  · intro session call rest quiet
    constructor
    · rintro ⟨next, stepped, follows⟩
      exact inBounds_of_follows quiet stepped follows
    · intro met
      obtain ⟨next, stepped⟩ := taken session call
      exact ⟨next, stepped, follows_of_quiet quiet (quiet_step quiet met stepped) stepped⟩
  · intro session call rest next quiet stepped follows
    exact quiet_step quiet (inBounds_of_follows quiet stepped follows) stepped

/-- Orders that are refused by a market, and a fill of neither of them. -/
def refusedOrders : List PostOnlyCall :=
  [.update PostOnlyManager.testMarket, .build 0 "BTC" true 1 (-1),
    .prepare 0 "BTC" false 1 (-1), .fill 7 1 1 1]

/-- The books follow orders that are refused, if there is a market. -/
theorem follows_refused : Performs step Follows (Session.start 5 100) refusedOrders :=
  (follows_iff_in_bounds 5 100 (by decide) refusedOrders).mpr (by decide +kernel)

/-- An order that is posted. -/
def postedOrder : List PostOnlyCall :=
  [.update PostOnlyManager.testMarket, .build 0 "BTC" true 1 50005]

/-- The ids that were returned, those in the history, and the savings. -/
def view (session : Session) : List Nat × List Nat × ℚ :=
  (session.returned, session.manager.recentOrders.map PostOnlyOrder.orderId,
    session.manager.feeSavings)

/-- A posted order is returned under another id than it is recorded under: a fill under the id that
was returned saves nothing, and one under an id that was not does. An order before any market state
is neither posted nor counted as refused. -/
theorem loses_posted :
    (exec step (Session.start (1 / 2) 100) (postedOrder ++ [.fill 1 1 50005 (1 / 1000)])).map
        view = some ([1], [0], 0) ∧
      (exec step (Session.start (1 / 2) 100) (postedOrder ++ [.fill 0 1 50005 (1 / 1000)])).map
        view = some ([1], [0], 10001 / 200) ∧
      (exec step (Session.start (1 / 2) 100) [.build 0 "BTC" true 1 50005]).map
        (fun session => (session.manager.totalOrders, session.manager.postedOrders,
          session.manager.rejectedOrders)) = some (1, 0, 0) ∧
      ¬ Performs step Follows (Session.start (1 / 2) 100) postedOrder := by
  refine ⟨by decide +kernel, by decide +kernel, by decide +kernel, ?_⟩
  rintro ⟨market, updated, -, later⟩
  cases updated
  obtain ⟨next, built, follows, -⟩ := later
  have listed : next.newest.map PostOnlyOrder.orderId = [1] ∧
      next.manager.recentOrders.map PostOnlyOrder.orderId = [0] := by
    cases built
    decide +kernel
  obtain ⟨order, newest, id⟩ := List.mem_map.mp (listed.1 ▸ List.mem_singleton_self 1)
  have kept := List.mem_map_of_mem (f := PostOnlyOrder.orderId) (follows.kept order newest)
  rw [listed.2, id] at kept
  exact absurd kept (by decide)

end TradingBot.Oms.PostOnly
