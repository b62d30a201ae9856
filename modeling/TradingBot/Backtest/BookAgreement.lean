import TradingBot.Backtest.BestPrice

/-!
# Book levels and orders

The engine keeps its book twice: as the orders themselves, and as levels that only hold their
sums. A level shows the orders that wait at its price until a trade takes quantity from a level
without filling an order, or a cancellation withdraws an order that no longer waits there. The
two views agree along exactly those runs that do neither.
-/

open OrderedMap Run

namespace TradingBot.BookAgreement

open OrderMatching BestPrice

/-- An order waits in the book: it is of the kind that rests, neither cancelled nor filled. -/
def Waits (order : Order) : Prop :=
  order.Rests ∧ order.status ≠ .cancelled ∧ order.isFilled = false

instance (order : Order) : Decidable (Waits order) := inferInstanceAs (Decidable (_ ∧ _))

/-- An order waits at a side and price. -/
def WaitsAt (side : Side) (price : ℚ) (order : Order) : Prop :=
  Waits order ∧ order.side = side ∧ order.price = price

instance (side : Side) (price : ℚ) (order : Order) : Decidable (WaitsAt side price order) :=
  inferInstanceAs (Decidable (_ ∧ _))

/-- The orders of some entries that wait at a side and price. -/
def listed (side : Side) (price : ℚ) (entries : List (Nat × Order)) : List Order :=
  (entries.map Prod.snd).filter fun order => WaitsAt side price order

/-- The orders that wait at a side and price. -/
def waiting (orders : OrderedMap Nat Order) (side : Side) (price : ℚ) : List Order :=
  listed side price orders.entries

/-- A level shows some orders: their quantities together and their number, and no level shows
no orders. -/
def Shows : Option PriceLevel → List Order → Prop
  | none, orders => orders = []
  | some level, orders => orders ≠ [] ∧
      level.quantity = (orders.map Order.remainingQuantity).sum ∧ level.orderCount = orders.length

instance : ∀ (level : Option PriceLevel) (orders : List Order), Decidable (Shows level orders)
  | none, _ => inferInstanceAs (Decidable (_ = _))
  | some _, _ => inferInstanceAs (Decidable (_ ∧ _))

/-- At every side and price the level shows the orders that wait there. -/
def Agrees (engine : MatchingEngine) : Prop :=
  ∀ side price, Shows ((engine.levels side).lookup price) (waiting engine.orders side price)

/-- A call that keeps the agreement: a submission that is refused or does not trade, as the best
opposite level is missing or beyond its limit; a cancellation of no open order, of one that
waits, or of one without a level at its price. -/
def Harmless (engine : MatchingEngine) : EngineCall → Prop
  | .submit request => ∀ order, engine.accept request = .ok order →
      ∀ best, (engine.levels order.side.opposite).edge order.side.bestEnd = some best →
        MatchingEngine.beyondLimit order best.1
  | .cancel orderId => ∀ order, engine.orders.lookup orderId = some order →
      order.isFilled = true ∨ Waits order ∨ (engine.levels order.side).lookup order.price = none

/-- Every order has a number that was drawn. -/
def Numbered (engine : MatchingEngine) : Prop :=
  ∀ orderId order, engine.orders.lookup orderId = some order → orderId < engine.orderIdCounter

/-! ## Levels that show orders -/

section Shows

variable {level : PriceLevel} {before after orders : List Order} {order : Order}

theorem unfilled_left (unfilled : order.isFilled = false) : 0 < order.remainingQuantity := by
  unfold Order.isFilled at unfilled
  have open_ := (Bool.or_eq_false_iff.mp unfilled).1
  exact not_le.mp (of_decide_eq_false open_)

theorem not_shows_less {left : Option PriceLevel} (shown : Shows (some level) orders)
    (less : ∀ rest, left = some rest → rest.quantity < level.quantity) : ¬Shows left orders := by
  intro still
  cases left with
  | none => exact shown.1 still
  | some rest =>
    have smaller := less rest rfl
    have same : rest.quantity = level.quantity := still.2.1.trans shown.2.1.symm
    rw [same] at smaller
    exact lt_irrefl _ smaller

theorem shows_append {found : Option PriceLevel} {price : ℚ} (shown : Shows found orders)
    (order : Order) :
    let level := found.getD { price := price, quantity := 0, orderCount := 0 }
    Shows (some { level with
      quantity := level.quantity + order.remainingQuantity
      orderCount := level.orderCount + 1 }) (orders ++ [order]) := by
  have more : orders ++ [order] ≠ [] := List.append_ne_nil_of_right_ne_nil _ (List.cons_ne_nil _ _)
  cases found with
  | none =>
    cases shown
    exact ⟨more, by simp, rfl⟩
  | some level =>
    refine ⟨more, ?_, ?_⟩
    · have quantity := shown.2.1
      simp [quantity]
    · have count := shown.2.2
      simp [count]

theorem shows_withdraw {found : Option PriceLevel} (shown : Shows found (before ++ order :: after))
    (left : ∀ other ∈ before ++ after, 0 < other.remainingQuantity) :
    Shows (found.bind fun level =>
      if level.quantity - order.remainingQuantity ≤ 0 then none
      else some { level with
        quantity := level.quantity - order.remainingQuantity
        orderCount := level.orderCount - 1 }) (before ++ after) := by
  cases found with
  | none => exact absurd shown (List.append_ne_nil_of_right_ne_nil _ (List.cons_ne_nil _ _))
  | some level =>
    have quantity : level.quantity - order.remainingQuantity =
        ((before ++ after).map Order.remainingQuantity).sum := by
      rw [shown.2.1]
      simp only [List.map_append, List.map_cons, List.sum_append, List.sum_cons]
      ring
    have count : level.orderCount - 1 = (before ++ after).length := by
      rw [shown.2.2, List.length_append, List.length_cons, List.length_append]
      omega
    rw [Option.bind_some, quantity]
    by_cases none : before ++ after = []
    · rw [none]
      simp [Shows]
    · have positive : 0 < ((before ++ after).map Order.remainingQuantity).sum := by
        apply List.sum_pos
        · intro rest member
          obtain ⟨other, otherMember, same⟩ := List.mem_map.mp member
          exact same ▸ left other otherMember
        · exact fun empty => none (List.map_eq_nil_iff.mp empty)
      rw [if_neg (not_le.mpr positive)]
      exact ⟨none, rfl, count⟩

end Shows

/-! ## The orders that wait -/

section Waiting

variable {orders : OrderedMap Nat Order} {orderId : Nat} {order : Order}

theorem listed_append (side : Side) (price : ℚ) (front back : List (Nat × Order)) :
    listed side price (front ++ back) = listed side price front ++ listed side price back := by
  unfold listed
  rw [List.map_append, List.filter_append]

theorem listed_waits {side : Side} {price : ℚ} (waits : WaitsAt side price order)
    (back : List (Nat × Order)) :
    listed side price ((orderId, order) :: back) = order :: listed side price back :=
  List.filter_cons_of_pos (decide_eq_true waits)

theorem listed_not {side : Side} {price : ℚ} (not : ¬WaitsAt side price order)
    (back : List (Nat × Order)) :
    listed side price ((orderId, order) :: back) = listed side price back :=
  List.filter_cons_of_neg fun waits => not (of_decide_eq_true waits)

theorem listed_left {side : Side} {price : ℚ} {entries : List (Nat × Order)}
    (member : order ∈ listed side price entries) : 0 < order.remainingQuantity :=
  unfilled_left (of_decide_eq_true (List.mem_filter.mp member).2).1.2.2

theorem waiting_new (new : ∀ other found, orders.lookup other = some found → other < orderId)
    (order : Order) (side : Side) (price : ℚ) :
    waiting (orders.insert orderId order) side price =
      waiting orders side price ++ listed side price [(orderId, order)] := by
  have above : ∀ entry ∈ orders.entries, entry.1 < orderId := fun entry member =>
    new entry.1 entry.2 (lookup_eq_some.mpr member)
  unfold waiting
  rw [entries_insert_last above, listed_append]

theorem waiting_replaced (found : orders.lookup orderId = some order) (other : Order) :
    ∃ front back, ∀ side price,
      waiting orders side price =
        listed side price front ++ listed side price ((orderId, order) :: back) ∧
      waiting (orders.insert orderId other) side price =
        listed side price front ++ listed side price ((orderId, other) :: back) := by
  obtain ⟨front, back, parts, below, _⟩ := exists_parts found
  have replaced := entries_insert_present parts below other
  refine ⟨front, back, fun side price => ⟨?_, ?_⟩⟩
  · unfold waiting
    rw [parts, listed_append]
  · unfold waiting
    rw [replaced, listed_append]

end Waiting

/-! ## Submission -/

section Submission

variable {engine : MatchingEngine} {request : OrderRequest} {order : Order}

theorem submit_records (sound : Sound engine) (accepted : engine.accept request = .ok order) :
    ∃ recorded, order.SameOrder recorded ∧
      (engine.submit request).2.orders = engine.orders.insert engine.orderIdCounter recorded ∧
      (engine.submit request).2.orderIdCounter = engine.orderIdCounter + 1 := by
  have number : order.orderId = engine.orderIdCounter := by
    rw [(accept_ok accepted).1]
    rfl
  have execution := matchOrder_execution engine.drawOrderId order
    (engine.levels_drawOrderId _ ▸ sound.positive _)
  let matched := (engine.drawOrderId.matchOrder order).2.1
  let after := (engine.drawOrderId.matchOrder order).2.2
  obtain ⟨status, settled, _⟩ := settle_cases after matched
  have frame := settle_frame after matched
  rw [submit_ok accepted rfl]
  refine ⟨(after.settle matched).1, ?_, ?_, ?_⟩
  · rw [settled]
    exact execution.same.trans (sameOrder_status matched status)
  · show (after.settle matched).2.orders.insert order.orderId (after.settle matched).1 = _
    rw [frame.1, execution.orders, number]
    rfl
  · exact frame.2.trans execution.orderIdCounter

theorem numbered_submit (sound : Sound engine) (numbered : Numbered engine)
    (request : OrderRequest) : Numbered (engine.submit request).2 := by
  cases accepted : engine.accept request with
  | error error =>
    rw [submit_error accepted]
    exact numbered
  | ok order =>
    obtain ⟨recorded, _, orders, counter⟩ := submit_records sound accepted
    intro orderId other found
    rw [orders, lookup_insert] at found
    rw [counter]
    by_cases new : orderId = engine.orderIdCounter
    · exact new ▸ Nat.lt_succ_self orderId
    · rw [if_neg new] at found
      exact Nat.lt_succ_of_lt (numbered orderId other found)

theorem waits_accepted (sound : Sound engine) (accepted : engine.accept request = .ok order)
    (rests : order.Rests) : Waits order := by
  have left := accepted_quantity sound accepted
  have status : order.status = .new := by
    rw [(accept_ok accepted).1]
    rfl
  have unfilled : order.isFilled = false := by
    unfold Order.isFilled
    rw [status, decide_eq_false (not_le.mpr left)]
    rfl
  exact ⟨rests, by rw [status]; decide, unfilled⟩

theorem agrees_addToBook {orderId : Nat}
    (new : ∀ other found, engine.orders.lookup other = some found → other < orderId)
    (agrees : Agrees engine) (waits : Waits order) :
    Agrees ((engine.addToBook order).record orderId order) := by
  intro side price
  have shown := agrees side price
  show Shows _ (waiting ((engine.addToBook order).orders.insert orderId order) _ _)
  rw [MatchingEngine.levels_record, lookup_addToBook]
  unfold MatchingEngine.addToBook
  rw [MatchingEngine.orders_setLevels, waiting_new new]
  by_cases here : side = order.side ∧ price = order.price
  · have there : WaitsAt side price order := ⟨waits, here.1.symm, here.2.symm⟩
    rw [listed_waits there, if_pos here]
    rw [here.1, here.2] at shown ⊢
    exact shows_append shown order
  · have elsewhere : ¬WaitsAt side price order := fun there =>
      here ⟨there.2.1.symm, there.2.2.symm⟩
    rw [listed_not elsewhere, if_neg here]
    exact (List.append_nil _).symm ▸ shown

theorem agrees_record {orderId : Nat}
    (new : ∀ other found, engine.orders.lookup other = some found → other < orderId)
    (agrees : Agrees engine) (not : ¬Waits order) : Agrees (engine.record orderId order) := by
  intro side price
  have shown := agrees side price
  show Shows _ (waiting (engine.orders.insert orderId order) _ _)
  rw [MatchingEngine.levels_record, waiting_new new, listed_not fun there => not there.1]
  exact (List.append_nil _).symm ▸ shown

theorem agrees_untraded (sound : Sound engine) (numbered : Numbered engine)
    (agrees : Agrees engine) (accepted : engine.accept request = .ok order)
    (quiet : ∀ best, (engine.levels order.side.opposite).edge order.side.bestEnd = some best →
      MatchingEngine.beyondLimit order best.1) : Agrees (engine.submit request).2 := by
  have made := (accept_ok accepted).1
  have number : order.orderId = engine.orderIdCounter := by rw [made]; rfl
  have untraded := markPartial_untraded (show order.filledQuantity = 0 by rw [made]; rfl)
  have drawn : Agrees engine.drawOrderId := fun side price =>
    (engine.levels_drawOrderId side).symm ▸ agrees side price
  have matched := @matchOrder_quiet engine.drawOrderId order
    (engine.levels_drawOrderId _ ▸ quiet)
  rw [submit_ok accepted matched, number]
  by_cases rests : order.Rests
  · rw [settle_rests (accepted_quantity sound accepted) rests, untraded]
    exact agrees_addToBook numbered drawn (waits_accepted sound accepted rests)
  · obtain ⟨status, settled, _⟩ := settle_cases engine.drawOrderId order
    have leaves := @settle_leaves engine.drawOrderId order fun waits => rests waits.2
    rw [leaves.1]
    apply agrees_record numbered drawn
    rw [settled]
    exact fun waits => rests waits.1

theorem not_agrees_traded (sound : Sound engine) (numbered : Numbered engine)
    (agrees : Agrees engine) (accepted : engine.accept request = .ok order) {best : ℚ × PriceLevel}
    (edge : (engine.levels order.side.opposite).edge order.side.bestEnd = some best)
    (within : ¬MatchingEngine.beyondLimit order best.1) : ¬Agrees (engine.submit request).2 := by
  intro still
  have shown := agrees order.side.opposite best.1
  have shownStill := still order.side.opposite best.1
  obtain ⟨recorded, same, orders, _⟩ := submit_records sound accepted
  have elsewhere : ¬WaitsAt order.side.opposite best.1 recorded := by
    intro there
    have opposite := there.2.1
    rw [same.side] at opposite
    cases kind : order.side <;> rw [kind] at opposite <;> cases opposite
  rw [lookup_edge edge] at shown
  rw [orders, waiting_new numbered, listed_not elsewhere] at shownStill
  refine not_shows_less shown ?_ ((List.append_nil _) ▸ shownStill)
  have execution := matchOrder_execution engine.drawOrderId order
    (engine.levels_drawOrderId _ ▸ sound.positive _)
  have takes := @matchOrder_takes engine.drawOrderId order best.1 best.2
    (engine.levels_drawOrderId _ ▸ sound.positive _) (accepted_quantity sound accepted)
    (engine.levels_drawOrderId _ ▸ edge) within
  have opposite := levels_settle_opposite (engine.drawOrderId.matchOrder order).2.2
    (engine.drawOrderId.matchOrder order).2.1
  rw [execution.same.side] at opposite
  rw [submit_ok accepted rfl, MatchingEngine.levels_record, opposite]
  exact takes

theorem agrees_submit (sound : Sound engine) (numbered : Numbered engine) (agrees : Agrees engine)
    (request : OrderRequest) :
    Agrees (engine.submit request).2 ↔ Harmless engine (.submit request) := by
  constructor
  · intro still order accepted best edge
    by_contra within
    exact not_agrees_traded sound numbered agrees accepted edge within still
  · intro harmless
    cases accepted : engine.accept request with
    | error error =>
      rw [submit_error accepted]
      exact agrees
    | ok order => exact agrees_untraded sound numbered agrees accepted (harmless order accepted)

end Submission

/-! ## Cancellation -/

section Cancellation

variable {engine : MatchingEngine} {orderId : Nat} {order : Order}

theorem waiting_cancelled (found : engine.orders.lookup orderId = some order) :
    ∃ front back, ∀ side price,
      waiting engine.orders side price =
        listed side price front ++ listed side price ((orderId, order) :: back) ∧
      waiting (engine.orders.insert orderId { order with status := .cancelled }) side price =
        listed side price front ++ listed side price back := by
  obtain ⟨front, back, parts⟩ := waiting_replaced found { order with status := .cancelled }
  refine ⟨front, back, fun side price => ⟨(parts side price).1, ?_⟩⟩
  have cancelled : ¬WaitsAt side price { order with status := .cancelled } :=
    fun there => there.1.2.1 rfl
  rw [(parts side price).2, listed_not cancelled]

theorem waiting_cancelled_other {side : Side} {price : ℚ}
    (found : engine.orders.lookup orderId = some order) (elsewhere : ¬WaitsAt side price order) :
    waiting (engine.orders.insert orderId { order with status := .cancelled }) side price =
      waiting engine.orders side price := by
  obtain ⟨front, back, parts⟩ := waiting_cancelled found
  rw [(parts side price).1, (parts side price).2, listed_not elsewhere]

theorem agrees_cancel_waiting (agrees : Agrees engine)
    (found : engine.orders.lookup orderId = some order) (waits : Waits order) :
    Agrees (engine.cancelOrder orderId).2 := by
  have unfilled : ¬order.isFilled = true := by
    rw [waits.2.2]
    decide
  rw [cancelOrder_open found unfilled]
  intro side price
  rw [MatchingEngine.levels_record]
  show Shows _ (waiting ((engine.setLevels order.side _).orders.insert orderId _) side price)
  rw [MatchingEngine.orders_setLevels]
  by_cases here : side = order.side ∧ price = order.price
  · have there : WaitsAt side price order := ⟨waits, here.1.symm, here.2.symm⟩
    obtain ⟨front, back, parts⟩ := waiting_cancelled found
    have shown := agrees side price
    rw [(parts side price).1, listed_waits there] at shown
    rw [(parts side price).2]
    have left : ∀ other ∈ listed side price front ++ listed side price back,
        0 < other.remainingQuantity := by
      intro other member
      exact (List.mem_append.mp member).elim listed_left listed_left
    have withdrawn := shows_withdraw shown left
    rw [here.1, here.2] at withdrawn ⊢
    rw [MatchingEngine.levels_setLevels, lookup_withdraw_same]
    exact withdrawn
  · have elsewhere : ¬WaitsAt side price order := fun there =>
      here ⟨there.2.1.symm, there.2.2.symm⟩
    rw [lookup_withdrawn_other here, waiting_cancelled_other found elsewhere]
    exact agrees side price

theorem agrees_cancel_other (agrees : Agrees engine)
    (found : engine.orders.lookup orderId = some order) (unfilled : ¬order.isFilled = true)
    (not : ¬Waits order) :
    Agrees (engine.cancelOrder orderId).2 ↔
      (engine.levels order.side).lookup order.price = none := by
  have left : 0 < order.remainingQuantity := unfilled_left (Bool.eq_false_iff.mpr unfilled)
  let after := engine.setLevels order.side
    (MatchingEngine.withdraw (engine.levels order.side) order)
  have same : Agrees (engine.cancelOrder orderId).2 ↔
      ∀ side price,
        Shows ((after.levels side).lookup price) (waiting engine.orders side price) := by
    rw [cancelOrder_open found unfilled]
    apply forall_congr'
    intro side
    apply forall_congr'
    intro price
    rw [MatchingEngine.levels_record]
    show Shows _ (waiting (after.orders.insert orderId _) side price) ↔ _
    rw [MatchingEngine.orders_setLevels, waiting_cancelled_other found fun there => not there.1]
  rw [same]
  constructor
  · intro still
    by_contra present
    obtain ⟨level, there⟩ := Option.ne_none_iff_exists'.mp present
    have shown := agrees order.side order.price
    have shownStill := still order.side order.price
    rw [there] at shown
    refine not_shows_less shown ?_ shownStill
    intro rest kept
    rw [MatchingEngine.levels_setLevels, lookup_withdraw_same, there, Option.bind_some] at kept
    split at kept
    · cases kept
    · cases kept
      exact sub_lt_self _ left
  · intro absent side price
    by_cases here : side = order.side ∧ price = order.price
    · have shown := agrees order.side order.price
      rw [absent] at shown
      rw [here.1, here.2, MatchingEngine.levels_setLevels, lookup_withdraw_same, absent]
      exact shown
    · rw [lookup_withdrawn_other here]
      exact agrees side price

theorem agrees_cancel (agrees : Agrees engine) (orderId : Nat) :
    Agrees (engine.cancelOrder orderId).2 ↔ Harmless engine (.cancel orderId) := by
  by_cases closed : ∀ order, engine.orders.lookup orderId = some order → order.isFilled = true
  · rw [cancelOrder_refused closed]
    exact ⟨fun _ order found => .inl (closed order found), fun _ => agrees⟩
  · have ⟨order, open_⟩ := not_forall.mp closed
    have ⟨found, unfilled⟩ := Classical.not_imp.mp open_
    by_cases waits : Waits order
    · have kept := agrees_cancel_waiting agrees found waits
      refine ⟨fun _ other same => ?_, fun _ => kept⟩
      cases found.symm.trans same
      exact .inr (.inl waits)
    · rw [agrees_cancel_other agrees found unfilled waits]
      constructor
      · intro absent other same
        cases found.symm.trans same
        exact .inr (.inr absent)
      · intro harmless
        exact ((harmless order found).resolve_left unfilled).resolve_left waits

theorem numbered_cancel (numbered : Numbered engine) (orderId : Nat) :
    Numbered (engine.cancelOrder orderId).2 := by
  cases cancel_cases engine orderId with
  | inl kept =>
    rw [kept]
    exact numbered
  | inr cancelled =>
    obtain ⟨order, found, _, after⟩ := cancelled
    intro other standing there
    rw [after] at there ⊢
    unfold MatchingEngine.record at there ⊢
    rw [MatchingEngine.orders_setLevels, lookup_insert] at there
    rw [MatchingEngine.orderIdCounter_setLevels]
    by_cases same : other = orderId
    · exact same ▸ numbered orderId order found
    · rw [if_neg same] at there
      exact numbered other standing there

end Cancellation

/-! ## Runs -/

theorem agrees_new (symbol : String) (initialPrice : ℚ) : Agrees (.new symbol initialPrice) := by
  intro side price
  cases side <;> rfl

/-- Along a run of submissions and cancellations on a new engine, every level shows the orders
that wait at its price if and only if every call does no harm. -/
theorem levels_show_waiting_orders (symbol : String) (initialPrice : ℚ)
    (calls : List EngineCall) :
    Always MatchingEngine.step Agrees (.new symbol initialPrice) calls ↔
      Guarded MatchingEngine.step Harmless (.new symbol initialPrice) calls := by
  have start : Numbered (.new symbol initialPrice) := fun orderId order found => by cases found
  refine @always_iff_guarded _ _ _ (fun engine => Sound engine ∧ Numbered engine) _ _ ?_ ?_ _
    ⟨sound_new symbol initialPrice, start⟩ (agrees_new symbol initialPrice) calls
  · intro engine call next inv stepped
    cases call with
    | submit request =>
      cases stepped
      exact ⟨sound_submit inv.1 request, numbered_submit inv.1 inv.2 request⟩
    | cancel orderId =>
      cases stepped
      exact ⟨sound_cancel inv.1 orderId, numbered_cancel inv.2 orderId⟩
  · intro engine call next inv agrees stepped
    cases call with
    | submit request =>
      cases stepped
      exact agrees_submit inv.1 inv.2 agrees request
    | cancel orderId =>
      cases stepped
      exact agrees_cancel agrees orderId

/-- A market order takes 0.3 of the 0.5 offered at 50100, and the level shows 0.2 of an order that
still has 0.5 left. -/
theorem traded_level_disagrees :
    ¬Always MatchingEngine.step Agrees (.new "BTCUSDT" 50000)
      [.submit ⟨"BTCUSDT", .sell, .limit, 50100, 0.5, .gtc⟩,
        .submit ⟨"BTCUSDT", .buy, .market, 50100, 0.3, .ioc⟩] := by
  intro always
  have last := (always.2 _ rfl).2 _ rfl
  have shown := last .sell 50100
  revert shown
  decide +kernel

end TradingBot.BookAgreement
