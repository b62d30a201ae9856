import Mathlib.Algebra.Order.BigOperators.Group.List
import TradingBot.Foundation.Run
import TradingBot.Execution.OrderManager

/-!
# Accounts of fills

An order is to tell what its fills add up to, and its state to follow. A fill is added in every
active state, but the table lets the state follow only from two of them, so a fill that overtakes
its acknowledgement leaves the two apart.
-/

open Run

namespace TradingBot.Execution.FillAccounts

/-- One call on a manager. -/
inductive OrderCall where
  | create (orderId clientOrderId : String) (quantity : ℚ)
  | submit (orderId exchangeOrderId : String)
  | acknowledge (orderId : String)
  /-- `add_fill`. -/
  | fill (orderId : String) (price quantity commission : ℚ) (commissionAsset : String)
    (tradeId : Option Int)
  | cancel (orderId reason : String)
  | reject (orderId reason : String)

/-- A manager after a call. -/
def step (manager : OrderManager) : OrderCall → Option OrderManager
  | .create orderId clientOrderId quantity =>
    some (manager.createOrder orderId clientOrderId quantity).2
  | .submit orderId exchangeOrderId => some (manager.submitOrder orderId exchangeOrderId).2
  | .acknowledge orderId => some (manager.acknowledgeOrder orderId).2
  | .fill orderId price quantity commission commissionAsset tradeId =>
    some (manager.addFill orderId price quantity commission commissionAsset tradeId).2
  | .cancel orderId reason => some (manager.cancelOrder orderId reason).2
  | .reject orderId reason => some (manager.rejectOrder orderId reason).2

/-- An order tells the sum and the average of its fills, and its state tells whether it is filled
or, while it is active, partially filled. -/
structure Accounted (order : Order) : Prop where
  total : order.filledQuantity = (order.fills.map Fill.quantity).sum
  average : 0 < order.filledQuantity → order.avgFillPrice =
    some ((order.fills.map fun fill => fill.price * fill.quantity).sum / order.filledQuantity)
  filled : order.state = .filled ↔ order.quantity ≤ order.filledQuantity
  partially : 0 < order.filledQuantity → order.filledQuantity < order.quantity →
    order.isActive = true → order.state = .partiallyFilled

/-- Every order of a manager has a property. -/
def EveryOrder (property : Order → Prop) (manager : OrderManager) : Prop :=
  ∀ orderId order, manager.orders.get orderId = some order → property order

/-- Every order is accounted for. -/
def Accounts : OrderManager → Prop := EveryOrder Accounted

/-- The fills of an order are of positive quantities. -/
def PositiveFills (order : Order) : Prop := ∀ fill ∈ order.fills, 0 < fill.quantity

/-- A fill of an order that is not active is refused and changes nothing. -/
def Refuses (manager : OrderManager) : OrderCall → Prop
  | .fill orderId price quantity commission commissionAsset tradeId =>
    ∀ order ∈ manager.orders.get orderId, order.isActive = false →
      (manager.addFill orderId price quantity commission commissionAsset tradeId).1 = false ∧
        (manager.addFill orderId price quantity commission commissionAsset
          tradeId).2.orders.get orderId = some order
  | _ => True

/-- A call comes in turn: a new order is of a positive quantity, and a fill of an active order finds
it acknowledged or partially filled. -/
def InTurn (manager : OrderManager) : OrderCall → Prop
  | .create _ _ quantity => 0 < quantity
  | .fill orderId .. => ∀ order ∈ manager.orders.get orderId, order.isActive = true →
      order.state = .acknowledged ∨ order.state = .partiallyFilled
  | _ => True

/-- Fills are of positive quantities. -/
def Positive : OrderCall → Prop
  | .fill _ _ quantity .. => 0 < quantity
  | _ => True

instance (manager : OrderManager) : DecidablePred (InTurn manager)
  | .create .. => inferInstanceAs (Decidable (_ < _))
  | .fill .. => inferInstanceAs (Decidable (∀ order ∈ _, _ → _ ∨ _))
  | .submit .. | .acknowledge .. | .cancel .. | .reject .. => inferInstanceAs (Decidable True)

instance : DecidablePred Positive
  | .fill .. => inferInstanceAs (Decidable (_ < _))
  | .create .. | .submit .. | .acknowledge .. | .cancel .. | .reject .. =>
    inferInstanceAs (Decidable True)

/-! ## One order -/

section Orders

variable {order : Order} {newState : OrderState} {reason : Option String} {fill : Fill}

/-- The states in which an order is active. -/
theorem active_iff : order.isActive = true ↔ order.state = .created ∨ order.state = .submitted ∨
    order.state = .acknowledged ∨ order.state = .partiallyFilled := by
  unfold Order.isActive
  cases order.state <;> decide

theorem accounted_new (orderId clientOrderId : String) (quantity : ℚ) :
    Accounted (Order.new orderId clientOrderId quantity) ↔ 0 < quantity := by
  constructor
  · intro accounted
    by_contra none_
    have filled := accounted.filled.mpr (not_lt.mp none_)
    cases filled
  · intro positive
    exact {
      total := rfl
      average := fun some_ => absurd some_ (lt_irrefl _)
      filled := iff_of_false (fun same => by cases same) (not_le.mpr positive)
      partially := fun some_ => absurd some_ (lt_irrefl _) }

theorem accounted_exchange (accounted : Accounted order) (exchangeOrderId : Option String) :
    Accounted { order with exchangeOrderId := exchangeOrderId } :=
  ⟨accounted.total, accounted.average, accounted.filled, accounted.partially⟩

theorem source_of_listed {state newState : OrderState} (listed : newState ∈ validTransitions state)
    (target : newState = .created ∨ newState = .submitted ∨ newState = .acknowledged) :
    state = .created ∨ state = .submitted := by
  cases state with
  | created => exact .inl rfl
  | submitted => exact .inr rfl
  | acknowledged | partiallyFilled | filled | cancelled | rejected | expired =>
    rcases target with rfl | rfl | rfl <;> simp [validTransitions] at listed

theorem accounted_transition (accounted : Accounted order) (unfilled : newState ≠ .filled)
    (whole : newState ≠ .partiallyFilled) : Accounted (order.transition newState reason).2 := by
  rcases order.transition_cases newState reason with ⟨same, _⟩ | ⟨listed, moved⟩
  · rw [same]
    exact accounted
  · have open_ : order.state ≠ .filled := by
      intro filled
      rw [filled] at listed
      cases listed
    rw [moved]
    exact {
      total := accounted.total
      average := accounted.average
      filled := iff_of_false unfilled fun reached => open_ (accounted.filled.mpr reached)
      partially := by
        intro some_ less active
        -- What was filled before was partially filled then, and is not active now.
        exfalso
        have target : newState = .created ∨ newState = .submitted ∨ newState = .acknowledged ∨
            newState = .partiallyFilled := active_iff.mp active
        have source : order.state = .created ∨ order.state = .submitted := by
          apply source_of_listed listed
          rcases target with new | submitted | acknowledged | part
          · exact .inl new
          · exact .inr (.inl submitted)
          · exact .inr (.inr acknowledged)
          · exact absurd part whole
        have before := accounted.partially some_ less
          (active_iff.mpr (source.imp_right Or.inl))
        rw [before] at source
        exact absurd source (by decide) }

theorem filled_nonneg (accounted : Accounted order) (positive : PositiveFills order) :
    0 ≤ order.filledQuantity := by
  rw [accounted.total]
  apply List.sum_nonneg
  intro quantity member
  obtain ⟨fill, among, rfl⟩ := List.mem_map.mp member
  exact le_of_lt (positive fill among)

theorem total_withFill (accounted : Accounted order) (fill : Fill) :
    (order.withFill fill).filledQuantity =
      ((order.withFill fill).fills.map Fill.quantity).sum := by
  show order.filledQuantity + fill.quantity = ((order.fills ++ [fill]).map Fill.quantity).sum
  rw [List.map_append, List.sum_append, ← accounted.total, List.map_singleton,
    List.sum_singleton]

theorem average_withFill (fill : Fill) (some_ : 0 < (order.withFill fill).filledQuantity) :
    (order.withFill fill).avgFillPrice = some
      (((order.withFill fill).fills.map fun fill => fill.price * fill.quantity).sum /
        (order.withFill fill).filledQuantity) :=
  if_pos some_

theorem accounted_follow (accounted : Accounted order) (fill : Fill) (state : OrderState)
    (reason : Option String) :
    Accounted { order.withFill fill with state := state, rejectReason := reason } ↔
      (state = .filled ↔ order.quantity ≤ order.filledQuantity + fill.quantity) ∧
        (0 < order.filledQuantity + fill.quantity →
          order.filledQuantity + fill.quantity < order.quantity →
            { order with state := state }.isActive = true → state = .partiallyFilled) :=
  ⟨fun after => ⟨after.filled, after.partially⟩,
    fun follows => ⟨total_withFill accounted fill, average_withFill fill, follows.1, follows.2⟩⟩

theorem listed_iff (active : order.isActive = true) :
    (OrderState.filled ∈ validTransitions order.state ↔
        order.state = .acknowledged ∨ order.state = .partiallyFilled) ∧
      (OrderState.partiallyFilled ∈ validTransitions order.state ↔
        order.state = .acknowledged ∨ order.state = .partiallyFilled) := by
  have live := active_iff.mp active
  revert live
  cases order.state <;> decide

theorem accounted_whole (accounted : Accounted order) (active : order.isActive = true)
    (whole : order.quantity ≤ order.filledQuantity + fill.quantity) :
    Accounted ((order.withFill fill).transition .filled none).2 ↔
      order.state = .acknowledged ∨ order.state = .partiallyFilled := by
  rcases (order.withFill fill).transition_cases .filled none with
    ⟨same, refused⟩ | ⟨listed, moved⟩
  · rw [same]
    apply iff_of_false
    · intro after
      have filled : order.state = .filled := after.filled.mpr whole
      have live := active_iff.mp active
      rw [filled] at live
      exact absurd live (by decide)
    · exact fun state => refused ((listed_iff active).1.mpr state)
  · rw [moved]
    apply iff_of_true
    · apply (accounted_follow accounted fill _ _).mpr
      exact ⟨iff_of_true rfl whole, fun _ less => absurd whole (not_le.mpr less)⟩
    · exact (listed_iff active).1.mp listed

theorem accounted_part (accounted : Accounted order) (active : order.isActive = true)
    (some_ : 0 < order.filledQuantity + fill.quantity)
    (less : order.filledQuantity + fill.quantity < order.quantity) :
    Accounted (if order.state ≠ .partiallyFilled then
        ((order.withFill fill).transition .partiallyFilled none).2 else order.withFill fill) ↔
      order.state = .acknowledged ∨ order.state = .partiallyFilled := by
  by_cases before : order.state = .partiallyFilled
  · rw [if_neg (not_not_intro before)]
    apply iff_of_true
    · apply (accounted_follow accounted fill order.state order.rejectReason).mpr
      refine ⟨iff_of_false ?_ (not_le.mpr less), fun _ _ _ => before⟩
      rw [before]
      decide
    · exact .inr before
  · rw [if_pos before]
    rcases (order.withFill fill).transition_cases .partiallyFilled none with
      ⟨same, refused⟩ | ⟨listed, moved⟩
    · rw [same]
      apply iff_of_false
      · exact fun after => before (after.partially some_ less active)
      · exact fun state => refused ((listed_iff active).2.mpr state)
    · rw [moved]
      apply iff_of_true
      · apply (accounted_follow accounted fill _ _).mpr
        exact ⟨iff_of_false (by decide) (not_le.mpr less), fun _ _ _ => rfl⟩
      · exact (listed_iff active).2.mp listed

theorem accounted_addFill (accounted : Accounted order) (active : order.isActive = true)
    (nonneg : 0 ≤ order.filledQuantity) (positive : 0 < fill.quantity) :
    Accounted (order.addFill fill).2 ↔
      order.state = .acknowledged ∨ order.state = .partiallyFilled := by
  have more : order.filledQuantity < (order.withFill fill).filledQuantity :=
    lt_add_of_pos_right _ positive
  have added : (order.addFill fill).2 = (order.withFill fill).follow order.filledQuantity := by
    unfold Order.addFill
    rw [active]
    rfl
  rw [added]
  unfold Order.follow
  by_cases whole : (order.withFill fill).quantity ≤ (order.withFill fill).filledQuantity
  · rw [if_pos whole]
    exact accounted_whole accounted active whole
  · rw [if_neg whole, if_pos more]
    exact accounted_part accounted active (lt_of_le_of_lt nonneg more) (not_le.mp whole)

theorem addFill_inactive (inactive : order.isActive = false) (fill : Fill) :
    order.addFill fill = (false, order) := by
  unfold Order.addFill
  rw [inactive]
  rfl

theorem fills_transition (order : Order) (newState : OrderState) (reason : Option String) :
    (order.transition newState reason).2.fills = order.fills := by
  rcases order.transition_cases newState reason with ⟨same, _⟩ | ⟨_, moved⟩
  · rw [same]
  · rw [moved]

theorem fills_follow (order : Order) (oldFilled : ℚ) :
    (order.follow oldFilled).fills = order.fills := by
  unfold Order.follow
  split
  · exact fills_transition order .filled none
  · split
    · split
      · exact fills_transition order .partiallyFilled none
      · rfl
    · rfl

theorem positive_addFill (before : PositiveFills order) (positive : 0 < fill.quantity) :
    PositiveFills (order.addFill fill).2 := by
  unfold Order.addFill
  split
  · exact before
  · intro other member
    have among : other ∈ order.fills ++ [fill] := by
      rw [fills_follow] at member
      exact member
    rcases List.mem_append.mp among with old | new
    · exact before other old
    · rw [List.mem_singleton.mp new]
      exact positive

end Orders

/-! ## One call -/

section Calls

variable {manager next : OrderManager} {property : Order → Prop} {orderId : String}

theorem everyOrder_set (every : EveryOrder property manager) (orderId : String) (order : Order) :
    EveryOrder property (manager.setOrder orderId order) ↔ property order :=
  Dict.forall_put every

theorem everyOrder_move (every : EveryOrder property manager) (move : Order → Bool × Order) :
    EveryOrder property (manager.moveOrder orderId move).2 ↔
      ∀ order ∈ manager.orders.get orderId, property (move order).2 := by
  cases there : manager.orders.get orderId with
  | none =>
    rw [OrderManager.moveOrder_missing there]
    exact iff_of_true every fun order absent => absurd absent (Option.not_mem_none order)
  | some order =>
    rw [OrderManager.moveOrder_found there]
    apply (everyOrder_set every orderId _).trans
    exact ⟨fun holds _ same => Option.some.inj same ▸ holds, fun holds => holds order rfl⟩

theorem everyOrder_submit (every : EveryOrder property manager) (exchangeOrderId : String) :
    EveryOrder property (manager.submitOrder orderId exchangeOrderId).2 ↔
      ∀ order ∈ manager.orders.get orderId, property
        ({ order with exchangeOrderId := some exchangeOrderId }.transition .submitted none).2 := by
  unfold OrderManager.submitOrder
  cases there : manager.orders.get orderId with
  | none => exact iff_of_true every fun order absent => absurd absent (Option.not_mem_none order)
  | some order =>
    apply (everyOrder_set every orderId _).trans
    exact ⟨fun holds _ same => Option.some.inj same ▸ holds, fun holds => holds order rfl⟩

theorem positive_step {call : OrderCall} (before : EveryOrder PositiveFills manager)
    (positive : Positive call) (stepped : step manager call = some next) :
    EveryOrder PositiveFills next := by
  cases call with
  | create orderId clientOrderId quantity =>
    cases stepped
    exact (everyOrder_set before orderId _).mpr nofun
  | submit orderId exchangeOrderId =>
    cases stepped
    apply (everyOrder_submit before exchangeOrderId).mpr
    intro order there fill member
    rw [fills_transition] at member
    exact before orderId order there fill member
  | acknowledge orderId =>
    cases stepped
    apply (everyOrder_move before _).mpr
    intro order there fill member
    rw [fills_transition] at member
    exact before orderId order there fill member
  | fill orderId price quantity commission commissionAsset tradeId =>
    cases stepped
    apply (everyOrder_move before _).mpr
    exact fun order there => positive_addFill (before orderId order there) positive
  | cancel orderId reason =>
    cases stepped
    apply (everyOrder_move before _).mpr
    intro order there
    split
    · exact before orderId order there
    · intro fill member
      rw [fills_transition] at member
      exact before orderId order there fill member
  | reject orderId reason =>
    cases stepped
    apply (everyOrder_move before _).mpr
    intro order there fill member
    rw [fills_transition] at member
    exact before orderId order there fill member

/-- One call keeps the accounts exactly when it is in turn. -/
theorem accounts_step {call : OrderCall} (fills : EveryOrder PositiveFills manager)
    (accounts : Accounts manager) (positive : Positive call)
    (stepped : step manager call = some next) : Accounts next ↔ InTurn manager call := by
  cases call with
  | create orderId clientOrderId quantity =>
    cases stepped
    apply (everyOrder_set accounts orderId _).trans
    exact accounted_new orderId clientOrderId quantity
  | submit orderId exchangeOrderId =>
    cases stepped
    refine iff_of_true ((everyOrder_submit accounts exchangeOrderId).mpr ?_) trivial
    intro order there
    have before := accounted_exchange (accounts orderId order there) (some exchangeOrderId)
    exact accounted_transition before (by decide) (by decide)
  | acknowledge orderId =>
    cases stepped
    refine iff_of_true ((everyOrder_move accounts _).mpr ?_) trivial
    exact fun order there =>
      accounted_transition (accounts orderId order there) (by decide) (by decide)
  | fill orderId price quantity commission commissionAsset tradeId =>
    cases stepped
    apply (everyOrder_move accounts _).trans
    refine forall_congr' fun order => forall_congr' fun there => ?_
    have before := accounts orderId order there
    cases active : order.isActive with
    | false =>
      rw [addFill_inactive active]
      exact iff_of_true before nofun
    | true =>
      have nonneg := filled_nonneg before (fills orderId order there)
      apply (accounted_addFill before active nonneg (by exact positive)).trans
      exact ⟨fun state _ => state, fun state => state rfl⟩
  | cancel orderId reason =>
    cases stepped
    refine iff_of_true ((everyOrder_move accounts _).mpr ?_) trivial
    intro order there
    split
    · exact accounts orderId order there
    · exact accounted_transition (accounts orderId order there) (by decide) (by decide)
  | reject orderId reason =>
    cases stepped
    refine iff_of_true ((everyOrder_move accounts _).mpr ?_) trivial
    exact fun order there =>
      accounted_transition (accounts orderId order there) (by decide) (by decide)

theorem refuses (manager : OrderManager) (call : OrderCall) : Refuses manager call := by
  cases call with
  | fill orderId price quantity commission commissionAsset tradeId =>
    intro order there inactive
    unfold OrderManager.addFill
    rw [OrderManager.moveOrder_found there, addFill_inactive inactive]
    refine ⟨rfl, ?_⟩
    show (manager.orders.put orderId order).get orderId = some order
    rw [Dict.get_put, if_pos rfl]
  | create | submit | acknowledge | cancel | reject => trivial

end Calls

/-! ## Runs -/

/-- Along every run of calls with positive fills, every order is accounted for in every state and
no fill is accepted that is not of an active order, if and only if every call comes in turn. -/
theorem accounts_iff_in_turn (calls : List OrderCall) (positive : ∀ call ∈ calls, Positive call) :
    (Always step Accounts OrderManager.new calls ∧
        Guarded step Refuses OrderManager.new calls) ↔
      Guarded step InTurn OrderManager.new calls := by
  have refused : Guarded step Refuses OrderManager.new calls :=
    Always.guarded (fun manager call _ => refuses manager call)
      (@always_of_preserved _ _ step (fun _ => True) (fun _ _ _ _ _ => trivial) _ trivial calls)
  apply (and_iff_left refused).trans
  apply @always_iff_guarded_of _ _ step (EveryOrder PositiveFills) Accounts
    fun _ call => Positive call
  · exact fun _ _ _ fills _ positive _ stepped => positive_step fills positive stepped
  · exact fun _ _ _ fills accounts positive stepped =>
      accounts_step fills accounts positive stepped
  · exact fun _ _ there => nomatch there
  · exact fun _ _ there => nomatch there
  · exact guarded_of_forall positive OrderManager.new

/-- A run that creates, submits and acknowledges an order and fills it twice. -/
def inTurn : List OrderCall :=
  [.create "a" "c" 1, .submit "a" "x", .acknowledge "a",
    .fill "a" 10 (1 / 4) 0 "USDT" none, .fill "a" 12 (3 / 4) 0 "USDT" (some 7)]

/-- Every call of that run comes in turn, so the order is accounted for throughout. -/
theorem accounts_iff_in_turn_filled : (∀ call ∈ inTurn, Positive call) ∧
    Guarded step InTurn OrderManager.new inTurn ∧
      Always step Accounts OrderManager.new inTurn := by
  have positive : ∀ call ∈ inTurn, Positive call := by decide +kernel
  have guarded : Guarded step InTurn OrderManager.new inTurn := by decide +kernel
  exact ⟨positive, guarded, ((accounts_iff_in_turn inTurn positive).mpr guarded).1⟩

/-- A run whose fill overtakes the acknowledgement. -/
def overtaken : List OrderCall :=
  [.create "a" "c" (1 / 2), .submit "a" "x", .fill "a" 10 (3 / 10) 0 "USDT" none]

/-- A part of the order is filled after that run, and its state is still submitted. -/
theorem partial_fill_submitted : (∀ call ∈ overtaken, Positive call) ∧
    ¬ Always step Accounts OrderManager.new overtaken := by
  refine ⟨by decide +kernel, @not_always_of_view _ _ step _ (fun last =>
      (last.orders.get "a").map fun order => (order.state, order.filledQuantity, order.quantity))
    (some (.submitted, 3 / 10, 1 / 2)) Accounts OrderManager.new overtaken (by decide +kernel)
    fun last ends accounts => ?_⟩
  obtain ⟨order, there, tells⟩ := Option.map_eq_some_iff.mp ends
  obtain ⟨state, filled, quantity⟩ := And.imp_right Prod.mk.inj (Prod.mk.inj tells)
  have accounted := accounts "a" order there
  have active : order.isActive = true := active_iff.mpr (.inr (.inl state))
  have part := accounted.partially (by rw [filled]; decide +kernel)
    (by rw [filled, quantity]; decide +kernel) active
  rw [state] at part
  cases part

end TradingBot.Execution.FillAccounts
