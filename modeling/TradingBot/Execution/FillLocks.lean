import TradingBot.Execution.OrderManager
import TradingBot.Foundation.Interleaving

/-!
# The lock of the state machine of orders

`order_manager.py` with the lock that `transition` and `add_fill` share. It is not reentrant: a task
that holds it and asks for it again waits for itself. Tasks run between their suspensions, in any
order, on order objects that they keep hold of; the lock of the manager itself is never held across
a suspension. The logger of `SOUL.md` returns or raises, and either way the transition ends.
-/

open Interleaving Run

namespace TradingBot.Execution.FillLocks

/-- What the tasks share. -/
structure Desk where
  /-- The order objects, in the order of their creation. -/
  objects : List Order
  /-- The object under each order id. -/
  orders : Dict String Nat
  /-- The lock of the state machine is held. -/
  locked : Bool
  /-- `soul_logger_callback` was given. -/
  soulLogger : Bool

/-- What a task calls the manager for. -/
inductive Operation where
  | createOrder (orderId clientOrderId : String) (quantity : ℚ)
  | submitOrder (orderId exchangeOrderId : String)
  | acknowledgeOrder (orderId : String)
  | addFill (orderId : String) (price quantity commission : ℚ) (commissionAsset : String)
      (tradeId : Option Int)
  | cancelOrder (orderId reason : String)
  | rejectOrder (orderId reason : String)

/-- How far a task is with its call. -/
inductive Call where
  | starting (operation : Operation)
  /-- `transition` waits for the lock. -/
  | transitioning (object : Nat) (newState : OrderState) (reason : Option String)
  /-- `add_fill` waits for the lock. -/
  | filling (object : Nat) (fill : Fill)
  /-- `transition`, called by an `add_fill` that holds the lock, waits for it. -/
  | following (object : Nat) (newState : OrderState)
  /-- `transition` holds the lock and awaits the logger. -/
  | logging
  | returned (answer : Bool)

/-- A call has ended. -/
def Call.isReturned : Call → Bool
  | .returned _ => true
  | _ => false

/-- A call holds the lock while it is suspended. -/
def Call.holds : Call → Bool
  | .following _ _ | .logging => true
  | _ => false

/-- A call waits for the lock that it holds. -/
def Call.waitsForItself : Call → Bool
  | .following _ _ => true
  | _ => false

/-- The steps that a call can still take. -/
def Call.rank : Call → Nat
  | .starting _ => 3
  | .transitioning _ _ _ | .filling _ _ => 2
  | .following _ _ | .logging => 1
  | .returned _ => 0

namespace Desk

/-- An order object is changed. -/
def setObject (desk : Desk) (object : Nat) (order : Order) : Desk :=
  { desk with objects := desk.objects.set object order }

/-- A call that looks its order up goes on with it, or answers that there is none. -/
def lookUp (desk : Desk) (orderId : String) (found : Nat → Order → Desk × Call) : Desk × Call :=
  match desk.orders.get orderId with
  | none => (desk, .returned false)
  | some object =>
    match desk.objects[object]? with
    | none => (desk, .returned false)
    | some order => found object order

/-- The first part of a call, up to where it waits for the lock of the state machine. -/
def start (desk : Desk) : Operation → Desk × Call
  | .createOrder orderId clientOrderId quantity =>
    ({ desk with
      objects := desk.objects ++ [Order.new orderId clientOrderId quantity]
      orders := desk.orders.put orderId desk.objects.length }, .returned true)
  | .submitOrder orderId exchangeOrderId => desk.lookUp orderId fun object order =>
    (desk.setObject object { order with exchangeOrderId := some exchangeOrderId },
      .transitioning object .submitted none)
  | .acknowledgeOrder orderId => desk.lookUp orderId fun object _ =>
    (desk, .transitioning object .acknowledged none)
  | .addFill orderId price quantity commission commissionAsset tradeId =>
    desk.lookUp orderId fun object _ =>
      (desk, .filling object ⟨orderId, price, quantity, commission, commissionAsset, tradeId⟩)
  | .cancelOrder orderId reason => desk.lookUp orderId fun object order =>
    if order.isActive then (desk, .transitioning object .cancelled (some reason))
    else (desk, .returned false)
  | .rejectOrder orderId reason => desk.lookUp orderId fun object _ =>
    (desk, .transitioning object .rejected (some reason))

/-- A transition that was taken is told to the logger. -/
def logs (desk : Desk) (newState : OrderState) (reason : Option String) : Bool :=
  desk.soulLogger ∧
    (newState = .rejected ∨ newState = .cancelled ∧ reason ≠ none ∧ reason ≠ some "")

/-- `transition`, from the lock on. -/
def transition (desk : Desk) (object : Nat) (newState : OrderState) (reason : Option String) :
    Desk × Call :=
  match desk.objects[object]? with
  | none => (desk, .returned false)
  | some order =>
    let (taken, moved) := order.transition newState reason
    if taken && desk.logs newState reason then
      ({ desk.setObject object moved with locked := true }, .logging)
    else (desk.setObject object moved, .returned taken)

/-- The transition that `add_fill` calls after a fill was added to an order. -/
def transitionAfter (order : Order) (oldFilled : ℚ) : Option OrderState :=
  if order.quantity ≤ order.filledQuantity then some .filled
  else if oldFilled < order.filledQuantity then
    if order.state ≠ .partiallyFilled then some .partiallyFilled else none
  else none

/-- `add_fill`, from the lock on. -/
def addFill (desk : Desk) (object : Nat) (fill : Fill) : Desk × Call :=
  match desk.objects[object]? with
  | none => (desk, .returned false)
  | some order =>
    if !order.isActive then (desk, .returned false)
    else
      let filled := order.withFill fill
      match transitionAfter filled order.filledQuantity with
      | none => (desk.setObject object filled, .returned true)
      | some newState =>
        ({ desk.setObject object filled with locked := true }, .following object newState)

/-- The next step of a call; a call that waits for the lock has none while it is held. -/
def next (desk : Desk) : Call → Option (Desk × Call)
  | .starting operation => some (desk.start operation)
  | .transitioning object newState reason =>
    if desk.locked then none else some (desk.transition object newState reason)
  | .filling object fill => if desk.locked then none else some (desk.addFill object fill)
  | .following object newState =>
    if desk.locked then none
    else some ((desk.transition object newState none).1, .returned true)
  | .logging => some ({ desk with locked := false }, .returned true)
  | .returned _ => none

end Desk

/-- A step of the tasks of a manager. -/
abbrev step : Pool Desk Call → Move Operation → Option (Pool Desk Call) :=
  Pool.step Call.starting Desk.next

/-- The steps that the calls of a pool can still take. -/
def rank (pool : Pool Desk Call) : Nat := (pool.calls.map Call.rank).sum

/-- The calls under way end. -/
structure Completes (pool : Pool Desk Call) : Prop where
  /-- A call that has not returned comes to its next step once others have taken theirs. -/
  proceeds : ∀ position call, pool.calls[position]? = some call → call.isReturned = false →
    ∃ (others : List Nat) (final : Pool Desk Call), position ∉ others ∧
      exec step pool (others.map .advance) = some final ∧
      (step final (.advance position)).isSome = true
  /-- Where no call has a next step all have returned, and the lock is free. -/
  rests : (∀ position, step pool (.advance position) = none) →
    (∀ call ∈ pool.calls, call.isReturned = true) ∧ pool.shared.locked = false
  /-- The calls take no more than a number of steps. -/
  ends : ∃ bound : Nat, ∀ (positions : List Nat) (final : Pool Desk Call),
    exec step pool (positions.map .advance) = some final → positions.length ≤ bound

/-- A fill that an order takes leaves its state as it is: it does not complete the order, and is
positive only for an order that is partially filled. -/
def LeavesState (order : Order) (fill : Fill) : Prop :=
  order.isActive = true → order.filledQuantity + fill.quantity < order.quantity ∧
    (fill.quantity ≤ 0 ∨ order.state = .partiallyFilled)

instance (order : Order) (fill : Fill) : Decidable (LeavesState order fill) :=
  inferInstanceAs (Decidable (_ → _))

/-- What a step finds of its call and of the order of a fill. -/
def InBounds (pool : Pool Desk Call) : Move Operation → Prop
  | .start _ => True
  | .advance position => ∀ object fill order,
    pool.calls[position]? = some (.filling object fill) →
      pool.shared.objects[object]? = some order → LeavesState order fill

/-- Whether a step is in bounds is computed from what it finds. -/
def inBounds (pool : Pool Desk Call) : Move Operation → Bool
  | .start _ => true
  | .advance position =>
    match pool.calls[position]? with
    | some (.filling object fill) => pool.shared.objects[object]?.all (LeavesState · fill)
    | _ => true

theorem inBounds_iff (pool : Pool Desk Call) (move : Move Operation) :
    inBounds pool move = true ↔ InBounds pool move := by
  cases move with
  | start _ => exact ⟨fun _ => trivial, fun _ => rfl⟩
  | advance position =>
    simp only [inBounds, InBounds]
    split
    next object fill found =>
      rw [Option.all_eq_true]
      constructor
      · intro kept _ _ order same there
        cases found.symm.trans same
        exact of_decide_eq_true (kept order there)
      · intro kept order there
        exact decide_eq_true (kept object fill order found there)
    next other =>
      constructor
      · intro _ object fill order found _
        exact absurd found (other object fill)
      · exact fun _ => rfl

instance (pool : Pool Desk Call) (move : Move Operation) : Decidable (InBounds pool move) :=
  decidable_of_iff _ (inBounds_iff pool move)

/-- The lock is held by the one call that is suspended with it, or by none. -/
def Kept (pool : Pool Desk Call) : Prop := pool.count Call.holds = pool.shared.locked.toNat

/-! ## One step -/

variable {desk : Desk}

theorem start_lock (desk : Desk) (operation : Operation) :
    (desk.start operation).1.locked = desk.locked ∧
      (desk.start operation).2.holds = false ∧ (desk.start operation).2.rank < 3 := by
  have looked : ∀ orderId found,
      (∀ object order, (found object order : Desk × Call).1.locked = desk.locked ∧
        (found object order).2.holds = false ∧ (found object order).2.rank < 3) →
      (desk.lookUp orderId found).1.locked = desk.locked ∧
        (desk.lookUp orderId found).2.holds = false ∧ (desk.lookUp orderId found).2.rank < 3 := by
    intro orderId found each
    unfold Desk.lookUp
    split
    · exact ⟨rfl, rfl, Nat.zero_lt_succ _⟩
    · split
      · exact ⟨rfl, rfl, Nat.zero_lt_succ _⟩
      · exact each _ _
  cases operation with
  | createOrder orderId clientOrderId quantity => exact ⟨rfl, rfl, Nat.zero_lt_succ _⟩
  | submitOrder orderId exchangeOrderId =>
    exact looked _ _ fun _ _ => ⟨rfl, rfl, Nat.lt_succ_self _⟩
  | acknowledgeOrder orderId => exact looked _ _ fun _ _ => ⟨rfl, rfl, Nat.lt_succ_self _⟩
  | addFill orderId price quantity commission commissionAsset tradeId =>
    exact looked _ _ fun _ _ => ⟨rfl, rfl, Nat.lt_succ_self _⟩
  | cancelOrder orderId reason =>
    refine looked _ _ fun object order => ?_
    split
    · exact ⟨rfl, rfl, Nat.lt_succ_self _⟩
    · exact ⟨rfl, rfl, Nat.zero_lt_succ _⟩
  | rejectOrder orderId reason => exact looked _ _ fun _ _ => ⟨rfl, rfl, Nat.lt_succ_self _⟩

theorem transition_lock (free : desk.locked = false) (object : Nat) (newState : OrderState)
    (reason : Option String) :
    (∃ answer, (desk.transition object newState reason).2 = .returned answer) ∧
        (desk.transition object newState reason).1.locked = false ∨
      (desk.transition object newState reason).2 = .logging ∧
        (desk.transition object newState reason).1.locked = true := by
  unfold Desk.transition
  split
  · exact .inl ⟨⟨false, rfl⟩, free⟩
  · dsimp only
    split
    · exact .inr ⟨rfl, rfl⟩
    · exact .inl ⟨⟨_, rfl⟩, free⟩

theorem transitionAfter_eq_none (order : Order) (fill : Fill) :
    Desk.transitionAfter (order.withFill fill) order.filledQuantity = none ↔
      order.filledQuantity + fill.quantity < order.quantity ∧
        (fill.quantity ≤ 0 ∨ order.state = .partiallyFilled) := by
  have grown : (order.withFill fill).filledQuantity = order.filledQuantity + fill.quantity := rfl
  have quantity : (order.withFill fill).quantity = order.quantity := rfl
  have state : (order.withFill fill).state = order.state := rfl
  have positive : order.filledQuantity < order.filledQuantity + fill.quantity ↔
      0 < fill.quantity := lt_add_iff_pos_right _
  unfold Desk.transitionAfter
  rw [grown, quantity, state]
  by_cases complete : order.quantity ≤ order.filledQuantity + fill.quantity
  · rw [if_pos complete]
    have notBelow : ¬ order.filledQuantity + fill.quantity < order.quantity := not_lt.mpr complete
    simp [notBelow]
  · rw [if_neg complete]
    have below : order.filledQuantity + fill.quantity < order.quantity := not_le.mp complete
    by_cases more : 0 < fill.quantity
    · rw [if_pos (positive.mpr more)]
      have nothing : ¬ fill.quantity ≤ 0 := not_le.mpr more
      by_cases same : order.state = .partiallyFilled
      · simp [below, same]
      · simp [nothing, same]
    · rw [if_neg (fun less => more (positive.mp less))]
      simp [below, not_lt.mp more]

/-- A fill that finds the lock free returns if it leaves the state of its order, and holds the lock
for a transition otherwise. -/
theorem addFill_lock (free : desk.locked = false) (object : Nat) (fill : Fill) :
    (∃ answer, (desk.addFill object fill).2 = .returned answer) ∧
        (desk.addFill object fill).1.locked = false ∧
        (∀ order, desk.objects[object]? = some order → LeavesState order fill) ∨
      (∃ newState, (desk.addFill object fill).2 = .following object newState) ∧
        (desk.addFill object fill).1.locked = true ∧
        ∃ order, desk.objects[object]? = some order ∧ ¬ LeavesState order fill := by
  unfold Desk.addFill
  split
  next missing =>
    refine .inl ⟨⟨false, rfl⟩, free, fun order there => ?_⟩
    cases missing.symm.trans there
  next order found =>
    cases active : order.isActive with
    | false =>
      refine .inl ⟨⟨false, rfl⟩, free, fun other there takes => ?_⟩
      cases found.symm.trans there
      exact absurd (active.symm.trans takes) Bool.false_ne_true
    | true =>
      have exactly := transitionAfter_eq_none order fill
      simp only [Bool.not_true, Bool.false_eq_true, if_false]
      cases follows : Desk.transitionAfter (order.withFill fill) order.filledQuantity with
      | none =>
        refine .inl ⟨⟨true, rfl⟩, free, fun other there _ => ?_⟩
        cases found.symm.trans there
        exact exactly.mp follows
      | some newState =>
        refine .inr ⟨⟨newState, rfl⟩, rfl, order, found, fun leaves => ?_⟩
        have none_ := exactly.mpr (leaves active)
        cases follows.symm.trans none_

theorem addFill_inBounds {object : Nat} {order : Order} {fill : Fill}
    (found : desk.objects[object]? = some order) (leaves : LeavesState order fill) :
    desk.addFill object fill =
      (desk.setObject object (order.addFill fill).2, .returned (order.addFill fill).1) := by
  have same : desk.setObject object order = desk := by
    obtain ⟨inside, here⟩ := List.getElem?_eq_some_iff.mp found
    unfold Desk.setObject
    rw [← here, List.set_getElem_self]
  unfold Desk.addFill Order.addFill
  rw [found]
  cases active : order.isActive with
  | false => simp [active, same]
  | true =>
    have exactly := (transitionAfter_eq_none order fill).mpr (leaves active)
    have follows : (order.withFill fill).follow order.filledQuantity = order.withFill fill := by
      unfold Desk.transitionAfter at exactly
      unfold Order.follow
      split at exactly
      · cases exactly
      · rename_i open_
        rw [if_neg open_]
        split at exactly
        · rename_i more
          rw [if_pos more]
          split at exactly
          · cases exactly
          · rename_i state
            exact if_neg state
        · rename_i more
          exact if_neg more
    simp [active, exactly, follows]

variable {call moved : Call} {after : Desk}

theorem next_isSome (unlocked : desk.locked = false) (open_ : call.isReturned = false) :
    (desk.next call).isSome = true := by
  cases call with
  | starting _ => rfl
  | logging => rfl
  | transitioning _ _ _ | filling _ _ | following _ _ => simp [Desk.next, unlocked]
  | returned _ => cases open_

theorem waiting_taken {result : Desk × Call}
    (taken : (if desk.locked then none else some result) = some (after, moved)) :
    desk.locked = false ∧ result = (after, moved) := by
  cases locked : desk.locked with
  | true => simp [locked] at taken
  | false => exact ⟨rfl, by simpa [locked] using taken⟩

theorem next_rank (taken : desk.next call = some (after, moved)) : moved.rank < call.rank := by
  cases call with
  | starting operation =>
    have result : desk.start operation = (after, moved) := Option.some.inj taken
    have started := (start_lock desk operation).2.2
    rw [result] at started
    exact started
  | transitioning object newState reason =>
    obtain ⟨free, result⟩ := waiting_taken taken
    obtain ⟨⟨answer, answered⟩, -⟩ | ⟨logs, -⟩ := transition_lock free object newState reason
    · have same : moved = .returned answer := (congrArg Prod.snd result).symm.trans answered
      rw [same]
      exact Nat.zero_lt_succ _
    · have same : moved = .logging := (congrArg Prod.snd result).symm.trans logs
      rw [same]
      exact Nat.lt_succ_self _
  | filling object fill =>
    obtain ⟨free, result⟩ := waiting_taken taken
    obtain ⟨⟨answer, answered⟩, -⟩ | ⟨⟨newState, follows⟩, -⟩ := addFill_lock free object fill
    · have same : moved = .returned answer := (congrArg Prod.snd result).symm.trans answered
      rw [same]
      exact Nat.zero_lt_succ _
    · have same : moved = .following object newState :=
        (congrArg Prod.snd result).symm.trans follows
      rw [same]
      exact Nat.lt_succ_self _
  | following object newState =>
    obtain ⟨-, result⟩ := waiting_taken taken
    cases result
    exact Nat.zero_lt_succ _
  | logging =>
    cases taken
    exact Nat.zero_lt_succ _
  | returned _ => cases taken

theorem waits_of_other (other : ∀ object fill, call ≠ .filling object fill)
    (waits : moved.waitsForItself = false) :
    moved.waitsForItself = false ↔ ∀ object fill order, call = .filling object fill →
      desk.objects[object]? = some order → LeavesState order fill := by
  constructor
  · intro _ object fill _ same
    exact absurd same (other object fill)
  · exact fun _ => waits

theorem next_lock (held : call.holds = true → desk.locked = true)
    (taken : desk.next call = some (after, moved)) :
    after.locked.toNat + call.holds.toNat = desk.locked.toNat + moved.holds.toNat ∧
      (moved.waitsForItself = false ↔ ∀ object fill order, call = .filling object fill →
        desk.objects[object]? = some order → LeavesState order fill) := by
  cases call with
  | starting operation =>
    have result : desk.start operation = (after, moved) := Option.some.inj taken
    obtain ⟨untouched, free, -⟩ := start_lock desk operation
    rw [result] at untouched free
    have waits : moved.waitsForItself = false := by
      cases moved with
      | following _ _ => cases free
      | starting _ | transitioning _ _ _ | filling _ _ | logging | returned _ => rfl
    exact ⟨congrArg₂ (fun left right => left.toNat + right.toNat) untouched free.symm,
      waits_of_other (fun _ _ same => nomatch same) waits⟩
  | transitioning object newState reason =>
    obtain ⟨free, result⟩ := waiting_taken taken
    have state : (desk.transition object newState reason).1 = after := congrArg Prod.fst result
    have stage : (desk.transition object newState reason).2 = moved := congrArg Prod.snd result
    rw [free]
    obtain ⟨⟨answer, answered⟩, open_⟩ | ⟨logs, shut⟩ :=
      transition_lock free object newState reason
    · rw [← state, ← stage, answered, open_]
      exact ⟨rfl, waits_of_other (fun _ _ same => nomatch same) rfl⟩
    · rw [← state, ← stage, logs, shut]
      exact ⟨rfl, waits_of_other (fun _ _ same => nomatch same) rfl⟩
  | filling object fill =>
    obtain ⟨free, result⟩ := waiting_taken taken
    have state : (desk.addFill object fill).1 = after := congrArg Prod.fst result
    have stage : (desk.addFill object fill).2 = moved := congrArg Prod.snd result
    rw [free]
    obtain ⟨⟨answer, answered⟩, open_, leaves⟩ | ⟨⟨newState, follows⟩, shut, order, found, moves⟩ :=
      addFill_lock free object fill
    · rw [← state, ← stage, answered, open_]
      refine ⟨rfl, fun _ _ _ order same found => ?_, fun _ => rfl⟩
      cases same
      exact leaves order found
    · rw [← state, ← stage, follows, shut]
      refine ⟨rfl, fun waits => (nomatch waits), fun leaves => ?_⟩
      exact absurd (leaves object fill order rfl found) moves
  | following object newState =>
    obtain ⟨free, -⟩ := waiting_taken taken
    exact absurd (free.symm.trans (held rfl)) Bool.false_ne_true
  | logging =>
    cases taken
    rw [held rfl]
    exact ⟨rfl, waits_of_other (fun _ _ same => nomatch same) rfl⟩
  | returned _ => cases taken

/-! ## The tasks together -/

variable {pool final : Pool Desk Call} {position : Nat}

theorem Kept.held (kept : Kept pool) (found : pool.calls[position]? = some call)
    (holds : call.holds = true) : pool.shared.locked = true := by
  have counted : 0 < pool.count Call.holds := count_pos found holds
  rw [kept] at counted
  cases locked : pool.shared.locked with
  | true => rfl
  | false =>
    rw [locked] at counted
    cases counted

/-- Every move leaves the lock with the call that holds it. -/
theorem kept_step (pool : Pool Desk Call) (move : Move Operation) (final : Pool Desk Call)
    (kept : Kept pool) (taken : step pool move = some final) : Kept final := by
  cases move with
  | start operation =>
    cases taken
    have counted := @count_start _ _ _ Call.starting pool operation Call.holds
    exact counted.trans kept
  | advance position =>
    obtain ⟨call, found, after, moved, stepped, rfl⟩ := step_advance.mp taken
    have counted := @count_advance _ _ pool position after call Call.holds found moved
    have lock := (next_lock (kept.held found) stepped).1
    have before : pool.count Call.holds = pool.shared.locked.toNat := kept
    show _ = after.locked.toNat
    omega

theorem never_moves (kept : Kept pool) (found : pool.calls[position]? = some call)
    (waits : call.waitsForItself = true) : step pool (.advance position) = none := by
  cases call with
  | following object newState =>
    have locked := kept.held found rfl
    simp [Pool.step, found, Desk.next, locked]
  | starting _ | transitioning _ _ _ | filling _ _ | logging | returned _ => cases waits

theorem Completes.free (kept : Kept pool) (completes : Completes pool) :
    ∀ call ∈ pool.calls, call.waitsForItself = false := by
  intro call member
  obtain ⟨position, found⟩ := List.mem_iff_getElem?.mp member
  cases waits : call.waitsForItself with
  | false => rfl
  | true =>
    have open_ : call.isReturned = false := by cases call <;> first | rfl | cases waits
    obtain ⟨others, final, elsewhere, ran, moves⟩ := completes.proceeds position call found open_
    have there : final.calls[position]? = some call := (calls_elsewhere elsewhere ran).trans found
    have lock : Kept final :=
      (always_of_preserved kept_step kept (others.map .advance)).final ran
    rw [never_moves lock there waits] at moves
    cases moves

theorem moves_unlocked (unlocked : pool.shared.locked = false)
    (found : pool.calls[position]? = some call) (open_ : call.isReturned = false) :
    (step pool (.advance position)).isSome = true := by
  have some_ := next_isSome unlocked open_
  obtain ⟨⟨after, moved⟩, taken⟩ := Option.isSome_iff_exists.mp some_
  have goes : step pool (.advance position) = some ⟨after, pool.calls.set position moved⟩ :=
    step_advance.mpr ⟨call, found, after, moved, taken, rfl⟩
  rw [goes]
  rfl

theorem holder_logs (kept : Kept pool) (free : ∀ call ∈ pool.calls, call.waitsForItself = false)
    (locked : pool.shared.locked = true) :
    ∃ place : Nat, pool.calls[place]? = some Call.logging := by
  have counted : 0 < pool.count Call.holds := by
    rw [kept, locked]
    exact Nat.zero_lt_one
  obtain ⟨call, member, holds⟩ := List.countP_pos_iff.mp counted
  have goes := free call member
  cases call with
  | logging => exact List.mem_iff_getElem?.mp member
  | following _ _ => cases goes
  | starting _ | transitioning _ _ _ | filling _ _ | returned _ => cases holds

theorem step_logging (found : pool.calls[position]? = some .logging) :
    step pool (.advance position) =
      some ⟨{ pool.shared with locked := false }, pool.calls.set position (.returned true)⟩ :=
  step_advance.mpr ⟨.logging, found, _, _, rfl, rfl⟩

theorem proceeds_of_free (kept : Kept pool)
    (free : ∀ call ∈ pool.calls, call.waitsForItself = false)
    (found : pool.calls[position]? = some call) (open_ : call.isReturned = false) :
    ∃ (others : List Nat) (final : Pool Desk Call), position ∉ others ∧
      exec step pool (others.map .advance) = some final ∧
      (step final (.advance position)).isSome = true := by
  cases locked : pool.shared.locked with
  | false => exact ⟨[], pool, List.not_mem_nil, rfl, moves_unlocked locked found open_⟩
  | true =>
    obtain ⟨place, holds⟩ := holder_logs kept free locked
    by_cases same : position = place
    · refine ⟨[], pool, List.not_mem_nil, rfl, ?_⟩
      rw [same, step_logging holds]
      rfl
    · refine ⟨[place], _, fun member => same (List.mem_singleton.mp member),
        exec_cons.mpr ⟨_, step_logging holds, rfl⟩, ?_⟩
      have still : (pool.calls.set place (.returned true))[position]? = some call :=
        (List.getElem?_set_ne (Ne.symm same)).trans found
      exact moves_unlocked rfl still open_

theorem rests_of_free (kept : Kept pool) (free : ∀ call ∈ pool.calls, call.waitsForItself = false)
    (nothing : ∀ position, step pool (.advance position) = none) :
    (∀ call ∈ pool.calls, call.isReturned = true) ∧ pool.shared.locked = false := by
  have unlocked : pool.shared.locked = false := by
    cases locked : pool.shared.locked with
    | false => rfl
    | true =>
      obtain ⟨place, holds⟩ := holder_logs kept free locked
      cases (nothing place).symm.trans (step_logging holds)
  refine ⟨fun call member => ?_, unlocked⟩
  obtain ⟨position, found⟩ := List.mem_iff_getElem?.mp member
  cases open_ : call.isReturned with
  | true => rfl
  | false =>
    have some_ := moves_unlocked unlocked found open_
    rw [nothing position] at some_
    cases some_

theorem completes_iff (kept : Kept pool) :
    Completes pool ↔ ∀ call ∈ pool.calls, call.waitsForItself = false := by
  refine ⟨fun completes => completes.free kept, fun free => ?_⟩
  refine ⟨fun position call found open_ => proceeds_of_free kept free found open_,
    fun nothing => rests_of_free kept free nothing,
    (pool.calls.map Call.rank).sum, fun positions final ran => ?_⟩
  exact length_le_weight (fun _ _ _ _ taken => next_rank taken) ran

/-- One move lets the calls complete exactly when it is in bounds. -/
theorem completes_step (pool : Pool Desk Call) (move : Move Operation) (final : Pool Desk Call)
    (kept : Kept pool) (completes : Completes pool) (taken : step pool move = some final) :
    Completes final ↔ InBounds pool move := by
  have free := (completes_iff kept).mp completes
  rw [completes_iff (kept_step pool move final kept taken)]
  cases move with
  | start operation =>
    cases taken
    refine ⟨fun _ => trivial, fun _ call member => ?_⟩
    obtain old | new := List.mem_append.mp member
    · exact free call old
    · cases List.mem_singleton.mp new
      rfl
  | advance position =>
    obtain ⟨call, found, after, moved, stepped, rfl⟩ := step_advance.mp taken
    have exactly := (next_lock (kept.held found) stepped).2
    constructor
    · intro still object fill order filling there
      cases found.symm.trans filling
      have waits := still moved (mem_replacement found moved)
      exact exactly.mp waits object fill order rfl there
    · intro leaves other member
      obtain old | rfl := List.mem_or_eq_of_mem_set member
      · exact free other old
      · refine exactly.mpr fun object fill order same there => ?_
        exact leaves object fill order (found.trans (congrArg some same)) there

theorem completes_nil (free : desk.locked = false) : Kept ⟨desk, []⟩ ∧ Completes ⟨desk, []⟩ := by
  have kept : Kept ⟨desk, []⟩ := by
    show 0 = desk.locked.toNat
    rw [free]
    rfl
  exact ⟨kept, (completes_iff kept).mpr fun call member => nomatch member⟩

/-- From orders in any states, the calls of every run end, each with the lock free, exactly as long
as every fill that is added leaves the state of its order. -/
theorem calls_complete_iff (desk : Desk) (free : desk.locked = false)
    (moves : List (Move Operation)) :
    Always step Completes ⟨desk, []⟩ moves ↔ Guarded step InBounds ⟨desk, []⟩ moves :=
  always_iff_guarded kept_step completes_step (completes_nil free).1 (completes_nil free).2 moves

/-- A desk with an order in a state under the id `A`, and one under the id `B`. -/
def deskOf (state : OrderState) : Desk where
  objects := [{ Order.new "A" "a" 2 with state := state }, Order.new "B" "b" 1]
  orders := Dict.ofList [("A", 0), ("B", 1)]
  locked := false
  soulLogger := true

/-- A fill of half the order under `A`, while the order under `B` is cancelled. -/
def halfFilled : List (Move Operation) :=
  [.start (.addFill "A" 100 1 0 "BTC" none), .start (.cancelOrder "B" "late"), .advance 0,
    .advance 1, .advance 0, .advance 1, .advance 1]

/-- A part of an order that is partially filled already is filled, and all calls return. -/
theorem calls_complete_partiallyFilled :
    Always step Completes ⟨deskOf .partiallyFilled, []⟩ halfFilled :=
  (calls_complete_iff (deskOf .partiallyFilled) rfl halfFilled).mpr (by decide +kernel)

/-- The first part of an acknowledged order is filled, and the call waits for itself; so does the
cancellation of the other order, for ever. -/
theorem first_fill_never_returns :
    ¬ Always step Completes ⟨deskOf .acknowledged, []⟩ (halfFilled.take 5) := by
  intro always
  have decided : (exec step ⟨deskOf .acknowledged, []⟩ (halfFilled.take 5)).map
      (fun pool => pool.calls.map Call.waitsForItself) = some [true, false] := by decide +kernel
  obtain ⟨final, ran, shown⟩ := Option.map_eq_some_iff.mp decided
  have kept : Kept final :=
    (always_of_preserved kept_step (completes_nil rfl).1 (halfFilled.take 5)).final ran
  have free := (completes_iff kept).mp (always.final ran)
  have waits : true ∈ final.calls.map Call.waitsForItself := shown ▸ List.mem_cons_self
  obtain ⟨call, member, waiting⟩ := List.mem_map.mp waits
  cases waiting.symm.trans (free call member)

end TradingBot.Execution.FillLocks
