import TradingBot.Foundation.Run
import TradingBot.Oms.SyntheticRouter

/-!
# Accounts of synthetic orders

A report of a fill tells what a child has filled so far, but is added to what its order has
executed, and sets the status of the order whatever that was. What waits to be routed is counted
only while its order is active, which a router makes no order.
-/

open Run MachineInt

namespace TradingBot.Oms.SyntheticAccounts

open SyntheticRouter

/-- One call on a router or an order of it. -/
inductive RouterCall where
  /-- `submit_synthetic` of a new order, which may have been started before, with the readings of
  the clock for its children. -/
  | submit (orderId : Nat) (orderType : SyntheticOrderType) (symbol side : String)
    (totalQuantity : ℚ) (config : SplitConfig) (started : Bool) (nowMs : Nat → Nat)
  /-- `get_next_child_to_route`. -/
  | next (orderId : Nat)
  /-- `mark_child_routed`. -/
  | route (orderId childId exchangeId : Nat)
  /-- `update_child_fill`. -/
  | fill (orderId childId : Nat) (filledQty : ℚ)
  /-- `cancel_synthetic`. -/
  | cancel (orderId : Nat)

/-- What happened to an order: the children that were routed, and whether it was cancelled with no
further fill of a routed child since. -/
structure Trace where
  routed : List Nat
  cancelled : Bool

/-- A router with what happened to its orders. -/
structure Session where
  router : SyntheticRouter
  traces : Nat → Trace

/-- A session of a new router. -/
def Session.start (maxOrders : Nat) : Session where
  router := .new maxOrders
  traces := fun _ => { routed := [], cancelled := false }

/-- A new order, started or not. -/
def newOrder (orderId : Nat) (orderType : SyntheticOrderType) (symbol side : String)
    (totalQuantity : ℚ) (config : SplitConfig) (started : Bool) : SyntheticOrder :=
  let order := SyntheticOrder.new orderId orderType symbol side totalQuantity config
  if started then order.startExecution else order

/-- The child of an order of a router. -/
def childOf (router : SyntheticRouter) (orderId childId : Nat) : Option ChildOrder :=
  (router.orders.get orderId).bind fun order => order.children.get childId

/-- A report tells of a further fill of a child that was routed. -/
def Further (child : ChildOrder) (filledQty : ℚ) : Prop :=
  child.exchangeOrderId.isSome = true ∧ child.filledQuantity < filledQty

instance (child : ChildOrder) (filledQty : ℚ) : Decidable (Further child filledQty) :=
  inferInstanceAs (Decidable (_ ∧ _))

/-- A session after a call; the clock does not go back while children are made. -/
def step (session : Session) : RouterCall → Option Session
  | .submit orderId orderType symbol side totalQuantity config started nowMs =>
    let order := newOrder orderId orderType symbol side totalQuantity config started
    let submitted := session.router.submitSynthetic order nowMs
    if ∀ sequence < (order.childrenOf nowMs).length, nowMs sequence ≤ nowMs (sequence + 1) then
      some {
        router := submitted.2
        traces :=
          if submitted.1.isOk then
            Function.update session.traces orderId { routed := [], cancelled := false }
          else session.traces }
    else none
  | .next _ => some session
  | .route orderId childId exchangeId =>
    let routed := session.router.markChildRouted orderId childId exchangeId
    some {
      router := routed.2
      traces :=
        if routed.1 then Function.update session.traces orderId { session.traces orderId with
          routed := (session.traces orderId).routed ++ [childId] }
        else session.traces }
  | .fill orderId childId filledQty =>
    (session.router.updateChildFill orderId childId filledQty).map fun answer => {
      router := answer.2
      traces :=
        if ∃ child ∈ childOf session.router orderId childId, Further child filledQty then
          Function.update session.traces orderId
            { session.traces orderId with cancelled := false }
        else session.traces }
  | .cancel orderId =>
    let cancelled := session.router.cancelSynthetic orderId
    some {
      router := cancelled.2
      traces :=
        if cancelled.1 then
          Function.update session.traces orderId { session.traces orderId with cancelled := true }
        else session.traces }

/-- What the children of an order have filled, in units. -/
def filledUnits (order : SyntheticOrder) : Nat :=
  (order.children.values.map fun child => toUnits child.filledQuantity).sum

/-- An order has executed what its children have filled, is filled only if that is nearly all of
its quantity, and does not come back to life once it is cancelled. -/
structure OrderAccounts (order : SyntheticOrder) (trace : Trace) : Prop where
  executed : order.executedQuantity = filledUnits order
  complete : order.status = .fullyFilled →
    order.totalQuantity * (999 / 1000) ≤ (filledUnits order : ℚ) / 100000000
  cancelled : trace.cancelled = true →
    order.status ∉ [SyntheticStatus.active, .partiallyFilled, .fullyFilled]
  routed : trace.routed.Nodup

/-- Every order has its accounts, and the pending quantity of a symbol is that of the children of
its orders that wait to be routed. -/
structure Accounts (session : Session) : Prop where
  orders : ∀ orderId order, session.router.orders.get orderId = some order →
    OrderAccounts order (session.traces orderId)
  pending : ∀ symbol, session.router.totalPendingQuantity symbol =
    (session.router.orders.values.map fun order =>
      if order.symbol = symbol then waiting order else 0).sum

/-- A report of a fill fits the accounts of its order: the child had filled nothing before; unless
it tells of a further fill of a routed child, the order is not cancelled or has still executed
nothing; and if it ends that the order is active, no other child of a quantity waits to be routed,
and the child itself does not wait any more. -/
structure FillFits (order : SyntheticOrder) (trace : Trace) (childId : Nat) (child : ChildOrder)
    (filledQty : ℚ) : Prop where
  first : toUnits child.filledQuantity = 0
  further : trace.cancelled = true → Further child filledQty ∨
    order.executedQuantity + toUnits filledQty = 0 ∧ 0 < order.totalQuantity
  last : order.status = .active →
    order.executedQuantity + toUnits filledQty = 0 ∧ 0 < order.totalQuantity ∨
      (∀ entry ∈ order.children.entries, entry.1 ≠ childId → entry.2.status = .pending →
        entry.2.quantity = 0) ∧ (child.status = .pending → 0 < filledQty ∨ child.quantity = 0)

instance (order : SyntheticOrder) (trace : Trace) (childId : Nat) (child : ChildOrder)
    (filledQty : ℚ) : Decidable (FillFits order trace childId child filledQty) :=
  decidable_of_iff
    (toUnits child.filledQuantity = 0 ∧
      (trace.cancelled = true → Further child filledQty ∨
        order.executedQuantity + toUnits filledQty = 0 ∧ 0 < order.totalQuantity) ∧
      (order.status = .active →
        order.executedQuantity + toUnits filledQty = 0 ∧ 0 < order.totalQuantity ∨
          (∀ entry ∈ order.children.entries, entry.1 ≠ childId → entry.2.status = .pending →
            entry.2.quantity = 0) ∧
            (child.status = .pending → 0 < filledQty ∨ child.quantity = 0)))
    ⟨fun fits => ⟨fits.1, fits.2.1, fits.2.2⟩, fun fits => ⟨fits.first, fits.further, fits.last⟩⟩

/-- A call fits the accounts: an order with children of a quantity is started before it is
submitted, and a report of a fill fits the accounts of its order. -/
def Fits (session : Session) : RouterCall → Prop
  | .submit orderId orderType symbol side totalQuantity config started _ => started = true ∨
      ∀ quantity ∈ (newOrder orderId orderType symbol side totalQuantity config
        started).splitQuantities.2, quantity = 0
  | .fill orderId childId filledQty => ∀ order ∈ session.router.orders.get orderId,
      ∀ child ∈ order.children.get childId,
        FillFits order (session.traces orderId) childId child filledQty
  | _ => True

instance (session : Session) : DecidablePred (Fits session)
  | .submit .. => inferInstanceAs (Decidable (_ ∨ ∀ quantity ∈ _, _ = _))
  | .fill .. => inferInstanceAs (Decidable (∀ order ∈ _, ∀ child ∈ _, FillFits _ _ _ _ _))
  | .next _ | .route .. | .cancel _ => inferInstanceAs (Decidable True)

/-! ## One order -/

section Orders

variable {order : SyntheticOrder} {trace : Trace} {child : ChildOrder} {childId : Nat}

/-- No child of a quantity waits to be routed. -/
def NoneWaits (order : SyntheticOrder) : Prop :=
  ∀ child ∈ order.children.values, child.status = .pending → child.quantity = 0

/-- An order with its accounts, whose waiting children are counted, and whose routed and queued
children differ. -/
structure Sound (order : SyntheticOrder) (trace : Trace) (queue : List ChildOrder) : Prop where
  accounts : OrderAccounts order trace
  counted : order.status = .active ∨ NoneWaits order
  queued : (trace.routed ++ queue.map ChildOrder.childId).Nodup

theorem filledUnits_setChild (found : order.children.get childId = some child)
    (after : ChildOrder) :
    filledUnits (order.setChild after childId) + toUnits child.filledQuantity =
      filledUnits order + toUnits after.filledQuantity :=
  Dict.sum_put (fun other : ChildOrder => toUnits other.filledQuantity) found after

theorem mem_setChild {after other : ChildOrder}
    (member : other ∈ (order.setChild after childId).children.values) :
    other = after ∨ ∃ otherId, otherId ≠ childId ∧
      order.children.get otherId = some other := by
  obtain ⟨otherId, found⟩ := Dict.mem_values.mp member
  obtain ⟨-, same⟩ | ⟨differs, before⟩ := Dict.get_put_eq_some.mp found
  · exact .inl same.symm
  · exact .inr ⟨otherId, differs, before⟩

/-- The status is kept, filled or partly filled. -/
theorem statusAfter_cases (order : SyntheticOrder) (executed : Nat) :
    executed = 0 ∧ 0 < order.totalQuantity ∧ order.statusAfter executed = order.status ∨
      (order.statusAfter executed = .fullyFilled ∧
        order.totalQuantity * (999 / 1000) ≤ (executed : ℚ) / 100000000) ∨
      order.statusAfter executed = .partiallyFilled := by
  unfold SyntheticOrder.statusAfter
  dsimp only
  by_cases whole : order.totalQuantity * (999 / 1000) ≤ (executed : ℚ) / 100000000
  · rw [if_pos whole]
    exact .inr (.inl ⟨rfl, whole⟩)
  · rw [if_neg whole]
    by_cases part : 0 < (executed : ℚ) / 100000000
    · rw [if_pos part]
      exact .inr (.inr rfl)
    · rw [if_neg part]
      refine .inl ⟨?_, ?_, rfl⟩
      · by_contra some_
        have positive : (0 : ℚ) < executed := Nat.cast_pos.mpr (Nat.pos_of_ne_zero some_)
        exact part (div_pos positive (by norm_num))
      · have none_ : (0 : ℚ) ≤ (executed : ℚ) / 100000000 :=
          div_nonneg (Nat.cast_nonneg _) (by norm_num)
        have less := lt_of_le_of_lt none_ (not_le.mp whole)
        exact (mul_pos_iff_of_pos_right (by norm_num)).mp less

theorem statusAfter_none (positive : 0 < order.totalQuantity) :
    order.statusAfter 0 = order.status := by
  have above := mul_pos positive (by norm_num : (0 : ℚ) < 999 / 1000)
  unfold SyntheticOrder.statusAfter
  dsimp only
  rw [Nat.cast_zero, zero_div, if_neg (not_le.mpr above), if_neg (lt_irrefl 0)]

/-- The child of a reported fill. -/
def filledChild (child : ChildOrder) (filledQty : ℚ) : ChildOrder :=
  { child with
    filledQuantity := filledQty
    status := SyntheticOrder.childStatus child filledQty }

/-- The order of a reported fill. -/
def filledOrder (order : SyntheticOrder) (childId : Nat) (child : ChildOrder) (filledQty : ℚ) :
    SyntheticOrder :=
  { order.setChild (filledChild child filledQty) childId with
    executedQuantity := order.executedQuantity + toUnits filledQty
    status := order.statusAfter (order.executedQuantity + toUnits filledQty) }

/-- What happened to an order after a reported fill. -/
def traceAfter (trace : Trace) (child : ChildOrder) (filledQty : ℚ) : Trace :=
  if Further child filledQty then { trace with cancelled := false } else trace

variable {filledQty : ℚ} {queue : List ChildOrder}

theorem updateChildFill_found {answer : Bool × SyntheticOrder}
    (found : order.children.get childId = some child)
    (updated : order.updateChildFill childId filledQty = some answer) :
    answer = (true, filledOrder order childId child filledQty) := by
  unfold SyntheticOrder.updateChildFill at updated
  rw [found] at updated
  dsimp only at updated
  split at updated
  · exact (Option.some.inj updated).symm
  · cases updated

theorem childStatus_pending (waits : SyntheticOrder.childStatus child filledQty = .pending) :
    child.status = .pending ∧ filledQty ≤ 0 := by
  unfold SyntheticOrder.childStatus at waits
  split at waits
  · cases waits
  · split at waits
    · cases waits
    · next none_ => exact ⟨waits, not_lt.mp none_⟩

theorem counted_fill (counted : order.status = .active ∨ NoneWaits order)
    (found : order.children.get childId = some child)
    (fits : FillFits order trace childId child filledQty) :
    (filledOrder order childId child filledQty).status = .active ∨
      NoneWaits (filledOrder order childId child filledQty) := by
  -- What waits afterwards are other children, or the child if nothing was filled.
  have waiting : (∀ otherId other, otherId ≠ childId → order.children.get otherId = some other →
      other.status = .pending → other.quantity = 0) →
      (child.status = .pending → 0 < filledQty ∨ child.quantity = 0) →
        NoneWaits (filledOrder order childId child filledQty) := by
    intro others own after member waits
    rcases mem_setChild member with new | ⟨otherId, different, there⟩
    · rw [new] at waits
      obtain ⟨before, none_⟩ := childStatus_pending waits
      rw [new]
      exact (own before).resolve_left (not_lt.mpr none_)
    · exact others otherId after different there waits
  rcases counted with active | noneWaits
  · rcases fits.last active with ⟨none_, positive⟩ | ⟨others, own⟩
    · refine .inl ?_
      show order.statusAfter (order.executedQuantity + toUnits filledQty) = .active
      rw [none_, statusAfter_none positive]
      exact active
    · refine .inr (waiting ?_ own)
      exact fun otherId other different there =>
        others (otherId, other) (Dict.get_eq_some.mp there) different
  · refine .inr (waiting ?_ fun before => .inr ?_)
    · exact fun otherId other _ there => noneWaits other (Dict.mem_values.mpr ⟨otherId, there⟩)
    · exact noneWaits child (Dict.mem_values.mpr ⟨childId, found⟩) before

/-- A fitting fill keeps the order's accounts. -/
theorem sound_fill (sound : Sound order trace queue)
    (found : order.children.get childId = some child)
    (fits : FillFits order trace childId child filledQty) :
    Sound (filledOrder order childId child filledQty) (traceAfter trace child filledQty)
      queue := by
  have units : filledUnits (filledOrder order childId child filledQty) =
      filledUnits order + toUnits filledQty := by
    have sum := filledUnits_setChild found (filledChild child filledQty)
    rw [fits.first, Nat.add_zero] at sum
    exact sum
  have executed : order.executedQuantity + toUnits filledQty =
      filledUnits (filledOrder order childId child filledQty) := by
    rw [units, sound.accounts.executed]
  have routed : (traceAfter trace child filledQty).routed = trace.routed := by
    unfold traceAfter
    split <;> rfl
  have status := statusAfter_cases order (order.executedQuantity + toUnits filledQty)
  refine ⟨⟨executed, ?_, ?_, ?_⟩, ?_, ?_⟩
  · intro filled
    have filled : order.statusAfter (order.executedQuantity + toUnits filledQty) = .fullyFilled :=
      filled
    show order.totalQuantity * (999 / 1000) ≤ _
    rw [← executed]
    rcases status with ⟨none_, positive, same⟩ | ⟨_, whole⟩ | part
    · -- An order that was filled has executed something.
      exfalso
      have before := sound.accounts.complete (same.symm.trans filled)
      have zero : filledUnits order = 0 := by
        rw [← sound.accounts.executed]
        exact Nat.eq_zero_of_add_eq_zero_right none_
      rw [zero, Nat.cast_zero, zero_div] at before
      have above := mul_pos positive (by norm_num : (0 : ℚ) < 999 / 1000)
      exact absurd before (not_le.mpr above)
    · exact whole
    · rw [part] at filled
      cases filled
  · intro cancelled
    unfold traceAfter at cancelled
    split at cancelled
    · cases cancelled
    · next notFurther =>
      obtain ⟨none_, positive⟩ := (fits.further cancelled).resolve_left notFurther
      show order.statusAfter (order.executedQuantity + toUnits filledQty) ∉ _
      rw [none_, statusAfter_none positive]
      exact sound.accounts.cancelled cancelled
  · rw [routed]
    exact sound.accounts.routed
  · exact counted_fill sound.counted found fits
  · rw [routed]
    exact sound.queued

theorem sound_route {front : ChildOrder} {exchangeId : Nat}
    (sound : Sound order trace (front :: queue)) (found : order.children.get childId = some child)
    (first : front.childId = childId) :
    Sound (order.setChild { child with exchangeOrderId := some exchangeId, status := .active }
      childId) { trace with routed := trace.routed ++ [childId] } queue := by
  have units : filledUnits (order.setChild
      { child with exchangeOrderId := some exchangeId, status := .active } childId) =
        filledUnits order :=
    Nat.add_right_cancel (filledUnits_setChild found _)
  have queued := sound.queued
  rw [List.map_cons, first, List.append_cons] at queued
  refine ⟨⟨?_, ?_, sound.accounts.cancelled, queued.of_append_left⟩, ?_, queued⟩
  · rw [units]
    exact sound.accounts.executed
  · rw [units]
    exact sound.accounts.complete
  · apply sound.counted.imp_right
    intro noneWaits other member waits
    rcases mem_setChild member with new | ⟨otherId, _, there⟩
    · rw [new] at waits
      cases waits
    · exact noneWaits other (Dict.mem_values.mpr ⟨otherId, there⟩) waits

theorem sound_pop {front : ChildOrder} (sound : Sound order trace (front :: queue)) :
    Sound order trace queue := by
  refine ⟨sound.accounts, sound.counted, sound.queued.sublist ?_⟩
  exact (List.Sublist.refl _).append (List.sublist_cons_self _ _)

theorem cancelChild_cases (child : ChildOrder) :
    (cancelChild child).status ≠ .pending ∧
      (cancelChild child).filledQuantity = child.filledQuantity := by
  unfold cancelChild
  split
  · next complete =>
    refine ⟨fun waits => ?_, rfl⟩
    unfold ChildOrder.isComplete at complete
    rw [waits] at complete
    exact absurd complete (by decide)
  · exact ⟨nofun, rfl⟩

theorem sound_cancel (sound : Sound order trace queue) :
    Sound { order with children := order.children.mapValues cancelChild, status := .cancelled }
      { trace with cancelled := true } [] := by
  have units : filledUnits { order with
      children := order.children.mapValues cancelChild, status := .cancelled } =
        filledUnits order := by
    show ((order.children.mapValues cancelChild).values.map _).sum = _
    rw [Dict.values_mapValues, List.map_map]
    apply congrArg List.sum
    apply List.map_congr_left
    intro child _
    exact congrArg toUnits (cancelChild_cases child).2
  have ended : SyntheticStatus.cancelled ∉
      [SyntheticStatus.active, .partiallyFilled, .fullyFilled] := by decide
  refine ⟨⟨?_, nofun, fun _ => ended, sound.accounts.routed⟩, .inr ?_, ?_⟩
  · rw [units]
    exact sound.accounts.executed
  · intro child member waits
    have member : child ∈ (order.children.mapValues cancelChild).values := member
    rw [Dict.values_mapValues] at member
    obtain ⟨before, _, rfl⟩ := List.mem_map.mp member
    exact absurd waits (cancelChild_cases before).1
  · rw [List.map_nil, List.append_nil]
    exact sound.accounts.routed

theorem mem_registered (children : List ChildOrder) (dict : Dict Nat ChildOrder)
    (member : child ∈ (children.foldl (fun dict child => dict.put child.childId child)
      dict).values) : child ∈ dict.values ∨ child ∈ children := by
  induction children generalizing dict with
  | nil => exact .inl member
  | cons first rest ih =>
    rcases ih (dict.put first.childId first) member with before | later
    · obtain ⟨childId, found⟩ := Dict.mem_values.mp before
      obtain ⟨-, same⟩ | ⟨-, old⟩ := Dict.get_put_eq_some.mp found
      · exact .inr (same ▸ List.mem_cons_self)
      · exact .inl (Dict.mem_values.mpr ⟨childId, old⟩)
    · exact .inr (List.mem_cons_of_mem first later)

theorem mem_childrenOf {nowMs : Nat → Nat} (member : child ∈ order.childrenOf nowMs) :
    child.quantity ∈ order.splitQuantities.2 ∧ child.filledQuantity = 0 := by
  obtain ⟨index, inside, rfl⟩ := List.mem_mapIdx.mp member
  exact ⟨List.getElem_mem inside, rfl⟩

theorem childIds_nodup {nowMs : Nat → Nat}
    (onward : ∀ sequence < (order.childrenOf nowMs).length, nowMs sequence ≤ nowMs (sequence + 1)) :
    ((order.childrenOf nowMs).map ChildOrder.childId).Nodup := by
  have ids : (order.childrenOf nowMs).map ChildOrder.childId =
      (List.range (order.childrenOf nowMs).length).map fun index => nowMs index + index := by
    apply List.ext_getElem
    · simp
    · intro index _ _
      simp [SyntheticOrder.childrenOf]
  have increasing : ((List.range (order.childrenOf nowMs).length).map
      fun index => nowMs index + index).Pairwise (· < ·) := by
    rw [← List.isChain_iff_pairwise, List.isChain_iff_getElem]
    intro index inside
    simp only [List.length_map, List.length_range] at inside
    have next := onward index (by omega)
    simp only [List.getElem_map, List.getElem_range]
    omega
  rw [ids]
  exact increasing.imp fun less => Nat.ne_of_lt less

/-- A submission starts the order's accounts. -/
theorem sound_submit {nowMs : Nat → Nat} (fresh : order.executedQuantity = 0)
    (unsplit : order.children = .empty) (unfilled : order.status ≠ .fullyFilled)
    (counted : order.status = .active ∨ ∀ quantity ∈ order.splitQuantities.2, quantity = 0)
    (onward : ∀ sequence < (order.childrenOf nowMs).length, nowMs sequence ≤ nowMs (sequence + 1)) :
    Sound (order.generateChildren nowMs).2 { routed := [], cancelled := false }
      (order.childrenOf nowMs) := by
  have made : ∀ child ∈ (order.generateChildren nowMs).2.children.values,
      child ∈ order.childrenOf nowMs := by
    intro child member
    rcases mem_registered _ _ member with before | made
    · rw [unsplit] at before
      cases before
    · exact made
  have units : filledUnits (order.generateChildren nowMs).2 = 0 := by
    apply List.sum_eq_zero
    intro count member
    obtain ⟨child, there, rfl⟩ := List.mem_map.mp member
    rw [(mem_childrenOf (made child there)).2]
    decide +kernel
  refine ⟨⟨?_, fun filled => absurd filled unfilled, nofun, List.nodup_nil⟩, ?_, ?_⟩
  · rw [units]
    exact fresh
  · apply counted.imp_right
    exact fun none_ child member _ => none_ _ (mem_childrenOf (made child member)).1
  · exact childIds_nodup onward

end Orders

/-! ## One call -/

section Calls

variable {session next : Session} {orderId : Nat}

/-- The queue of an order. -/
def queueOf (router : SyntheticRouter) (orderId : Nat) : List ChildOrder :=
  (router.pendingQueue.get orderId).getD []

/-- Every order is sound. -/
def Inv (session : Session) : Prop := ∀ orderId order,
  session.router.orders.get orderId = some order →
    Sound order (session.traces orderId) (queueOf session.router orderId)

theorem inv_frame (inv : Inv session) (orderId : Nat)
    (others : ∀ other, other ≠ orderId →
      next.router.orders.get other = session.router.orders.get other ∧
        next.traces other = session.traces other ∧
        queueOf next.router other = queueOf session.router other)
    (here : ∀ order, next.router.orders.get orderId = some order →
      Sound order (next.traces orderId) (queueOf next.router orderId)) : Inv next := by
  intro other order there
  by_cases same : other = orderId
  · rw [same] at there ⊢
    exact here order there
  · obtain ⟨orders, traces, queue⟩ := others other same
    rw [orders] at there
    rw [traces, queue]
    exact inv other order there

theorem inv_set (inv : Inv session) {order : SyntheticOrder} {trace : Trace}
    {queue : List ChildOrder} (sound : Sound order trace queue)
    (orders : next.router.orders = session.router.orders.put orderId order)
    (traces : next.traces = Function.update session.traces orderId trace)
    (queues : ∀ other, queueOf next.router other =
      if other = orderId then queue else queueOf session.router other) : Inv next := by
  apply inv_frame inv orderId
  · intro other different
    rw [orders, traces, queues, Dict.get_put, Function.update_of_ne different, if_neg different,
      if_neg different]
    exact ⟨rfl, rfl, rfl⟩
  · intro set there
    rw [orders, Dict.get_put_self] at there
    rw [traces, queues, Function.update_self, if_pos rfl, ← Option.some.inj there]
    exact sound

theorem queueOf_put (router : SyntheticRouter) (orders : Dict Nat SyntheticOrder)
    (orderId other : Nat) (queue : List ChildOrder) :
    queueOf { router with orders := orders, pendingQueue := router.pendingQueue.put orderId queue }
      other = if other = orderId then queue else queueOf router other := by
  unfold queueOf
  rw [Dict.get_put]
  split <;> rfl

theorem queueOf_same (router : SyntheticRouter) (orderId other : Nat) :
    queueOf router other = if other = orderId then queueOf router orderId
      else queueOf router other := by
  by_cases same : other = orderId
  · rw [if_pos same, same]
  · rw [if_neg same]

theorem inv_submit (inv : Inv session) {orderType : SyntheticOrderType} {symbol side : String}
    {totalQuantity : ℚ} {config : SplitConfig} {started : Bool} {nowMs : Nat → Nat}
    (fits : Fits session
      (.submit orderId orderType symbol side totalQuantity config started nowMs))
    (stepped : step session
      (.submit orderId orderType symbol side totalQuantity config started nowMs) = some next) :
    Inv next := by
  let order := newOrder orderId orderType symbol side totalQuantity config started
  have named : order.orderId = orderId := by
    show (newOrder ..).orderId = orderId
    unfold newOrder
    cases started <;> rfl
  simp only [step] at stepped
  split at stepped
  · next onward =>
    cases stepped
    by_cases full : session.router.maxOrders ≤ session.router.orders.size
    · have refused : session.router.submitSynthetic order nowMs =
          (.error "Maximum synthetic orders reached", session.router) := if_pos full
      rw [refused]
      exact inv
    · have accepted : session.router.submitSynthetic order nowMs =
          (.ok orderId, {
            session.router.setOrder orderId (order.generateChildren nowMs).2 with
              pendingQueue := session.router.pendingQueue.put orderId
                (order.childrenOf nowMs) }) := by
        unfold SyntheticRouter.submitSynthetic
        rw [if_neg full, named]
        rfl
      rw [accepted]
      refine inv_set inv (sound_submit ?_ ?_ ?_ ?_ onward) rfl rfl fun other =>
        queueOf_put _ _ _ _ _
      · show (newOrder ..).executedQuantity = 0
        unfold newOrder
        cases started <;> rfl
      · show (newOrder ..).children = .empty
        unfold newOrder
        cases started <;> rfl
      · show (newOrder ..).status ≠ .fullyFilled
        unfold newOrder
        cases started <;> exact nofun
      · have fits : started = true ∨ ∀ quantity ∈ order.splitQuantities.2, quantity = 0 := fits
        apply fits.imp_left
        intro begun
        show (newOrder ..).status = .active
        unfold newOrder
        rw [begun]
        rfl
  · cases stepped

/-- Routing a child is refused or marks it. -/
theorem routeChild_cases (router : SyntheticRouter) (orderId childId exchangeId : Nat) :
    router.routeChild orderId childId exchangeId = (false, router) ∨
      ∃ order child, router.orders.get orderId = some order ∧
        order.children.get childId = some child ∧
        router.routeChild orderId childId exchangeId =
          (true, router.setOrder orderId (order.setChild
            { child with exchangeOrderId := some exchangeId, status := .active } childId)) := by
  unfold SyntheticRouter.routeChild
  cases there : router.orders.get orderId with
  | none => exact .inl rfl
  | some order =>
    dsimp only
    cases found : order.children.get childId with
    | none => exact .inl rfl
    | some child => exact .inr ⟨order, child, rfl, found, rfl⟩

/-- Marking is refused or takes the front of the queue. -/
theorem markChildRouted_cases (router : SyntheticRouter) (orderId childId exchangeId : Nat) :
    router.markChildRouted orderId childId exchangeId = (false, router) ∨
      ∃ front rest, queueOf router orderId = front :: rest ∧ front.childId = childId ∧
        router.markChildRouted orderId childId exchangeId =
          { router with pendingQueue := router.pendingQueue.put orderId rest }.routeChild
            orderId childId exchangeId := by
  unfold SyntheticRouter.markChildRouted queueOf
  cases queued : router.pendingQueue.get orderId with
  | none => exact .inl rfl
  | some queue =>
    cases queue with
    | nil => exact .inl rfl
    | cons front rest =>
      dsimp only
      by_cases first : front.childId = childId
      · rw [if_pos first]
        exact .inr ⟨front, rest, rfl, first, rfl⟩
      · rw [if_neg first]
        exact .inl rfl

theorem inv_route (inv : Inv session) {childId exchangeId : Nat}
    (stepped : step session (.route orderId childId exchangeId) = some next) : Inv next := by
  cases stepped
  rcases markChildRouted_cases session.router orderId childId exchangeId with
    refused | ⟨front, rest, queue, first, popped⟩
  · rw [refused]
    exact inv
  · rw [popped]
    rcases routeChild_cases { session.router with
        pendingQueue := session.router.pendingQueue.put orderId rest } orderId childId
      exchangeId with lost | ⟨order, child, there, found, routed⟩
    · rw [lost]
      apply inv_frame inv orderId
      · exact fun other different =>
          ⟨rfl, rfl, (queueOf_put _ _ _ _ _).trans (if_neg different)⟩
      · intro order there
        have sound := inv orderId order there
        rw [queue] at sound
        have now := (queueOf_put session.router session.router.orders orderId orderId rest).trans
          (if_pos rfl)
        exact now.symm ▸ sound_pop sound
    · have sound := inv orderId order there
      rw [queue] at sound
      rw [routed]
      exact inv_set inv (sound_route sound found first) rfl rfl fun other =>
        queueOf_put _ _ _ _ _

theorem inv_fill (inv : Inv session) {childId : Nat} {filledQty : ℚ}
    (fits : Fits session (.fill orderId childId filledQty))
    (stepped : step session (.fill orderId childId filledQty) = some next) : Inv next := by
  obtain ⟨answer, updated, same⟩ := Option.map_eq_some_iff.mp stepped
  cases same
  unfold SyntheticRouter.updateChildFill at updated
  unfold childOf
  cases there : session.router.orders.get orderId with
  | none =>
    rw [there] at updated
    cases updated
    rw [if_neg (fun ⟨_, member, _⟩ => nomatch member)]
    exact inv
  | some order =>
    rw [there] at updated
    obtain ⟨moved, filled, same⟩ := Option.map_eq_some_iff.mp updated
    cases same
    rw [Option.bind_some]
    cases found : order.children.get childId with
    | none =>
      unfold SyntheticOrder.updateChildFill at filled
      rw [found] at filled
      cases filled
      rw [if_neg (fun ⟨_, member, _⟩ => nomatch member)]
      exact inv_set inv (inv orderId order there) rfl (Function.update_eq_self _ _).symm
        (queueOf_same session.router orderId)
    | some child =>
      rw [updateChildFill_found found filled]
      have sound := sound_fill (inv orderId order there) found
        (fits order there child found)
      refine inv_set inv sound rfl ?_ (queueOf_same session.router orderId)
      unfold traceAfter
      dsimp only
      by_cases further : Further child filledQty
      · rw [if_pos ⟨child, rfl, further⟩, if_pos further]
      · rw [if_neg (fun ⟨_, same, further'⟩ => further (Option.some.inj same ▸ further')),
          if_neg further, Function.update_eq_self]

theorem inv_cancel (inv : Inv session) (stepped : step session (.cancel orderId) = some next) :
    Inv next := by
  cases stepped
  unfold SyntheticRouter.cancelSynthetic
  cases there : session.router.orders.get orderId with
  | none => exact inv
  | some order =>
    refine inv_set inv (sound_cancel (inv orderId order there)) rfl rfl fun other => ?_
    unfold queueOf
    dsimp only
    rw [Dict.get_pop]
    split <;> rfl

theorem inv_step {call : RouterCall} (inv : Inv session) (fits : Fits session call)
    (stepped : step session call = some next) : Inv next := by
  cases call with
  | submit orderId orderType symbol side totalQuantity config started nowMs =>
    exact inv_submit inv fits stepped
  | next orderId =>
    cases stepped
    exact inv
  | route orderId childId exchangeId => exact inv_route inv stepped
  | fill orderId childId filledQty => exact inv_fill inv fits stepped
  | cancel orderId => exact inv_cancel inv stepped

theorem accounts_of_inv (inv : Inv session) : Accounts session := by
  refine ⟨fun orderId order there => (inv orderId order there).accounts, fun symbol => ?_⟩
  apply congrArg List.sum
  apply List.map_congr_left
  intro order member
  obtain ⟨orderId, there⟩ := Dict.mem_values.mp member
  by_cases own : order.symbol = symbol
  · rw [if_pos own]
    rcases (inv orderId order there).counted with active | noneWaits
    · rw [if_pos ⟨own, active⟩]
    · have nothing : waiting order = 0 := by
        apply List.sum_eq_zero
        intro quantity listed
        obtain ⟨child, waits, rfl⟩ := List.mem_map.mp listed
        obtain ⟨among, pending⟩ := List.mem_filter.mp waits
        exact noneWaits child among (of_decide_eq_true pending)
      rw [nothing]
      split <;> rfl
  · rw [if_neg own, if_neg (fun both => own both.1)]

end Calls

/-! ## Runs -/

/-- Along every run whose calls all fit, in every state every order has executed what its children
have filled, is filled only if that is nearly all of its quantity, does not come back to life once
it is cancelled and has routed no child twice, and the pending quantity is that of the children
that wait. -/
theorem accounts_of_fits (maxOrders : Nat) (calls : List RouterCall)
    (fits : Guarded step Fits (Session.start maxOrders) calls) :
    Always step Accounts (Session.start maxOrders) calls := by
  have kept := @always_guarded _ _ step Inv Fits
    (fun _ _ _ inv fits stepped => inv_step inv fits stepped) (Session.start maxOrders)
    (fun _ _ there => nomatch there) calls fits
  exact kept.imp fun _ inv => accounts_of_inv inv

/-- An order of one, in children of a half at most. -/
def halves : SplitConfig :=
  { SplitConfig.default with minChildSize := 1 / 10, maxChildSize := 1 / 2 }

/-- A run that starts an order of two children, routes them, fills them and cancels another. -/
def filledOnce : List RouterCall :=
  [.submit 1 .iceberg "BTCUSDT" "BUY" 1 halves true fun _ => 1000,
    .submit 2 .sniper "BTCUSDT" "SELL" 3 halves true fun _ => 1005,
    .next 1, .route 1 1000 71, .route 1 1001 72, .fill 1 1000 (1 / 2), .fill 1 1001 (1 / 2),
    .route 2 1005 73, .cancel 2, .fill 2 1005 1]

/-- Every call of that run fits, so the accounts are right throughout. -/
theorem accounts_of_fits_once : Guarded step Fits (Session.start 10) filledOnce ∧
    Always step Accounts (Session.start 10) filledOnce := by
  have fits : Guarded step Fits (Session.start 10) filledOnce := by decide +kernel
  exact ⟨fits, accounts_of_fits 10 filledOnce fits⟩

/-- A run in which half of a child is filled, which is reported twice. -/
def reportedTwice : List RouterCall :=
  [.submit 1 .sniper "SOLUSDT" "BUY" 10 halves true fun _ => 1000, .route 1 1000 71,
    .fill 1 1000 5, .fill 1 1000 5]

/-- The order is filled after that run, and has executed twice what its child has filled. -/
theorem report_counted_twice : ¬ Always step Accounts (Session.start 10) reportedTwice := by
  intro always
  have ends : ∃ last ∈ exec step (Session.start 10) reportedTwice,
      ∃ order ∈ last.router.orders.get 1, order.status = .fullyFilled ∧
        order.executedQuantity ≠ filledUnits order := by decide +kernel
  obtain ⟨last, ran, order, there, _, differ⟩ := ends
  exact differ ((always.final ran).orders 1 order there).executed

end TradingBot.Oms.SyntheticAccounts
