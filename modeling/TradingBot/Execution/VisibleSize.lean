import Mathlib.Tactic.Linarith
import TradingBot.Execution.IcebergManager
import TradingBot.Foundation.Run

/-!
# The visible size of icebergs

What an active iceberg shows is positive and no more than what is left of it. The least visible
quantity is not held against the quantity of a new order, so it alone decides for small ones.
-/

open Run

namespace TradingBot.Execution.VisibleSize

/-- One call on a manager. -/
inductive IcebergCall where
  | createIcebergOrder (orderId : String) (side : IcebergSide) (totalQuantity price : ℚ)
      (venue : String) (visiblePct : Option ℚ) (createdAtNs lastRefreshNs : Int)
  | recordFill (orderId : String) (fillQuantity : ℚ) (refreshNs riskNs : Int)
  | adjustVisibleQuantity (orderId : String) (newVisiblePct : Option ℚ) (refreshNs : Int)
  | pullAllIcebergs (nowNs : Int)
  | pullIcebergForVenue (venue : String)
  | noteSweep (timestampNs : Int)
  | isThreatDetected (nowNs : Int)

/-- A manager after a call. -/
def step (manager : IcebergManager) : IcebergCall → Option IcebergManager
  | .createIcebergOrder orderId side totalQuantity price venue visiblePct createdAtNs
      lastRefreshNs =>
    some (manager.createIcebergOrder orderId side totalQuantity price venue visiblePct createdAtNs
      lastRefreshNs).2
  | .recordFill orderId fillQuantity refreshNs riskNs =>
    some (manager.recordFill orderId fillQuantity refreshNs riskNs).2
  | .adjustVisibleQuantity orderId newVisiblePct refreshNs =>
    some (manager.adjustVisibleQuantity orderId newVisiblePct refreshNs).2
  | .pullAllIcebergs nowNs => some (manager.pullAllIcebergs nowNs).2
  | .pullIcebergForVenue venue => some (manager.pullIcebergForVenue venue).2
  | .noteSweep timestampNs => some (manager.noteSweep timestampNs)
  | .isThreatDetected nowNs => some (manager.isThreatDetected nowNs).2

/-- What an order shows is positive and no more than what is left of it, while it is active. -/
def Shows (order : IcebergOrder) : Prop :=
  order.isActive = true → 0 < order.visibleQuantity ∧
    order.visibleQuantity ≤ order.totalQuantity - order.filledQuantity

/-- An order that is filled is not active. -/
def Ends (order : IcebergOrder) : Prop :=
  order.totalQuantity ≤ order.filledQuantity → order.isActive = false

/-- Every order of a manager shows no more than it has left, and ends with its last fill. -/
def Sound (manager : IcebergManager) : Prop :=
  ∀ orderId order, manager.icebergOrders.get orderId = some order → Shows order ∧ Ends order

/-- A call makes an order, under an order id. -/
def IcebergCall.creates (orderId : String) : IcebergCall → Prop
  | .createIcebergOrder created .. => created = orderId
  | _ => False

/-- The orders are sound after a call, and an order that was not active is not active. -/
def Good (manager : IcebergManager) (call : IcebergCall) (next : IcebergManager) : Prop :=
  Sound next ∧ ∀ orderId old order, manager.icebergOrders.get orderId = some old →
    old.isActive = false → ¬ call.creates orderId →
      next.icebergOrders.get orderId = some order → order.isActive = false

/-- What callers promise: totals and fills are positive, and of a new order a part that is positive
and no more than the whole is shown. -/
def Promised : IcebergCall → Prop
  | .createIcebergOrder _ _ totalQuantity _ _ visiblePct _ _ =>
    0 < totalQuantity ∧ ∀ pct ∈ visiblePct, 0 < pct ∧ pct ≤ 1
  | .recordFill _ fillQuantity _ _ => 0 < fillQuantity
  | _ => True

/-- The least visible quantity is no more than a new order, and it or what is clamped is positive;
where a percentage of an active order is asked for, that is so as well. -/
def InBounds (manager : IcebergManager) : IcebergCall → Prop
  | .createIcebergOrder _ _ totalQuantity _ _ _ _ _ =>
    manager.minVisibleQuantity ≤ totalQuantity ∧
      (0 < manager.minVisibleQuantity ∨ 0 < manager.maxVisibleQuantity)
  | .adjustVisibleQuantity orderId newVisiblePct _ =>
    ∀ order ∈ manager.icebergOrders.get orderId, order.isActive = true →
      ∀ pct ∈ newVisiblePct,
        0 < manager.minVisibleQuantity ∨ 0 < manager.maxVisibleQuantity ∧ 0 < pct
  | _ => True

instance : DecidablePred Promised
  | .createIcebergOrder .. => inferInstanceAs (Decidable (_ ∧ ∀ pct ∈ _, _ ∧ _))
  | .recordFill .. => inferInstanceAs (Decidable (_ < _))
  | .adjustVisibleQuantity .. | .pullAllIcebergs _ | .pullIcebergForVenue _ | .noteSweep _
  | .isThreatDetected _ => inferInstanceAs (Decidable True)

instance (manager : IcebergManager) : DecidablePred (InBounds manager)
  | .createIcebergOrder .. => inferInstanceAs (Decidable (_ ∧ (_ ∨ _)))
  | .adjustVisibleQuantity .. =>
    inferInstanceAs (Decidable (∀ order ∈ _, _ → ∀ pct ∈ _, _ ∨ _ ∧ _))
  | .recordFill .. | .pullAllIcebergs _ | .pullIcebergForVenue _ | .noteSweep _
  | .isThreatDetected _ => inferInstanceAs (Decidable True)

variable {manager next : IcebergManager} {orderId : String} {order : IcebergOrder}

theorem left_pos (shows_ : Shows order) (active : order.isActive = true) :
    0 < order.totalQuantity - order.filledQuantity :=
  lt_of_lt_of_le (shows_ active).1 (shows_ active).2

/-- A stored order keeps the manager sound exactly when it shows and ends as promised. -/
theorem sound_setOrder (sound : Sound manager) (orderId : String) (order : IcebergOrder) :
    Sound (manager.setOrder orderId order) ↔ Shows order ∧ Ends order :=
  Dict.forall_put sound

theorem still_setOrder {old : IcebergOrder} (found : manager.icebergOrders.get orderId = some old)
    (still : old.isActive = false → order.isActive = false) :
    ∀ other before after, manager.icebergOrders.get other = some before →
      before.isActive = false →
      (manager.setOrder orderId order).icebergOrders.get other = some after →
        after.isActive = false := by
  intro other before after there inactive set_
  obtain ⟨rfl, rfl⟩ | ⟨-, kept⟩ := Dict.get_put_eq_some.mp set_
  · cases found.symm.trans there
    exact still inactive
  · cases there.symm.trans kept
    exact inactive

/-- When a new order keeps the manager sound. -/
theorem sound_create (sound : Sound manager) (default : 0 < manager.defaultVisiblePct)
    (whole : manager.defaultVisiblePct ≤ 1) {side : IcebergSide} {totalQuantity price : ℚ}
    {venue : String} {visiblePct : Option ℚ} {createdAtNs lastRefreshNs : Int}
    (promised : 0 < totalQuantity ∧ ∀ pct ∈ visiblePct, 0 < pct ∧ pct ≤ 1) :
    Sound (manager.createIcebergOrder orderId side totalQuantity price venue visiblePct createdAtNs
        lastRefreshNs).2 ↔
      manager.minVisibleQuantity ≤ totalQuantity ∧
        (0 < manager.minVisibleQuantity ∨ 0 < manager.maxVisibleQuantity) := by
  obtain ⟨positive, share⟩ := promised
  have pct : 0 < manager.visiblePctOr visiblePct ∧ manager.visiblePctOr visiblePct ≤ 1 := by
    cases visiblePct with
    | none => exact ⟨default, whole⟩
    | some pct =>
      have given := share pct rfl
      have nonzero : pct ≠ 0 := given.1.ne'
      unfold IcebergManager.visiblePctOr
      simpa only [if_neg nonzero] using given
  have shown : 0 < totalQuantity * manager.visiblePctOr visiblePct := mul_pos positive pct.1
  have part : totalQuantity * manager.visiblePctOr visiblePct ≤ totalQuantity :=
    mul_le_of_le_one_right positive.le pct.2
  unfold IcebergManager.createIcebergOrder
  rw [sound_setOrder sound]
  have clampPos := @IcebergManager.clampVisible_pos manager
    (totalQuantity * manager.visiblePctOr visiblePct)
  have clampLe := @IcebergManager.clampVisible_le manager
    (totalQuantity * manager.visiblePctOr visiblePct) totalQuantity
  constructor
  · rintro ⟨shows_, -⟩
    obtain ⟨some_, left⟩ := shows_ rfl
    rw [sub_zero] at left
    exact ⟨(clampLe.mp left).1, (clampPos.mp some_).imp_right And.left⟩
  · rintro ⟨least, some_⟩
    refine ⟨fun _ => ⟨?_, ?_⟩, fun complete => absurd complete (not_le.mpr positive)⟩
    · exact clampPos.mpr (some_.imp_right fun large => ⟨large, shown⟩)
    · rw [sub_zero]
      exact clampLe.mpr ⟨least, .inr part⟩

/-- A fill shows and ends an order as promised. -/
theorem sound_fill (shows_ : Shows order) (fillQuantity : ℚ) (refreshNs riskNs : Int) :
    Shows (IcebergManager.fillOrder order fillQuantity refreshNs riskNs) ∧
      Ends (IcebergManager.fillOrder order fillQuantity refreshNs riskNs) := by
  obtain ⟨total, filled, activity⟩ :=
    IcebergManager.fillOrder_frame order fillQuantity refreshNs riskNs
  constructor
  · intro active
    obtain ⟨before, part⟩ := activity.mp active
    have open_ : ¬ order.totalQuantity ≤ order.filledQuantity + fillQuantity := not_le.mpr part
    obtain ⟨some_, left⟩ := shows_ before
    unfold IcebergManager.fillOrder
    simp only [if_neg open_, IcebergManager.updateDetectionRisk]
    split
    next more => exact ⟨by linarith only [part], le_refl _⟩
    next less => exact ⟨some_, not_lt.mp less⟩
  · intro complete
    rw [total, filled] at complete
    cases active : (IcebergManager.fillOrder order fillQuantity refreshNs riskNs).isActive with
    | false => rfl
    | true => exact absurd (activity.mp active).2 (not_lt.mpr complete)

theorem target_pos (default : 0 < manager.defaultVisiblePct) (shows_ : Shows order)
    (active : order.isActive = true) (newVisiblePct : Option ℚ) :
    0 < manager.visibleTarget order (order.totalQuantity - order.filledQuantity) newVisiblePct ↔
      ∀ pct ∈ newVisiblePct,
        0 < manager.minVisibleQuantity ∨ 0 < manager.maxVisibleQuantity ∧ 0 < pct := by
  have left := left_pos shows_ active
  cases newVisiblePct with
  | some pct =>
    have share : 0 < (order.totalQuantity - order.filledQuantity) * pct ↔ 0 < pct :=
      mul_pos_iff_of_pos_left left
    refine IcebergManager.clampVisible_pos.trans ?_
    rw [share]
    simp
  | none =>
    have nothing : ∀ pct ∈ (none : Option ℚ),
        0 < manager.minVisibleQuantity ∨ 0 < manager.maxVisibleQuantity ∧ 0 < pct :=
      fun _ member => nomatch member
    refine iff_of_true ?_ nothing
    unfold IcebergManager.visibleTarget
    dsimp only
    split
    · exact lt_max_of_lt_right (by positivity)
    · split
      · exact lt_max_of_lt_right (by positivity)
      · exact (shows_ active).1

/-- When an adjustment keeps the manager sound. -/
theorem sound_adjust (sound : Sound manager)
    (found : manager.icebergOrders.get orderId = some order)
    (default : 0 < manager.defaultVisiblePct) (newVisiblePct : Option ℚ) (refreshNs : Int) :
    Sound (manager.adjustVisibleQuantity orderId newVisiblePct refreshNs).2 ↔
      (order.isActive = true → ∀ pct ∈ newVisiblePct,
        0 < manager.minVisibleQuantity ∨ 0 < manager.maxVisibleQuantity ∧ 0 < pct) := by
  obtain ⟨shows_, ends⟩ := sound orderId order found
  rw [IcebergManager.adjustVisibleQuantity_found found, sound_setOrder sound]
  constructor
  · rintro ⟨after, -⟩ active
    have some_ := (after active).1
    exact (target_pos default shows_ active newVisiblePct).mp (lt_min_iff.mp some_).1
  · intro met
    refine ⟨fun active => ⟨?_, min_le_right _ _⟩, ends⟩
    exact lt_min ((target_pos default shows_ active newVisiblePct).mpr (met active))
      (left_pos shows_ active)

theorem good_pull (sound : Sound manager) (pulled : IcebergOrder → Bool) :
    (∀ orderId order, (manager.pull pulled).2.get orderId = some order →
        Shows order ∧ Ends order) ∧
      ∀ orderId old order, manager.icebergOrders.get orderId = some old → old.isActive = false →
        (manager.pull pulled).2.get orderId = some order → order.isActive = false := by
  constructor
  · intro orderId order found
    obtain ⟨old, there, kept⟩ := IcebergManager.pull_get manager pulled found
    constructor
    · intro active
      obtain ⟨rfl, -⟩ := kept active
      exact (sound orderId order there).1 active
    · intro complete
      cases active : order.isActive with
      | false => rfl
      | true =>
        obtain ⟨rfl, -⟩ := kept active
        exact active.symm.trans ((sound orderId order there).2 complete)
  · intro orderId old order there inactive found
    obtain ⟨before, again, kept⟩ := IcebergManager.pull_get manager pulled found
    cases there.symm.trans again
    cases active : order.isActive with
    | false => rfl
    | true => exact absurd (inactive.symm.trans (kept active).2.1) Bool.false_ne_true

/-- What holds of the manager before the calls that are left. -/
structure Ready (manager : IcebergManager) (rest : List IcebergCall) : Prop where
  sound : Sound manager
  default : 0 < manager.defaultVisiblePct
  whole : manager.defaultVisiblePct ≤ 1
  promised : ∀ call ∈ rest, Promised call

theorem step_default {call : IcebergCall} (taken : step manager call = some next) :
    next.defaultVisiblePct = manager.defaultVisiblePct := by
  cases call with
  | createIcebergOrder _ _ _ _ _ _ _ _ | pullAllIcebergs _ | pullIcebergForVenue _ | noteSweep _ =>
    cases taken
    rfl
  | recordFill orderId fillQuantity refreshNs riskNs =>
    cases taken
    unfold IcebergManager.recordFill
    split <;> rfl
  | adjustVisibleQuantity orderId newVisiblePct refreshNs =>
    cases taken
    unfold IcebergManager.adjustVisibleQuantity
    split <;> rfl
  | isThreatDetected nowNs =>
    cases taken
    unfold IcebergManager.isThreatDetected
    dsimp only
    split
    · rfl
    · split <;> rfl

section Calls

variable {call : IcebergCall}

theorem good_same (sound : Sound manager) (same : next.icebergOrders = manager.icebergOrders) :
    Good manager call next := by
  refine ⟨fun other order found => sound other order (same ▸ found), ?_⟩
  intro other old order there inactive _ found
  cases there.symm.trans (same ▸ found)
  exact inactive

theorem good_setOrder {old : IcebergOrder}
    (found : manager.icebergOrders.get orderId = some old)
    (still : old.isActive = false → order.isActive = false) :
    Good manager call (manager.setOrder orderId order) ↔
      Sound (manager.setOrder orderId order) := by
  refine ⟨And.left, fun after => ⟨after, ?_⟩⟩
  intro other before kept there inactive _ set_
  exact still_setOrder found still other before kept there inactive set_

theorem good_pulled (sound : Sound manager) (pulled : IcebergOrder → Bool)
    (same : next.icebergOrders = (manager.pull pulled).2) : Good manager call next := by
  obtain ⟨sound_, still⟩ := good_pull sound pulled
  refine ⟨fun other order found => sound_ other order (same ▸ found), ?_⟩
  intro other old order there inactive _ found
  exact still other old order there inactive (same ▸ found)

/-- A new order is good exactly if it is sound: the others stay as they are. -/
theorem good_created (side : IcebergSide) (totalQuantity price : ℚ) (venue : String)
    (visiblePct : Option ℚ) (createdAtNs lastRefreshNs : Int) :
    Good manager
        (.createIcebergOrder orderId side totalQuantity price venue visiblePct createdAtNs
          lastRefreshNs)
        (manager.createIcebergOrder orderId side totalQuantity price venue visiblePct createdAtNs
          lastRefreshNs).2 ↔
      Sound (manager.createIcebergOrder orderId side totalQuantity price venue visiblePct
        createdAtNs lastRefreshNs).2 := by
  refine ⟨And.left, fun after => ⟨after, ?_⟩⟩
  intro other old order there inactive elsewhere found
  obtain ⟨same, -⟩ | ⟨-, kept⟩ := Dict.get_put_eq_some.mp found
  · exact absurd same.symm elsewhere
  · cases there.symm.trans kept
    exact inactive

theorem good_recordFill (sound : Sound manager) (orderId : String) (fillQuantity : ℚ)
    (refreshNs riskNs : Int) :
    Good manager call (manager.recordFill orderId fillQuantity refreshNs riskNs).2 := by
  cases found : manager.icebergOrders.get orderId with
  | none =>
    rw [IcebergManager.recordFill_missing found]
    exact good_same sound rfl
  | some order =>
    rw [IcebergManager.recordFill_found found]
    have activity := (IcebergManager.fillOrder_frame order fillQuantity refreshNs riskNs).2.2
    have still : order.isActive = false →
        (IcebergManager.fillOrder order fillQuantity refreshNs riskNs).isActive = false := by
      intro inactive
      cases active : (IcebergManager.fillOrder order fillQuantity refreshNs riskNs).isActive with
      | false => rfl
      | true => exact absurd (inactive.symm.trans (activity.mp active).1) Bool.false_ne_true
    rw [good_setOrder found still, sound_setOrder sound]
    exact sound_fill (sound orderId order found).1 fillQuantity refreshNs riskNs

theorem good_adjust (sound : Sound manager) (default : 0 < manager.defaultVisiblePct)
    (orderId : String) (newVisiblePct : Option ℚ) (refreshNs : Int) :
    Good manager call (manager.adjustVisibleQuantity orderId newVisiblePct refreshNs).2 ↔
      InBounds manager (.adjustVisibleQuantity orderId newVisiblePct refreshNs) := by
  cases found : manager.icebergOrders.get orderId with
  | none =>
    rw [IcebergManager.adjustVisibleQuantity_missing found]
    refine iff_of_true (good_same sound rfl) ?_
    intro order there
    cases found.symm.trans there
  | some order =>
    have bounds : InBounds manager (.adjustVisibleQuantity orderId newVisiblePct refreshNs) ↔
        (order.isActive = true → ∀ pct ∈ newVisiblePct,
          0 < manager.minVisibleQuantity ∨ 0 < manager.maxVisibleQuantity ∧ 0 < pct) := by
      constructor
      · exact fun met => met order found
      · intro met other there
        cases found.symm.trans there
        exact met
    rw [bounds, ← sound_adjust sound found default newVisiblePct refreshNs,
      IcebergManager.adjustVisibleQuantity_found found]
    exact good_setOrder found id

end Calls

theorem good_iff (manager : IcebergManager) (call : IcebergCall) (rest : List IcebergCall)
    (ready : Ready manager (call :: rest)) :
    (∃ next, step manager call = some next ∧ Good manager call next) ↔ InBounds manager call := by
  obtain ⟨sound, default, whole, promised⟩ := ready
  have kept := promised call List.mem_cons_self
  have taken : ∀ after, step manager call = some after →
      ((∃ next, step manager call = some next ∧ Good manager call next) ↔
        Good manager call after) := by
    intro after taken
    simp [taken]
  cases call with
  | createIcebergOrder orderId side totalQuantity price venue visiblePct createdAtNs
      lastRefreshNs =>
    rw [taken _ rfl, good_created]
    exact sound_create sound default whole kept
  | recordFill orderId fillQuantity refreshNs riskNs =>
    rw [taken _ rfl]
    exact iff_of_true (good_recordFill sound orderId fillQuantity refreshNs riskNs) trivial
  | adjustVisibleQuantity orderId newVisiblePct refreshNs =>
    rw [taken _ rfl]
    exact good_adjust sound default orderId newVisiblePct refreshNs
  | pullAllIcebergs nowNs =>
    rw [taken _ rfl]
    exact iff_of_true (good_pulled sound (fun _ => true) rfl) trivial
  | pullIcebergForVenue venue =>
    rw [taken _ rfl]
    exact iff_of_true (good_pulled sound (fun order => order.venue = venue) rfl) trivial
  | noteSweep timestampNs =>
    rw [taken _ rfl]
    exact iff_of_true (good_same sound rfl) trivial
  | isThreatDetected nowNs =>
    rw [taken _ rfl]
    have same := @IcebergManager.icebergOrders_isThreatDetected manager nowNs
    exact iff_of_true (good_same sound same) trivial

/-- From a new manager of any settings every active order shows what is positive and no more than it
has left, ends with its last fill and does not come back, precisely as long as the least visible
quantity is no more than each new order and nothing else is clamped to zero. -/
theorem visible_sound_iff (defaultVisiblePct minVisibleQuantity maxVisibleQuantity : ℚ)
    (default : 0 < defaultVisiblePct) (whole : defaultVisiblePct ≤ 1) (calls : List IcebergCall)
    (promised : ∀ call ∈ calls, Promised call) :
    Performs step Good (.new defaultVisiblePct minVisibleQuantity maxVisibleQuantity) calls ↔
      Offered step InBounds (.new defaultVisiblePct minVisibleQuantity maxVisibleQuantity)
        calls := by
  have start : Ready (.new defaultVisiblePct minVisibleQuantity maxVisibleQuantity) calls :=
    ⟨fun _ _ found => (nomatch found), default, whole, promised⟩
  refine @performs_iff _ _ step Ready Good InBounds good_iff ?_ _ _ start
  intro manager call rest next ready taken good
  have same := step_default taken
  refine ⟨good.1, ?_, ?_, fun later member => ready.promised later (List.mem_cons_of_mem _ member)⟩
  · rw [same]
    exact ready.default
  · rw [same]
    exact ready.whole

/-- An order of 1000 that is shown by the default, filled, and adjusted in a threat. -/
def shownOrder : List IcebergCall :=
  [.createIcebergOrder "I" .buy 1000 50 "BINANCE" none 0 0, .recordFill "I" 950 5 6,
    .noteSweep 7, .adjustVisibleQuantity "I" none 8, .pullAllIcebergs 9, .recordFill "I" 50 10 11]

/-- With the default settings it shows no more than it has left. -/
theorem visible_sound_shownOrder : Performs step Good (.new (1 / 10) 100 10000) shownOrder :=
  (visible_sound_iff (1 / 10) 100 10000 (by norm_num) (by norm_num) shownOrder
    (by decide +kernel)).mpr (by decide +kernel)

/-- With the default settings a new order of 50 shows 100. -/
theorem small_order_shows_more : ¬ Performs step Good .default
    [.createIcebergOrder "I" .buy 50 50 "BINANCE" none 0 0] := by
  rintro ⟨_, ⟨⟩, good, -⟩
  have shown := (good.1 "I" ⟨"I", .buy, 50, 100, 0, 50, "BINANCE", 0, 0, true, 0⟩
    (by decide +kernel)).1 rfl
  revert shown
  decide +kernel

end TradingBot.Execution.VisibleSize
