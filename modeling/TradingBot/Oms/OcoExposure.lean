import Mathlib.Algebra.Order.BigOperators.Group.List
import TradingBot.Oms.OcoCapacity
import TradingBot.Oms.OcoWinner

/-!
# The reported exposure of one-cancels-other groups

The total exposure counts the groups in an active state, and of these the ones without a filled leg.
A cancellation takes its group out of the count although the other leg becomes a standalone order,
and a partial fill next to a filled leg counts as nothing. Without these two reports every live leg
is covered.
-/

open Run

namespace TradingBot.Oco

/-- A leg that is still open on the exchange: neither filled, nor cancelled, nor pending
cancellation. -/
def OCOLeg.isLive (leg : OCOLeg) : Bool :=
  !leg.isFullyFilled && !leg.isCancelled && leg.status != "PENDING_CANCEL"

/-- What the exposure of a group is at least: the largest remaining quantity of a live leg, and
nothing if it has no live leg. -/
def OCOGroup.liveExposure (group : OCOGroup) : ℚ :=
  if group.legA.isLive then
    if group.legB.isLive then max group.legA.remainingQuantity group.legB.remainingQuantity
    else group.legA.remainingQuantity
  else if group.legB.isLive then group.legB.remainingQuantity
  else 0

/-- What the total exposure is at least. -/
def OCOManager.liveExposure (manager : OCOManager) : ℚ :=
  (manager.groups.values.map OCOGroup.liveExposure).sum

/-- The reported exposure covers every live leg. -/
def ExposureCovers (manager : OCOManager) : Prop :=
  manager.liveExposure ≤ manager.getTotalRiskExposure none

instance (manager : OCOManager) : Decidable (ExposureCovers manager) :=
  inferInstanceAs (Decidable (_ ≤ _))

/-- A fill report that is consistent with the order on the exchange: the filled quantity does not
shrink, what remains is the rest of the quantity, and the order is filled if nothing does. -/
def Consistent (manager : OCOManager) : ManagerCall → Prop
  | .fill orderId filledQty remainingQty status =>
    ∀ order ∈ manager.findOrder orderId,
      (order.2.1.leg order.2.2).filledQuantity ≤ filledQty ∧ 0 ≤ remainingQty ∧
        filledQty + remainingQty = (order.2.1.leg order.2.2).quantity ∧
          (status = "FILLED" ↔ remainingQty = 0)
  | _ => True

instance (manager : OCOManager) : DecidablePred (Consistent manager)
  | .fill .. => inferInstanceAs (Decidable (∀ order ∈ _, _ ≤ _ ∧ _ ≤ _ ∧ _ = _ ∧ (_ ↔ _)))
  | .create .. | .assign .. | .cancel _ | .cleanupAll => inferInstanceAs (Decidable True)

/-- A report that leaves no live leg uncounted: no leg is cancelled while a quantity of the other is
live, and no live leg is partially filled when the other is filled. -/
def Counted (manager : OCOManager) : ManagerCall → Prop
  | .fill orderId filledQty remainingQty status =>
    ∀ order ∈ manager.findOrder orderId, 0 < remainingQty →
      ((order.2.1.leg order.2.2).report filledQty remainingQty status).isLive = true →
        (order.2.1.leg order.2.2.other).isFullyFilled = false
  | .cancel orderId =>
    ∀ order ∈ manager.findOrder orderId, (order.2.1.leg order.2.2.other).isLive = true →
      (order.2.1.leg order.2.2.other).remainingQuantity ≤ 0
  | _ => True

instance (manager : OCOManager) : DecidablePred (Counted manager)
  | .fill .. => inferInstanceAs (Decidable (∀ order ∈ _, _ → _ → _))
  | .cancel _ => inferInstanceAs (Decidable (∀ order ∈ _, _ → _))
  | .create .. | .assign .. | .cleanupAll => inferInstanceAs (Decidable True)

/-! ## One group -/

/-- What a group adds to the total exposure. -/
def OCOGroup.reportedExposure (group : OCOGroup) : ℚ :=
  if group.state.isActive then group.riskExposure else 0

/-- What a group adds to the total exposure covers its live legs. -/
def OCOGroup.Covered (group : OCOGroup) : Prop := group.liveExposure ≤ group.reportedExposure

section Groups

variable {group : OCOGroup} {legId : LegId} {filledQty remainingQty : ℚ} {status : String}

/-- The exposure is bounded by what each live leg bounds. -/
theorem liveExposure_le {bound : ℚ}
    (live : ∀ legId, (group.leg legId).isLive = true → (group.leg legId).remainingQuantity ≤ bound)
    (quiet : (∀ legId, (group.leg legId).isLive = false) → 0 ≤ bound) :
    group.liveExposure ≤ bound := by
  unfold OCOGroup.liveExposure
  split
  · next liveA =>
    split
    · next liveB => exact max_le (live .a liveA) (live .b liveB)
    · exact live .a liveA
  · next goneA =>
    split
    · next liveB => exact live .b liveB
    · next goneB =>
      apply quiet
      intro legId
      cases legId with
      | a => exact Bool.eq_false_of_not_eq_true goneA
      | b => exact Bool.eq_false_of_not_eq_true goneB

theorem remaining_le_riskExposure (unfinished : group.state ≠ .fullyFilled)
    (unfilled : ∀ legId, (group.leg legId).isFullyFilled = false) (legId : LegId) :
    (group.leg legId).remainingQuantity ≤ group.riskExposure := by
  have open_ : ¬(group.legA.isFullyFilled = true ∨ group.legB.isFullyFilled = true) := by
    have legA : group.legA.isFullyFilled = false := unfilled .a
    have legB : group.legB.isFullyFilled = false := unfilled .b
    simp [legA, legB]
  unfold OCOGroup.riskExposure
  rw [if_neg unfinished, if_neg open_]
  cases legId with
  | a => exact le_max_left _ _
  | b => exact le_max_right _ _

theorem riskExposure_filled (filled : (group.leg legId).isFullyFilled = true) :
    group.riskExposure = 0 := by
  have closed : group.legA.isFullyFilled = true ∨ group.legB.isFullyFilled = true := by
    cases legId with
    | a => exact .inl filled
    | b => exact .inr filled
  unfold OCOGroup.riskExposure
  rw [if_pos closed, ite_self]

theorem not_live_of_filled {leg : OCOLeg} (filled : leg.isFullyFilled = true) :
    leg.isLive = false := by
  simp [OCOLeg.isLive, filled]

theorem not_live_cancelCounterpart (leg : OCOLeg) : leg.cancelCounterpart.isLive = false := by
  unfold OCOLeg.cancelCounterpart
  split
  · next gone =>
    rcases gone with cancelled | filled
    · simp [OCOLeg.isLive, cancelled]
    · exact not_live_of_filled filled
  · simp [OCOLeg.isLive]

theorem not_live_cancel (leg : OCOLeg) : leg.cancel.isLive = false := by
  simp [OCOLeg.isLive, OCOLeg.cancel, OCOLeg.isCancelled]

theorem forall_leg {holds : LegId → Prop} (self : holds legId) (other : holds legId.other)
    (leg : LegId) : holds leg := by
  cases legId <;> cases leg <;> assumption

theorem leg_cancel (group : OCOGroup) (legId : LegId) :
    (group.cancel legId).leg legId = (group.leg legId).cancel ∧
      (group.cancel legId).leg legId.other = group.leg legId.other := by
  cases legId <;> exact ⟨rfl, rfl⟩

theorem covered_new (active : group.state = .active)
    (fresh : ∀ legId, (group.leg legId).status = "NEW") : group.Covered := by
  have live : ∀ legId, (group.leg legId).isLive = true := fun legId => by
    simp [OCOLeg.isLive, OCOLeg.isFullyFilled, OCOLeg.isCancelled, fresh legId]
  have unfilled : ∀ legId, (group.leg legId).isFullyFilled = false := fun legId => by
    simp [OCOLeg.isFullyFilled, fresh legId]
  have unfinished : group.state ≠ .fullyFilled := by
    rw [active]
    decide
  unfold OCOGroup.Covered OCOGroup.reportedExposure
  rw [active, if_pos (by rfl)]
  apply liveExposure_le
  · exact fun legId _ => remaining_le_riskExposure unfinished unfilled legId
  · exact fun gone => absurd ((live .a).symm.trans (gone .a)) (by decide)

theorem covered_cancel (settled : (group.leg legId.other).isLive = true →
    (group.leg legId.other).remainingQuantity ≤ 0) : (group.cancel legId).Covered := by
  obtain ⟨self, other⟩ := leg_cancel group legId
  have inactive : (group.cancel legId).state.isActive = false := by cases legId <;> rfl
  unfold OCOGroup.Covered OCOGroup.reportedExposure
  rw [inactive, if_neg Bool.false_ne_true]
  apply liveExposure_le
  · apply @forall_leg legId
    · rw [self, not_live_cancel]
      nofun
    · rw [other]
      exact settled
  · exact fun _ => le_refl 0

theorem covered_full_fill : (group.fill legId filledQty 0 "FILLED").Covered := by
  have filled : ((group.fill legId filledQty 0 "FILLED").leg legId).isFullyFilled = true := by
    rw [leg_fill_self]
    simp [OCOLeg.isFullyFilled, OCOLeg.report]
  unfold OCOGroup.Covered OCOGroup.reportedExposure
  rw [riskExposure_filled filled, ite_self]
  apply liveExposure_le
  · apply @forall_leg legId
    · rw [not_live_of_filled filled]
      nofun
    · rw [leg_fill_other, if_pos (le_refl 0), not_live_cancelCounterpart]
      nofun
  · exact fun _ => le_refl 0

theorem covered_partial_fill (remains : 0 < remainingQty) (unfilled : status ≠ "FILLED")
    (counted : ((group.leg legId).report filledQty remainingQty status).isLive = true →
      (group.leg legId.other).isFullyFilled = false) :
    (group.fill legId filledQty remainingQty status).Covered := by
  have other : (group.fill legId filledQty remainingQty status).leg legId.other =
      group.leg legId.other := by rw [leg_fill_other, if_neg (not_le.mpr remains)]
  have state : (group.fill legId filledQty remainingQty status).state = .partialFill legId := by
    rw [state_fill, if_neg (not_le.mpr remains)]
  have active : (group.fill legId filledQty remainingQty status).state.isActive = true := by
    rw [state]
    cases legId <;> rfl
  unfold OCOGroup.Covered OCOGroup.reportedExposure
  rw [active, if_pos rfl]
  cases filled : (group.leg legId.other).isFullyFilled with
  | true =>
    have closed : ((group.fill legId filledQty remainingQty status).leg
        legId.other).isFullyFilled = true := by
      rw [other]
      exact filled
    rw [riskExposure_filled closed]
    apply liveExposure_le
    · apply @forall_leg legId
      · rw [leg_fill_self]
        exact fun live => absurd (filled.symm.trans (counted live)) (by decide)
      · rw [other, not_live_of_filled filled]
        nofun
    · exact fun _ => le_refl 0
  | false =>
    have risk := @remaining_le_riskExposure (group.fill legId filledQty remainingQty status)
      (by rw [state]; cases legId <;> decide) (by
        apply @forall_leg legId
        · rw [leg_fill_self]
          simp [OCOLeg.isFullyFilled, OCOLeg.report, unfilled]
        · rw [other]
          exact filled)
    apply liveExposure_le
    · exact fun leg _ => risk leg
    · intro _
      have here := risk legId
      rw [leg_fill_self] at here
      exact remains.le.trans here

theorem covered_assign {orderIdA orderIdB : String} (covered : group.Covered) :
    (group.assign orderIdA orderIdB).Covered :=
  covered

end Groups

/-! ## Runs -/

section Runs

variable {manager next : OCOManager} {call : ManagerCall}

theorem totalRiskExposure_eq (manager : OCOManager) :
    manager.getTotalRiskExposure none =
      (manager.groups.values.map OCOGroup.reportedExposure).sum := by
  show ((manager.groups.values.filter fun group => group.state.isActive).map
    OCOGroup.riskExposure).sum = _
  induction manager.groups.values with
  | nil => rfl
  | cons group rest ih =>
    rw [List.map_cons, List.sum_cons, ← ih, List.filter_cons]
    unfold OCOGroup.reportedExposure
    split
    · rw [List.map_cons, List.sum_cons]
    · rw [zero_add]

theorem exposureCovers_of_covered
    (covered : ∀ groupId group, manager.groups.get groupId = some group → group.Covered) :
    ExposureCovers manager := by
  unfold ExposureCovers OCOManager.liveExposure
  rw [totalRiskExposure_eq]
  apply List.sum_le_sum
  intro group member
  obtain ⟨groupId, there⟩ := Dict.mem_values.mp member
  exact covered groupId group there

/-- No group is in a terminal state, and every group is covered. -/
structure Covering (manager : OCOManager) : Prop where
  lasting : manager.Lasting
  covered : ∀ groupId group, manager.groups.get groupId = some group → group.Covered

/-- A counted call keeps the exposure covered. -/
theorem covering_step (covering : Covering manager)
    (met : Consistent manager call ∧ Counted manager call)
    (taken : manager.step call = some next) : Covering next := by
  obtain ⟨consistent, counted⟩ := met
  refine ⟨lasting_step covering.lasting taken, ?_⟩
  cases step_cases covering.lasting taken with
  | same groups =>
    rw [groups]
    exact covering.covered
  | cleared groups =>
    rw [groups]
    exact fun _ _ found => by cases found
  | created group groups active fresh =>
    exact groups_put covering.covered groups (covered_new active fresh)
  | assigned group there groups =>
    exact groups_put covering.covered groups (covered_assign (covering.covered _ group there))
  | @filled orderId status filledQty remainingQty groupId group legId found groups =>
    obtain ⟨_, nonnegative, _, full⟩ := consistent (groupId, group, legId) found
    have settled := counted (groupId, group, legId) found
    apply groups_put covering.covered groups
    rcases nonnegative.eq_or_lt with none | remains
    · cases full.mpr none.symm
      cases none
      exact covered_full_fill
    · exact covered_partial_fill remains (mt full.mp remains.ne') (settled remains)
  | cancelled groupId group legId found groups =>
    have settled := counted (groupId, group, legId) found
    exact groups_put covering.covered groups (covered_cancel settled)

/-- Along every run of consistent reports that leaves no live leg uncounted, the reported exposure
covers every live leg. -/
theorem exposure_covers (maxGroups : Int) (ttlSeconds : ℚ) (calls : List ManagerCall)
    (consistent : Guarded OCOManager.step Consistent (.new maxGroups ttlSeconds) calls)
    (counted : Guarded OCOManager.step Counted (.new maxGroups ttlSeconds) calls) :
    Always OCOManager.step ExposureCovers (.new maxGroups ttlSeconds) calls := by
  have start : Covering (.new maxGroups ttlSeconds) :=
    ⟨lasting_new maxGroups ttlSeconds, fun _ _ found => by cases found⟩
  have always := always_guarded (fun _ _ _ covering met taken => covering_step covering met taken)
    start calls (consistent.and counted)
  exact always.imp fun manager covering => exposureCovers_of_covered covering.covered

/-- A group of which the first leg is filled half and then fully, before its counterpart is
cancelled. -/
def filledThenCancelled : List ManagerCall :=
  [.create tenthLegs.legA tenthLegs.legB "1" 0, .assign "OCO_1" "A" "B",
    .fill "A" (1 / 20) (1 / 20) "PARTIALLY_FILLED", .fill "A" (1 / 10) 0 "FILLED", .cancel "B"]

/-- The exposure of a group whose first leg fills covers the live legs throughout. -/
theorem exposure_covers_filled :
    Always OCOManager.step ExposureCovers (.new 10 60) filledThenCancelled :=
  exposure_covers 10 60 filledThenCancelled (by decide +kernel) (by decide +kernel)

/-- A leg that stays live after its counterpart was cancelled is not counted. -/
theorem exposure_uncovered :
    ¬∀ (maxGroups : Int) (ttlSeconds : ℚ) (calls : List ManagerCall),
      Guarded OCOManager.step Consistent (.new maxGroups ttlSeconds) calls →
        Always OCOManager.step ExposureCovers (.new maxGroups ttlSeconds) calls := by
  intro claim
  exact absurd (claim 10 60 [.create tenthLegs.legA tenthLegs.legB "1" 0,
    .assign "OCO_1" "A" "B", .cancel "A"] (by decide +kernel)) (by decide +kernel)

end Runs

end TradingBot.Oco
