import TradingBot.Foundation.Run
import TradingBot.Oms.OcoManager

/-!
# The winner of a one-cancels-other group

A leg that is reported fully filled wins its group, and its counterpart is pending cancellation or
cancelled from then on. The reports that follow are written over this record: the confirmation of
the very cancellation it asks for turns the state of the group from filled to cancelled. The record
stays along a run exactly if no such report comes.
-/

open Run

namespace TradingBot.Oco

/-- One call on a manager. -/
inductive OcoCall where
  /-- `create_oco_group`. -/
  | create (legA legB : LegConfig) (token : String) (now : ℚ)
  | assign (groupId orderIdA orderIdB : String)
  /-- `handle_leg_fill`. -/
  | fill (orderId : String) (filledQty remainingQty : ℚ) (status : String)
  /-- `handle_leg_cancel`. -/
  | cancel (orderId : String)

/-- A manager with the first leg of each group that was reported fully filled. -/
structure Session where
  manager : OCOManager
  winners : Dict String LegId

/-- The winners after a fill report. -/
def Session.winnersAfter (session : Session) (orderId : String) (remainingQty : ℚ) :
    Dict String LegId :=
  match session.manager.findOrder orderId with
  | none => session.winners
  | some (groupId, _, legId) =>
    if remainingQty = 0 ∧ session.winners.get groupId = none then
      session.winners.put groupId legId
    else session.winners

/-- A session after a call. -/
def step (session : Session) : OcoCall → Option Session
  | .create legA legB token now =>
    some { session with manager := (session.manager.createOcoGroup legA legB token now).2 }
  | .assign groupId orderIdA orderIdB =>
    some { session with manager := (session.manager.assignOrderIds groupId orderIdA orderIdB).2 }
  | .fill orderId filledQty remainingQty status =>
    some {
      manager := (session.manager.handleLegFill orderId filledQty remainingQty status).2
      winners := session.winnersAfter orderId remainingQty }
  | .cancel orderId => some { session with manager := (session.manager.handleLegCancel orderId).2 }

/-- A session of a new manager. -/
def Session.start (maxGroups : Int) (ttlSeconds : ℚ) : Session where
  manager := .new maxGroups ttlSeconds
  winners := .empty

/-- A group records the leg that won it: its state is that of the filled leg, the leg is filled
with all of its quantity, and the counterpart is not live. -/
structure Won (group : OCOGroup) (winner : LegId) : Prop where
  state : group.state = .legFilled winner ∨ group.state = .fullyFilled
  status : (group.leg winner).status = "FILLED"
  filled : (group.leg winner).filledQuantity = (group.leg winner).quantity
  remaining : (group.leg winner).remainingQuantity = 0
  counterpart : (group.leg winner.other).status = "PENDING_CANCEL" ∨
    (group.leg winner.other).status = "CANCELLED" ∨ (group.leg winner.other).status = "EXPIRED"

/-- Every group that was won records its winner. -/
def WinnersKept (session : Session) : Prop :=
  ∀ groupId winner, session.winners.get groupId = some winner →
    ∃ group, session.manager.groups.get groupId = some group ∧ Won group winner

/-- What the callers promise: a new group has a new identifier, and the report of a fill is
consistent with the quantity of its leg. -/
def Promised (session : Session) : OcoCall → Prop
  | .create _ _ token _ => session.manager.groups.get ("OCO_" ++ token) = none
  | .fill orderId filledQty remainingQty status =>
    ∀ order ∈ session.manager.findOrder orderId,
      (order.2.1.leg order.2.2).filledQuantity ≤ filledQty ∧
        filledQty + remainingQty = (order.2.1.leg order.2.2).quantity ∧
          (status = "FILLED" ↔ remainingQty = 0)
  | .assign _ orderIdA orderIdB => orderIdA ≠ orderIdB ∧
    session.manager.orderIndex.get orderIdA = none ∧
      session.manager.orderIndex.get orderIdB = none
  | .cancel _ => True

/-- A report does not disturb a group that was won: no fill of the counterpart is reported, no
cancellation of either leg, and a repeated fill of the winner leaves nothing. -/
def Undisturbed (session : Session) : OcoCall → Prop
  | .fill orderId _ remainingQty _ =>
    ∀ order ∈ session.manager.findOrder orderId, ∀ winner ∈ session.winners.get order.1,
      order.2.2 = winner ∧ remainingQty = 0
  | .cancel orderId =>
    ∀ order ∈ session.manager.findOrder orderId, session.winners.get order.1 = none
  | .create .. => True
  | .assign .. => True

instance (session : Session) : DecidablePred (Promised session)
  | .create .. => inferInstanceAs (Decidable (_ = _))
  | .assign .. => inferInstanceAs (Decidable (_ ∧ _ ∧ _))
  | .fill .. => inferInstanceAs (Decidable (∀ order ∈ _, _ ≤ _ ∧ _ = _ ∧ (_ ↔ _)))
  | .cancel _ => inferInstanceAs (Decidable True)

instance (session : Session) : DecidablePred (Undisturbed session)
  | .fill .. => inferInstanceAs (Decidable (∀ order ∈ _, ∀ winner ∈ _, _ = _ ∧ _ = _))
  | .cancel _ => inferInstanceAs (Decidable (∀ order ∈ _, _ = _))
  | .create .. | .assign .. => inferInstanceAs (Decidable True)

/-! ## Reports on a group -/

section Groups

variable {group : OCOGroup} {legId winner : LegId} {filledQty remainingQty : ℚ} {status : String}

theorem LegId.eq_other (different : legId ≠ winner) : winner = legId.other := by
  cases legId <;> cases winner <;> first | rfl | exact absurd rfl different

theorem leg_fill_self :
    (group.fill legId filledQty remainingQty status).leg legId =
      (group.leg legId).report filledQty remainingQty status := by
  unfold OCOGroup.fill
  dsimp only
  cases legId <;> split <;> rfl

theorem leg_fill_other :
    (group.fill legId filledQty remainingQty status).leg legId.other =
      if remainingQty ≤ 0 then (group.leg legId.other).cancelCounterpart
      else group.leg legId.other := by
  unfold OCOGroup.fill
  dsimp only
  cases legId <;> split <;> rfl

/-- A filled leg decides the group. -/
theorem state_fill :
    (group.fill legId filledQty remainingQty status).state =
      if remainingQty ≤ 0 then .legFilled legId else .partialFill legId := by
  unfold OCOGroup.fill
  dsimp only
  split <;> rfl

theorem ne_filled {text : String}
    (gone : text = "PENDING_CANCEL" ∨ text = "CANCELLED" ∨ text = "EXPIRED") :
    text ≠ "FILLED" := by
  rcases gone with rfl | rfl | rfl <;> decide

theorem status_cancelCounterpart {leg : OCOLeg} (unfilled : leg.status ≠ "FILLED") :
    leg.cancelCounterpart.status = "PENDING_CANCEL" ∨
      leg.cancelCounterpart.status = "CANCELLED" ∨ leg.cancelCounterpart.status = "EXPIRED" := by
  unfold OCOLeg.cancelCounterpart
  split
  · next kept =>
    have notFilled : ¬leg.isFullyFilled = true :=
      fun full => unfilled (of_decide_eq_true full).2
    exact .inr (of_decide_eq_true (kept.resolve_right notFilled))
  · exact .inl rfl

theorem won_of_full_fill (unfilled : (group.leg legId.other).status ≠ "FILLED")
    (sum : filledQty + 0 = (group.leg legId).quantity) :
    Won (group.fill legId filledQty 0 "FILLED") legId where
  state := .inl (by rw [state_fill, if_pos (le_refl 0)])
  status := by rw [leg_fill_self]; rfl
  filled := by
    rw [leg_fill_self]
    exact (add_zero filledQty).symm.trans sum
  remaining := by rw [leg_fill_self]; rfl
  counterpart := by
    rw [leg_fill_other, if_pos (le_refl 0)]
    exact status_cancelCounterpart unfilled

theorem won_fill (won : Won group winner)
    (sum : filledQty + remainingQty = (group.leg legId).quantity)
    (full : status = "FILLED" ↔ remainingQty = 0) :
    Won (group.fill legId filledQty remainingQty status) winner ↔
      legId = winner ∧ remainingQty = 0 := by
  constructor
  · intro kept
    have same : legId = winner := by
      by_contra different
      have state := kept.state
      rw [state_fill] at state
      revert different state
      cases legId <;> cases winner <;> split <;> decide
    refine ⟨same, full.mp ?_⟩
    have recorded := kept.status
    rw [← same, leg_fill_self] at recorded
    exact recorded
  · rintro ⟨rfl, rfl⟩
    cases full.mpr rfl
    exact won_of_full_fill (ne_filled won.counterpart) sum

theorem unfilled_fill (unfilled : ∀ leg, (group.leg leg).status ≠ "FILLED")
    (reported : status ≠ "FILLED") (leg : LegId) :
    ((group.fill legId filledQty remainingQty status).leg leg).status ≠ "FILLED" := by
  by_cases same : legId = leg
  · rw [← same, leg_fill_self]
    exact reported
  · rw [LegId.eq_other same, leg_fill_other]
    split
    · exact ne_filled (status_cancelCounterpart (unfilled _))
    · exact unfilled _

theorem unfilled_cancel (unfilled : ∀ leg, (group.leg leg).status ≠ "FILLED") (leg : LegId) :
    ((group.cancel legId).leg leg).status ≠ "FILLED" := by
  have cancelled : (group.leg legId).cancel.status ≠ "FILLED" := by
    show "CANCELLED" ≠ "FILLED"
    decide
  by_cases same : legId = leg
  · rw [← same]
    cases legId with
    | a => exact cancelled
    | b => exact cancelled
  · rw [LegId.eq_other same]
    cases legId with
    | a => exact unfilled .b
    | b => exact unfilled .a

theorem not_won_cancel : ¬Won (group.cancel legId) winner := by
  intro kept
  have state : OCOState.legCancelled legId = .legFilled winner ∨
      OCOState.legCancelled legId = .fullyFilled := kept.state
  revert state
  cases legId <;> cases winner <;> decide

theorem won_assign {orderIdA orderIdB : String} (won : Won group winner) :
    Won (group.assign orderIdA orderIdB) winner := by
  cases winner with
  | a => exact ⟨won.state, won.status, won.filled, won.remaining, won.counterpart⟩
  | b => exact ⟨won.state, won.status, won.filled, won.remaining, won.counterpart⟩

end Groups

/-! ## Runs -/

/-- No leg of a group without a winner is filled, and no group is in a state in which a cleanup
removes it. -/
structure Steady (session : Session) : Prop where
  unwon : ∀ groupId group, session.manager.groups.get groupId = some group →
    session.winners.get groupId = none → ∀ legId, (group.leg legId).status ≠ "FILLED"
  lasting : ∀ groupId group, session.manager.groups.get groupId = some group →
    group.state.terminal = false

section Runs

variable {session next : Session} {groupId : String} {group : OCOGroup} {call : OcoCall}
  {manager : OCOManager} {winners : Dict String LegId}

theorem winnersKept_update (kept : WinnersKept session)
    (groups : manager.groups = session.manager.groups.put groupId group)
    (others : ∀ other, other ≠ groupId → winners.get other = session.winners.get other) :
    WinnersKept { manager := manager, winners := winners } ↔
      ∀ winner, winners.get groupId = some winner → Won group winner := by
  constructor
  · intro after winner won
    obtain ⟨found, there, recorded⟩ := after groupId winner won
    rw [groups, Dict.get_put_self] at there
    cases there
    exact recorded
  · intro here other winner won
    show ∃ found, manager.groups.get other = some found ∧ _
    rw [groups, Dict.get_put]
    by_cases same : other = groupId
    · rw [if_pos same]
      exact ⟨group, rfl, here winner (same ▸ won)⟩
    · rw [if_neg same]
      exact kept other winner ((others other same).symm.trans won)

theorem steady_update (steady : Steady session)
    (groups : manager.groups = session.manager.groups.put groupId group)
    (others : ∀ other, other ≠ groupId → winners.get other = session.winners.get other)
    (unwon : winners.get groupId = none → ∀ legId, (group.leg legId).status ≠ "FILLED")
    (lasting : group.state.terminal = false) :
    Steady { manager := manager, winners := winners } where
  unwon := by
    intro other found there none
    rw [groups] at there
    obtain ⟨rfl, rfl⟩ | ⟨differs, before⟩ := Dict.get_put_eq_some.mp there
    · exact unwon none
    · exact steady.unwon other found before ((others other differs).symm.trans none)
  lasting := by
    intro other found there
    rw [groups] at there
    exact (Dict.forall_put steady.lasting).mpr lasting other found there

variable {orderId : String} {legId : LegId} {remainingQty : ℚ}

theorem winnersAfter_get (found : session.manager.findOrder orderId = some (groupId, group, legId))
    (other : String) : (session.winnersAfter orderId remainingQty).get other =
      if other = groupId ∧ remainingQty = 0 ∧ session.winners.get groupId = none then some legId
      else session.winners.get other := by
  unfold Session.winnersAfter
  rw [found]
  dsimp only
  by_cases wins : remainingQty = 0 ∧ session.winners.get groupId = none
  · rw [if_pos wins, Dict.get_put]
    exact if_congr (and_iff_left wins).symm rfl rfl
  · rw [if_neg wins, if_neg fun all => wins all.2]

theorem winner_none (kept : WinnersKept session)
    (absent : session.manager.groups.get groupId = none) :
    session.winners.get groupId = none := by
  cases won : session.winners.get groupId with
  | none => rfl
  | some winner =>
    obtain ⟨group, there, _⟩ := kept groupId winner won
    exact absurd (absent.symm.trans there) (Option.some_ne_none group).symm

theorem winnersAfter_other
    (found : session.manager.findOrder orderId = some (groupId, group, legId)) {other : String}
    (different : other ≠ groupId) :
    (session.winnersAfter orderId remainingQty).get other = session.winners.get other := by
  rw [winnersAfter_get found, if_neg fun all => different all.1]

theorem winnersAfter_missing (absent : session.manager.findOrder orderId = none) :
    session.winnersAfter orderId remainingQty = session.winners := by
  unfold Session.winnersAfter
  rw [absent]

/-- Every promised call keeps the session steady. -/
theorem steady_step (steady : Steady session) (promised : Promised session call)
    (taken : step session call = some next) : Steady next := by
  cases call with
  | create legA legB token now =>
    cases taken
    rcases OCOManager.create_cases steady.lasting legA legB token now with
      same | ⟨group, registered, active, new⟩
    · rw [same]
      exact { steady with }
    · apply steady_update steady (congrArg OCOManager.groups registered) (fun _ _ => rfl)
      · intro _ legId
        rw [new legId]
        decide
      · rw [active]
        rfl
  | assign groupId orderIdA orderIdB =>
    cases taken
    cases there : session.manager.groups.get groupId with
    | none =>
      rw [OCOManager.assignOrderIds_missing there]
      exact { steady with }
    | some group =>
      apply steady_update steady (OCOManager.assignOrderIds_found there _ _) (fun _ _ => rfl)
      · intro none legId
        have unfilled := steady.unwon groupId group there none legId
        cases legId with
        | a => exact unfilled
        | b => exact unfilled
      · exact steady.lasting groupId group there
  | fill orderId filledQty remainingQty status =>
    cases taken
    cases found : session.manager.findOrder orderId with
    | none =>
      rw [OCOManager.handleLegFill_missing found, winnersAfter_missing found]
      exact { steady with }
    | some order =>
      obtain ⟨groupId, group, legId⟩ := order
      have there := OCOManager.get_of_findOrder found
      have full := (promised (groupId, group, legId) found).2.2
      apply steady_update steady (OCOManager.handleLegFill_found found _ _ _)
        (fun _ different => winnersAfter_other found different)
      · intro none
        rw [winnersAfter_get found] at none
        split at none
        · cases none
        · next wins =>
          have partial_ : remainingQty ≠ 0 := fun zero => wins ⟨rfl, zero, none⟩
          exact unfilled_fill (steady.unwon groupId group there none) (mt full.mp partial_)
      · rw [state_fill]
        cases legId <;> split <;> rfl
  | cancel orderId =>
    cases taken
    cases found : session.manager.findOrder orderId with
    | none =>
      rw [OCOManager.handleLegCancel_missing found]
      exact { steady with }
    | some order =>
      obtain ⟨groupId, group, legId⟩ := order
      have there := OCOManager.get_of_findOrder found
      apply steady_update steady (OCOManager.handleLegCancel_found found) (fun _ _ => rfl)
      · exact fun none => unfilled_cancel (steady.unwon groupId group there none)
      · cases legId <;> rfl

theorem kept_fill (steady : Steady session) (kept : WinnersKept session) {status : String}
    {filledQty : ℚ} (found : session.manager.findOrder orderId = some (groupId, group, legId))
    (sum : filledQty + remainingQty = (group.leg legId).quantity)
    (full : status = "FILLED" ↔ remainingQty = 0) : WinnersKept {
      manager := (session.manager.handleLegFill orderId filledQty remainingQty status).2
      winners := session.winnersAfter orderId remainingQty } ↔
        ∀ winner, session.winners.get groupId = some winner →
          legId = winner ∧ remainingQty = 0 := by
  have there := OCOManager.get_of_findOrder found
  rw [winnersKept_update kept (OCOManager.handleLegFill_found found _ _ _)
    fun _ different => winnersAfter_other found different]
  refine forall_congr' fun winner => ?_
  rw [winnersAfter_get found]
  cases before : session.winners.get groupId with
  | none =>
    -- The first full fill of the group makes the leg its winner.
    refine iff_of_true ?_ nofun
    intro won
    split at won
    · next wins =>
      cases won
      cases wins.2.1
      cases full.mpr rfl
      exact won_of_full_fill (steady.unwon groupId group there before _) sum
    · cases won
  | some first =>
    rw [if_neg fun all => absurd all.2.2 (Option.some_ne_none first)]
    refine forall_congr' fun won => ?_
    obtain ⟨held, here, recorded⟩ := kept groupId first before
    cases there.symm.trans here
    cases won
    exact won_fill recorded sum full

theorem kept_cancel (kept : WinnersKept session)
    (found : session.manager.findOrder orderId = some (groupId, group, legId)) :
    WinnersKept { session with manager := (session.manager.handleLegCancel orderId).2 } ↔
      session.winners.get groupId = none := by
  rw [winnersKept_update kept (OCOManager.handleLegCancel_found found) fun _ _ => rfl]
  constructor
  · intro here
    apply Option.eq_none_iff_forall_ne_some.mpr
    exact fun winner won => not_won_cancel (here winner won)
  · intro none winner won
    exact absurd (none.symm.trans won) (Option.some_ne_none winner).symm

/-- One call keeps the winners exactly when it disturbs none. -/
theorem kept_step (steady : Steady session) (kept : WinnersKept session)
    (promised : Promised session call) (taken : step session call = some next) :
    WinnersKept next ↔ Undisturbed session call := by
  cases call with
  | create legA legB token now =>
    cases taken
    refine iff_of_true ?_ trivial
    rcases OCOManager.create_cases steady.lasting legA legB token now with
      same | ⟨group, registered, _⟩
    · rw [same]
      exact kept
    · apply (winnersKept_update kept (congrArg OCOManager.groups registered)
        fun _ _ => rfl).mpr
      intro winner won
      exact absurd ((winner_none kept promised).symm.trans won) (Option.some_ne_none winner).symm
  | assign groupId orderIdA orderIdB =>
    cases taken
    refine iff_of_true ?_ trivial
    cases there : session.manager.groups.get groupId with
    | none =>
      rw [OCOManager.assignOrderIds_missing there]
      exact kept
    | some group =>
      apply (winnersKept_update kept (OCOManager.assignOrderIds_found there _ _)
        fun _ _ => rfl).mpr
      intro winner won
      obtain ⟨held, same, recorded⟩ := kept groupId winner won
      cases there.symm.trans same
      exact won_assign recorded
  | fill orderId filledQty remainingQty status =>
    cases taken
    cases found : session.manager.findOrder orderId with
    | none =>
      rw [OCOManager.handleLegFill_missing found, winnersAfter_missing found]
      refine iff_of_true kept fun order there => ?_
      exact absurd (found.symm.trans there) (Option.some_ne_none _).symm
    | some order =>
      have consistent := promised order found
      rw [kept_fill steady kept found consistent.2.1 consistent.2.2]
      constructor
      · intro here other there
        cases found.symm.trans there
        exact here
      · exact fun undisturbed => undisturbed order found
  | cancel orderId =>
    cases taken
    cases found : session.manager.findOrder orderId with
    | none =>
      rw [OCOManager.handleLegCancel_missing found]
      refine iff_of_true kept fun order there => ?_
      exact absurd (found.symm.trans there) (Option.some_ne_none _).symm
    | some order =>
      rw [kept_cancel kept found]
      constructor
      · intro here other there
        cases found.symm.trans there
        exact here
      · exact fun undisturbed => undisturbed order found

/-- Along every run of consistent reports on a new manager the winners of the groups stay recorded
if and only if no report disturbs a group that was won. -/
theorem winners_kept_iff_undisturbed (maxGroups : Int) (ttlSeconds : ℚ) (calls : List OcoCall)
    (promised : Guarded step Promised (Session.start maxGroups ttlSeconds) calls) :
    Always step WinnersKept (Session.start maxGroups ttlSeconds) calls ↔
      Guarded step Undisturbed (Session.start maxGroups ttlSeconds) calls := by
  have start : Steady (Session.start maxGroups ttlSeconds) :=
    ⟨fun _ _ found => (by cases found), fun _ _ found => (by cases found)⟩
  have kept : WinnersKept (Session.start maxGroups ttlSeconds) := fun _ _ won => by cases won
  exact always_iff_guarded_of (fun _ _ _ steady _ met _ taken => steady_step steady met taken)
    (fun _ _ _ steady kept met taken => kept_step steady kept met taken) start kept calls promised

/-- A leg of a tenth of a bitcoin. -/
def tenth (side : String) : LegConfig where
  symbol := "BTCUSDT"
  side := side
  quantity := 1 / 10

/-- A group of which the first leg is reported half and then fully filled. -/
def firstLegWins : List OcoCall :=
  [.create (tenth "BUY") (tenth "SELL") "1" 0, .assign "OCO_1" "A" "B",
    .fill "A" (1 / 20) (1 / 20) "PARTIALLY_FILLED", .fill "A" (1 / 10) 0 "FILLED"]

/-- The winner stays recorded when its fill is reported twice. -/
theorem winners_kept_iff_undisturbed_twice :
    Always step WinnersKept (Session.start 10 60)
      (firstLegWins ++ [.fill "A" (1 / 10) 0 "FILLED"]) :=
  (winners_kept_iff_undisturbed 10 60 (firstLegWins ++ [.fill "A" (1 / 10) 0 "FILLED"])
    (by decide +kernel)).mpr (by decide +kernel)

/-- The confirmed cancellation of the counterpart erases the record of the winner. -/
theorem cancel_confirmation_erases_winner :
    ¬∀ (maxGroups : Int) (ttlSeconds : ℚ) (calls : List OcoCall),
      Guarded step Promised (Session.start maxGroups ttlSeconds) calls →
        Always step WinnersKept (Session.start maxGroups ttlSeconds) calls := by
  intro claim
  refine @not_always_of_view _ _ step _ (fun session => (session.winners.get "OCO_1",
      (session.manager.groups.get "OCO_1").map OCOGroup.state)) (some .a, some .legBCancelled)
    WinnersKept (Session.start 10 60) (firstLegWins ++ [.cancel "B"]) (by decide +kernel)
    (fun final both winners => ?_) (claim 10 60 (firstLegWins ++ [.cancel "B"]) (by decide +kernel))
  obtain ⟨group, there, won⟩ := winners "OCO_1" .a (congrArg Prod.fst both)
  have state : group.state = .legBCancelled := by
    have shown := congrArg Prod.snd both
    rw [there] at shown
    exact Option.some.inj shown
  have kept := won.state
  rw [state] at kept
  exact absurd kept (by decide)

end Runs

end TradingBot.Oco
