import TradingBot.Arbitrage.LeggingRiskShield
import TradingBot.Foundation.Run

/-!
# Decisions on the legs of a trade

A trade is complete when all its legs are filled, is to be aborted when a leg that is not filled
is lost, and goes on otherwise. The shield decides by other tests: it counts a filled leg whose
submission is long ago as timed out, and does not count a cancelled leg as lost.
-/

open Run

namespace TradingBot.Arbitrage

/-! ## The right action -/

/-- A leg was submitted more than the allowed time ago. -/
def TradeLeg.isOverdue (leg : TradeLeg) (nowNs : Nat) : Bool :=
  leg.submittedAtNs ≠ 0 && leg.submittedAtNs + maxLegExecutionMs * 1000000 < nowNs

/-- A leg is not filled, and it is cancelled or overdue. -/
def TradeLeg.isStuck (leg : TradeLeg) (nowNs : Nat) : Bool :=
  !leg.isFilled && (leg.status = .cancelled || leg.isOverdue nowNs)

/-- A leg is not filled, and it failed, expired, was cancelled or is overdue. -/
def TradeLeg.isLost (leg : TradeLeg) (nowNs : Nat) : Bool :=
  !leg.isFilled && (leg.status = .failed || leg.status = .expired || leg.status = .cancelled ||
    leg.isOverdue nowNs)

/-- Some leg of a trade is stuck. -/
def ArbTrade.anyLegStuck (trade : ArbTrade) (nowNs : Nat) : Bool :=
  trade.legs.any fun leg => leg.isStuck nowNs

/-- Some leg of a trade is lost. -/
def ArbTrade.anyLegLost (trade : ArbTrade) (nowNs : Nat) : Bool :=
  trade.legs.any fun leg => leg.isLost nowNs

/-- What the shield said of a trade, and when. -/
structure Verdict where
  trade : ArbTrade
  nowNs : Nat
  action : LegAction

/-- The action fits the legs: complete when all are filled, abort when not all are filled and one
is lost, continue otherwise. -/
def Verdict.Right (verdict : Verdict) : Prop :=
  (verdict.action = .completeTrade ↔ verdict.trade.allLegsFilled = true) ∧
  (verdict.action = .abortTrade ↔ verdict.trade.allLegsFilled = false ∧
    verdict.trade.anyLegLost verdict.nowNs = true) ∧
  (verdict.action = .continue_ ↔ verdict.trade.allLegsFilled = false ∧
    verdict.trade.anyLegLost verdict.nowNs = false)

/-- The tests of the shield see the legs as they are: a leg failed or expired, or some leg is timed
out exactly when some leg is stuck. -/
def ArbTrade.Plain (trade : ArbTrade) (nowNs : Nat) : Prop :=
  trade.anyLegFailed = true ∨ trade.anyLegTimedOut nowNs = trade.anyLegStuck nowNs

instance (trade : ArbTrade) (nowNs : Nat) : Decidable (trade.Plain nowNs) :=
  inferInstanceAs (Decidable (_ ∨ _))

/-- The action of the shield on a trade. -/
def ArbTrade.action (trade : ArbTrade) (nowNs : Nat) : LegAction :=
  if trade.shouldAbortTrade nowNs then .abortTrade
  else if trade.allLegsFilled then .completeTrade
  else .continue_

section Legs

variable {leg : TradeLeg} {trade : ArbTrade} {nowNs : Nat}

theorem ArbTrade.shouldAbortTrade_eq (trade : ArbTrade) (nowNs : Nat) :
    trade.shouldAbortTrade nowNs = (trade.anyLegFailed || trade.anyLegTimedOut nowNs) := by
  have weaker : (trade.legs.any fun leg => !leg.isFilled && leg.isTimedOut nowNs) = true →
      trade.anyLegTimedOut nowNs = true := by
    intro found
    obtain ⟨leg, member, late⟩ := List.any_eq_true.mp found
    exact List.any_eq_true.mpr ⟨leg, member, (Bool.and_eq_true_iff.mp late).2⟩
  unfold ArbTrade.shouldAbortTrade
  cases failed : trade.anyLegFailed with
  | true => rfl
  | false =>
    cases late : trade.anyLegTimedOut nowNs with
    | true => rfl
    | false =>
      simp only [Bool.false_eq_true, if_false, Bool.or_self]
      split
      · exact Bool.eq_false_iff.mpr fun found => Bool.false_ne_true (late.symm.trans (weaker found))
      · rfl

theorem TradeLeg.status_of_filled (filled : leg.isFilled = true) : leg.status = .filled :=
  of_decide_eq_true (Bool.and_eq_true_iff.mp filled).1

theorem TradeLeg.isLost_eq (leg : TradeLeg) (nowNs : Nat) :
    leg.isLost nowNs =
      ((leg.status = .failed || leg.status = .expired) || leg.isStuck nowNs) := by
  unfold TradeLeg.isLost TradeLeg.isStuck
  cases filled : leg.isFilled with
  | true =>
    have status := TradeLeg.status_of_filled filled
    simp only [status, reduceCtorEq, decide_false, Bool.not_true, Bool.false_and, Bool.or_self]
  | false => simp only [Bool.not_false, Bool.true_and, Bool.or_assoc]

theorem ArbTrade.anyLegLost_eq (trade : ArbTrade) (nowNs : Nat) :
    trade.anyLegLost nowNs = (trade.anyLegFailed || trade.anyLegStuck nowNs) := by
  unfold ArbTrade.anyLegLost ArbTrade.anyLegFailed ArbTrade.anyLegStuck
  simp only [TradeLeg.isLost_eq]
  induction trade.legs with
  | nil => rfl
  | cons leg rest ih =>
    simp only [List.any_cons, ih]
    ac_rfl

theorem ArbTrade.not_filled_of_lost (lost : trade.anyLegLost nowNs = true) :
    trade.allLegsFilled = false := by
  obtain ⟨leg, member, bad⟩ := List.any_eq_true.mp lost
  have unfilled := (Bool.and_eq_true_iff.mp bad).1
  refine Bool.eq_false_iff.mpr fun filled => ?_
  have here := List.all_eq_true.mp filled leg member
  rw [here] at unfilled
  exact Bool.false_ne_true unfilled

theorem ArbTrade.right_iff_plain (trade : ArbTrade) (nowNs : Nat) :
    Verdict.Right ⟨trade, nowNs, trade.action nowNs⟩ ↔ trade.Plain nowNs := by
  have unfilled := @ArbTrade.not_filled_of_lost trade nowNs
  have lost := trade.anyLegLost_eq nowNs
  have abort := trade.shouldAbortTrade_eq nowNs
  unfold Verdict.Right ArbTrade.Plain ArbTrade.action
  dsimp only
  rw [abort, lost]
  rw [lost] at unfilled
  cases failed : trade.anyLegFailed <;> cases late : trade.anyLegTimedOut nowNs <;>
    cases stuck : trade.anyLegStuck nowNs <;> cases filled : trade.allLegsFilled <;>
    simp_all

end Legs

namespace LegDecisions

/-! ## Runs -/

/-- One call on a shield. -/
inductive ShieldCall where
  /-- `create_arb_trade`. -/
  | create (legs : List TradeLeg)
  | update (arbId legId : Nat) (status : LegStatus) (fillPrice : Option ℚ) (fillQuantity : ℚ)
  /-- `monitor_active_trades`. -/
  | monitor
  /-- `abort_trade`. -/
  | abort (arbId : Nat)
  /-- `complete_trade`. -/
  | complete (arbId : Nat)
  | setEnabled (enabled : Bool)

/-- A call and the reading of the clock during it. -/
structure TimedCall where
  nowNs : Nat
  call : ShieldCall

/-- A shield with the last reading of the clock and what the last call said of the trades. -/
structure Session where
  shield : LeggingRiskShield
  clockNs : Nat
  verdicts : List Verdict

/-- A session of a new shield. -/
def Session.start (maxConcurrent : Nat) : Session where
  shield := .new maxConcurrent
  clockNs := 0
  verdicts := []

/-- The action in the answer of `monitor_active_trades` for a trade; no entry is to continue. -/
def entryOf (entries : List (Nat × LegAction)) (arbId : Nat) : LegAction :=
  ((entries.find? fun entry => entry.1 = arbId).map Prod.snd).getD .continue_

/-- What a report says of its trade, if its trade and its leg are there. -/
def updateVerdicts (arbId nowNs : Nat) (answer : Option LegAction × LeggingRiskShield) :
    List Verdict :=
  match answer.1, answer.2.activeTrades.get arbId with
  | some action, some trade => [⟨trade, nowNs, action⟩]
  | _, _ => []

/-- What the monitor says of the active trades. -/
def monitorVerdicts (shield : LeggingRiskShield) (nowNs : Nat) : List Verdict :=
  shield.activeTrades.entries.map fun entry =>
    ⟨entry.2, nowNs, entryOf (shield.monitorActiveTrades nowNs) entry.1⟩

/-- The shield after a call. -/
def shieldAfter (shield : LeggingRiskShield) (timed : TimedCall) : LeggingRiskShield :=
  match timed.call with
  | .create legs => (shield.createArbTrade legs).2
  | .update arbId legId status fillPrice fillQuantity =>
    (shield.updateLegStatus arbId legId status fillPrice fillQuantity timed.nowNs).2
  | .monitor => shield
  | .abort arbId => (shield.abortTrade arbId).2
  | .complete arbId => (shield.completeTrade arbId).2
  | .setEnabled enabled => shield.setEnabled enabled

/-- What a call says of the trades. -/
def verdictsOf (shield : LeggingRiskShield) (timed : TimedCall) : List Verdict :=
  match timed.call with
  | .update arbId legId status fillPrice fillQuantity =>
    updateVerdicts arbId timed.nowNs
      (shield.updateLegStatus arbId legId status fillPrice fillQuantity timed.nowNs)
  | .monitor => monitorVerdicts shield timed.nowNs
  | _ => []

/-- No leg of a new trade is submitted in the future. -/
def inTime (timed : TimedCall) : Bool :=
  match timed.call with
  | .create legs => legs.all fun leg => leg.submittedAtNs ≤ timed.nowNs
  | _ => true

/-- A session after a call; the clock does not go back and is not before a submission. -/
def step (session : Session) (timed : TimedCall) : Option Session :=
  if timed.nowNs < session.clockNs || !inTime timed then none
  else some {
    shield := shieldAfter session.shield timed
    clockNs := timed.nowNs
    verdicts := verdictsOf session.shield timed }

/-- Everything the last call said is right. -/
def AllRight (session : Session) : Prop := ∀ verdict ∈ session.verdicts, verdict.Right

/-- The tests of the shield see the legs of the trades it judges as they are: after a report, the
trade of the report; in the monitor, every active trade. -/
def SeenPlain (session : Session) (timed : TimedCall) : Prop :=
  match timed.call with
  | .update arbId legId status fillPrice fillQuantity =>
    ∀ trade ∈ session.shield.activeTrades.get arbId,
      ∀ reported ∈ trade.report legId status fillPrice fillQuantity timed.nowNs,
        reported.Plain timed.nowNs
  | .monitor => ∀ trade ∈ session.shield.activeTrades.values, trade.Plain timed.nowNs
  | _ => True

instance (session : Session) : DecidablePred (SeenPlain session) := fun timed =>
  match timed with
  | ⟨_, .update ..⟩ => inferInstanceAs (Decidable (∀ trade ∈ Dict.get _ _, ∀ _ ∈ _, _))
  | ⟨_, .monitor⟩ => inferInstanceAs (Decidable (∀ trade ∈ Dict.values _, _))
  | ⟨_, .create _⟩ | ⟨_, .abort _⟩ | ⟨_, .complete _⟩ | ⟨_, .setEnabled _⟩ =>
    inferInstanceAs (Decidable True)

section Runs

variable {shield : LeggingRiskShield} {nowNs : Nat}

/-- A trade is passed over or listed with its action. -/
theorem monitorEntry_cases (entry : Nat × ArbTrade) (nowNs : Nat) :
    LeggingRiskShield.monitorEntry nowNs entry = none ∧ entry.2.action nowNs = .continue_ ∨
      LeggingRiskShield.monitorEntry nowNs entry = some (entry.1, entry.2.action nowNs) := by
  unfold LeggingRiskShield.monitorEntry ArbTrade.action
  cases entry.2.shouldAbortTrade nowNs with
  | true => exact .inr rfl
  | false =>
    cases entry.2.allLegsFilled with
    | true => exact .inr rfl
    | false => exact .inl ⟨rfl, rfl⟩

theorem entryOf_absent {entries : List (Nat × ArbTrade)} {arbId : Nat}
    (absent : arbId ∉ entries.map Prod.fst) :
    entryOf (entries.filterMap (LeggingRiskShield.monitorEntry nowNs)) arbId = .continue_ := by
  unfold entryOf
  have missing : (entries.filterMap (LeggingRiskShield.monitorEntry nowNs)).find?
      (fun entry => entry.1 = arbId) = none := by
    refine List.find?_eq_none.mpr fun made member same => ?_
    obtain ⟨entry, there, entered⟩ := List.mem_filterMap.mp member
    rcases monitorEntry_cases entry nowNs with ⟨none_, -⟩ | some_
    · rw [none_] at entered
      cases entered
    · rw [some_] at entered
      cases entered
      exact absent (List.mem_map.mpr ⟨entry, there, of_decide_eq_true same⟩)
  rw [missing]
  rfl

theorem entryOf_cons (first : Nat × ArbTrade) (rest : List (Nat × ArbTrade))
    (fresh : first.1 ∉ rest.map Prod.fst) (arbId : Nat) :
    entryOf ((first :: rest).filterMap (LeggingRiskShield.monitorEntry nowNs)) arbId =
      if first.1 = arbId then first.2.action nowNs
      else entryOf (rest.filterMap (LeggingRiskShield.monitorEntry nowNs)) arbId := by
  have absent := @entryOf_absent nowNs rest first.1 fresh
  rcases monitorEntry_cases first nowNs with ⟨none_, continues⟩ | some_
  · rw [List.filterMap_cons_none none_]
    split
    · next same => rw [continues, ← same, absent]
    · rfl
  · rw [List.filterMap_cons_some some_]
    unfold entryOf
    split
    · next same =>
      subst same
      simp only [List.find?_cons_of_pos, decide_true, Option.map_some, Option.getD_some]
    · next differs => rw [List.find?_cons_of_neg (by simpa using differs)]

theorem entryOf_monitor {entries : List (Nat × ArbTrade)} (distinct : (entries.map Prod.fst).Nodup)
    {entry : Nat × ArbTrade} (member : entry ∈ entries) :
    entryOf (entries.filterMap (LeggingRiskShield.monitorEntry nowNs)) entry.1 =
      entry.2.action nowNs := by
  induction entries with
  | nil => cases member
  | cons first rest ih =>
    obtain ⟨fresh, distinctRest⟩ := List.nodup_cons.mp distinct
    rw [entryOf_cons first rest fresh]
    rcases List.mem_cons.mp member with rfl | later
    · rw [if_pos rfl]
    · have differs : first.1 ≠ entry.1 := fun same =>
        fresh (same ▸ List.mem_map_of_mem later)
      rw [if_neg differs]
      exact ih distinctRest later

theorem monitor_right (shield : LeggingRiskShield) (nowNs : Nat) :
    (∀ verdict ∈ monitorVerdicts shield nowNs, verdict.Right) ↔
      ∀ trade ∈ shield.activeTrades.values, trade.Plain nowNs := by
  unfold monitorVerdicts LeggingRiskShield.monitorActiveTrades Dict.values
  simp only [List.forall_mem_map]
  refine forall_congr' fun entry => forall_congr' fun member => ?_
  rw [entryOf_monitor shield.activeTrades.nodup member]
  exact entry.2.right_iff_plain nowNs

theorem right_of_legs {first second : ArbTrade} (same : first.legs = second.legs) (nowNs : Nat)
    (action : LegAction) :
    Verdict.Right ⟨first, nowNs, action⟩ ↔ Verdict.Right ⟨second, nowNs, action⟩ := by
  unfold Verdict.Right ArbTrade.allLegsFilled ArbTrade.anyLegLost
  dsimp only
  rw [same]

theorem updateLegStatus_found {arbId legId : Nat} {status : LegStatus} {fillPrice : Option ℚ}
    {fillQuantity : ℚ} {trade reported : ArbTrade}
    (found : shield.activeTrades.get arbId = some trade)
    (there : trade.report legId status fillPrice fillQuantity nowNs = some reported) :
    ∃ final, final.legs = reported.legs ∧
      shield.updateLegStatus arbId legId status fillPrice fillQuantity nowNs =
        (some (reported.action nowNs), shield.keep arbId final) := by
  unfold LeggingRiskShield.updateLegStatus ArbTrade.action
  rw [found]
  dsimp only
  rw [there]
  dsimp only
  cases reported.shouldAbortTrade nowNs with
  | true => exact ⟨reported, rfl, rfl⟩
  | false =>
    cases reported.allLegsFilled with
    | true => exact ⟨{ reported with isComplete := true }, rfl, rfl⟩
    | false => exact ⟨reported, rfl, rfl⟩

theorem update_right (shield : LeggingRiskShield) (arbId legId : Nat) (status : LegStatus)
    (fillPrice : Option ℚ) (fillQuantity : ℚ) (nowNs : Nat) :
    (∀ verdict ∈ updateVerdicts arbId nowNs
        (shield.updateLegStatus arbId legId status fillPrice fillQuantity nowNs),
      verdict.Right) ↔
      ∀ trade ∈ shield.activeTrades.get arbId,
        ∀ reported ∈ trade.report legId status fillPrice fillQuantity nowNs,
          reported.Plain nowNs := by
  cases found : shield.activeTrades.get arbId with
  | none =>
    have answer : shield.updateLegStatus arbId legId status fillPrice fillQuantity nowNs =
        (none, shield) := by
      unfold LeggingRiskShield.updateLegStatus
      rw [found]
    rw [answer]
    exact iff_of_true nofun
      nofun
  | some trade =>
    cases there : trade.report legId status fillPrice fillQuantity nowNs with
    | none =>
      have answer : shield.updateLegStatus arbId legId status fillPrice fillQuantity nowNs =
          (none, shield) := by
        unfold LeggingRiskShield.updateLegStatus
        rw [found]
        dsimp only
        rw [there]
      rw [answer]
      refine iff_of_true nofun ?_
      intro other same reported member
      cases same
      rw [there] at member
      cases member
    | some reported =>
      obtain ⟨final, legs, answer⟩ := @updateLegStatus_found shield nowNs arbId legId status
        fillPrice fillQuantity trade reported found there
      have kept : (shield.keep arbId final).activeTrades.get arbId = some final := by
        unfold LeggingRiskShield.keep
        rw [Dict.get_put, if_pos rfl]
      rw [answer]
      unfold updateVerdicts
      rw [kept]
      simp only [List.mem_singleton, forall_eq, Option.mem_some, forall_eq', there]
      rw [right_of_legs legs, reported.right_iff_plain nowNs]

/-- One call leaves every decision right exactly when the trades are plain. -/
theorem step_right {session next : Session} {timed : TimedCall}
    (taken : step session timed = some next) : AllRight next ↔ SeenPlain session timed := by
  obtain ⟨nowNs, call⟩ := timed
  unfold step at taken
  split at taken
  · cases taken
  · cases taken
    unfold AllRight SeenPlain verdictsOf
    dsimp only
    cases call with
    | update arbId legId status fillPrice fillQuantity =>
      exact update_right session.shield arbId legId status fillPrice fillQuantity nowNs
    | monitor => exact monitor_right session.shield nowNs
    | create | abort | complete | setEnabled =>
      exact iff_of_true nofun trivial

/-- In every run on a new shield everything said of a trade is right if and only if at each report
and each look of the monitor the tests see the legs as they are. -/
theorem decisions_right_iff (maxConcurrent : Nat) (calls : List TimedCall) :
    Always step AllRight (.start maxConcurrent) calls ↔
      Guarded step SeenPlain (.start maxConcurrent) calls :=
  @always_iff_guarded _ _ step (fun _ => True) AllRight SeenPlain (fun _ _ _ _ _ => trivial)
    (fun _ _ _ _ _ taken => step_right taken) (.start maxConcurrent) trivial
    nofun calls

/-- A leg that is submitted as its trade is created, a second after the epoch. -/
def submittedLeg (legId : Nat) (symbol : String) (isBuy : Bool) (quantity : ℚ) : TradeLeg :=
  { TradeLeg.new legId 0 symbol isBuy quantity with
    status := .submitted
    submittedAtNs := 1000000000 }

/-- A trade of two submitted legs, of which one is filled and the other is reported cancelled. -/
def halfCancelled : List TimedCall :=
  [⟨1000000000, .create [submittedLeg 1 "BTC" true (1 / 10), submittedLeg 2 "ETH" false 1]⟩,
    ⟨1001000000, .update 1 1 .filled (some 50000) (1 / 10)⟩,
    ⟨1002000000, .update 1 2 .cancelled none 0⟩]

/-- A trade with a filled and a cancelled leg is left to continue. -/
theorem cancelled_leg_continues : ¬∀ (maxConcurrent : Nat) (calls : List TimedCall),
    Always step AllRight (.start maxConcurrent) calls := by
  intro claim
  refine @not_always_of_view _ _ step _ (fun session => session.verdicts.map fun verdict =>
    (verdict.action, verdict.trade.allLegsFilled, verdict.trade.anyLegLost verdict.nowNs))
    [(.continue_, false, true)] AllRight (.start 10) halfCancelled (by decide +kernel) ?_
    (claim 10 halfCancelled)
  intro final seen right
  have said : (LegAction.continue_, false, true) ∈ final.verdicts.map fun verdict =>
      (verdict.action, verdict.trade.allLegsFilled, verdict.trade.anyLegLost verdict.nowNs) :=
    seen ▸ List.mem_singleton_self _
  obtain ⟨verdict, member, shown⟩ := List.mem_map.mp said
  simp only [Prod.mk.injEq] at shown
  have kept := ((right verdict member).2.2.mp shown.1).2
  exact Bool.false_ne_true (kept.symm.trans shown.2.2)

end Runs

end LegDecisions

end TradingBot.Arbitrage
