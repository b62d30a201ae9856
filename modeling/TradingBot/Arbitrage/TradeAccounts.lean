import Mathlib.Algebra.Order.Ring.Nat
import TradingBot.Arbitrage.LegDecisions

/-!
# Accounts of the arbitrage trades

An abort and a completion answer what the shield said of their trade. The shield does not take an
aborted trade out of the active ones. It says of such a trade again that it is to be aborted, or
that it is complete, counts the second answer too, and the trade keeps its slot.
-/

open Run

namespace TradingBot.Arbitrage

namespace TradeAccounts

open LegDecisions

/-- A shield with the answers that were not acted on yet and the record of what was counted. A
cancellation is recorded as its trade with the position of the leg. -/
structure Session where
  shield : LeggingRiskShield
  clockNs : Nat
  answers : List (Nat × LegAction)
  completed : List Nat
  aborted : List Nat
  cancelled : List (Nat × Nat)

/-- A session of a new shield. -/
def Session.start (maxConcurrent : Nat) : Session := ⟨.new maxConcurrent, 0, [], [], [], []⟩

/-- What the shield says in a call. -/
def answersOf (shield : LeggingRiskShield) (timed : TimedCall) : List (Nat × LegAction) :=
  match timed.call with
  | .update arbId legId status fillPrice fillQuantity =>
    (shield.updateLegStatus arbId legId status fillPrice fillQuantity timed.nowNs).1.toList.map
      (arbId, ·)
  | .monitor => shield.monitorActiveTrades timed.nowNs
  | _ => []

/-- The answer that a call acts on. -/
def actsOn : ShieldCall → Option (Nat × LegAction)
  | .abort arbId => some (arbId, .abortTrade)
  | .complete arbId => some (arbId, .completeTrade)
  | _ => none

/-- Nothing is switched off, and an abort or a completion acts on an answer. -/
def permitted (session : Session) : ShieldCall → Bool
  | .setEnabled _ => false
  | call => (actsOn call).all fun answer => answer ∈ session.answers

/-- The legs that an abort counts as cancelled. -/
def cancelledLegs (shield : LeggingRiskShield) (arbId : Nat) : List (Nat × Nat) :=
  match shield.activeTrades.get arbId with
  | none => []
  | some trade =>
    (trade.legs.zipIdx.filter fun entry =>
      !entry.1.isFilled && entry.1.status ≠ .cancelled).map fun entry => (arbId, entry.2)

/-- The trade a call is about, if it is active. -/
def countedTrade (shield : LeggingRiskShield) (arbId : Nat) : List Nat :=
  (shield.activeTrades.get arbId).toList.map fun _ => arbId

/-- The session after a call on its shield. -/
def performed (session : Session) (timed : TimedCall) : Session where
  shield := shieldAfter session.shield timed
  clockNs := timed.nowNs
  answers := (actsOn timed.call).toList.foldl List.erase session.answers ++
    answersOf session.shield timed
  completed := session.completed ++
    match timed.call with
    | .complete arbId => countedTrade session.shield arbId
    | _ => []
  aborted := session.aborted ++
    match timed.call with
    | .abort arbId => countedTrade session.shield arbId
    | _ => []
  cancelled := session.cancelled ++
    match timed.call with
    | .abort arbId => cancelledLegs session.shield arbId
    | _ => []

/-- A session after a call; the clock does not go back and is not before a submission. -/
def step (session : Session) (timed : TimedCall) : Option Session :=
  if timed.nowNs < session.clockNs || !inTime timed || !permitted session timed.call then none
  else some (performed session timed)

/-- A trade counts as live if it is not aborted. -/
def liveWeight (trade : ArbTrade) : Nat := if trade.isAborted then 0 else 1

/-- The number of trades that are not aborted. -/
def live (trades : Dict Nat ArbTrade) : Nat := (trades.values.map liveWeight).sum

/-- The counters of a shield fit its trades: every trade is live or has one outcome, no leg is
cancelled twice, and when no trade is live a new one is taken. -/
structure Consistent (session : Session) : Prop where
  accounted : session.shield.totalArbsInitiated = session.shield.successfulCompletions +
    session.shield.abortedTrades + live session.shield.activeTrades
  completions : session.shield.successfulCompletions = session.completed.length
  aborts : session.shield.abortedTrades = session.aborted.length
  once : (session.completed ++ session.aborted).Nodup
  cancellations : session.shield.cancellationsExecuted = session.cancelled.length
  legsOnce : session.cancelled.Nodup
  again : 1 ≤ session.shield.maxConcurrentArbs →
    (∀ trade ∈ session.shield.activeTrades.values, trade.isAborted = true) →
      ∀ legs, (session.shield.createArbTrade legs).1.isSome = true

/-- An abort or a completion of an active trade finds it not aborted yet, and an abort comes while
a slot is free or a second trade is live. -/
def Proper (session : Session) (timed : TimedCall) : Prop :=
  match timed.call with
  | .abort arbId => ∀ trade ∈ session.shield.activeTrades.get arbId, trade.isAborted = false ∧
      (session.shield.activeTrades.size < session.shield.maxConcurrentArbs ∨
        1 < live session.shield.activeTrades)
  | .complete arbId => ∀ trade ∈ session.shield.activeTrades.get arbId, trade.isAborted = false
  | _ => True

instance (session : Session) : DecidablePred (Proper session) := fun timed =>
  match timed with
  | ⟨_, .abort _⟩ => inferInstanceAs (Decidable (∀ trade ∈ Dict.get _ _, _))
  | ⟨_, .complete _⟩ => inferInstanceAs (Decidable (∀ trade ∈ Dict.get _ _, _))
  | ⟨_, .create _⟩ | ⟨_, .update ..⟩ | ⟨_, .monitor⟩ | ⟨_, .setEnabled _⟩ =>
    inferInstanceAs (Decidable True)

/-- What every call keeps of a shield whose aborts and completions are proper. -/
structure Kept (session : Session) : Prop where
  enabled : session.shield.enabled = true
  small : session.shield.activeTrades.size ≤ session.shield.maxConcurrentArbs
  activeKnown : ∀ arbId trade, session.shield.activeTrades.get arbId = some trade →
    arbId < session.shield.nextArbId
  completedKnown : ∀ arbId ∈ session.completed, arbId < session.shield.nextArbId
  abortedKnown : ∀ arbId ∈ session.aborted, arbId < session.shield.nextArbId
  completedGone : ∀ arbId ∈ session.completed, session.shield.activeTrades.get arbId = none
  marked : ∀ arbId trade, session.shield.activeTrades.get arbId = some trade →
    (trade.isAborted = true ↔ arbId ∈ session.aborted)
  cancelledAborted : ∀ leg ∈ session.cancelled, leg.1 ∈ session.aborted

/-! ## Calls -/

section Calls

variable {shield : LeggingRiskShield} {arbId : Nat} {trade : ArbTrade}

theorem create_free (enabled : shield.enabled = true)
    (free : shield.activeTrades.size < shield.maxConcurrentArbs) (legs : List TradeLeg) :
    ∃ taken, taken.isAborted = false ∧ shield.createArbTrade legs = (some shield.nextArbId,
      { shield with
        activeTrades := shield.activeTrades.put shield.nextArbId taken
        nextArbId := shield.nextArbId + 1
        totalArbsInitiated := shield.totalArbsInitiated + 1 }) := by
  have switched : ¬ (!shield.enabled) = true := by rw [enabled]; decide
  have room : ¬ shield.maxConcurrentArbs ≤ shield.activeTrades.size := Nat.not_le.mpr free
  refine ⟨ArbTrade.new shield.nextArbId
    (legs.map fun leg => { leg with arbId := shield.nextArbId }), rfl, ?_⟩
  unfold LeggingRiskShield.createArbTrade
  rw [if_neg switched, if_neg room]

theorem create_full (full : shield.maxConcurrentArbs ≤ shield.activeTrades.size)
    (legs : List TradeLeg) : shield.createArbTrade legs = (none, shield) := by
  unfold LeggingRiskShield.createArbTrade
  rw [if_pos full, ite_self]

theorem create_isSome (enabled : shield.enabled = true) (legs : List TradeLeg) :
    (shield.createArbTrade legs).1.isSome = true ↔
      shield.activeTrades.size < shield.maxConcurrentArbs := by
  by_cases free : shield.activeTrades.size < shield.maxConcurrentArbs
  · obtain ⟨taken, -, created⟩ := create_free enabled free legs
    rw [created]
    exact iff_of_true rfl free
  · rw [create_full (Nat.not_lt.mp free)]
    exact iff_of_false Bool.false_ne_true free

/-- An update is refused or stores one trade that aborts as before. -/
theorem update_cases (shield : LeggingRiskShield) (arbId legId : Nat) (status : LegStatus)
    (fillPrice : Option ℚ) (fillQuantity : ℚ) (nowNs : Nat) :
    (shield.updateLegStatus arbId legId status fillPrice fillQuantity nowNs).2 = shield ∨
      ∃ trade final, shield.activeTrades.get arbId = some trade ∧
        final.isAborted = trade.isAborted ∧
        (shield.updateLegStatus arbId legId status fillPrice fillQuantity nowNs).2 =
          shield.keep arbId final := by
  unfold LeggingRiskShield.updateLegStatus
  cases found : shield.activeTrades.get arbId with
  | none => exact .inl rfl
  | some trade =>
    dsimp only
    cases there : trade.report legId status fillPrice fillQuantity nowNs with
    | none => exact .inl rfl
    | some reported =>
      obtain ⟨legs, -, rfl⟩ := Option.map_eq_some_iff.mp there
      dsimp only
      refine .inr ⟨trade, ?_⟩
      split
      · refine ⟨_, rfl, ?_, rfl⟩
        rfl
      · split
        · refine ⟨_, rfl, ?_, rfl⟩
          rfl
        · refine ⟨_, rfl, ?_, rfl⟩
          rfl

theorem abort_active (found : shield.activeTrades.get arbId = some trade) :
    ∃ failures, (shield.abortTrade arbId).2 =
      { shield with
        activeTrades := shield.activeTrades.put arbId { trade with isAborted := true }
        abortedTrades := shield.abortedTrades + 1
        cancellationsExecuted := shield.cancellationsExecuted + (cancelledLegs shield arbId).length
        legFailures := shield.legFailures + failures } := by
  have open_ : (trade.legs.filter fun leg => !leg.isFilled && leg.status ≠ .cancelled).length =
      (cancelledLegs shield arbId).length := by
    unfold cancelledLegs
    rw [found]
    dsimp only
    rw [List.length_map]
    conv_lhs => rw [← List.zipIdx_map_fst 0 trade.legs, List.filter_map, List.length_map]
    rfl
  unfold LeggingRiskShield.abortTrade
  rw [found]
  dsimp only
  rw [List.length_map, open_]
  exact ⟨_, rfl⟩

theorem abort_absent (absent : shield.activeTrades.get arbId = none) :
    (shield.abortTrade arbId).2 = shield ∧ (shield.completeTrade arbId).2 = shield := by
  unfold LeggingRiskShield.abortTrade LeggingRiskShield.completeTrade
  rw [absent]
  exact ⟨rfl, rfl⟩

theorem complete_active (found : shield.activeTrades.get arbId = some trade) :
    (shield.completeTrade arbId).2 =
      { shield with
        activeTrades := shield.activeTrades.pop arbId
        successfulCompletions := shield.successfulCompletions + 1 } := by
  unfold LeggingRiskShield.completeTrade
  rw [found]

theorem mem_cancelledLegs {leg : Nat × Nat} (member : leg ∈ cancelledLegs shield arbId) :
    leg.1 = arbId ∧ ∃ trade, shield.activeTrades.get arbId = some trade := by
  unfold cancelledLegs at member
  cases found : shield.activeTrades.get arbId with
  | none =>
    rw [found] at member
    cases member
  | some trade =>
    rw [found] at member
    obtain ⟨entry, -, rfl⟩ := List.mem_map.mp member
    exact ⟨rfl, trade, rfl⟩

theorem nodup_cancelledLegs (shield : LeggingRiskShield) (arbId : Nat) :
    (cancelledLegs shield arbId).Nodup := by
  unfold cancelledLegs
  cases shield.activeTrades.get arbId with
  | none => exact List.nodup_nil
  | some trade =>
    have positions : (trade.legs.zipIdx.map Prod.snd).Nodup := by
      rw [List.zipIdx_map_snd]
      exact List.nodup_range'
    dsimp only
    rw [← Function.comp_def, ← List.map_map]
    refine List.Nodup.map (Prod.mk_right_injective arbId) ?_
    exact positions.sublist (List.filter_sublist.map Prod.snd)

end Calls

/-! ## Live trades -/

section Live

variable {trades : Dict Nat ArbTrade} {arbId : Nat} {trade final : ArbTrade}

theorem live_eq_zero : live trades = 0 ↔ ∀ trade ∈ trades.values, trade.isAborted = true := by
  unfold live
  rw [List.sum_eq_zero_iff_forall_eq_nat, List.forall_mem_map]
  refine forall_congr' fun trade => forall_congr' fun _ => ?_
  unfold liveWeight
  cases trade.isAborted <;> decide

theorem liveWeight_running (running : trade.isAborted = false) : liveWeight trade = 1 := by
  unfold liveWeight
  rw [running]
  rfl

theorem live_put_fresh (fresh : trades.get arbId = none) (running : trade.isAborted = false) :
    live (trades.put arbId trade) = live trades + 1 := by
  have weight := liveWeight_running running
  unfold live
  rw [Dict.values_put_fresh trade fresh, List.map_append, List.sum_append, List.map_singleton,
    List.sum_singleton, weight]

section

variable (found : trades.get arbId = some trade)
include found

theorem live_put_same (same : final.isAborted = trade.isAborted) :
    live (trades.put arbId final) = live trades := by
  have changed := Dict.sum_put liveWeight found final
  have weight : liveWeight final = liveWeight trade := by
    unfold liveWeight
    rw [same]
  unfold live
  omega

theorem live_put_aborted :
    live (trades.put arbId { trade with isAborted := true }) + liveWeight trade = live trades := by
  have changed := Dict.sum_put liveWeight found { trade with isAborted := true }
  have weight : liveWeight { trade with isAborted := true } = 0 := rfl
  unfold live
  omega

theorem live_pop : live (trades.pop arbId) + liveWeight trade = live trades := by
  have split := Dict.sum_pop (fun entry => liveWeight entry.2) found
  have values : ∀ dict : Dict Nat ArbTrade,
      live dict = (dict.entries.map fun entry => liveWeight entry.2).sum := fun dict => by
    unfold live Dict.values
    rw [List.map_map]
    rfl
  rw [values, values, split]

theorem size_pos : 0 < trades.size :=
  List.length_pos_of_mem (Dict.get_eq_some.mp found)

theorem size_put_there (final : ArbTrade) : (trades.put arbId final).size = trades.size := by
  rw [Dict.size_put, found]
  rfl

end

end Live

/-! ## Runs -/

section Runs

variable {session next : Session} {timed : TimedCall} {nowNs arbId : Nat} {trade : ArbTrade}

/-- A call that is permitted is taken. -/
theorem step_eq_some : step session timed = some next →
    permitted session timed.call = true ∧ performed session timed = next := by
  unfold step
  split
  · intro refused
    cases refused
  · next allowed =>
    intro taken
    refine ⟨?_, Option.some.inj taken⟩
    simp only [Bool.or_eq_true, Bool.not_eq_true', not_or, Bool.not_eq_false] at allowed
    exact allowed.2

/-- When aborted trades leave a slot for a new one. -/
theorem again_iff {shield : LeggingRiskShield} (enabled : shield.enabled = true) :
    (1 ≤ shield.maxConcurrentArbs →
      (∀ trade ∈ shield.activeTrades.values, trade.isAborted = true) →
        ∀ legs, (shield.createArbTrade legs).1.isSome = true) ↔
      (1 ≤ shield.maxConcurrentArbs → live shield.activeTrades = 0 →
        shield.activeTrades.size < shield.maxConcurrentArbs) := by
  rw [live_eq_zero]
  refine forall_congr' fun _ => forall_congr' fun _ => ?_
  constructor
  · exact fun taken => (create_isSome enabled []).mp (taken [])
  · exact fun free legs => (create_isSome enabled legs).mpr free

theorem next_fresh (kept : Kept session) :
    session.shield.activeTrades.get session.shield.nextArbId = none := by
  cases found : session.shield.activeTrades.get session.shield.nextArbId with
  | none => rfl
  | some trade => exact absurd (kept.activeKnown _ trade found) (Nat.lt_irrefl _)

theorem create_kept (kept : Kept session) (holds : Consistent session) (legs : List TradeLeg) :
    Kept (performed session ⟨nowNs, .create legs⟩) ∧
      Consistent (performed session ⟨nowNs, .create legs⟩) := by
  have lists : performed session ⟨nowNs, .create legs⟩ =
      { session with
        shield := (session.shield.createArbTrade legs).2
        clockNs := nowNs } := by
    simp only [performed, answersOf, actsOn, shieldAfter, List.append_nil, Option.toList_none,
      List.foldl_nil]
  rw [lists]
  by_cases free : session.shield.activeTrades.size < session.shield.maxConcurrentArbs
  · obtain ⟨taken, running, created⟩ := create_free kept.enabled free legs
    have fresh := next_fresh kept
    have more := live_put_fresh fresh running
    have grown : (session.shield.activeTrades.put session.shield.nextArbId taken).size =
        session.shield.activeTrades.size + 1 := by
      rw [Dict.size_put, fresh]
      rfl
    rw [created]
    constructor
    · refine ⟨kept.enabled, ?_, ?_, ?_, ?_, ?_, ?_, kept.cancelledAborted⟩
      · show (session.shield.activeTrades.put _ taken).size ≤ session.shield.maxConcurrentArbs
        omega
      · refine (Dict.forall_put fun other found there => ?_).mpr (Nat.lt_succ_self _)
        exact Nat.lt_succ_of_lt (kept.activeKnown other found there)
      · exact fun other member => Nat.lt_succ_of_lt (kept.completedKnown other member)
      · exact fun other member => Nat.lt_succ_of_lt (kept.abortedKnown other member)
      · intro other member
        refine Dict.get_put_eq_none.mpr ⟨?_, kept.completedGone other member⟩
        rintro rfl
        exact absurd (kept.completedKnown _ member) (Nat.lt_irrefl _)
      · refine (Dict.forall_put kept.marked).mpr ?_
        refine iff_of_false (by rw [running]; decide) fun member => ?_
        exact absurd (kept.abortedKnown _ member) (Nat.lt_irrefl _)
    · refine ⟨?_, holds.completions, holds.aborts, holds.once, holds.cancellations, holds.legsOnce,
        (again_iff (by exact kept.enabled)).mpr fun _ none_ => ?_⟩
      · have before := holds.accounted
        show session.shield.totalArbsInitiated + 1 = session.shield.successfulCompletions +
          session.shield.abortedTrades + live (session.shield.activeTrades.put _ taken)
        omega
      · have none_ : live (session.shield.activeTrades.put _ taken) = 0 := none_
        omega
  · rw [create_full (Nat.not_lt.mp free)]
    exact ⟨⟨kept.enabled, kept.small, kept.activeKnown, kept.completedKnown, kept.abortedKnown,
        kept.completedGone, kept.marked, kept.cancelledAborted⟩,
      ⟨holds.accounted, holds.completions, holds.aborts, holds.once, holds.cancellations,
        holds.legsOnce, holds.again⟩⟩

theorem quiet_kept (kept : Kept session) (holds : Consistent session)
    (clockNs : Nat) (answers : List (Nat × LegAction)) :
    Kept { session with clockNs, answers } ∧ Consistent { session with clockNs, answers } :=
  ⟨⟨kept.enabled, kept.small, kept.activeKnown, kept.completedKnown, kept.abortedKnown,
      kept.completedGone, kept.marked, kept.cancelledAborted⟩,
    ⟨holds.accounted, holds.completions, holds.aborts, holds.once, holds.cancellations,
      holds.legsOnce, holds.again⟩⟩

theorem keep_kept (kept : Kept session) (holds : Consistent session)
    (found : session.shield.activeTrades.get arbId = some trade) {final : ArbTrade}
    (same : final.isAborted = trade.isAborted) :
    Kept { session with shield := session.shield.keep arbId final } ∧
      Consistent { session with shield := session.shield.keep arbId final } := by
  have slots := size_put_there found final
  have counted := live_put_same found same
  constructor
  · refine ⟨kept.enabled, ?_, ?_, kept.completedKnown, kept.abortedKnown, ?_, ?_,
      kept.cancelledAborted⟩
    · exact slots ▸ kept.small
    · exact (Dict.forall_put kept.activeKnown).mpr (kept.activeKnown arbId trade found)
    · exact fun other member =>
        (Dict.get_replace_eq_none found).mpr (kept.completedGone other member)
    · refine (Dict.forall_put kept.marked).mpr ?_
      rw [same]
      exact kept.marked arbId trade found
  · refine ⟨?_, holds.completions, holds.aborts, holds.once, holds.cancellations, holds.legsOnce,
      (again_iff (by exact kept.enabled)).mpr ?_⟩
    · exact counted ▸ holds.accounted
    · have before := (again_iff kept.enabled).mp holds.again
      show 1 ≤ session.shield.maxConcurrentArbs →
        live (session.shield.activeTrades.put arbId final) = 0 →
          (session.shield.activeTrades.put arbId final).size < session.shield.maxConcurrentArbs
      rw [slots, counted]
      exact before

theorem performed_abort (found : session.shield.activeTrades.get arbId = some trade) :
    ∃ failures answers, performed session ⟨nowNs, .abort arbId⟩ =
      { session with
        shield := { session.shield with
          activeTrades := session.shield.activeTrades.put arbId { trade with isAborted := true }
          abortedTrades := session.shield.abortedTrades + 1
          cancellationsExecuted := session.shield.cancellationsExecuted +
            (cancelledLegs session.shield arbId).length
          legFailures := session.shield.legFailures + failures }
        clockNs := nowNs
        answers := answers
        aborted := session.aborted ++ [arbId]
        cancelled := session.cancelled ++ cancelledLegs session.shield arbId } := by
  obtain ⟨failures, aborted⟩ := abort_active found
  refine ⟨failures, (performed session ⟨nowNs, .abort arbId⟩).answers, ?_⟩
  simp only [performed, shieldAfter, countedTrade, aborted, found, Option.toList_some,
    List.map_singleton, List.append_nil]

theorem performed_complete (found : session.shield.activeTrades.get arbId = some trade) :
    ∃ answers, performed session ⟨nowNs, .complete arbId⟩ =
      { session with
        shield := { session.shield with
          activeTrades := session.shield.activeTrades.pop arbId
          successfulCompletions := session.shield.successfulCompletions + 1 }
        clockNs := nowNs
        answers := answers
        completed := session.completed ++ [arbId] } := by
  have completed := complete_active found
  refine ⟨(performed session ⟨nowNs, .complete arbId⟩).answers, ?_⟩
  simp only [performed, shieldAfter, countedTrade, completed, found, Option.toList_some,
    List.map_singleton, List.append_nil]

theorem performed_absent (absent : session.shield.activeTrades.get arbId = none) :
    (∃ answers, performed session ⟨nowNs, .abort arbId⟩ =
      { session with clockNs := nowNs, answers := answers }) ∧
    ∃ answers, performed session ⟨nowNs, .complete arbId⟩ =
      { session with clockNs := nowNs, answers := answers } := by
  have unchanged := abort_absent absent
  refine ⟨⟨(performed session ⟨nowNs, .abort arbId⟩).answers, ?_⟩,
    ⟨(performed session ⟨nowNs, .complete arbId⟩).answers, ?_⟩⟩
  · simp only [performed, shieldAfter, countedTrade, cancelledLegs, unchanged.1, absent,
      Option.toList_none, List.map_nil, List.append_nil]
  · simp only [performed, shieldAfter, countedTrade, unchanged.2, absent, Option.toList_none,
      List.map_nil, List.append_nil]

theorem abort_kept (kept : Kept session)
    (found : session.shield.activeTrades.get arbId = some trade) :
    Kept (performed session ⟨nowNs, .abort arbId⟩) := by
  obtain ⟨failures, answers, whole⟩ := @performed_abort session nowNs arbId trade found
  have known := kept.activeKnown arbId trade found
  rw [whole]
  refine ⟨kept.enabled, ?_, ?_, kept.completedKnown, ?_, ?_, ?_, ?_⟩
  · exact size_put_there found _ ▸ kept.small
  · exact (Dict.forall_put kept.activeKnown).mpr known
  · intro other member
    obtain before | here := List.mem_append.mp member
    · exact kept.abortedKnown other before
    · exact List.mem_singleton.mp here ▸ known
  · exact fun other member =>
      (Dict.get_replace_eq_none found).mpr (kept.completedGone other member)
  · intro other final there
    rw [List.mem_append, List.mem_singleton]
    obtain ⟨rfl, rfl⟩ | ⟨differs, before⟩ := Dict.get_put_eq_some.mp there
    · exact iff_of_true rfl (.inr rfl)
    · exact (kept.marked other final before).trans (or_iff_left differs).symm
  · intro leg member
    obtain before | here := List.mem_append.mp member
    · exact List.mem_append_left _ (kept.cancelledAborted leg before)
    · exact List.mem_append_right _ (List.mem_singleton.mpr (mem_cancelledLegs here).1)

theorem abort_first_consistent (kept : Kept session) (holds : Consistent session)
    (found : session.shield.activeTrades.get arbId = some trade)
    (first : trade.isAborted = false)
    (room : session.shield.activeTrades.size < session.shield.maxConcurrentArbs ∨
      1 < live session.shield.activeTrades) :
    Consistent (performed session ⟨nowNs, .abort arbId⟩) := by
  obtain ⟨failures, answers, whole⟩ := @performed_abort session nowNs arbId trade found
  have marked := kept.marked arbId trade found
  have slots := size_put_there found { trade with isAborted := true }
  have counted := live_put_aborted found
  have weight := liveWeight_running first
  have accounted := holds.accounted
  have fresh : arbId ∉ session.aborted := fun member => by
    rw [marked.mpr member] at first
    cases first
  rw [whole]
  refine ⟨?_, holds.completions, ?_, ?_, ?_, ?_, (again_iff (by exact kept.enabled)).mpr ?_⟩
  · show session.shield.totalArbsInitiated = session.shield.successfulCompletions +
      (session.shield.abortedTrades + 1) + live (session.shield.activeTrades.put arbId _)
    omega
  · show session.shield.abortedTrades + 1 = (session.aborted ++ [arbId]).length
    rw [holds.aborts, List.length_append, List.length_singleton]
  · show (session.completed ++ (session.aborted ++ [arbId])).Nodup
    rw [← List.append_assoc]
    refine holds.once.append (List.nodup_singleton arbId) ?_
    rw [List.disjoint_singleton]
    intro member
    obtain done | member := List.mem_append.mp member
    · have gone := kept.completedGone arbId done
      rw [found] at gone
      cases gone
    · exact fresh member
  · show session.shield.cancellationsExecuted + (cancelledLegs session.shield arbId).length =
      (session.cancelled ++ cancelledLegs session.shield arbId).length
    rw [holds.cancellations, List.length_append]
  · refine holds.legsOnce.append (nodup_cancelledLegs session.shield arbId) ?_
    intro leg before here
    exact fresh ((mem_cancelledLegs here).1 ▸ kept.cancelledAborted leg before)
  · show 1 ≤ session.shield.maxConcurrentArbs →
      live (session.shield.activeTrades.put arbId { trade with isAborted := true }) = 0 →
        (session.shield.activeTrades.put arbId { trade with isAborted := true }).size <
          session.shield.maxConcurrentArbs
    omega

theorem abort_consistent (kept : Kept session) (holds : Consistent session)
    (found : session.shield.activeTrades.get arbId = some trade) :
    Consistent (performed session ⟨nowNs, .abort arbId⟩) ↔ trade.isAborted = false ∧
      (session.shield.activeTrades.size < session.shield.maxConcurrentArbs ∨
        1 < live session.shield.activeTrades) := by
  refine ⟨fun after => ?_, fun ⟨first, room⟩ =>
    abort_first_consistent kept holds found first room⟩
  obtain ⟨failures, answers, whole⟩ := @performed_abort session nowNs arbId trade found
  rw [whole] at after
  have once : arbId ∉ session.aborted := by
    have apart := (List.nodup_append.mp after.once).2.1
    rw [List.nodup_append] at apart
    intro member
    exact apart.2.2 arbId member arbId List.mem_cons_self rfl
  have first : trade.isAborted = false :=
    Bool.eq_false_iff.mpr (mt (kept.marked arbId trade found).mp once)
  have slots := size_put_there found { trade with isAborted := true }
  have counted := live_put_aborted found
  have filled := size_pos found
  have small := kept.small
  have weight := liveWeight_running first
  have again : 1 ≤ session.shield.maxConcurrentArbs →
      live (session.shield.activeTrades.put arbId { trade with isAborted := true }) = 0 →
        (session.shield.activeTrades.put arbId { trade with isAborted := true }).size <
          session.shield.maxConcurrentArbs :=
    (again_iff (by exact kept.enabled)).mp after.again
  exact ⟨first, by omega⟩

theorem complete_kept (kept : Kept session)
    (found : session.shield.activeTrades.get arbId = some trade) :
    Kept (performed session ⟨nowNs, .complete arbId⟩) := by
  obtain ⟨answers, whole⟩ := @performed_complete session nowNs arbId trade found
  have left : ∀ other final, (session.shield.activeTrades.pop arbId).get other = some final →
      session.shield.activeTrades.get other = some final := by
    intro other final there
    rw [Dict.get_pop] at there
    split at there
    · cases there
    · exact there
  have slots : (session.shield.activeTrades.pop arbId).size ≤ session.shield.activeTrades.size := by
    rw [Dict.size_pop, found]
    exact Nat.sub_le _ _
  rw [whole]
  refine ⟨kept.enabled, slots.trans kept.small, ?_, ?_, kept.abortedKnown, ?_, ?_,
    kept.cancelledAborted⟩
  · exact fun other final there => kept.activeKnown other final (left other final there)
  · intro other member
    obtain before | here := List.mem_append.mp member
    · exact kept.completedKnown other before
    · exact List.mem_singleton.mp here ▸ kept.activeKnown arbId trade found
  · intro other member
    show (session.shield.activeTrades.pop arbId).get other = none
    rw [Dict.get_pop]
    obtain before | here := List.mem_append.mp member
    · rw [kept.completedGone other before, ite_self]
    · rw [if_pos (List.mem_singleton.mp here)]
  · exact fun other final there => kept.marked other final (left other final there)

theorem complete_consistent (kept : Kept session) (holds : Consistent session)
    (found : session.shield.activeTrades.get arbId = some trade) :
    Consistent (performed session ⟨nowNs, .complete arbId⟩) ↔ trade.isAborted = false := by
  obtain ⟨answers, whole⟩ := @performed_complete session nowNs arbId trade found
  have marked := kept.marked arbId trade found
  have counted := live_pop found
  have filled := size_pos found
  have small := kept.small
  have accounted := holds.accounted
  have slots : (session.shield.activeTrades.pop arbId).size =
      session.shield.activeTrades.size - 1 := by
    rw [Dict.size_pop, found]
    rfl
  rw [whole]
  constructor
  · intro after
    have apart := (List.nodup_append.mp after.once).2.2
    refine Bool.eq_false_iff.mpr fun aborted => ?_
    have here : arbId ∈ session.completed ++ [arbId] :=
      List.mem_append_right _ List.mem_cons_self
    exact apart arbId here arbId (marked.mp aborted) rfl
  · intro running
    have weight := liveWeight_running running
    refine ⟨?_, ?_, holds.aborts, ?_, holds.cancellations, holds.legsOnce,
      (again_iff (by exact kept.enabled)).mpr ?_⟩
    · show session.shield.totalArbsInitiated = session.shield.successfulCompletions + 1 +
        session.shield.abortedTrades + live (session.shield.activeTrades.pop arbId)
      omega
    · show session.shield.successfulCompletions + 1 = (session.completed ++ [arbId]).length
      rw [holds.completions, List.length_append, List.length_singleton]
    · show (session.completed ++ [arbId] ++ session.aborted).Nodup
      rw [List.append_assoc, List.singleton_append, List.nodup_middle, List.nodup_cons]
      refine ⟨fun member => ?_, holds.once⟩
      obtain done | aborted := List.mem_append.mp member
      · have gone := kept.completedGone arbId done
        rw [found] at gone
        cases gone
      · rw [marked.mpr aborted] at running
        cases running
    · show 1 ≤ session.shield.maxConcurrentArbs →
        live (session.shield.activeTrades.pop arbId) = 0 →
          (session.shield.activeTrades.pop arbId).size < session.shield.maxConcurrentArbs
      omega

theorem update_kept (kept : Kept session) (holds : Consistent session) (legId : Nat)
    (status : LegStatus) (fillPrice : Option ℚ) (fillQuantity : ℚ) :
    Kept (performed session ⟨nowNs, .update arbId legId status fillPrice fillQuantity⟩) ∧
      Consistent
        (performed session ⟨nowNs, .update arbId legId status fillPrice fillQuantity⟩) := by
  let timed : TimedCall := ⟨nowNs, .update arbId legId status fillPrice fillQuantity⟩
  have same : performed session timed = { session with
      shield := (session.shield.updateLegStatus arbId legId status fillPrice fillQuantity nowNs).2
      clockNs := nowNs
      answers := session.answers ++ answersOf session.shield timed } := by
    simp only [timed, performed, shieldAfter, actsOn, Option.toList_none, List.foldl_nil,
      List.append_nil]
  show Kept (performed session timed) ∧ Consistent (performed session timed)
  have changes := update_cases session.shield arbId legId status fillPrice fillQuantity nowNs
  rw [same]
  obtain unchanged | ⟨trade, final, found, mark, changed⟩ := changes
  · rw [unchanged]
    exact quiet_kept kept holds nowNs _
  · rw [changed]
    obtain ⟨keptAfter, holdsAfter⟩ := keep_kept kept holds found mark
    exact quiet_kept keptAfter holdsAfter nowNs _

theorem performed_monitor (session : Session) (nowNs : Nat) :
    performed session ⟨nowNs, .monitor⟩ = { session with
      clockNs := nowNs
      answers := session.answers ++ session.shield.monitorActiveTrades nowNs } := by
  simp only [performed, shieldAfter, answersOf, actsOn, Option.toList_none, List.foldl_nil,
    List.append_nil]

theorem quiet_exact (kept : Kept session) (holds : Consistent session) {clockNs : Nat}
    {answers : List (Nat × LegAction)}
    (same : performed session timed = { session with clockNs := clockNs, answers := answers })
    (proper : Proper session timed) :
    Kept (performed session timed) ∧
      (Consistent (performed session timed) ↔ Proper session timed) := by
  have after := quiet_kept kept holds clockNs answers
  rw [same]
  exact ⟨after.1, iff_of_true after.2 proper⟩

/-- One call keeps the accounts exactly when it is proper. -/
theorem step_exact (kept : Kept session) (holds : Consistent session)
    (taken : step session timed = some next) :
    Kept next ∧ (Consistent next ↔ Proper session timed) := by
  obtain ⟨allowed, rfl⟩ := step_eq_some taken
  obtain ⟨nowNs, call⟩ := timed
  cases call with
  | setEnabled enabled => exact absurd allowed Bool.false_ne_true
  | create legs =>
    have after := @create_kept session nowNs kept holds legs
    exact ⟨after.1, iff_of_true after.2 trivial⟩
  | monitor =>
    exact quiet_exact kept holds (performed_monitor session nowNs) trivial
  | update arbId legId status fillPrice fillQuantity =>
    have after := @update_kept session nowNs arbId kept holds legId status fillPrice fillQuantity
    exact ⟨after.1, iff_of_true after.2 trivial⟩
  | abort arbId =>
    cases found : session.shield.activeTrades.get arbId with
    | none =>
      obtain ⟨⟨answers, same⟩, -⟩ := @performed_absent session nowNs arbId found
      refine quiet_exact kept holds same fun trade there => ?_
      rw [found] at there
      cases there
    | some trade =>
      refine ⟨abort_kept kept found, (abort_consistent kept holds found).trans ?_⟩
      show _ ↔ ∀ other ∈ session.shield.activeTrades.get arbId, _
      rw [found]
      simp only [Option.mem_some_iff, forall_eq']
  | complete arbId =>
    cases found : session.shield.activeTrades.get arbId with
    | none =>
      obtain ⟨-, answers, same⟩ := @performed_absent session nowNs arbId found
      refine quiet_exact kept holds same fun trade there => ?_
      rw [found] at there
      cases there
    | some trade =>
      refine ⟨complete_kept kept found, (complete_consistent kept holds found).trans ?_⟩
      show _ ↔ ∀ other ∈ session.shield.activeTrades.get arbId, _
      rw [found]
      simp only [Option.mem_some_iff, forall_eq']

theorem start_kept (maxConcurrent : Nat) :
    Kept (.start maxConcurrent) ∧ Consistent (.start maxConcurrent) := by
  constructor
  · exact ⟨rfl, Nat.zero_le _, nofun, nofun, nofun, nofun, nofun, nofun⟩
  · exact ⟨rfl, rfl, rfl, List.nodup_nil, rfl, List.nodup_nil,
      (again_iff (by rfl)).mpr fun free _ => free⟩

/-- In every run on a new shield the counters fit the trades in every state if and only if every
abort and every completion of an active trade is the first answer to it that is acted on, and every
abort comes while a slot is free or a second trade is live. -/
theorem accounts_iff (maxConcurrent : Nat) (calls : List TimedCall) :
    Always step Consistent (.start maxConcurrent) calls ↔
      Guarded step Proper (.start maxConcurrent) calls := by
  obtain ⟨kept, holds⟩ := start_kept maxConcurrent
  refine @always_iff_guarded_of _ _ step Kept Consistent (fun _ _ => True) Proper ?_ ?_ _ kept holds
    calls (guarded_of_forall (fun _ _ => trivial) _)
  · exact fun _ _ _ kept holds _ _ taken => (step_exact kept holds taken).1
  · exact fun _ _ _ kept holds _ taken => (step_exact kept holds taken).2

/-- A trade whose leg fails is aborted, and the monitor says of it again that it is to be. -/
def abortedAgain : List TimedCall :=
  [⟨1000000000, .create [.new 1 0 "BTC" true 1]⟩, ⟨1001000000, .update 1 1 .failed none 0⟩,
    ⟨1002000000, .abort 1⟩, ⟨1003000000, .monitor⟩, ⟨1004000000, .abort 1⟩]

/-- One trade is counted as two aborted ones. -/
theorem trade_aborted_twice : ¬∀ (maxConcurrent : Nat) (calls : List TimedCall),
    Always step Consistent (.start maxConcurrent) calls := by
  intro claim
  refine @not_always_of_view _ _ step _ (fun session =>
    (session.shield.totalArbsInitiated, session.shield.abortedTrades)) (1, 2) Consistent (.start 10)
    abortedAgain (by decide +kernel) ?_ (claim 10 abortedAgain)
  intro final seen holds
  have total : final.shield.totalArbsInitiated = 1 := congrArg Prod.fst seen
  have twice : final.shield.abortedTrades = 2 := congrArg Prod.snd seen
  have accounted := holds.accounted
  omega

end Runs

end TradeAccounts

end TradingBot.Arbitrage
