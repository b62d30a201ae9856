import TradingBot.Oms.BracketOrder

/-!
# How far a bracket has come

The calls of one thread after another. The state of a bracket moves on only as a side effect of the
calls that set an identifier or execute an exit, so it is to be compared with the identifiers and
with what the last call returned.
-/

open Interleaving Run

namespace TradingBot.Brackets

/-! ## Calls that run alone -/

/-- A call that no other call interrupts, for a number of steps. -/
def finish : Nat → BracketOrder → BracketCall → BracketOrder × BracketCall
  | 0, bracket, call => (bracket, call)
  | steps + 1, bracket, call =>
    match next bracket call with
    | none => (bracket, call)
    | some (after, later) => finish steps after later

/-- A call from its first step to its return; none takes more than eight steps. -/
def callAlone (bracket : BracketOrder) (operation : Operation) : BracketOrder × BracketCall :=
  finish 8 bracket (enter operation)

/-- `transition_state` on its own: the state moves if the transition is valid. -/
def transitionState (bracket : BracketOrder) (newState : BracketState) : BracketOrder :=
  if validTransition bracket.state newState then { bracket with state := newState } else bracket

theorem callAlone_setOrderId (bracket : BracketOrder) (child : Child) (id : Nat) :
    callAlone bracket (.setOrderId child id) =
      (if (child.awaited bracket).all (0 < ·) then
        transitionState (setChildId bracket id child) child.target
      else setChildId bracket id child, .setOrderId child id .done) := by
  unfold callAlone transitionState
  cases child with
  | entry =>
    by_cases valid : validTransition bracket.state .entryFilled = true <;>
    simp [enter, finish, next, nextSet, setChildId, Child.awaited, nextTransition, Child.target,
      valid]
  | takeProfit =>
    by_cases valid : validTransition bracket.state .tpActiveSlActive = true <;>
    by_cases waits : 0 < bracket.slOrderId <;>
    simp [enter, finish, next, nextSet, setChildId, Child.awaited, nextTransition, Child.target,
      valid, waits]
  | stopLoss =>
    by_cases valid : validTransition bracket.state .tpActiveSlActive = true <;>
    by_cases waits : 0 < bracket.tpOrderId <;>
    simp [enter, finish, next, nextSet, setChildId, Child.awaited, nextTransition, Child.target,
      valid, waits]

theorem callAlone_execute {bracket : BracketOrder} (free : bracket.executionLock = false)
    (exit : Exit) :
    callAlone bracket (.execute exit) =
      if bracket.executed exit then (bracket, .execute exit (.done false))
      else (transitionState (bracket.setExecuted exit) .fullyFilled,
        .execute exit (.done true)) := by
  obtain ⟨state, entry, tp, sl, slExecuted, tpExecuted, lock⟩ := bracket
  cases free
  unfold callAlone transitionState
  cases exit <;> cases slExecuted <;> cases tpExecuted <;>
  by_cases valid : validTransition state .fullyFilled = true <;>
  simp [enter, finish, next, nextExecute, nextTransition, valid, BracketOrder.executed,
    BracketOrder.setLock, BracketOrder.setExecuted]

/-! ## Runs of calls -/

/-- A call of one thread that makes its calls one after another. -/
inductive SequentialCall where
  /-- `set_entry_order_id`, `set_tp_order_id` or `set_sl_order_id` with a non-zero identifier. -/
  | setOrderId (child : Child) (id : {id : Nat // 0 < id})
  /-- `execute_stop_loss` or `execute_take_profit`. -/
  | execute (exit : Exit)

/-- The operation a sequential call is. -/
def SequentialCall.operation : SequentialCall → Operation
  | .setOrderId child id => .setOrderId child id.val
  | .execute exit => .execute exit

/-- A bracket and whether some call of an exit on it has returned true. -/
structure Progress where
  bracket : BracketOrder
  exited : Bool

/-- A bracket before its first call. -/
def Progress.new : Progress := { bracket := .new, exited := false }

/-- A bracket after a call that runs alone. -/
def Progress.step (progress : Progress) (call : SequentialCall) : Option Progress :=
  some {
    bracket := (callAlone progress.bracket call.operation).1
    exited := progress.exited || returnedTrue (callAlone progress.bracket call.operation).2 }

/-- All three identifiers of a bracket are set. -/
def Acknowledged (bracket : BracketOrder) : Prop :=
  0 < bracket.entryOrderId ∧ 0 < bracket.tpOrderId ∧ 0 < bracket.slOrderId

instance (bracket : BracketOrder) : Decidable (Acknowledged bracket) :=
  inferInstanceAs (Decidable (_ ∧ _))

/-- The state agrees with the children: with all three identifiers and no exit executed the bracket
is live, and after an exit has returned true it is filled. -/
def StateAgrees (progress : Progress) : Prop :=
  (Acknowledged progress.bracket → progress.bracket.slExecuted = false →
    progress.bracket.tpExecuted = false → progress.bracket.state = .tpActiveSlActive) ∧
  (progress.exited = true → progress.bracket.state = .fullyFilled)

instance (progress : Progress) : Decidable (StateAgrees progress) :=
  inferInstanceAs (Decidable (_ ∧ _))

/-- A call in the order the setters expect: the entry is acknowledged before the second of the two
exits is, and an exit executes after all three. -/
def InOrder (progress : Progress) : SequentialCall → Prop
  | .setOrderId .entry _ => 0 < progress.bracket.entryOrderId ∨
      progress.bracket.tpOrderId = 0 ∨ progress.bracket.slOrderId = 0
  | .setOrderId _ _ => True
  | .execute _ => Acknowledged progress.bracket

/-- What every run of calls keeps: the lock is free between them, four of the states are reached,
and each says which identifiers and flags are set. -/
structure Kept (progress : Progress) : Prop where
  free : progress.bracket.executionLock = false
  reached : progress.bracket.state = .pendingEntry ∨ progress.bracket.state = .entryFilled ∨
    progress.bracket.state = .tpActiveSlActive ∨ progress.bracket.state = .fullyFilled
  pending : progress.bracket.state = .pendingEntry ↔ progress.bracket.entryOrderId = 0
  live : progress.bracket.state = .tpActiveSlActive → Acknowledged progress.bracket
  filled : progress.bracket.state = .fullyFilled →
    Acknowledged progress.bracket ∧ progress.exited = true
  flags : progress.exited = (progress.bracket.slExecuted || progress.bracket.tpExecuted)

theorem step_setOrderId (progress : Progress) (child : Child) (id : {id : Nat // 0 < id}) :
    progress.step (.setOrderId child id) = some {
      bracket := if (child.awaited progress.bracket).all (0 < ·) then
          transitionState (setChildId progress.bracket id child) child.target
        else setChildId progress.bracket id child
      exited := progress.exited } := by
  simp [Progress.step, SequentialCall.operation, callAlone_setOrderId, returnedTrue]

theorem step_execute {progress : Progress} (free : progress.bracket.executionLock = false)
    (exit : Exit) :
    progress.step (.execute exit) =
      some (if progress.bracket.executed exit then progress
        else { bracket := transitionState (progress.bracket.setExecuted exit) .fullyFilled
               exited := true }) := by
  unfold Progress.step SequentialCall.operation
  simp only [callAlone_execute free]
  split
  · simp [returnedTrue]
  · simp [returnedTrue]

theorem validTransition_entryFilled (state : BracketState) :
    validTransition state .entryFilled = true ↔ state = .pendingEntry := by
  cases state <;> decide

theorem validTransition_live (state : BracketState) :
    validTransition state .tpActiveSlActive = true ↔ state = .entryFilled := by
  cases state <;> decide

theorem validTransition_fullyFilled {progress : Progress} (kept : Kept progress) :
    validTransition progress.bracket.state .fullyFilled = true ↔
      progress.bracket.state = .tpActiveSlActive := by
  rcases kept.reached with state | state | state | state <;> rw [state] <;> decide

/-! ### The entry -/

section Entry

variable {progress : Progress} {id : {id : Nat // 0 < id}}

theorem step_entry (progress : Progress) (id : {id : Nat // 0 < id}) :
    progress.step (.setOrderId .entry id) = some { progress with
      bracket := { progress.bracket with
        entryOrderId := id
        state := if progress.bracket.state = .pendingEntry then .entryFilled
          else progress.bracket.state } } := by
  have stored := step_setOrderId progress .entry id
  simp only [Child.awaited, Option.all_none, if_true, transitionState, setChildId, Child.target,
    validTransition_entryFilled] at stored
  rw [stored]
  split <;> rfl

theorem kept_entry (kept : Kept progress) {after : Progress}
    (stepped : progress.step (.setOrderId .entry id) = some after) : Kept after := by
  rw [step_entry] at stepped
  cases stepped
  by_cases waits : progress.bracket.state = .pendingEntry
  · simp only [if_pos waits]
    exact {
      free := kept.free
      reached := .inr (.inl rfl)
      pending := iff_of_false nofun (Nat.ne_of_gt id.property)
      live := nofun
      filled := nofun
      flags := kept.flags }
  · simp only [if_neg waits]
    exact {
      free := kept.free
      reached := kept.reached
      pending := iff_of_false waits (Nat.ne_of_gt id.property)
      live := fun live => ⟨id.property, (kept.live live).2⟩
      filled := fun filled => ⟨⟨id.property, (kept.filled filled).1.2⟩, (kept.filled filled).2⟩
      flags := kept.flags }

/-- While the state agrees with the children, the identifier of the entry leaves it so exactly if it
does not come first after both exits: it moves the bracket to a filled entry, and no later call
makes that live. -/
theorem agrees_entry (kept : Kept progress) (agrees : StateAgrees progress) {after : Progress}
    (stepped : progress.step (.setOrderId .entry id) = some after) :
    StateAgrees after ↔ InOrder progress (.setOrderId .entry id) := by
  rw [step_entry] at stepped
  cases stepped
  by_cases waits : progress.bracket.state = .pendingEntry
  · have first := kept.pending.mp waits
    have open_ : progress.exited = false := by
      by_contra exited
      have filled := agrees.2 (eq_true_of_ne_false exited)
      exact absurd (waits.symm.trans filled) (by decide)
    have flags := kept.flags
    rw [open_, eq_comm, Bool.or_eq_false_iff] at flags
    simp only [if_pos waits]
    constructor
    · intro later
      by_contra both
      obtain ⟨_, takeProfit, stopLoss⟩ := (not_or.trans (and_congr_right' not_or)).mp both
      have live : BracketState.entryFilled = .tpActiveSlActive := later.1
        ⟨id.property, Nat.pos_of_ne_zero takeProfit, Nat.pos_of_ne_zero stopLoss⟩ flags.1 flags.2
      exact absurd live (by decide)
    · intro inOrder
      simp only [InOrder, first, Nat.lt_irrefl, false_or] at inOrder
      refine ⟨fun all => ?_, fun exited => absurd (open_.symm.trans exited) (by decide)⟩
      obtain ⟨_, takeProfit, stopLoss⟩ := all
      simp only at takeProfit stopLoss
      omega
  · have placed : 0 < progress.bracket.entryOrderId :=
      Nat.pos_of_ne_zero (mt kept.pending.mpr waits)
    simp only [if_neg waits]
    exact iff_of_true ⟨fun all => agrees.1 ⟨placed, all.2⟩, agrees.2⟩ (.inl placed)

end Entry

/-! ### The identifiers of the exits -/

section Exits

variable {progress : Progress} {child : Child} {other : Nat} {id : {id : Nat // 0 < id}}

theorem setChildId_frame {bracket : BracketOrder} (waits : child.awaited bracket = some other)
    (id : Nat) :
    (setChildId bracket id child).state = bracket.state ∧
      (setChildId bracket id child).entryOrderId = bracket.entryOrderId ∧
      (setChildId bracket id child).executionLock = bracket.executionLock ∧
      (setChildId bracket id child).slExecuted = bracket.slExecuted ∧
      (setChildId bracket id child).tpExecuted = bracket.tpExecuted := by
  cases child with
  | entry => cases waits
  | takeProfit => exact ⟨rfl, rfl, rfl, rfl, rfl⟩
  | stopLoss => exact ⟨rfl, rfl, rfl, rfl, rfl⟩

theorem acknowledged_setChildId {bracket : BracketOrder}
    (waits : child.awaited bracket = some other) (id : {id : Nat // 0 < id}) :
    Acknowledged (setChildId bracket id child) ↔ 0 < bracket.entryOrderId ∧ 0 < other := by
  cases child with
  | entry => cases waits
  | takeProfit =>
    cases waits
    exact and_congr_right fun _ => and_iff_right id.property
  | stopLoss =>
    cases waits
    exact and_congr_right fun _ => and_iff_left id.property

theorem step_exit (waits : child.awaited progress.bracket = some other)
    (id : {id : Nat // 0 < id}) :
    progress.step (.setOrderId child id) = some { progress with
      bracket := { setChildId progress.bracket id child with
        state := if 0 < other ∧ progress.bracket.state = .entryFilled then .tpActiveSlActive
          else progress.bracket.state } } := by
  have target : child.target = .tpActiveSlActive := by
    cases child with
    | entry => cases waits
    | takeProfit => rfl
    | stopLoss => rfl
  have state := (setChildId_frame waits id).1
  rw [step_setOrderId, waits, target]
  simp only [Option.all_some, decide_eq_true_eq, transitionState, validTransition_live, state]
  by_cases acknowledged : 0 < other
  · simp only [acknowledged, if_true, true_and]
    split
    · rfl
    · rw [← state]
  · simp only [acknowledged, if_false, false_and]
    rw [← state]

theorem kept_exit (kept : Kept progress) (waits : child.awaited progress.bracket = some other)
    {after : Progress} (stepped : progress.step (.setOrderId child id) = some after) :
    Kept after := by
  obtain ⟨_, entry, lock, stopLoss, takeProfit⟩ := setChildId_frame waits id.val
  have all := acknowledged_setChildId waits id
  have acknowledged : Acknowledged progress.bracket →
      Acknowledged (setChildId progress.bracket id child) := by
    intro before
    refine all.mpr ⟨before.1, ?_⟩
    cases child with
    | entry => cases waits
    | takeProfit => exact Option.some.inj waits ▸ before.2.2
    | stopLoss => exact Option.some.inj waits ▸ before.2.1
  rw [step_exit waits] at stepped
  cases stepped
  have flags := kept.flags
  rw [← stopLoss, ← takeProfit] at flags
  by_cases moves : 0 < other ∧ progress.bracket.state = .entryFilled
  · have placed : 0 < progress.bracket.entryOrderId := by
      apply Nat.pos_of_ne_zero
      intro none
      exact absurd ((kept.pending.mpr none).symm.trans moves.2) (by decide)
    simp only [if_pos moves]
    exact {
      free := lock.trans kept.free
      reached := .inr (.inr (.inl rfl))
      pending := iff_of_false nofun (entry.symm ▸ Nat.ne_of_gt placed)
      live := fun _ => all.mpr ⟨placed, moves.1⟩
      filled := nofun
      flags := flags }
  · simp only [if_neg moves]
    exact {
      free := lock.trans kept.free
      reached := kept.reached
      pending := entry.symm ▸ kept.pending
      live := fun live => acknowledged (kept.live live)
      filled := fun filled => ⟨acknowledged (kept.filled filled).1, (kept.filled filled).2⟩
      flags := flags }

theorem agrees_exit (kept : Kept progress) (agrees : StateAgrees progress)
    (waits : child.awaited progress.bracket = some other) {after : Progress}
    (stepped : progress.step (.setOrderId child id) = some after) : StateAgrees after := by
  obtain ⟨_, _, _, stopLoss, takeProfit⟩ := setChildId_frame waits id.val
  rw [step_exit waits] at stepped
  cases stepped
  have flags := kept.flags
  rw [← stopLoss, ← takeProfit] at flags
  by_cases moves : 0 < other ∧ progress.bracket.state = .entryFilled
  · simp only [if_pos moves]
    refine ⟨fun _ _ _ => rfl, fun exited => ?_⟩
    exact absurd (moves.2.symm.trans (agrees.2 exited)) (by decide)
  · simp only [if_neg moves]
    refine ⟨fun all noStopLoss noTakeProfit => ?_, agrees.2⟩
    obtain ⟨placed, acknowledged⟩ := (acknowledged_setChildId waits id).mp all
    -- Neither pending, nor a filled entry that waits, nor filled without an exit.
    rcases kept.reached with pending | entry | live | filled
    · exact absurd (kept.pending.mp pending) (Nat.ne_of_gt placed)
    · exact absurd ⟨acknowledged, entry⟩ moves
    · exact live
    · have exited := (kept.filled filled).2
      rw [flags, noStopLoss, noTakeProfit] at exited
      cases exited

end Exits

/-! ### The execution of an exit -/

section Execution

variable {progress : Progress} {exit : Exit}

theorem step_executed (kept : Kept progress) (first : progress.bracket.executed exit = false) :
    progress.step (.execute exit) = some {
      bracket := { progress.bracket.setExecuted exit with
        state := if progress.bracket.state = .tpActiveSlActive then .fullyFilled
          else progress.bracket.state }
      exited := true } := by
  have state : (progress.bracket.setExecuted exit).state = progress.bracket.state := by
    cases exit <;> rfl
  rw [step_execute kept.free, if_neg (by rw [first]; decide)]
  unfold transitionState
  simp only [state, validTransition_fullyFilled kept]
  split
  · rfl
  · rw [← state]

theorem kept_execute (kept : Kept progress) {after : Progress}
    (stepped : progress.step (.execute exit) = some after) : Kept after := by
  cases executed : progress.bracket.executed exit with
  | true =>
    rw [step_execute kept.free, if_pos executed] at stepped
    cases stepped
    exact kept
  | false =>
    rw [step_executed kept executed] at stepped
    cases stepped
    have flags : true = ((progress.bracket.setExecuted exit).slExecuted ||
        (progress.bracket.setExecuted exit).tpExecuted) := by
      cases exit <;> simp [BracketOrder.setExecuted]
    have lock : (progress.bracket.setExecuted exit).executionLock = false := by
      cases exit <;> exact kept.free
    have entry : (progress.bracket.setExecuted exit).entryOrderId =
        progress.bracket.entryOrderId := by cases exit <;> rfl
    have acknowledged : Acknowledged progress.bracket →
        Acknowledged (progress.bracket.setExecuted exit) := by cases exit <;> exact id
    by_cases live : progress.bracket.state = .tpActiveSlActive
    · have all := kept.live live
      have begun : BracketState.fullyFilled ≠ .pendingEntry := by decide
      have ended : BracketState.fullyFilled ≠ .tpActiveSlActive := by decide
      simp only [if_pos live]
      exact {
        free := lock
        reached := .inr (.inr (.inr rfl))
        pending := iff_of_false begun (entry.symm ▸ Nat.ne_of_gt all.1)
        live := fun state => absurd state ended
        filled := fun _ => ⟨acknowledged all, rfl⟩
        flags := flags }
    · simp only [if_neg live]
      exact {
        free := lock
        reached := kept.reached
        pending := entry.symm ▸ kept.pending
        live := fun state => absurd state live
        filled := fun filled => ⟨acknowledged (kept.filled filled).1, rfl⟩
        flags := flags }

theorem agrees_execute (kept : Kept progress) (agrees : StateAgrees progress) {after : Progress}
    (stepped : progress.step (.execute exit) = some after) :
    StateAgrees after ↔ InOrder progress (.execute exit) := by
  cases executed : progress.bracket.executed exit with
  | true =>
    rw [step_execute kept.free, if_pos executed] at stepped
    cases stepped
    have exited : progress.exited = true := by
      rw [kept.flags]
      cases exit with
      | stopLoss => exact Bool.or_eq_true_iff.mpr (.inl executed)
      | takeProfit => exact Bool.or_eq_true_iff.mpr (.inr executed)
    exact iff_of_true agrees (kept.filled (agrees.2 exited)).1
  | false =>
    rw [step_executed kept executed] at stepped
    cases stepped
    have flags : ¬((progress.bracket.setExecuted exit).slExecuted = false ∧
        (progress.bracket.setExecuted exit).tpExecuted = false) := by
      cases exit <;> simp [BracketOrder.setExecuted]
    have filled_iff : (if progress.bracket.state = .tpActiveSlActive then BracketState.fullyFilled
        else progress.bracket.state) = .fullyFilled ↔ Acknowledged progress.bracket := by
      by_cases live : progress.bracket.state = .tpActiveSlActive
      · rw [if_pos live]
        exact iff_of_true rfl (kept.live live)
      · rw [if_neg live]
        refine ⟨fun filled => (kept.filled filled).1, fun all => ?_⟩
        by_contra unfilled
        have open_ : progress.exited = false := eq_false_of_ne_true (mt agrees.2 unfilled)
        have down := kept.flags
        rw [open_, eq_comm, Bool.or_eq_false_iff] at down
        exact live (agrees.1 all down.1 down.2)
    constructor
    · exact fun later => filled_iff.mp (later.2 rfl)
    · exact fun all => ⟨fun _ noStopLoss noTakeProfit => absurd ⟨noStopLoss, noTakeProfit⟩ flags,
        fun _ => filled_iff.mpr all⟩

end Execution

/-- Every call keeps what the state says about the bracket. -/
theorem kept_step (progress : Progress) (call : SequentialCall) (after : Progress)
    (kept : Kept progress) (stepped : progress.step call = some after) : Kept after := by
  cases call with
  | setOrderId child id =>
    cases child with
    | entry => exact kept_entry kept stepped
    | takeProfit => exact kept_exit kept rfl stepped
    | stopLoss => exact kept_exit kept rfl stepped
  | execute exit => exact kept_execute kept stepped

/-- One call keeps the state in agreement exactly when it is in order. -/
theorem agrees_step (progress : Progress) (call : SequentialCall) (after : Progress)
    (kept : Kept progress) (agrees : StateAgrees progress)
    (stepped : progress.step call = some after) : StateAgrees after ↔ InOrder progress call := by
  cases call with
  | setOrderId child id =>
    cases child with
    | entry => exact agrees_entry kept agrees stepped
    | takeProfit => exact iff_of_true (agrees_exit kept agrees rfl stepped) trivial
    | stopLoss => exact iff_of_true (agrees_exit kept agrees rfl stepped) trivial
  | execute exit => exact agrees_execute kept agrees stepped

/-- Along every run of calls the state agrees with the children if and only if the entry is
acknowledged before the second of the exits is and an exit executes after all three. -/
theorem stateAgrees_iff (calls : List SequentialCall) :
    Always Progress.step StateAgrees .new calls ↔ Guarded Progress.step InOrder .new calls := by
  apply @always_iff_guarded _ _ Progress.step Kept
  case preserved => exact kept_step
  case exact_step => exact agrees_step
  case start => constructor <;> simp [Progress.new, BracketOrder.new, Acknowledged]
  case holds => constructor <;> simp [Progress.new, BracketOrder.new, Acknowledged]

/-- Two exits acknowledged before their entry leave a bracket with all three identifiers that is
never live: the state stays that of a filled entry, and an exit that returns true then does not
fill the bracket. -/
theorem stateAgrees_fails :
    ¬ ∀ calls, Always Progress.step StateAgrees .new calls := by
  intro claim
  exact absurd (claim [.setOrderId .takeProfit ⟨2, by decide⟩, .setOrderId .stopLoss ⟨3, by decide⟩,
    .setOrderId .entry ⟨1, by decide⟩]) (by decide)

example : Always Progress.step StateAgrees .new [.setOrderId .entry ⟨1, by decide⟩,
    .setOrderId .takeProfit ⟨2, by decide⟩, .setOrderId .stopLoss ⟨3, by decide⟩,
    .execute .takeProfit] := by
  decide

end TradingBot.Brackets
