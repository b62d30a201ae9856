import TradingBot.Orderflow.ConfirmedSignals

/-!
# Timeouts of a setup

A setup is to be given up when it waits longer than the timeout in its state. The machine keeps the
time it entered a state, but its transitions do not set it: only a start, a completion and the end
of a cooldown do. A timeout is therefore counted from there, and comes too early by as much as the
setup began later. From every state but the executing one there is a way back to idle.
-/

open Run

namespace TradingBot.Orderflow

namespace SetupTimeouts

open ConfirmedSignals SymbolStateMachine

/-- A machine with the last timestamp, and the timestamp of the call that brought it into its
state. -/
structure Session where
  machine : SymbolStateMachine
  clockNs : Nat
  enteredNs : Nat

/-- A session of a new machine. -/
def Session.start (config : TriggerConfig) : Session := ⟨.new config, 0, 0⟩

/-- A machine after a call. -/
def performed (machine : SymbolStateMachine) (ts : Nat) : MachineCall → SymbolStateMachine
  | .process event symbol currentPrice volume =>
    (machine.processEvent event symbol currentPrice volume ts).2
  | .setType type => machine.setAbsorptionType type
  | .start => machine.startExecution ts
  | .complete => machine.completeExecution ts

/-- A session after a call; timestamps do not go back. -/
def step (session : Session) (timed : TimedCall) : Option Session :=
  if timed.ts < session.clockNs then none
  else
    let machine := performed session.machine timed.ts timed.call
    some {
      machine := machine
      clockNs := timed.ts
      enteredNs :=
        if machine.currentState = session.machine.currentState then session.enteredNs
        else timed.ts }

/-- A state that a timeout ends. -/
def Waiting (state : TriggerState) : Prop := state = .watching ∨ state = .confirming

instance : DecidablePred Waiting := fun _ => inferInstanceAs (Decidable (_ ∨ _))

/-- A call is a timeout event. -/
def isTimeout : MachineCall → Bool
  | .process .timeout _ _ _ => true
  | _ => false

/-- A timeout event takes a waiting machine to idle exactly if it waited longer in its state than
the timeout. -/
def TimesOut (session : Session) (timed : TimedCall) : Prop :=
  isTimeout timed.call = true → Waiting session.machine.currentState →
    ∀ next, step session timed = some next →
      (next.machine.currentState = .idle ↔
        session.machine.config.confirmationTimeoutNs < timed.ts - session.enteredNs)

/-- From a machine that is not executing some events, none of them an execution, lead back to
idle. -/
def Escapes (session : Session) : Prop :=
  session.machine.currentState ≠ .executing → ∃ events : List TimedCall,
    (∀ timed ∈ events, ∃ event, timed.call = .process event "" 0 0) ∧
      ∃ final, exec step session events = some final ∧ final.machine.currentState = .idle

/-- A timeout event that comes later than the timeout after the time kept in the machine comes
later than the timeout after the machine entered its state. -/
def InBounds (session : Session) (timed : TimedCall) : Prop :=
  isTimeout timed.call = true → Waiting session.machine.currentState →
    session.machine.config.confirmationTimeoutNs < timed.ts - session.machine.stateEnteredNs →
      session.machine.config.confirmationTimeoutNs < timed.ts - session.enteredNs

instance (session : Session) : DecidablePred (InBounds session) := fun _ =>
  inferInstanceAs (Decidable (_ → _ → _ → _))

/-- The time kept in a machine is not ahead of the clock, nor of the time a setup entered its
state. -/
structure Kept (session : Session) : Prop where
  past : session.machine.stateEnteredNs ≤ session.clockNs
  behind : session.machine.currentState ≠ .executing → session.machine.currentState ≠ .cooldown →
    session.machine.stateEnteredNs ≤ session.enteredNs

/-! ## Events -/

section Events

variable {machine : SymbolStateMachine} {event : TriggerEvent} {symbol : String}
  {currentPrice volume : ℚ} {ts : Nat}

theorem stateEnteredNs_moves {next : TriggerState} {rest : SymbolStateMachine}
    (moves : Moves machine event currentPrice volume next rest) :
    rest.stateEnteredNs = machine.stateEnteredNs := by
  cases moves <;> rfl

theorem wake_warm (warm : machine.currentState ≠ .cooldown) : machine.wake ts = some machine :=
  if_neg warm

theorem processEvent_warm (warm : machine.currentState ≠ .cooldown) :
    (machine.processEvent event symbol currentPrice volume ts).2 =
      { (machine.transition event currentPrice volume ts).2 with
        currentState := (machine.transition event currentPrice volume ts).1 } :=
  processEvent_awake (wake_warm warm)

theorem timeout_idle (waiting : Waiting machine.currentState) :
    (machine.processEvent .timeout symbol currentPrice volume ts).2.currentState = .idle ↔
      machine.config.confirmationTimeoutNs < ts - machine.stateEnteredNs := by
  have warm : machine.currentState ≠ .cooldown := by
    rintro cold
    rw [cold] at waiting
    exact absurd waiting (by decide)
  have moved : machine.transition .timeout currentPrice volume ts = machine.expire ts := by
    unfold transition
    obtain state | state := waiting
    · rw [state]
    · rw [state]
  rw [processEvent_warm warm, moved]
  unfold expire
  by_cases late : machine.config.confirmationTimeoutNs < ts - machine.stateEnteredNs
  · rw [if_pos late]
    exact iff_of_true rfl late
  · rw [if_neg late]
    refine iff_of_false (fun idle => ?_) late
    have idle : machine.currentState = .idle := idle
    rw [idle] at waiting
    exact absurd waiting (by decide)

theorem cooldown_idle (cold : machine.currentState = .cooldown)
    (cooled : machine.config.cooldownNs ≤ ts - machine.lastExecutionNs) :
    (machine.processEvent .timeout symbol currentPrice volume ts).2.currentState = .idle := by
  have woken : machine.wake ts = some { machine with currentState := .idle, stateEnteredNs := ts }
      := by
    unfold wake
    rw [if_pos cold, if_neg (not_lt.mpr cooled)]
  rw [processEvent_awake woken]
  rfl

end Events

/-! ## Runs -/

section Runs

variable {session next : Session} {timed : TimedCall}

/-- A call is taken in its time. -/
theorem step_eq_some :
    step session timed = some next ↔ session.clockNs ≤ timed.ts ∧
      next = ⟨performed session.machine timed.ts timed.call, timed.ts,
        if (performed session.machine timed.ts timed.call).currentState =
          session.machine.currentState then session.enteredNs else timed.ts⟩ := by
  unfold step
  by_cases back : timed.ts < session.clockNs
  · rw [if_pos back]
    exact iff_of_false (by simp) fun both => absurd both.1 (not_le.mpr back)
  · rw [if_neg back, Option.some.injEq, eq_comm]
    exact (and_iff_right (not_lt.mp back)).symm

theorem kept_unset (kept : Kept session) (taken : step session timed = some next)
    (unset : (performed session.machine timed.ts timed.call).stateEnteredNs =
      session.machine.stateEnteredNs) : Kept next := by
  obtain ⟨later, rfl⟩ := step_eq_some.mp taken
  have past := kept.past
  refine ⟨unset.trans_le (past.trans later), fun placing cooling => ?_⟩
  show (performed _ _ _).stateEnteredNs ≤ if _ then _ else _
  rw [unset]
  split
  · next same =>
    rw [same] at placing cooling
    exact kept.behind placing cooling
  · exact past.trans later

theorem kept_set (taken : step session timed = some next)
    (set_ : (performed session.machine timed.ts timed.call).stateEnteredNs = timed.ts)
    (enters : (performed session.machine timed.ts timed.call).currentState ≠ .executing →
      (performed session.machine timed.ts timed.call).currentState ≠ .cooldown →
        (performed session.machine timed.ts timed.call).currentState ≠
          session.machine.currentState) :
    Kept next := by
  obtain ⟨-, rfl⟩ := step_eq_some.mp taken
  refine ⟨set_.le, fun placing cooling => ?_⟩
  show (performed _ _ _).stateEnteredNs ≤ if _ then _ else _
  rw [if_neg (enters placing cooling)]
  exact set_.le

/-- Every call keeps the time a setup entered its state. -/
theorem kept_step (kept : Kept session) (taken : step session timed = some next) : Kept next := by
  obtain ⟨ts, call⟩ := timed
  cases call with
  | setType type => exact kept_unset kept taken rfl
  | start => exact kept_set taken rfl fun placing => absurd rfl placing
  | complete => exact kept_set taken rfl fun _ cooling => absurd rfl cooling
  | process event symbol currentPrice volume =>
    cases woken : session.machine.wake ts with
    | none =>
      refine kept_unset kept taken ?_
      show (session.machine.processEvent event symbol currentPrice volume ts).2.stateEnteredNs = _
      rw [processEvent_asleep woken]
    | some awake =>
      have moved := awake.transition_moves event currentPrice volume ts
      have unset : (performed session.machine ts
          (.process event symbol currentPrice volume)).stateEnteredNs =
            awake.stateEnteredNs := by
        show (session.machine.processEvent event symbol currentPrice volume ts).2.stateEnteredNs = _
        rw [processEvent_awake woken]
        have same := stateEnteredNs_moves moved
        exact same
      obtain ⟨-, rfl⟩ | ⟨cold, -, rfl⟩ := wake_cases woken
      · exact kept_unset kept taken unset
      · refine kept_set taken unset fun _ cooling => ?_
        rw [cold]
        exact cooling

theorem kept_start (config : TriggerConfig) : Kept (.start config) :=
  ⟨le_refl 0, fun _ _ => le_refl 0⟩

theorem timesOut_iff (kept : Kept session) (taken : step session timed = some next) :
    TimesOut session timed ↔ InBounds session timed := by
  obtain ⟨later, result⟩ := step_eq_some.mp taken
  refine forall_congr' fun timeout => forall_congr' fun waiting => ?_
  have idle : next.machine.currentState = .idle ↔
      session.machine.config.confirmationTimeoutNs <
        timed.ts - session.machine.stateEnteredNs := by
    rw [result]
    obtain ⟨ts, call⟩ := timed
    cases call with
    | setType type => cases timeout
    | start => cases timeout
    | complete => cases timeout
    | process event symbol currentPrice volume =>
      cases event with
      | timeout => exact timeout_idle waiting
      | _ => cases timeout
  have behind : session.machine.stateEnteredNs ≤ session.enteredNs := by
    apply kept.behind
    · rintro placing
      rw [placing] at waiting
      exact absurd waiting (by decide)
    · rintro cooling
      rw [cooling] at waiting
      exact absurd waiting (by decide)
  have sooner : session.machine.config.confirmationTimeoutNs < timed.ts - session.enteredNs →
      session.machine.config.confirmationTimeoutNs <
        timed.ts - session.machine.stateEnteredNs := by omega
  constructor
  · exact fun exact_ late => (exact_ next taken).mp (idle.mpr late)
  · intro bound other again
    cases taken.symm.trans again
    exact ⟨fun ended => bound (idle.mp ended), fun cooled => idle.mpr (sooner cooled)⟩

/-- An event is taken at any later time. -/
theorem step_process (event : TriggerEvent) {ts : Nat} (later : session.clockNs ≤ ts) :
    ∃ next, step session ⟨ts, .process event "" 0 0⟩ = some next ∧ next.clockNs = ts ∧
      next.machine = (session.machine.processEvent event "" 0 0 ts).2 :=
  ⟨_, step_eq_some.mpr ⟨later, rfl⟩, rfl, rfl⟩

theorem escapes_of_step (event : TriggerEvent) {ts : Nat}
    (taken : step session ⟨ts, .process event "" 0 0⟩ = some next)
    (moving : next.machine.currentState ≠ .executing) (escapes : Escapes next) :
    Escapes session := by
  intro _
  obtain ⟨events, plain, final, ran, idle⟩ := escapes moving
  refine ⟨⟨ts, .process event "" 0 0⟩ :: events, ?_, final, ?_, idle⟩
  · exact List.forall_mem_cons.mpr ⟨⟨event, rfl⟩, plain⟩
  · exact exec_cons.mpr ⟨next, taken, ran⟩

theorem escapes_of_idle (idle : session.machine.currentState = .idle) : Escapes session :=
  fun _ => ⟨[], (fun _ member => nomatch member), session, rfl, idle⟩

theorem escapes_by (event : TriggerEvent) {ts : Nat} (later : session.clockNs ≤ ts)
    (idle : (session.machine.processEvent event "" 0 0 ts).2.currentState = .idle) :
    Escapes session := by
  obtain ⟨next, taken, -, after⟩ := step_process event later
  rw [← after] at idle
  exact escapes_of_step event taken (by rw [idle]; decide) (escapes_of_idle idle)

theorem escapes_of_waiting (kept : Kept session) (waiting : Waiting session.machine.currentState) :
    Escapes session := by
  have past := kept.past
  let ts := session.clockNs + session.machine.config.confirmationTimeoutNs + 1
  have expired : session.machine.config.confirmationTimeoutNs <
      ts - session.machine.stateEnteredNs := by omega
  have later : session.clockNs ≤ ts := by omega
  exact escapes_by .timeout later ((timeout_idle waiting).mpr expired)

theorem escapes_of_kept (kept : Kept session) : Escapes session := by
  cases state : session.machine.currentState with
  | idle => exact escapes_of_idle state
  | watching => exact escapes_of_waiting kept (.inl state)
  | confirming => exact escapes_of_waiting kept (.inr state)
  | executing => exact fun moving => absurd state moving
  | readyToExecute =>
    have cancelled : session.machine.transition .cancellation 0 0 session.clockNs =
        (.idle, session.machine.reset) := by
      unfold transition
      rw [state]
    refine escapes_by .cancellation (le_refl session.clockNs) ?_
    rw [processEvent_warm (by rw [state]; decide), cancelled]
  | cooldown =>
    let ts := session.clockNs + session.machine.lastExecutionNs + session.machine.config.cooldownNs
    have cooled : session.machine.config.cooldownNs ≤ ts - session.machine.lastExecutionNs := by
      omega
    have later : session.clockNs ≤ ts := by omega
    exact escapes_by .timeout later (cooldown_idle state cooled)
  | absorptionDetected =>
    -- A divergence leads to the confirming state, which times out.
    have triggered : session.machine.transition .divergenceDetected 0 0 session.clockNs =
        (.confirming, session.machine) := by
      unfold transition
      rw [state]
    obtain ⟨next, taken, -, after⟩ := step_process .divergenceDetected (le_refl session.clockNs)
    rw [processEvent_warm (by rw [state]; decide), triggered] at after
    have confirming : next.machine.currentState = .confirming := by rw [after]
    have waits := escapes_of_waiting (kept_step kept taken) (.inr confirming)
    exact escapes_of_step .divergenceDetected taken (by rw [confirming]; decide) waits

/-- Along any calls with timestamps that do not go back, every timeout event of a waiting machine is
counted from its entry into the state, and every state but the executing one has a way back to idle,
precisely as long as every timeout event is in bounds. -/
theorem timeouts_iff (config : TriggerConfig) (calls : List TimedCall) :
    Guarded step TimesOut (.start config) calls ∧ Always step Escapes (.start config) calls ↔
      Guarded step InBounds (.start config) calls := by
  have preserved : ∀ session timed next, Kept session → step session timed = some next →
      Kept next := fun _ _ _ kept taken => kept_step kept taken
  have always : Always step Escapes (.start config) calls :=
    (always_of_preserved preserved (kept_start config) calls).imp fun _ => escapes_of_kept
  refine (and_iff_left always).trans ?_
  exact guarded_congr preserved (fun _ _ _ kept taken => timesOut_iff kept taken)
    (kept_start config) calls

end Runs

/-- A setup that starts ten seconds after the machine was made, and a timeout a moment later. -/
def earlyTimeout : List TimedCall :=
  [⟨10000000000, .process .absorptionStart "BTC" 50000 10⟩,
    ⟨10000000001, .process .timeout "BTC" 50000 0⟩]

/-- The setup is given up after one nanosecond of five seconds. -/
theorem early_timeout_ends_setup : ¬ Guarded step TimesOut (.start .default) earlyTimeout := by
  intro guarded
  have second := ((guarded _ rfl).2 _ rfl).1
  have ended := (second rfl (.inl rfl) _ rfl).mp rfl
  revert ended
  decide

end SetupTimeouts

end TradingBot.Orderflow
