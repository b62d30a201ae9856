import TradingBot.Foundation.Run
import TradingBot.Orderflow.TriggerStateMachine

/-!
# Signals on confirmed absorption

A signal is to follow an absorption, its confirmations and a trigger, to wait for the cooldown, and
to take its direction from the absorption of the setup it ends. The first two hold along every run.
The direction comes from the type the machine remembers, which an executed setup leaves behind.
-/

open Run

namespace TradingBot.Orderflow

/-! ## The transitions -/

/-- The state transitions of `process_event` as a table. -/
inductive Moves (machine : SymbolStateMachine) (event : TriggerEvent)
    (currentPrice volume : ℚ) : TriggerState → SymbolStateMachine → Prop where
  /-- An absorption starts a setup. -/
  | watch (idle : machine.currentState = .idle) (starts : event = .absorptionStart) :
    Moves machine event currentPrice volume .watching
      { machine with absorptionPrice := some currentPrice, confirmationCount := 1 }
  /-- A confirmation with enough volume, and more are needed. -/
  | count (watching : machine.currentState = .watching) (confirmed : event = .absorptionConfirmed)
      (enough : machine.config.minVolume ≤ volume) :
    Moves machine event currentPrice volume .watching
      { machine with confirmationCount := machine.confirmationCount + 1 }
  /-- The last confirmation that is needed. -/
  | detect (watching : machine.currentState = .watching) (confirmed : event = .absorptionConfirmed)
      (enough : machine.config.minVolume ≤ volume)
      (many : machine.config.requiredConfirmations ≤ machine.confirmationCount + 1) :
    Moves machine event currentPrice volume .absorptionDetected
      { machine with confirmationCount := machine.confirmationCount + 1 }
  | trigger (detected : machine.currentState = .absorptionDetected)
      (triggered : event = .divergenceDetected ∨ event = .volumeSpike) :
    Moves machine event currentPrice volume .confirming machine
  /-- The signal. -/
  | fire (confirming : machine.currentState = .confirming)
      (fires : event = .exhaustionSignal ∨ event = .priceBreakout) :
    Moves machine event currentPrice volume .readyToExecute machine
  | giveUp (setup : machine.currentState ≠ .idle ∧ machine.currentState ≠ .cooldown)
      (placing : machine.currentState ≠ .executing)
      (ends : event = .cancellation ∨ event = .timeout) :
    Moves machine event currentPrice volume .idle machine.reset
  /-- Every other event is ignored. -/
  | stay (silent : machine.currentState = .confirming →
      ¬(event = .exhaustionSignal ∨ event = .priceBreakout)) :
    Moves machine event currentPrice volume machine.currentState machine

variable {machine : SymbolStateMachine} {event : TriggerEvent} {currentPrice volume : ℚ} {ts : Nat}

variable {rest : SymbolStateMachine}

theorem Moves.of_ready {next : TriggerState}
    (moves : Moves machine event currentPrice volume next rest) (ready : next = .readyToExecute) :
    machine.currentState = .readyToExecute ∨ machine.currentState = .confirming ∧
      (event = .exhaustionSignal ∨ event = .priceBreakout) := by
  cases moves with
  | watch | count | detect | trigger | giveUp => cases ready
  | fire confirming fires => exact .inr ⟨confirming, fires⟩
  | stay => exact .inl ready

theorem Moves.frame {next : TriggerState}
    (moves : Moves machine event currentPrice volume next rest) :
    rest.config = machine.config ∧ rest.lastExecutionNs = machine.lastExecutionNs := by
  cases moves <;> exact ⟨rfl, rfl⟩

theorem Moves.of_executing {next : TriggerState}
    (moves : Moves machine event currentPrice volume next rest)
    (executing : machine.currentState = .executing) : next = .executing := by
  cases moves with
  | stay => exact executing
  | watch state | count state | detect state | trigger state | fire state =>
    exact TriggerState.noConfusion (executing.symm.trans state)
  | giveUp _ placing => exact absurd executing placing

theorem Moves.absorptionType {next : TriggerState}
    (moves : Moves machine event currentPrice volume next rest) :
    rest.absorptionType = machine.absorptionType ∨
      next = .idle ∧ (event = .cancellation ∨ event = .timeout) ∧
        machine.currentState ≠ .idle ∧ machine.currentState ≠ .cooldown := by
  cases moves with
  | giveUp setup _ ends => exact .inr ⟨rfl, ends, setup⟩
  | watch | count | detect | trigger | fire | stay => exact .inl rfl

namespace SymbolStateMachine

theorem confirm_moves (watching : machine.currentState = .watching)
    (confirmed : event = .absorptionConfirmed) :
    Moves machine event currentPrice volume (machine.confirm volume).1
      (machine.confirm volume).2 := by
  unfold confirm
  split
  · next enough =>
    dsimp only
    split
    · next many => exact .detect watching confirmed enough many
    · exact .count watching confirmed enough
  · rw [← watching]
    exact .stay fun confirming => TriggerState.noConfusion (watching.symm.trans confirming)

theorem expire_moves (setup : machine.currentState ≠ .idle ∧ machine.currentState ≠ .cooldown)
    (placing : machine.currentState ≠ .executing) (late : event = .timeout) :
    Moves machine event currentPrice volume (machine.expire ts).1 (machine.expire ts).2 := by
  unfold expire
  split
  · exact .giveUp setup placing (.inr late)
  · refine .stay fun _ fires => ?_
    rcases fires with fires | fires <;> exact TriggerEvent.noConfusion (late.symm.trans fires)

theorem transition_moves (machine : SymbolStateMachine) (event : TriggerEvent)
    (currentPrice volume : ℚ) (ts : Nat) :
    Moves machine event currentPrice volume (machine.transition event currentPrice volume ts).1
      (machine.transition event currentPrice volume ts).2 := by
  unfold transition
  split
  · next idle => exact .watch idle rfl
  · next watching => exact confirm_moves watching rfl
  · next watching => exact expire_moves (by rw [watching]; decide) (by rw [watching]; decide) rfl
  · next detected => exact .trigger detected (.inl rfl)
  · next detected => exact .trigger detected (.inr rfl)
  · next confirming => exact .fire confirming (.inl rfl)
  · next confirming => exact .fire confirming (.inr rfl)
  · next confirming =>
      exact expire_moves (by rw [confirming]; decide) (by rw [confirming]; decide) rfl
  · next ready => exact .giveUp (by rw [ready]; decide) (by rw [ready]; decide) (.inl rfl)
  · next other _ _ _ _ _ noExhaustion noBreakout _ _ =>
    refine .stay fun confirming fires => ?_
    rcases fires with fires | fires
    · exact noExhaustion confirming fires
    · exact noBreakout confirming fires

theorem processEvent_asleep {symbol : String} (asleep : machine.wake ts = none) :
    machine.processEvent event symbol currentPrice volume ts = (none, machine) := by
  unfold processEvent
  rw [asleep]

/-- What an event does to a machine that is awake. -/
theorem processEvent_awake {symbol : String} {awake : SymbolStateMachine}
    (woken : machine.wake ts = some awake) :
    (machine.processEvent event symbol currentPrice volume ts).2 =
      { (awake.transition event currentPrice volume ts).2 with
        currentState := (awake.transition event currentPrice volume ts).1 } := by
  unfold processEvent
  rw [woken]
  dsimp only
  split <;> rfl

/-- A machine is awake or wakes from its cooldown. -/
theorem wake_cases {awake : SymbolStateMachine} (woken : machine.wake ts = some awake) :
    machine.currentState ≠ .cooldown ∧ awake = machine ∨
      machine.currentState = .cooldown ∧
        machine.config.cooldownNs ≤ ts - machine.lastExecutionNs ∧
        awake = { machine with currentState := .idle, stateEnteredNs := ts } := by
  unfold wake at woken
  split at woken
  · next cold =>
    split at woken
    · cases woken
    · next waited => exact .inr ⟨cold, Nat.not_lt.mp waited, (Option.some.inj woken).symm⟩
  · next warm => exact .inl ⟨warm, (Option.some.inj woken).symm⟩

theorem cooldown_of_asleep (asleep : machine.wake ts = none) :
    machine.currentState = .cooldown := by
  unfold wake at asleep
  split at asleep
  · assumption
  · cases asleep

theorem processEvent_fire {symbol : String} (confirming : machine.currentState = .confirming)
    (fires : event = .exhaustionSignal ∨ event = .priceBreakout) :
    machine.processEvent event symbol currentPrice volume ts =
      (some {
        fromState := .confirming
        toState := .readyToExecute
        triggeredBy := event
        shouldExecute := true
        signal := some (({ machine with currentState := .readyToExecute }).createSignal symbol
          currentPrice machine.direction ts) },
        { machine with currentState := .readyToExecute }) := by
  have woken : machine.wake ts = some machine := by
    unfold wake
    rw [confirming]
    rfl
  have moved : machine.transition event currentPrice volume ts = (.readyToExecute, machine) := by
    unfold transition
    rcases fires with rfl | rfl <;> rw [confirming]
  unfold processEvent
  rw [woken]
  dsimp only
  rw [moved, confirming]
  rfl

theorem processEvent_silent {symbol : String}
    (silent : ¬(machine.currentState = .confirming ∧
      (event = .exhaustionSignal ∨ event = .priceBreakout))) :
    ∀ result ∈ (machine.processEvent event symbol currentPrice volume ts).1,
      result.shouldExecute = false := by
  cases woken : machine.wake ts with
  | none =>
    rw [processEvent_asleep woken]
    exact fun result member => absurd member (Option.not_mem_none result)
  | some awake =>
    have quiet : ¬(machine.currentState ≠ .readyToExecute ∧
        (awake.transition event currentPrice volume ts).1 = .readyToExecute) := by
      rintro ⟨before, after⟩
      have moves := (awake.transition_moves event currentPrice volume ts).of_ready after
      rcases wake_cases woken with ⟨-, rfl⟩ | ⟨-, -, rfl⟩
      · exact moves.elim before silent
      · exact moves.elim TriggerState.noConfusion fun fires => TriggerState.noConfusion fires.1
    unfold processEvent
    rw [woken]
    dsimp only
    rw [if_neg quiet]
    split
    · rintro result member
      cases member
      rfl
    · exact fun result member => absurd member (Option.not_mem_none result)

end SymbolStateMachine

/-! ## What happened since the machine was idle -/

/-- An event with its volume. -/
structure MarketEvent where
  event : TriggerEvent
  volume : ℚ

/-- A confirmation with enough volume. -/
def MarketEvent.confirms (config : TriggerConfig) (past : MarketEvent) : Bool :=
  past.event = .absorptionConfirmed && config.minVolume ≤ past.volume

/-- An absorption started, and a number of confirmations followed. -/
def Absorbed (config : TriggerConfig) (confirmations : Nat) (history : List MarketEvent) : Prop :=
  ∃ start later, history = start ++ later ∧ (∃ past ∈ start, past.event = .absorptionStart) ∧
    confirmations ≤ later.countP (MarketEvent.confirms config)

/-- An absorption was confirmed often enough, and a divergence or a volume spike followed. -/
def Triggered (config : TriggerConfig) (history : List MarketEvent) : Prop :=
  ∃ absorbed later, history = absorbed ++ later ∧
    Absorbed config (max 1 (config.requiredConfirmations - 1)) absorbed ∧
    ∃ past ∈ later, past.event = .divergenceDetected ∨ past.event = .volumeSpike

/-- A confirmed absorption was triggered, and the last event is an exhaustion or a breakout. -/
def Confirmed (config : TriggerConfig) (history : List MarketEvent) : Prop :=
  ∃ triggered last, history = triggered ++ [last] ∧ Triggered config triggered ∧
    (last.event = .exhaustionSignal ∨ last.event = .priceBreakout)

/-- What a setup of a machine has behind it in each state. -/
def Progress (config : TriggerConfig) (state : TriggerState) (confirmationCount : Nat)
    (history : List MarketEvent) : Prop :=
  match state with
  | .watching => Absorbed config (confirmationCount - 1) history
  | .absorptionDetected => Absorbed config (max 1 (config.requiredConfirmations - 1)) history
  | .confirming => Triggered config history
  | _ => True

section Histories

variable {config : TriggerConfig} {confirmations : Nat} {history : List MarketEvent}

section

variable (absorbed : Absorbed config confirmations history)
include absorbed

theorem Absorbed.append (more : List MarketEvent) :
    Absorbed config confirmations (history ++ more) := by
  obtain ⟨start, later, rfl, started, enough⟩ := absorbed
  refine ⟨start, later ++ more, List.append_assoc start later more, started, ?_⟩
  rw [List.countP_append]
  exact Nat.le_add_right_of_le enough

theorem Absorbed.confirm (past : MarketEvent) (confirms : past.confirms config = true) :
    Absorbed config (confirmations + 1) (history ++ [past]) := by
  obtain ⟨start, later, rfl, started, enough⟩ := absorbed
  refine ⟨start, later ++ [past], List.append_assoc start later [past], started, ?_⟩
  rw [List.countP_append, List.countP_singleton, if_pos confirms]
  exact Nat.add_le_add_right enough 1

theorem Absorbed.weaken {fewer : Nat} (less : fewer ≤ confirmations) :
    Absorbed config fewer history := by
  obtain ⟨start, later, split_, started, enough⟩ := absorbed
  exact ⟨start, later, split_, started, Nat.le_trans less enough⟩

end

theorem Triggered.append (triggered : Triggered config history) (more : List MarketEvent) :
    Triggered config (history ++ more) := by
  obtain ⟨absorbed, later, rfl, confirmed, past, member, is⟩ := triggered
  exact ⟨absorbed, later ++ more, List.append_assoc absorbed later more, confirmed, past,
    List.mem_append_left more member, is⟩

theorem Progress.append {state : TriggerState} {confirmationCount : Nat}
    (progress : Progress config state confirmationCount history) (more : List MarketEvent) :
    Progress config state confirmationCount (history ++ more) := by
  cases state with
  | watching => exact Absorbed.append progress more
  | absorptionDetected => exact Absorbed.append progress more
  | confirming => exact Triggered.append progress more
  | idle | readyToExecute | executing | cooldown => trivial

theorem Moves.progress {next : TriggerState} {rest : SymbolStateMachine}
    (moves : Moves machine event currentPrice volume next rest)
    (progress : Progress machine.config machine.currentState machine.confirmationCount history) :
    Progress machine.config next rest.confirmationCount (history ++ [⟨event, volume⟩]) := by
  cases moves with
  | watch idle starts =>
    refine ⟨history ++ [⟨event, volume⟩], [], (List.append_nil _).symm, ?_, Nat.zero_le _⟩
    exact ⟨⟨event, volume⟩, List.mem_append_right _ (List.mem_singleton_self _), starts⟩
  | count watching confirmed enough =>
    rw [watching] at progress
    have more := Absorbed.confirm progress ⟨event, volume⟩ (by
      simp only [MarketEvent.confirms, confirmed, enough, decide_true, Bool.and_self])
    exact more.weaken (by dsimp only; omega)
  | detect watching confirmed enough many =>
    rw [watching] at progress
    have more := Absorbed.confirm progress ⟨event, volume⟩ (by
      simp only [MarketEvent.confirms, confirmed, enough, decide_true, Bool.and_self])
    exact more.weaken (by omega)
  | trigger detected triggered =>
    rw [detected] at progress
    exact ⟨history, [⟨event, volume⟩], rfl, progress, ⟨event, volume⟩, List.mem_singleton_self _,
      triggered⟩
  | fire | giveUp => trivial
  | stay => exact Progress.append progress _

end Histories

namespace ConfirmedSignals

/-! ## Runs -/

/-- One call on a machine. -/
inductive MachineCall where
  | process (event : TriggerEvent) (symbol : String) (currentPrice volume : ℚ)
  | setType (type : AbsorptionType)
  /-- `start_execution`. -/
  | start
  /-- `complete_execution`. -/
  | complete

/-- A call and its timestamp. -/
structure TimedCall where
  ts : Nat
  call : MachineCall

/-- A machine with what it did so far. -/
structure Session where
  machine : SymbolStateMachine
  /-- The last timestamp. -/
  clockNs : Nat
  /-- The events since the machine was last idle. -/
  history : List MarketEvent
  /-- The last `complete_execution`. -/
  completedNs : Option Nat
  /-- The last type set since the previous setup ended. -/
  named : Option AbsorptionType
  /-- The answer to the last call. -/
  answer : Option TransitionResult

/-- A session of a new machine. -/
def Session.start (config : TriggerConfig) : Session where
  machine := .new config
  clockNs := 0
  history := []
  completedNs := none
  named := none
  answer := none

/-- The events since the machine was last idle, after one more event. -/
def historyAfter (session : Session) (event : MarketEvent) (after : SymbolStateMachine) :
    List MarketEvent :=
  if after.currentState = .idle then []
  else if session.machine.currentState = .cooldown ∧ after.currentState ≠ .cooldown then [event]
  else session.history ++ [event]

/-- The type set for the setup after an event: none if a cancellation or a timeout ended it. -/
def namedAfter (session : Session) (event : TriggerEvent) (after : SymbolStateMachine) :
    Option AbsorptionType :=
  if (event = .cancellation ∨ event = .timeout) ∧ session.machine.currentState ≠ .idle ∧
      session.machine.currentState ≠ .cooldown ∧ after.currentState = .idle then none
  else session.named

/-- A session after an event. -/
def processed (session : Session) (event : TriggerEvent) (symbol : String)
    (currentPrice volume : ℚ) (ts : Nat) : Session :=
  let answered := session.machine.processEvent event symbol currentPrice volume ts
  { session with
    machine := answered.2
    clockNs := ts
    history := historyAfter session ⟨event, volume⟩ answered.2
    named := namedAfter session event answered.2
    answer := answered.1 }

/-- A session after a call; timestamps do not go back. -/
def step (session : Session) (timed : TimedCall) : Option Session :=
  if timed.ts < session.clockNs then none
  else match timed.call with
    | .process event symbol currentPrice volume =>
      some (processed session event symbol currentPrice volume timed.ts)
    | .setType type => some { session with
        machine := session.machine.setAbsorptionType type
        clockNs := timed.ts
        named := some type
        answer := none }
    | .start => some { session with
        machine := session.machine.startExecution timed.ts
        clockNs := timed.ts
        answer := none }
    | .complete => some { session with
        machine := session.machine.completeExecution timed.ts
        clockNs := timed.ts
        completedNs := some timed.ts
        named := none
        answer := none }

/-- A signal comes after a confirmed setup and the cooldown, and is short exactly if the last type
set for this setup is bearish. -/
def SignalSound (session : Session) : Prop :=
  ∀ result ∈ session.answer, result.shouldExecute = true →
    Confirmed session.machine.config session.history ∧
    (∀ completedNs ∈ session.completedNs,
      completedNs + session.machine.config.cooldownNs ≤ session.clockNs) ∧
    ∃ signal, result.signal = some signal ∧
      (signal.direction = .short ↔ session.named = some .askAbsorption)

/-- At the event that ends a confirmed setup a type was set for this setup, or the machine does
not remember a bearish one. -/
def TypeKnown (session : Session) (timed : TimedCall) : Prop :=
  match timed.call with
  | .process event .. =>
    session.machine.currentState = .confirming →
      (event = .exhaustionSignal ∨ event = .priceBreakout) →
        session.named ≠ none ∨ session.machine.absorptionType ≠ some .askAbsorption
  | _ => True

instance (session : Session) : DecidablePred (TypeKnown session) := fun timed =>
  match timed with
  | ⟨_, .process ..⟩ => inferInstanceAs (Decidable (_ → (_ ∨ _) → (_ ∨ _)))
  | ⟨_, .setType _⟩ | ⟨_, .start⟩ | ⟨_, .complete⟩ => inferInstanceAs (Decidable True)

/-- What every session knows of its machine. -/
structure Coherent (session : Session) : Prop where
  /-- What the setup has behind it. -/
  progress : Progress session.machine.config session.machine.currentState
    session.machine.confirmationCount session.history
  /-- A machine that is not executing or cooling down waited for its cooldown. -/
  waited : session.machine.currentState ≠ .cooldown → session.machine.currentState ≠ .executing →
    ∀ completedNs ∈ session.completedNs,
      completedNs + session.machine.config.cooldownNs ≤ session.clockNs
  /-- The machine keeps the time of the last completion. -/
  kept : ∀ completedNs ∈ session.completedNs,
    session.machine.lastExecutionNs = completedNs ∧ completedNs ≤ session.clockNs
  /-- The machine remembers the type set for the setup. -/
  remembered : ∀ type ∈ session.named, session.machine.absorptionType = some type

section Runs

variable {session next : Session} {timed : TimedCall} {ts : Nat}

section

variable (coherent : Coherent session)
include coherent

theorem coherent_asleep (forward : session.clockNs ≤ ts)
    (cold : session.machine.currentState = .cooldown) (history : List MarketEvent)
    (answer : Option TransitionResult) :
    Coherent { session with clockNs := ts, history := history, answer := answer } where
  progress := by
    dsimp only
    rw [cold]
    trivial
  waited := fun warm => absurd cold warm
  kept := fun completedNs completed =>
    ⟨(coherent.kept completedNs completed).1,
      Nat.le_trans (coherent.kept completedNs completed).2 forward⟩
  remembered := coherent.remembered

theorem waited_of_awake (forward : session.clockNs ≤ ts) {awake : SymbolStateMachine}
    (woken : session.machine.wake ts = some awake) :
    awake.currentState ≠ .cooldown ∧ (awake.currentState ≠ .executing →
      ∀ completedNs ∈ session.completedNs,
        completedNs + session.machine.config.cooldownNs ≤ ts) := by
  rcases SymbolStateMachine.wake_cases woken with ⟨warm, rfl⟩ | ⟨cold, over_, rfl⟩
  · refine ⟨warm, fun placing completedNs completed => ?_⟩
    exact Nat.le_trans (coherent.waited warm placing completedNs completed) forward
  · refine ⟨TriggerState.noConfusion, fun _ completedNs completed => ?_⟩
    obtain ⟨kept, past⟩ := coherent.kept completedNs completed
    omega

theorem progress_awake {awake rest : SymbolStateMachine}
    (woken : session.machine.wake ts = some awake) {event : TriggerEvent} {currentPrice volume : ℚ}
    {state : TriggerState} (moves : Moves awake event currentPrice volume state rest) :
    Progress awake.config state rest.confirmationCount
      (historyAfter session ⟨event, volume⟩ { rest with currentState := state }) := by
  unfold historyAfter
  dsimp only
  split
  · next idle => subst idle; trivial
  · rcases SymbolStateMachine.wake_cases woken with ⟨warm, rfl⟩ | ⟨cold, -, rfl⟩
    · rw [if_neg fun woke => warm woke.1]
      exact moves.progress coherent.progress
    · have fresh := @Moves.progress _ event currentPrice volume [] state rest moves trivial
      split
      · exact fresh
      · next asleep =>
        have still : state = .cooldown := by
          by_contra woke
          exact asleep ⟨cold, woke⟩
        subst still
        trivial

theorem coherent_processed (forward : session.clockNs ≤ ts) (event : TriggerEvent) (symbol : String)
    (currentPrice volume : ℚ) :
    Coherent (processed session event symbol currentPrice volume ts) := by
  unfold processed
  cases woken : session.machine.wake ts with
  | none =>
    have cold := SymbolStateMachine.cooldown_of_asleep woken
    rw [SymbolStateMachine.processEvent_asleep woken]
    have same : namedAfter session event session.machine = session.named :=
      if_neg fun ended => ended.2.2.1 cold
    dsimp only
    rw [same]
    exact coherent_asleep coherent forward cold _ none
  | some awake =>
    have moves := awake.transition_moves event currentPrice volume ts
    have after := @SymbolStateMachine.processEvent_awake session.machine event currentPrice volume
      ts symbol awake woken
    dsimp only
    rw [after]
    generalize (awake.transition event currentPrice volume ts).1 = state at moves
    generalize (awake.transition event currentPrice volume ts).2 = rest at moves
    obtain ⟨config, last⟩ := moves.frame
    obtain ⟨warm, waited⟩ := waited_of_awake coherent forward woken
    have frame : awake.config = session.machine.config ∧
        awake.lastExecutionNs = session.machine.lastExecutionNs ∧
        awake.absorptionType = session.machine.absorptionType := by
      rcases SymbolStateMachine.wake_cases woken with ⟨-, rfl⟩ | ⟨-, -, rfl⟩ <;>
        exact ⟨rfl, rfl, rfl⟩
    refine ⟨?_, fun _ placing => ?_, fun completedNs completed => ?_, fun type named => ?_⟩
    · dsimp only
      rw [config]
      exact progress_awake coherent woken moves
    · dsimp only
      rw [config, frame.1]
      exact waited fun executing => placing (moves.of_executing executing)
    · obtain ⟨kept, past⟩ := coherent.kept completedNs completed
      exact ⟨last.trans (frame.2.1.trans kept), Nat.le_trans past forward⟩
    · dsimp only at named ⊢
      unfold namedAfter at named
      split at named
      · cases named
      · next going =>
        have type_ := coherent.remembered type named
        rcases moves.absorptionType with same | ⟨idle, ends, started, -⟩
        · exact same.trans (frame.2.2.trans type_)
        · rcases SymbolStateMachine.wake_cases woken with ⟨cool, rfl⟩ | ⟨-, -, rfl⟩
          · exact absurd ⟨ends, started, cool, idle⟩ going
          · exact absurd rfl started

theorem direction_iff : (session.machine.direction = .short ↔ session.named = some .askAbsorption) ↔
      (session.named ≠ none ∨ session.machine.absorptionType ≠ some .askAbsorption) := by
  have remembered := coherent.remembered
  unfold SymbolStateMachine.direction
  cases named : session.named with
  | some type =>
    rw [remembered type named]
    cases type <;> simp
  | none =>
    cases session.machine.absorptionType with
    | none => simp
    | some type => cases type <;> simp

theorem processed_sound (forward : session.clockNs ≤ ts) (event : TriggerEvent) (symbol : String)
    (currentPrice volume : ℚ) :
    SignalSound (processed session event symbol currentPrice volume ts) ↔
      (session.machine.currentState = .confirming →
        (event = .exhaustionSignal ∨ event = .priceBreakout) →
          session.named ≠ none ∨ session.machine.absorptionType ≠ some .askAbsorption) := by
  by_cases fires : session.machine.currentState = .confirming ∧
      (event = .exhaustionSignal ∨ event = .priceBreakout)
  · obtain ⟨confirming, ends⟩ := fires
    have progress := coherent.progress
    rw [confirming] at progress
    have waited := coherent.waited (by rw [confirming]; decide) (by rw [confirming]; decide)
    rw [forall_prop_of_true confirming, forall_prop_of_true ends, ← direction_iff coherent]
    unfold SignalSound processed
    rw [SymbolStateMachine.processEvent_fire confirming ends]
    have named : namedAfter session event
        { session.machine with currentState := .readyToExecute } = session.named :=
      if_neg fun ended => TriggerState.noConfusion ended.2.2.2
    have history : historyAfter session ⟨event, volume⟩
        { session.machine with currentState := .readyToExecute } =
          session.history ++ [⟨event, volume⟩] := by
      unfold historyAfter
      rw [if_neg TriggerState.noConfusion, if_neg]
      rintro ⟨cold, -⟩
      exact TriggerState.noConfusion (confirming.symm.trans cold)
    dsimp only
    rw [named, history]
    have confirmed : Confirmed session.machine.config (session.history ++ [⟨event, volume⟩]) :=
      ⟨session.history, ⟨event, volume⟩, rfl, progress, ends⟩
    have late : ∀ completedNs ∈ session.completedNs,
        completedNs + session.machine.config.cooldownNs ≤ ts :=
      fun completedNs completed => Nat.le_trans (waited completedNs completed) forward
    constructor
    · intro sound
      obtain ⟨-, -, signal, same, direction⟩ := sound _ rfl rfl
      cases same
      exact direction
    · rintro direction result member -
      cases member
      exact ⟨confirmed, late, _, rfl, direction⟩
  · refine iff_of_true (fun result member executes => ?_) fun confirming ends =>
      absurd ⟨confirming, ends⟩ fires
    have silent := SymbolStateMachine.processEvent_silent fires result member
    exact absurd (silent.symm.trans executes) Bool.false_ne_true

theorem coherent_step (taken : step session timed = some next) : Coherent next := by
  obtain ⟨ts, call⟩ := timed
  unfold step at taken
  split at taken
  · cases taken
  · next inOrder =>
    have forward : session.clockNs ≤ ts := Nat.not_lt.mp inOrder
    have kept : ∀ completedNs ∈ session.completedNs,
        session.machine.lastExecutionNs = completedNs ∧ completedNs ≤ ts :=
      fun completedNs completed => ⟨(coherent.kept completedNs completed).1,
        Nat.le_trans (coherent.kept completedNs completed).2 forward⟩
    cases call with
    | process event symbol currentPrice volume =>
      cases taken
      exact coherent_processed coherent forward event symbol currentPrice volume
    | setType type =>
      cases taken
      refine ⟨coherent.progress, fun warm placing completedNs completed => ?_, kept, ?_⟩
      · exact Nat.le_trans (coherent.waited warm placing completedNs completed) forward
      · rintro type_ named
        exact named
    | start =>
      cases taken
      exact ⟨trivial, fun _ placing => absurd rfl placing, kept, coherent.remembered⟩
    | complete =>
      cases taken
      refine ⟨trivial, fun warm => absurd rfl warm, fun completedNs completed => ?_, nofun⟩
      cases completed
      exact ⟨rfl, Nat.le_refl _⟩

/-- One call keeps the signal sound exactly when its type is known. -/
theorem sound_step (taken : step session timed = some next) :
    SignalSound next ↔ TypeKnown session timed := by
  obtain ⟨ts, call⟩ := timed
  unfold step at taken
  split at taken
  · cases taken
  · next inOrder =>
    cases call with
    | process event symbol currentPrice volume =>
      cases taken
      exact processed_sound coherent (Nat.not_lt.mp inOrder) event symbol currentPrice volume
    | setType | start | complete =>
      cases taken
      exact iff_of_true (fun result member => absurd member (Option.not_mem_none result)) trivial

end

/-- Along every run of a new machine every signal is sound if and only if the type is known
wherever a signal is given. -/
theorem signals_sound_iff (config : TriggerConfig) (calls : List TimedCall) :
    Always step SignalSound (.start config) calls ↔
      Guarded step TypeKnown (.start config) calls := by
  have coherent : Coherent (.start config) :=
    ⟨trivial, fun _ _ => nofun, nofun, nofun⟩
  exact @always_iff_guarded _ _ step Coherent SignalSound TypeKnown
    (fun _ _ _ coherent taken => coherent_step coherent taken)
    (fun _ _ _ coherent _ taken => sound_step coherent taken) (.start config) coherent
    (fun result member => absurd member (Option.not_mem_none result)) calls

/-- The events of a setup up to its signal, from a time on. -/
def fullSetup (ts : Nat) : List TimedCall :=
  [⟨ts, .process .absorptionStart "BTCUSDT" 60000 5⟩,
    ⟨ts + 1, .process .absorptionConfirmed "BTCUSDT" 60000 10⟩,
    ⟨ts + 2, .process .volumeSpike "BTCUSDT" 60000 10⟩,
    ⟨ts + 3, .process .priceBreakout "BTCUSDT" 60000 10⟩]

/-- A bearish setup that is executed, and after the cooldown a setup without a type. -/
def staleType : List TimedCall :=
  [⟨1, .setType .askAbsorption⟩] ++ fullSetup 2 ++ [⟨6, .start⟩, ⟨7, .complete⟩] ++
    fullSetup 60000000007

/-- The type left behind by an executed setup decides the direction of the next signal. -/
theorem stale_type_shorts : ¬∀ (config : TriggerConfig) (calls : List TimedCall),
    Always step SignalSound (.start config) calls := by
  intro claim
  refine @not_always_of_view _ _ step _ (fun session => (session.named, session.answer.map
    fun result => (result.shouldExecute, result.signal.map ExecutionSignal.direction)))
    (none, some (true, some .short)) SignalSound (.start .default) staleType (by decide +kernel) ?_
    (claim .default staleType)
  intro final seen sound
  obtain ⟨named, answered⟩ := Prod.mk.inj seen
  obtain ⟨result, answer, shown⟩ := Option.map_eq_some_iff.mp answered
  obtain ⟨executes, directed⟩ := Prod.mk.inj shown
  obtain ⟨-, -, signal, given, direction⟩ := sound result answer executes
  rw [given] at directed
  have short := direction.mp (Option.some.inj directed)
  rw [named] at short
  cases short

end Runs

end ConfirmedSignals

end TradingBot.Orderflow
