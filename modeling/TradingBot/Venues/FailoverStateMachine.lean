import TradingBot.Foundation.Dict
import TradingBot.Foundation.MachineInt

/-!
# Failover state machine

`FailoverStateMachine`: the failover state, counters and active venue of every registered id. The
transition history, its counts and the clock are left out; an id and a venue are natural numbers,
and a counter is one that saturates at the largest `u32`.
-/

open MachineInt

namespace TradingBot.Venues

/-- `FailoverState`. -/
inductive FailoverState where
  /-- Normal operation, primary venue active. -/
  | primary
  /-- In process of switching to backup. -/
  | failingOver
  | backupActive
  | recovering
  /-- All venues degraded, emergency mode. -/
  | emergency
  deriving DecidableEq, Repr

/-- `FailoverEvent`. -/
inductive FailoverEvent where
  | healthCheckFailed
  | webSocketDisconnect
  | rateLimitExceeded
  | latencySpike
  | manualTrigger
  | recoveryDetected
  | heartbeatOk
  deriving DecidableEq, Repr

/-- `FailoverAction`. -/
inductive FailoverAction where
  | cancelPendingOrders
  | reconnectWebSocket
  | switchPrimaryVenue (venue : Nat)
  | switchBackupVenue (venue : Nat)
  | flattenPositions
  | pauseTrading
  | resumeTrading
  | notifyOperator

/-- `FailoverConfig`: what the transitions read of it. -/
structure FailoverConfig where
  primaryVenue : Nat
  backupVenues : List Nat
  failoverThresholdFailures : Nat
  recoveryThresholdSuccesses : Nat
  failuresFit : failoverThresholdFailures ≤ u32Max
  successesFit : recoveryThresholdSuccesses ≤ u32Max

/-- `TransitionResult`. -/
structure TransitionResult where
  fromState : FailoverState
  toState : FailoverState
  event : FailoverEvent
  actionRequired : List FailoverAction

/-- `FailoverStateMachine`. -/
structure FailoverStateMachine where
  states : Dict Nat FailoverState
  configs : Dict Nat FailoverConfig
  failureCounts : Dict Nat Nat
  successCounts : Dict Nat Nat
  activeVenues : Dict Nat Nat
  emergencyMode : Bool

/-- A failed check, a disconnect, a rate limit or a latency spike. -/
def FailoverEvent.isFailure : FailoverEvent → Bool
  | .healthCheckFailed => true
  | .webSocketDisconnect => true
  | .rateLimitExceeded => true
  | .latencySpike => true
  | .manualTrigger => false
  | .recoveryDetected => false
  | .heartbeatOk => false

/-- A heartbeat or a detected recovery. -/
def FailoverEvent.isSuccess : FailoverEvent → Bool
  | .heartbeatOk => true
  | .recoveryDetected => true
  | .healthCheckFailed => false
  | .webSocketDisconnect => false
  | .rateLimitExceeded => false
  | .latencySpike => false
  | .manualTrigger => false

/-- `saturating_add(1)` of a `u32`. -/
def saturatingSucc (count : Nat) : Nat := min (count + 1) u32Max

namespace FailoverStateMachine

def new : FailoverStateMachine := ⟨.empty, .empty, .empty, .empty, .empty, false⟩

def register (machine : FailoverStateMachine) (id : Nat) (config : FailoverConfig) :
    FailoverStateMachine :=
  { machine with
    states := machine.states.put id .primary
    configs := machine.configs.put id config
    failureCounts := machine.failureCounts.put id 0
    successCounts := machine.successCounts.put id 0
    activeVenues := machine.activeVenues.put id config.primaryVenue }

def getState (machine : FailoverStateMachine) (id : Nat) : Option FailoverState :=
  machine.states.get id

def getConfig (machine : FailoverStateMachine) (id : Nat) : Option FailoverConfig :=
  machine.configs.get id

def getActiveVenue (machine : FailoverStateMachine) (id : Nat) : Option Nat :=
  machine.activeVenues.get id

def getFailureCount (machine : FailoverStateMachine) (id : Nat) : Nat :=
  (machine.failureCounts.get id).getD 0

def getSuccessCount (machine : FailoverStateMachine) (id : Nat) : Nat :=
  (machine.successCounts.get id).getD 0

def exitEmergency (machine : FailoverStateMachine) : FailoverStateMachine :=
  { machine with emergencyMode := false }

/-- `calculate_transition`. The counters it reads are those of id 0. -/
def calculateTransition (machine : FailoverStateMachine) (current : FailoverState)
    (event : FailoverEvent) (config : FailoverConfig) : FailoverState × List FailoverAction :=
  match current, event with
  | .primary, .healthCheckFailed =>
    let failures := machine.getFailureCount 0
    if config.failoverThresholdFailures ≤ failures then (.failingOver, [.notifyOperator])
    else (.primary, [])
  | .primary, .webSocketDisconnect => (.failingOver, [.cancelPendingOrders, .reconnectWebSocket])
  | .primary, .rateLimitExceeded =>
    match config.backupVenues.head? with
    | some backup => (.backupActive, [.switchBackupVenue backup])
    | none => (.emergency, [.pauseTrading])
  | .failingOver, .heartbeatOk => (.failingOver, [])
  | .backupActive, .recoveryDetected => (.recovering, [.notifyOperator])
  | .recovering, .heartbeatOk =>
    let successes := machine.getSuccessCount 0
    if config.recoveryThresholdSuccesses ≤ successes then
      (.primary, [.switchPrimaryVenue config.primaryVenue, .resumeTrading])
    else (.recovering, [])
  | current, .latencySpike =>
    if machine.emergencyMode then (.emergency, [.flattenPositions]) else (current, [])
  | current, _ => (current, [])

def updateCounters (machine : FailoverStateMachine) (id : Nat) (event : FailoverEvent) :
    FailoverStateMachine :=
  if event.isFailure then
    { machine with
      failureCounts := machine.failureCounts.put id (saturatingSucc (machine.getFailureCount id))
      successCounts := machine.successCounts.put id 0 }
  else if event.isSuccess then
    { machine with
      successCounts := machine.successCounts.put id (saturatingSucc (machine.getSuccessCount id))
      failureCounts := machine.failureCounts.put id 0 }
  else machine

/-- The venue that `execute_transition` makes active in a state, if it changes the venue. -/
def venueOf (config : FailoverConfig) : FailoverState → Option Nat
  | .primary => some config.primaryVenue
  | .backupActive => config.backupVenues.head?
  | .failingOver => none
  | .recovering => none
  | .emergency => none

/-- `execute_transition`, its result apart. -/
def executeTransition (machine : FailoverStateMachine) (id : Nat) (state : FailoverState)
    (event : FailoverEvent) : FailoverStateMachine :=
  let moved := { machine with states := machine.states.put id state }
  let switched :=
    match (machine.getConfig id).bind fun config => venueOf config state with
    | none => moved
    | some venue => { moved with activeVenues := moved.activeVenues.put id venue }
  let counted := switched.updateCounters id event
  { counted with
    emergencyMode := if state = .emergency then true else counted.emergencyMode }

def processEvent (machine : FailoverStateMachine) (id : Nat) (event : FailoverEvent) :
    Option TransitionResult × FailoverStateMachine :=
  match machine.getState id, machine.getConfig id with
  | some current, some config =>
    let transition := machine.calculateTransition current event config
    if transition.1 = current then (none, machine.updateCounters id event)
    else (some ⟨current, transition.1, event, transition.2⟩,
      machine.executeTransition id transition.1 event)
  | _, _ => (none, machine)

/-- A machine with every id of a list registered. -/
def registered (registrations : List (Nat × FailoverConfig)) : FailoverStateMachine :=
  registrations.foldl (fun machine entry => machine.register entry.1 entry.2) .new

theorem registered_induction {property : FailoverStateMachine → Prop}
    {registrations : List (Nat × FailoverConfig)} (fresh : property .new)
    (kept : ∀ machine, property machine → ∀ entry ∈ registrations,
      property (machine.register entry.1 entry.2)) : property (.registered registrations) :=
  List.foldlRecOn registrations _ fresh kept

/-! ## What an event does -/

section Events

variable {machine : FailoverStateMachine} {id other : Nat} {event : FailoverEvent}
  {state current : FailoverState} {config : FailoverConfig}

/-- The failure counter after an event. -/
def failuresAfter (event : FailoverEvent) (failures : Nat) : Nat :=
  if event.isFailure then saturatingSucc failures
  else if event.isSuccess then 0 else failures

/-- The success counter after an event. -/
def successesAfter (event : FailoverEvent) (successes : Nat) : Nat :=
  if event.isFailure then 0
  else if event.isSuccess then saturatingSucc successes else successes

theorem failures_updateCounters :
    (machine.updateCounters id event).getFailureCount other =
      if other = id then failuresAfter event (machine.getFailureCount id)
      else machine.getFailureCount other := by
  unfold updateCounters failuresAfter
  split
  · dsimp only [getFailureCount]
    rw [Dict.get_put]
    split <;> rfl
  · split
    · dsimp only [getFailureCount]
      rw [Dict.get_put]
      split <;> rfl
    · split
      · rename_i same
        rw [same]
      · rfl

theorem successes_updateCounters :
    (machine.updateCounters id event).getSuccessCount other =
      if other = id then successesAfter event (machine.getSuccessCount id)
      else machine.getSuccessCount other := by
  unfold updateCounters successesAfter
  split
  · dsimp only [getSuccessCount]
    rw [Dict.get_put]
    split <;> rfl
  · split
    · dsimp only [getSuccessCount]
      rw [Dict.get_put]
      split <;> rfl
    · split
      · rename_i same
        rw [same]
      · rfl

theorem updateCounters_frame :
    (machine.updateCounters id event).states = machine.states ∧
      (machine.updateCounters id event).configs = machine.configs ∧
      (machine.updateCounters id event).activeVenues = machine.activeVenues ∧
      (machine.updateCounters id event).emergencyMode = machine.emergencyMode := by
  unfold updateCounters
  split
  · exact ⟨rfl, rfl, rfl, rfl⟩
  · split
    · exact ⟨rfl, rfl, rfl, rfl⟩
    · exact ⟨rfl, rfl, rfl, rfl⟩

/-- The active venue after a transition from one state to another. -/
def venueAfter (config : FailoverConfig) (current state : FailoverState) (venue : Option Nat) :
    Option Nat :=
  if state = current then venue else (venueOf config state).or venue

/-- What an event of an id leaves: the id is in its new state, and nothing of another id is
changed. -/
structure Moved (machine next : FailoverStateMachine) (id : Nat) (event : FailoverEvent)
    (current state : FailoverState) (config : FailoverConfig) : Prop where
  states : ∀ other, next.getState other = if other = id then some state else machine.getState other
  configs : next.configs = machine.configs
  failures : ∀ other, next.getFailureCount other =
    if other = id then failuresAfter event (machine.getFailureCount id)
    else machine.getFailureCount other
  successes : ∀ other, next.getSuccessCount other =
    if other = id then successesAfter event (machine.getSuccessCount id)
    else machine.getSuccessCount other
  venues : ∀ other, next.getActiveVenue other =
    if other = id then venueAfter config current state (machine.getActiveVenue id)
    else machine.getActiveVenue other
  emergency : next.emergencyMode =
    if state ≠ current ∧ state = .emergency then true else machine.emergencyMode

theorem moved_updateCounters (found : machine.getState id = some current) :
    Moved machine (machine.updateCounters id event) id event current current config := by
  obtain ⟨states, configs, venues, emergency⟩ := @updateCounters_frame machine id event
  refine ⟨fun other => ?_, configs, fun other => failures_updateCounters,
    fun other => successes_updateCounters, fun other => ?_, ?_⟩
  · dsimp only [getState]
    rw [states]
    split
    · rename_i same
      rw [same]
      exact found
    · rfl
  · dsimp only [getActiveVenue, venueAfter]
    rw [venues, if_pos rfl]
    split
    · rename_i same
      rw [same]
    · rfl
  · rw [emergency, if_neg fun changed => changed.1 rfl]

theorem moved_executeTransition (changed : state ≠ current)
    (configured : machine.getConfig id = some config) :
    Moved machine (machine.executeTransition id state event) id event current state config := by
  have venue : (machine.getConfig id).bind (fun config => venueOf config state) =
      venueOf config state := by
    rw [configured]
    rfl
  unfold executeTransition
  dsimp only
  rw [venue]
  cases switched : venueOf config state with
  | none =>
    obtain ⟨states, configs, venues, emergency⟩ := @updateCounters_frame
      { machine with states := machine.states.put id state } id event
    refine ⟨fun other => ?_, configs, fun other => failures_updateCounters,
      fun other => successes_updateCounters, fun other => ?_, ?_⟩
    · dsimp only [getState]
      rw [states, Dict.get_put]
    · dsimp only [getActiveVenue, venueAfter]
      rw [venues, if_neg changed, switched]
      split
      · rename_i same
        rw [same]
        rfl
      · rfl
    · dsimp only
      rw [emergency]
      simp only [changed, ne_eq, not_false_eq_true, true_and]
  | some venue =>
    obtain ⟨states, configs, venues, emergency⟩ := @updateCounters_frame
      { machine with
        states := machine.states.put id state
        activeVenues := machine.activeVenues.put id venue } id event
    refine ⟨fun other => ?_, configs, fun other => failures_updateCounters,
      fun other => successes_updateCounters, fun other => ?_, ?_⟩
    · dsimp only [getState]
      rw [states, Dict.get_put]
    · dsimp only [getActiveVenue, venueAfter]
      rw [venues, if_neg changed, switched, Dict.get_put]
      rfl
    · dsimp only
      rw [emergency]
      simp only [changed, ne_eq, not_false_eq_true, true_and]

/-- An event makes the transition that was calculated. -/
theorem moved_processEvent (found : machine.getState id = some current)
    (configured : machine.getConfig id = some config) :
    Moved machine (machine.processEvent id event).2 id event current
      (machine.calculateTransition current event config).1 config := by
  unfold processEvent
  rw [found, configured]
  dsimp only
  by_cases same : (machine.calculateTransition current event config).1 = current
  · rw [if_pos same, same]
    exact moved_updateCounters found
  · rw [if_neg same]
    exact moved_executeTransition same configured

theorem processEvent_cases (machine : FailoverStateMachine) (id : Nat) (event : FailoverEvent) :
    (machine.processEvent id event).2 = machine ∨ ∃ current state config,
      Moved machine (machine.processEvent id event).2 id event current state config := by
  cases found : machine.getState id with
  | none =>
    left
    unfold processEvent
    rw [found]
  | some current =>
    cases configured : machine.getConfig id with
    | none =>
      left
      unfold processEvent
      rw [found, configured]
    | some config => exact .inr ⟨current, _, config, moved_processEvent found configured⟩

/-- The transitions that change the state. -/
inductive Leads (machine : FailoverStateMachine) (config : FailoverConfig) :
    FailoverState → FailoverEvent → FailoverState → Prop where
  /-- Enough failures, of id 0. -/
  | failedChecks (enough : config.failoverThresholdFailures ≤ machine.getFailureCount 0) :
      Leads machine config .primary .healthCheckFailed .failingOver
  | disconnect : Leads machine config .primary .webSocketDisconnect .failingOver
  | rateLimited {backup : Nat} (first : config.backupVenues.head? = some backup) :
      Leads machine config .primary .rateLimitExceeded .backupActive
  /-- A rate limit, without a backup. -/
  | noBackup (none_ : config.backupVenues.head? = none) :
      Leads machine config .primary .rateLimitExceeded .emergency
  | recovery : Leads machine config .backupActive .recoveryDetected .recovering
  /-- Enough successes, of id 0. -/
  | restored (enough : config.recoveryThresholdSuccesses ≤ machine.getSuccessCount 0) :
      Leads machine config .recovering .heartbeatOk .primary
  /-- A latency spike in the emergency mode. -/
  | spike {current : FailoverState} (mode : machine.emergencyMode = true) :
      Leads machine config current .latencySpike .emergency

/-- A transition leads on or stays. -/
theorem calculateTransition_cases :
    (machine.calculateTransition current event config).1 = current ∨
      Leads machine config current event
        (machine.calculateTransition current event config).1 := by
  cases event with
  | healthCheckFailed =>
    cases current <;> try exact .inl rfl
    dsimp only [calculateTransition]
    split
    · rename_i enough
      exact .inr (.failedChecks enough)
    · exact .inl rfl
  | webSocketDisconnect =>
    cases current <;> try exact .inl rfl
    exact .inr .disconnect
  | rateLimitExceeded =>
    cases current <;> try exact .inl rfl
    dsimp only [calculateTransition]
    split
    · rename_i first
      exact .inr (.rateLimited first)
    · rename_i none_
      exact .inr (.noBackup none_)
  | latencySpike =>
    have spiked : (machine.calculateTransition current .latencySpike config).1 =
        if machine.emergencyMode then .emergency else current := by
      cases current <;> dsimp only [calculateTransition] <;> split <;> rfl
    rw [spiked]
    split
    · rename_i mode
      exact .inr (.spike mode)
    · exact .inl rfl
  | manualTrigger => cases current <;> exact .inl rfl
  | recoveryDetected =>
    cases current <;> try exact .inl rfl
    exact .inr .recovery
  | heartbeatOk =>
    cases current <;> try exact .inl rfl
    dsimp only [calculateTransition]
    split
    · rename_i enough
      exact .inr (.restored enough)
    · exact .inl rfl

/-- Transitions of two machines differ only by what they read of id 0, or in a latency spike by
their emergency modes. -/
theorem calculateTransition_congr {other : FailoverStateMachine} (calm : event ≠ .latencySpike)
    (failing : event = .healthCheckFailed → current = .primary →
      (config.failoverThresholdFailures ≤ machine.getFailureCount 0 ↔
        config.failoverThresholdFailures ≤ other.getFailureCount 0))
    (recovering : event = .heartbeatOk → current = .recovering →
      (config.recoveryThresholdSuccesses ≤ machine.getSuccessCount 0 ↔
        config.recoveryThresholdSuccesses ≤ other.getSuccessCount 0)) :
    (machine.calculateTransition current event config).1 =
      (other.calculateTransition current event config).1 := by
  cases event with
  | healthCheckFailed =>
    cases current <;> try rfl
    dsimp only [calculateTransition]
    simp only [failing rfl rfl]
  | heartbeatOk =>
    cases current <;> try rfl
    dsimp only [calculateTransition]
    simp only [recovering rfl rfl]
  | latencySpike => exact absurd rfl calm
  | webSocketDisconnect => cases current <;> rfl
  | rateLimitExceeded => cases current <;> rfl
  | manualTrigger => cases current <;> rfl
  | recoveryDetected => cases current <;> rfl

end Events

end FailoverStateMachine

end TradingBot.Venues
