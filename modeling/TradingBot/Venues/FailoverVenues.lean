import TradingBot.Foundation.Run
import TradingBot.Venues.FailoverStateMachine

/-!
# Where a failover ends

The active venue of an id belongs to its state in every run. No event leads on from the states
`FailingOver` and `Emergency`, though, so an id whose primary venue failed by a disconnect or by
failed checks keeps that venue.
-/

open Run

namespace TradingBot.Venues

namespace FailoverVenues

open FailoverStateMachine

/-- One call on a machine. -/
inductive Call where
  /-- `process_event`. -/
  | event (id : Nat) (event : FailoverEvent)
  | exitEmergency

/-- The machine after a call. -/
def step (machine : FailoverStateMachine) : Call → Option FailoverStateMachine
  | .event id event => some (machine.processEvent id event).2
  | .exitEmergency => some machine.exitEmergency

/-- A configuration with a backup that is not its primary venue. -/
def BackedUp (config : FailoverConfig) : Prop :=
  config.backupVenues ≠ [] ∧ config.primaryVenue ∉ config.backupVenues

instance : DecidablePred BackedUp := fun config =>
  inferInstanceAs (Decidable (config.backupVenues ≠ [] ∧ _ ∉ config.backupVenues))

/-- The active venue of an id is one of its backups. -/
def OnBackup (machine : FailoverStateMachine) (id : Nat) (config : FailoverConfig) : Prop :=
  ∃ venue ∈ config.backupVenues, machine.getActiveVenue id = some venue

/-- The active venue of an id belongs to its state, and from `FailingOver` and `Emergency` some
calls lead on: to a backup venue, and out of the emergency. -/
structure WellPlaced (machine : FailoverStateMachine) (id : Nat) (config : FailoverConfig) :
    Prop where
  backup : machine.getState id = some .backupActive ∨ machine.getState id = some .recovering →
    OnBackup machine id config
  primary : machine.getState id = some .primary →
    machine.getActiveVenue id = some config.primaryVenue
  failingOver : machine.getState id = some .failingOver →
    ∃ calls final, exec step machine calls = some final ∧ OnBackup final id config
  emergency : machine.getState id = some .emergency →
    ∃ calls final, exec step machine.exitEmergency calls = some final ∧
      final.getState id ≠ some .emergency

/-- Every id with a backup is well placed. -/
def AllPlaced (machine : FailoverStateMachine) : Prop :=
  ∀ id config, machine.getConfig id = some config → BackedUp config → WellPlaced machine id config

/-- An event of an id with a backup takes it neither to `FailingOver` nor to `Emergency`: it is no
disconnect of a primary id, no failed check of a primary id while the failures of id 0 meet the
threshold, and no latency spike in the emergency mode. -/
def LeadsOn (machine : FailoverStateMachine) : Call → Prop
  | .event id event =>
    match machine.getConfig id, machine.getState id with
    | some config, some state => BackedUp config →
      ¬ (state = .primary ∧ event = .webSocketDisconnect) ∧
      ¬ (state = .primary ∧ event = .healthCheckFailed ∧
        config.failoverThresholdFailures ≤ machine.getFailureCount 0) ∧
      ¬ (event = .latencySpike ∧ machine.emergencyMode = true)
    | _, _ => True
  | .exitEmergency => True

/-! ## The venue of a state -/

/-- The venue of an id in a state: its primary venue while it is primary or failing over, and a
backup while it uses one. -/
def VenueFits (config : FailoverConfig) (venue : Option Nat) : FailoverState → Prop
  | .primary => venue = some config.primaryVenue
  | .failingOver => venue = some config.primaryVenue
  | .backupActive => ∃ backup ∈ config.backupVenues, venue = some backup
  | .recovering => ∃ backup ∈ config.backupVenues, venue = some backup
  | .emergency => True

/-- Every id has a configuration, and one with a backup has a venue that fits its state. -/
structure Kept (machine : FailoverStateMachine) : Prop where
  configured : ∀ id state, machine.getState id = some state → ∃ config,
    machine.getConfig id = some config
  started : ∀ id config, machine.getConfig id = some config → ∃ state,
    machine.getState id = some state
  fits : ∀ id config state, machine.getConfig id = some config → BackedUp config →
    machine.getState id = some state → VenueFits config (machine.getActiveVenue id) state

section Transitions

variable {machine : FailoverStateMachine} {current : FailoverState} {event : FailoverEvent}
  {config : FailoverConfig} {venue : Option Nat}

theorem venueFits_transition (backed : BackedUp config)
    (fits : VenueFits config venue current) :
    VenueFits config
      (venueAfter config current (machine.calculateTransition current event config).1 venue)
      (machine.calculateTransition current event config).1 := by
  rcases @calculateTransition_cases machine event current config with same | leads
  · rw [same, venueAfter, if_pos rfl]
    exact fits
  · generalize (machine.calculateTransition current event config).1 = state at leads
    cases leads with
    | failedChecks enough => exact fits
    | disconnect => exact fits
    | rateLimited first =>
      rw [venueAfter, if_neg FailoverState.noConfusion, venueOf, first]
      exact ⟨_, List.mem_of_mem_head? first, rfl⟩
    | noBackup none_ => exact absurd (List.head?_eq_none_iff.mp none_) backed.1
    | recovery => exact fits
    | restored enough => rfl
    | spike mode => trivial

theorem transition_emergency :
    (machine.calculateTransition .emergency event config).1 = .emergency := by
  rcases @calculateTransition_cases machine event .emergency config with same | leads
  · exact same
  · generalize (machine.calculateTransition .emergency event config).1 = state at leads
    cases leads
    rfl

theorem transition_failingOver :
    ((machine.calculateTransition .failingOver event config).1 = .failingOver ∨
        (machine.calculateTransition .failingOver event config).1 = .emergency) ∧
      venueAfter config .failingOver
        (machine.calculateTransition .failingOver event config).1 venue = venue := by
  rcases @calculateTransition_cases machine event .failingOver config with same | leads
  · rw [same, venueAfter, if_pos rfl]
    exact ⟨.inl rfl, rfl⟩
  · generalize (machine.calculateTransition .failingOver event config).1 = state at leads
    cases leads
    exact ⟨.inr rfl, rfl⟩

/-- The events that take an id with a backup from another state to `FailingOver` or `Emergency`. -/
theorem transition_stops_iff (backed : BackedUp config)
    (moving : current ≠ .failingOver ∧ current ≠ .emergency) :
    ((machine.calculateTransition current event config).1 ≠ .failingOver ∧
        (machine.calculateTransition current event config).1 ≠ .emergency) ↔
      ¬ (current = .primary ∧ event = .webSocketDisconnect) ∧
      ¬ (current = .primary ∧ event = .healthCheckFailed ∧
        config.failoverThresholdFailures ≤ machine.getFailureCount 0) ∧
      ¬ (event = .latencySpike ∧ machine.emergencyMode = true) := by
  constructor
  · intro goesOn
    refine ⟨?_, ?_, ?_⟩
    · rintro ⟨rfl, rfl⟩
      exact goesOn.1 rfl
    · rintro ⟨rfl, rfl, enough⟩
      apply goesOn.1
      dsimp only [calculateTransition]
      rw [if_pos enough]
    · rintro ⟨rfl, mode⟩
      apply goesOn.2
      cases current <;> dsimp only [calculateTransition] <;> rw [if_pos mode]
  · rintro ⟨connected, few, calm⟩
    rcases @calculateTransition_cases machine event current config with same | leads
    · rw [same]
      exact moving
    · generalize (machine.calculateTransition current event config).1 = state at leads
      cases leads with
      | failedChecks enough => exact absurd ⟨rfl, rfl, enough⟩ few
      | disconnect => exact absurd ⟨rfl, rfl⟩ connected
      | rateLimited first => decide
      | noBackup none_ => exact absurd (List.head?_eq_none_iff.mp none_) backed.1
      | recovery => decide
      | restored enough => decide
      | spike mode => exact absurd ⟨rfl, mode⟩ calm

end Transitions

/-! ## Runs -/

section Runs

variable {machine next : FailoverStateMachine} {call : Call} {id : Nat} {config : FailoverConfig}

/-- A call is an event of a machine or changes no state. -/
theorem step_cases (kept : Kept machine) (stepped : step machine call = some next) :
    (∃ id event current config, call = .event id event ∧ machine.getState id = some current ∧
      machine.getConfig id = some config ∧
      Moved machine next id event current
        (machine.calculateTransition current event config).1 config) ∨
    (next.states = machine.states ∧ next.configs = machine.configs ∧
      next.activeVenues = machine.activeVenues ∧ LeadsOn machine call) := by
  cases call with
  | exitEmergency =>
    cases stepped
    exact .inr ⟨rfl, rfl, rfl, trivial⟩
  | event id event =>
    cases stepped
    cases found : machine.getState id with
    | none =>
      have unregistered : LeadsOn machine (.event id event) := by
        dsimp only [LeadsOn]
        split
        · rename_i reached
          exact absurd (found.symm.trans reached) (Option.some_ne_none _).symm
        · trivial
      right
      unfold processEvent
      rw [found]
      exact ⟨rfl, rfl, rfl, unregistered⟩
    | some current =>
      obtain ⟨config, configured⟩ := kept.configured id current found
      exact .inl ⟨id, event, current, config, rfl, found, configured,
        moved_processEvent found configured⟩

theorem kept_register (kept : Kept machine) : Kept (machine.register id config) := by
  have states : ∀ other, (machine.register id config).getState other =
      if other = id then some .primary else machine.getState other :=
    fun other => Dict.get_put _ _ _ _
  have configs : ∀ other, (machine.register id config).getConfig other =
      if other = id then some config else machine.getConfig other :=
    fun other => Dict.get_put _ _ _ _
  have venues : ∀ other, (machine.register id config).getActiveVenue other =
      if other = id then some config.primaryVenue else machine.getActiveVenue other :=
    fun other => Dict.get_put _ _ _ _
  refine ⟨fun other state found => ?_, fun other other_ configured => ?_,
    fun other other_ state configured backed found => ?_⟩
  · rw [configs]
    rw [states] at found
    split
    · exact ⟨config, rfl⟩
    · rename_i different
      rw [if_neg different] at found
      exact kept.configured other state found
  · rw [states]
    rw [configs] at configured
    split
    · exact ⟨.primary, rfl⟩
    · rename_i different
      rw [if_neg different] at configured
      exact kept.started other other_ configured
  · rw [states] at found
    rw [configs] at configured
    rw [venues]
    split
    · rename_i same
      rw [if_pos same] at found configured
      cases found
      cases configured
      rfl
    · rename_i different
      rw [if_neg different] at found configured
      exact kept.fits other other_ state configured backed found

theorem kept_registered (registrations : List (Nat × FailoverConfig)) :
    Kept (.registered registrations) :=
  registered_induction
    ⟨fun _ state found => absurd found (Option.some_ne_none state).symm,
      fun _ config found => absurd found (Option.some_ne_none config).symm,
      fun _ config _ found => absurd found (Option.some_ne_none config).symm⟩
    fun _ kept _ _ => kept_register kept

theorem primary_registered (registrations : List (Nat × FailoverConfig)) :
    ∀ id state, (FailoverStateMachine.registered registrations).getState id = some state →
      state = .primary := by
  refine @registered_induction (fun machine => ∀ id state, machine.getState id = some state →
    state = .primary) _ (fun _ state found => absurd found (Option.some_ne_none state).symm) ?_
  intro machine primary entry _ id state found
  have put : (machine.register entry.1 entry.2).getState id =
      if id = entry.1 then some .primary else machine.getState id := Dict.get_put _ _ _ _
  rw [put] at found
  split at found
  · exact (Option.some.inj found).symm
  · exact primary id state found

theorem kept_step (kept : Kept machine) (stepped : step machine call = some next) :
    Kept next := by
  rcases step_cases kept stepped with
    ⟨id, event, current, config, _, found, configured, moved⟩ | ⟨states, configs, venues, _⟩
  · refine ⟨fun other state member => ?_, fun other other_ member => ?_,
      fun other other_ state member backed reached => ?_⟩
    · rw [getConfig, moved.configs]
      rw [moved.states] at member
      split at member
      · rename_i same
        rw [same]
        exact ⟨config, configured⟩
      · exact kept.configured other state member
    · rw [getConfig, moved.configs] at member
      rw [moved.states]
      split
      · exact ⟨_, rfl⟩
      · exact kept.started other other_ member
    · rw [getConfig, moved.configs] at member
      rw [moved.states] at reached
      rw [moved.venues]
      split
      · rename_i same
        rw [if_pos same] at reached
        cases reached
        rw [same] at member
        cases Option.some.inj (configured.symm.trans member)
        exact venueFits_transition backed (kept.fits id config current configured backed found)
      · rename_i different
        rw [if_neg different] at reached
        exact kept.fits other other_ state member backed reached
  · refine ⟨fun other state member => ?_, fun other other_ member => ?_,
      fun other other_ state member backed reached => ?_⟩
    · rw [getConfig, configs]
      rw [getState, states] at member
      exact kept.configured other state member
    · rw [getState, states]
      rw [getConfig, configs] at member
      exact kept.started other other_ member
    · rw [getActiveVenue, venues]
      rw [getState, states] at reached
      rw [getConfig, configs] at member
      exact kept.fits other other_ state member backed reached

/-- An id that is failing over, or in an emergency that it came to from there, at a venue. -/
def Stuck (id : Nat) (venue : Option Nat) (machine : FailoverStateMachine) : Prop :=
  (machine.getState id = some .failingOver ∨ machine.getState id = some .emergency) ∧
    machine.getActiveVenue id = venue

/-- A machine that is stuck stays stuck. -/
theorem stuck_step {venue : Option Nat} (kept : Kept machine) (stuck : Stuck id venue machine)
    (stepped : step machine call = some next) : Stuck id venue next := by
  rcases step_cases kept stepped with
    ⟨moving, event, current, config, _, found, configured, moved⟩ | ⟨states, _, venues, _⟩
  · unfold Stuck
    rw [moved.states, moved.venues]
    by_cases same : id = moving
    · subst same
      rw [if_pos rfl, if_pos rfl]
      rcases stuck with ⟨failing | emergency, venue⟩
      · cases Option.some.inj (found.symm.trans failing)
        obtain ⟨stays, place⟩ := @transition_failingOver machine event config
          (machine.getActiveVenue id)
        exact ⟨stays.imp (congrArg some) (congrArg some), place.trans venue⟩
      · cases Option.some.inj (found.symm.trans emergency)
        rw [transition_emergency, venueAfter, if_pos rfl]
        exact ⟨.inr rfl, venue⟩
    · rw [if_neg same, if_neg same]
      exact stuck
  · unfold Stuck
    rw [getState, states, getActiveVenue, venues]
    exact stuck

/-- An emergency stays one. -/
theorem emergency_step (kept : Kept machine) (emergency : machine.getState id = some .emergency)
    (stepped : step machine call = some next) : next.getState id = some .emergency := by
  rcases step_cases kept stepped with
    ⟨moving, event, current, config, _, found, configured, moved⟩ | ⟨states, _, _, _⟩
  · rw [moved.states]
    split
    · rename_i same
      subst same
      cases Option.some.inj (found.symm.trans emergency)
      rw [transition_emergency]
    · exact emergency
  · rw [getState, states]
    exact emergency

theorem kept_exitEmergency (kept : Kept machine) : Kept machine.exitEmergency :=
  ⟨kept.configured, kept.started, kept.fits⟩

/-- Every id with a backup is in a state that leads on. -/
def Free (machine : FailoverStateMachine) : Prop :=
  ∀ id config state, machine.getConfig id = some config → BackedUp config →
    machine.getState id = some state → state ≠ .failingOver ∧ state ≠ .emergency

theorem allPlaced_iff (kept : Kept machine) : AllPlaced machine ↔ Free machine := by
  constructor
  · intro placed id config state configured backed found
    have here := placed id config configured backed
    have fits := kept.fits id config state configured backed found
    constructor
    · rintro rfl
      obtain ⟨calls, final, ran, venue, backup, onBackup⟩ := here.failingOver found
      have stuck := @always_of_preserved _ _ step
        (fun machine => Kept machine ∧ Stuck id (some config.primaryVenue) machine)
        (fun _ _ _ both stepped =>
          ⟨kept_step both.1 stepped, stuck_step both.1 both.2 stepped⟩)
        machine ⟨kept, .inl found, fits⟩ calls
      have primary := (stuck.final ran).2.2
      cases Option.some.inj (onBackup.symm.trans primary)
      exact backed.2 backup
    · rintro rfl
      obtain ⟨calls, final, ran, left⟩ := here.emergency found
      have stuck := @always_of_preserved _ _ step
        (fun machine => Kept machine ∧ machine.getState id = some .emergency)
        (fun _ _ _ both stepped =>
          ⟨kept_step both.1 stepped, emergency_step both.1 both.2 stepped⟩)
        machine.exitEmergency ⟨kept_exitEmergency kept, found⟩ calls
      exact left (stuck.final ran).2
  · intro free id config configured backed
    have onBackup : ∀ state, machine.getState id = some state →
        VenueFits config (machine.getActiveVenue id) state :=
      fun state found => kept.fits id config state configured backed found
    refine ⟨?_, fun primary => onBackup .primary primary, fun failing => ?_, fun emergency => ?_⟩
    · rintro (active | recovering)
      · exact onBackup .backupActive active
      · exact onBackup .recovering recovering
    · exact absurd rfl (free id config .failingOver configured backed failing).1
    · exact absurd rfl (free id config .emergency configured backed emergency).2

theorem free_exact (kept : Kept machine) (free : Free machine)
    (stepped : step machine call = some next) : Free next ↔ LeadsOn machine call := by
  rcases step_cases kept stepped with
    ⟨id, event, current, config, rfl, found, configured, moved⟩ | ⟨states, configs, _, leadsOn⟩
  · have here : LeadsOn machine (.event id event) ↔ (BackedUp config →
        (machine.calculateTransition current event config).1 ≠ .failingOver ∧
          (machine.calculateTransition current event config).1 ≠ .emergency) := by
      dsimp only [LeadsOn]
      rw [configured, found]
      refine forall_congr' fun backed => ?_
      exact (transition_stops_iff backed (free id config current configured backed found)).symm
    rw [here]
    constructor
    · intro all backed
      refine all id config _ ?_ backed ?_
      · rw [getConfig, moved.configs]
        exact configured
      · rw [moved.states, if_pos rfl]
    · intro goesOn other other_ state member backed reached
      rw [getConfig, moved.configs] at member
      rw [moved.states] at reached
      split at reached
      · rename_i same
        rw [same] at member
        cases Option.some.inj (configured.symm.trans member)
        cases reached
        exact goesOn backed
      · exact free other other_ state member backed reached
  · refine iff_of_true (fun other config state member backed reached => ?_) leadsOn
    rw [getConfig, configs] at member
    rw [getState, states] at reached
    exact free other config state member backed reached

end Runs

/-- Along every run of calls on registered ids, every id with a backup is well placed in every
state if and only if no event takes such an id to `FailingOver` or `Emergency`. -/
theorem allPlaced_always_iff (registrations : List (Nat × FailoverConfig)) (calls : List Call) :
    Always step AllPlaced (.registered registrations) calls ↔
      Guarded step LeadsOn (.registered registrations) calls := by
  have kept := kept_registered registrations
  refine @always_iff_guarded _ _ step Kept AllPlaced LeadsOn
    (fun _ _ _ kept stepped => kept_step kept stepped) (fun _ _ _ kept placed stepped => ?_)
    (.registered registrations) kept ((allPlaced_iff kept).mpr ?_) calls
  · rw [allPlaced_iff (kept_step kept stepped)]
    exact free_exact kept ((allPlaced_iff kept).mp placed) stepped
  · intro id config state _ _ found
    rw [primary_registered registrations id state found]
    decide

/-- An id with a backup that is not its primary venue. -/
def binance : FailoverConfig where
  primaryVenue := 1
  backupVenues := [2, 3]
  failoverThresholdFailures := 3
  recoveryThresholdSuccesses := 5
  failuresFit := by decide
  successesFit := by decide

/-- After a disconnect the id stays at its primary venue for good. -/
theorem disconnect_stuck :
    ¬ Always step AllPlaced (.registered [(1, binance)]) [.event 1 .webSocketDisconnect] := by
  intro always
  have kept := kept_step (kept_registered [(1, binance)])
    (show step _ (.event 1 .webSocketDisconnect) = some _ from rfl)
  have free := (allPlaced_iff kept).mp (always.2 _ rfl)
  exact (free 1 binance .failingOver rfl (by decide) rfl).1 rfl

end FailoverVenues

end TradingBot.Venues
