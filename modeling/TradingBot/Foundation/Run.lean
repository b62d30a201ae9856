import Mathlib.Logic.Basic

/-!
# Runs of partial step functions

A machine is a step function from a state and an event to the next state, or to nothing when
the machine cannot take the event. A run folds the step over a list of events. The induction
over a run is stated once here, for three readings of "along a run": a property of every state
reached, a condition every step meets, and the exact relation between the two.
-/

namespace Run

variable {σ ε : Type*}

/-- The state after the events of a list in order; one refused event refuses the run. -/
def exec (step : σ → ε → Option σ) : σ → List ε → Option σ
  | state, [] => some state
  | state, event :: rest => (step state event).bind fun next => exec step next rest

/-- Every step the run takes meets a condition on the state before it and its event. -/
def Guarded (step : σ → ε → Option σ) (guard : σ → ε → Prop) : σ → List ε → Prop
  | _, [] => True
  | state, event :: rest =>
    ∀ next, step state event = some next → guard state event ∧ Guarded step guard next rest

instance decidableGuarded (step : σ → ε → Option σ) (guard : σ → ε → Prop)
    [∀ state event, Decidable (guard state event)] :
    ∀ state events, Decidable (Guarded step guard state events)
  | _, [] => .isTrue trivial
  | state, event :: rest =>
    match stepped : step state event with
    | none => .isTrue fun next taken => by simp [stepped] at taken
    | some next =>
      haveI := decidableGuarded step guard next rest
      decidable_of_iff (guard state event ∧ Guarded step guard next rest)
        ⟨fun met _ taken => Option.some.inj (stepped.symm.trans taken) ▸ met,
          fun met => met next stepped⟩

/-- A property holds in the first state and in every later state of the run. -/
def Always (step : σ → ε → Option σ) (property : σ → Prop) : σ → List ε → Prop
  | state, [] => property state
  | state, event :: rest =>
    property state ∧ ∀ next, step state event = some next → Always step property next rest

instance decidableAlways (step : σ → ε → Option σ) (property : σ → Prop)
    [∀ state, Decidable (property state)] :
    ∀ state events, Decidable (Always step property state events)
  | state, [] => inferInstanceAs (Decidable (property state))
  | state, event :: rest =>
    match stepped : step state event with
    | none => decidable_of_iff (property state)
        ⟨fun holds => ⟨holds, fun next taken => by simp [stepped] at taken⟩, And.left⟩
    | some next =>
      haveI := decidableAlways step property next rest
      decidable_of_iff (property state ∧ Always step property next rest)
        ⟨fun holds => ⟨holds.1,
            fun _ taken => Option.some.inj (stepped.symm.trans taken) ▸ holds.2⟩,
          fun always => ⟨always.1, always.2 next stepped⟩⟩

/-- Every event is taken, by a step whose states before and after it have a relation. -/
def Performs (step : σ → ε → Option σ) (good : σ → ε → σ → Prop) : σ → List ε → Prop
  | _, [] => True
  | state, event :: rest =>
    ∃ next, step state event = some next ∧ good state event next ∧ Performs step good next rest

/-- Every event that a run comes to meets a condition, whether it is taken or not. -/
def Offered (step : σ → ε → Option σ) (guard : σ → ε → Prop) : σ → List ε → Prop
  | _, [] => True
  | state, event :: rest =>
    guard state event ∧ ∀ next, step state event = some next → Offered step guard next rest

instance decidableOffered (step : σ → ε → Option σ) (guard : σ → ε → Prop)
    [∀ state event, Decidable (guard state event)] :
    ∀ state events, Decidable (Offered step guard state events)
  | _, [] => .isTrue trivial
  | state, event :: rest =>
    match stepped : step state event with
    | none => decidable_of_iff (guard state event)
        ⟨fun met => ⟨met, fun next taken => by simp [stepped] at taken⟩, And.left⟩
    | some next =>
      haveI := decidableOffered step guard next rest
      decidable_of_iff (guard state event ∧ Offered step guard next rest)
        ⟨fun met => ⟨met.1, fun _ taken => Option.some.inj (stepped.symm.trans taken) ▸ met.2⟩,
          fun offered => ⟨offered.1, offered.2 next stepped⟩⟩

variable {step : σ → ε → Option σ}

variable {state : σ} {property : σ → Prop}

/-- A run takes its first event, then the rest. -/
theorem exec_cons {final : σ} {event : ε} {rest : List ε} :
    exec step state (event :: rest) = some final ↔
      ∃ next, step state event = some next ∧ exec step next rest = some final :=
  Option.bind_eq_some_iff

theorem exec_append (state : σ) (first second : List ε) :
    exec step state (first ++ second) =
      (exec step state first).bind fun middle => exec step middle second := by
  induction first generalizing state with
  | nil => rfl
  | cons event rest ih =>
    simp only [List.cons_append, exec, Option.bind_assoc]
    congr 1
    funext next
    exact ih next

/-- The invariant rule under a guard: what every guarded step preserves holds at the end of
every guarded run. -/
theorem exec_guarded {inv : σ → Prop} {guard : σ → ε → Prop}
    (preserved : ∀ state event next, inv state → guard state event →
      step state event = some next → inv next)
    {state final : σ} {events : List ε} (start : inv state)
    (guarded : Guarded step guard state events) (ran : exec step state events = some final) :
    inv final := by
  induction events generalizing state with
  | nil =>
    cases ran
    exact start
  | cons event rest ih =>
    obtain ⟨next, stepped, later⟩ := exec_cons.mp ran
    obtain ⟨met, restMet⟩ := guarded next stepped
    exact ih (preserved state event next start met stepped) restMet later

/-- The invariant rule along a run: what every guarded step preserves holds in every state of a
guarded run. -/
theorem always_guarded {inv : σ → Prop} {guard : σ → ε → Prop}
    (preserved : ∀ state event next, inv state → guard state event →
      step state event = some next → inv next)
    {state : σ} (start : inv state) (events : List ε)
    (guarded : Guarded step guard state events) : Always step inv state events := by
  induction events generalizing state with
  | nil => exact start
  | cons event rest ih =>
    refine ⟨start, fun next stepped => ?_⟩
    have met := guarded next stepped
    exact ih (preserved state event next start met.1 stepped) met.2

/-- A machine that takes every event from the states with an invariant, which its steps preserve,
takes every list of events. -/
theorem exec_total {inv : σ → Prop}
    (progress : ∀ state event, inv state → ∃ next, step state event = some next ∧ inv next)
    (start : inv state) (events : List ε) :
    ∃ final, exec step state events = some final ∧ inv final := by
  induction events generalizing state with
  | nil => exact ⟨state, rfl, start⟩
  | cons event rest ih =>
    obtain ⟨next, stepped, kept⟩ := progress state event start
    obtain ⟨final, ran, holds⟩ := ih kept
    exact ⟨final, exec_cons.mpr ⟨next, stepped, ran⟩, holds⟩

/-- What always holds can be weakened. -/
theorem Always.imp {first second : σ → Prop} (weaken : ∀ state, first state → second state)
    {events : List ε} (always : Always step first state events) :
    Always step second state events := by
  induction events generalizing state with
  | nil => exact weaken state always
  | cons event rest ih =>
    exact ⟨weaken state always.1, fun next stepped => ih (always.2 next stepped)⟩

theorem Always.first {events : List ε} (always : Always step property state events) :
    property state := by
  cases events with
  | nil => exact always
  | cons _ _ => exact always.1

/-- A run whose first event is taken from a state with a property has it throughout if and only if
the rest of the run has. -/
theorem always_cons {next : σ} {event : ε} {rest : List ε} (holds : property state)
    (taken : step state event = some next) :
    Always step property state (event :: rest) ↔ Always step property next rest := by
  constructor
  · exact fun always => always.2 next taken
  · intro later
    refine ⟨holds, fun other again => ?_⟩
    cases taken.symm.trans again
    exact later

/-- What always holds does at the end. -/
theorem Always.final {final : σ} {events : List ε} (always : Always step property state events)
    (ran : exec step state events = some final) : property final := by
  induction events generalizing state with
  | nil =>
    cases ran
    exact always
  | cons event rest ih =>
    obtain ⟨next, stepped, later⟩ := exec_cons.mp ran
    exact ih (always.2 next stepped) later

/-- A run that ends in a bad state refutes the property. -/
theorem not_always_of_view {α : Type*} {view : σ → α} {seen : α} {property : σ → Prop} {state : σ}
    {events : List ε} (decided : (exec step state events).map view = some seen)
    (broken : ∀ final, view final = seen → ¬ property final) :
    ¬ Always step property state events := by
  intro always
  obtain ⟨final, ran, shown⟩ := Option.map_eq_some_iff.mp decided
  exact broken final shown (always.final ran)

/-- An invariant that implies a guard guards the run. -/
theorem Always.guarded {inv : σ → Prop} {guard : σ → ε → Prop}
    (implied : ∀ state event, inv state → guard state event)
    {state : σ} {events : List ε} (always : Always step inv state events) :
    Guarded step guard state events := by
  induction events generalizing state with
  | nil => trivial
  | cons event rest ih =>
    exact fun next stepped => ⟨implied state event always.1, ih (always.2 next stepped)⟩

/-- Two properties that agree in every state with an invariant and a second property hold in the
same runs whose states all have the second property. -/
theorem always_congr {inv given first second : σ → Prop}
    (preserved : ∀ state event next, inv state → step state event = some next → inv next)
    (agree : ∀ state, inv state → given state → (first state ↔ second state)) (start : inv state)
    (events : List ε) (holds : Always step given state events) :
    Always step first state events ↔ Always step second state events := by
  induction events generalizing state with
  | nil => exact agree state start holds
  | cons event rest ih =>
    refine and_congr (agree state start holds.1) (forall_congr' fun next => ?_)
    refine forall_congr' fun stepped => ?_
    exact ih (preserved state event next start stepped) (holds.2 next stepped)

/-- Two conditions that agree on every step from a state with an invariant are met along the
same runs. -/
theorem guarded_congr {inv : σ → Prop} {first second : σ → ε → Prop}
    (preserved : ∀ state event next, inv state → step state event = some next → inv next)
    (agree : ∀ state event next, inv state → step state event = some next →
      (first state event ↔ second state event))
    {state : σ} (start : inv state) (events : List ε) :
    Guarded step first state events ↔ Guarded step second state events := by
  induction events generalizing state with
  | nil => exact Iff.rfl
  | cons event rest ih =>
    refine forall_congr' fun next => forall_congr' fun stepped => ?_
    exact and_congr (agree state event next start stepped)
      (ih (preserved state event next start stepped))

/-- A condition that an invariant implies of the steps that meet another one is met along every
run that meets the other. -/
theorem guarded_mono {inv : σ → Prop} {first second : σ → ε → Prop}
    (preserved : ∀ state event next, inv state → first state event → step state event = some next →
      inv next)
    (implied : ∀ state event next, inv state → first state event → step state event = some next →
      second state event)
    (start : inv state) (events : List ε) (guarded : Guarded step first state events) :
    Guarded step second state events := by
  induction events generalizing state with
  | nil => trivial
  | cons event rest ih =>
    intro next stepped
    have met := guarded next stepped
    exact ⟨implied state event next start met.1 stepped,
      ih (preserved state event next start met.1 stepped) met.2⟩

/-- The refinement rule: a relation to a total abstract machine that every guarded step
preserves holds between the two machines at the end of every guarded run. -/
theorem exec_refines {τ : Type*} {related : σ → τ → Prop} {guard : σ → ε → Prop}
    {abstractStep : τ → ε → τ}
    (simulates : ∀ state image event next, related state image → guard state event →
      step state event = some next → related next (abstractStep image event))
    {state final : σ} {image : τ} {events : List ε} (start : related state image)
    (guarded : Guarded step guard state events) (ran : exec step state events = some final) :
    related final (events.foldl abstractStep image) := by
  induction events generalizing state image with
  | nil =>
    cases ran
    exact start
  | cons event rest ih =>
    obtain ⟨next, stepped, later⟩ := exec_cons.mp ran
    obtain ⟨met, restMet⟩ := guarded next stepped
    exact ih (simulates state image event next start met stepped) restMet later

/-- The component rule: where each step is a step of every part by itself, and is refused where a
part refuses it, a run is a run of every part by itself. -/
theorem exec_components {ι α : Type*} {inv : σ → Prop} {part : ι → σ → α}
    {alone : ι → α → ε → Option α}
    (taken : ∀ state event next, inv state → step state event = some next →
      inv next ∧ ∀ index, alone index (part index state) event = some (part index next))
    (refused : ∀ state event, inv state → step state event = none →
      ∃ index, alone index (part index state) event = none)
    {state : σ} (start : inv state) (events : List ε) :
    (∀ final, exec step state events = some final → inv final ∧
      ∀ index, exec (alone index) (part index state) events = some (part index final)) ∧
    (exec step state events = none →
      ∃ index, exec (alone index) (part index state) events = none) := by
  induction events generalizing state with
  | nil =>
    refine ⟨fun final ran => ?_, nofun⟩
    cases ran
    exact ⟨start, fun _ => rfl⟩
  | cons event rest ih =>
    cases stepped : step state event with
    | none =>
      obtain ⟨index, refuses⟩ := refused state event start stepped
      exact ⟨fun final ran => by simp [exec, stepped] at ran,
        fun _ => ⟨index, by simp [exec, refuses]⟩⟩
    | some next =>
      obtain ⟨kept, parts⟩ := taken state event next start stepped
      simpa [exec, stepped, parts] using ih kept

theorem Guarded.and {first second : σ → ε → Prop} {events : List ε}
    (left : Guarded step first state events) (right : Guarded step second state events) :
    Guarded step (fun state event => first state event ∧ second state event) state events := by
  induction events generalizing state with
  | nil => trivial
  | cons event rest ih =>
    intro next stepped
    exact ⟨⟨(left next stepped).1, (right next stepped).1⟩,
      ih (left next stepped).2 (right next stepped).2⟩

/-- Events that are each proper guard every run. -/
theorem guarded_of_forall {proper : ε → Prop} {events : List ε}
    (holds : ∀ event ∈ events, proper event) (state : σ) :
    Guarded step (fun _ event => proper event) state events := by
  induction events generalizing state with
  | nil => trivial
  | cons event rest ih =>
    intro next _
    exact ⟨holds event List.mem_cons_self,
      ih (fun later member => holds later (List.mem_cons_of_mem event member)) next⟩

/-- The invariant rule: what every step preserves always holds. -/
theorem always_of_preserved {inv : σ → Prop}
    (preserved : ∀ state event next, inv state → step state event = some next → inv next)
    {state : σ} (start : inv state) (events : List ε) : Always step inv state events :=
  @always_guarded _ _ step inv (fun _ _ => True)
    (fun state event next holds _ stepped => preserved state event next holds stepped) state start
    events (guarded_of_forall (fun _ _ => trivial) state)

/-- Along a run whose steps all meet an assumption, a property that holds in one state and is
exactly preserved by the steps that meet a condition holds in every later state if and only if
every step meets the condition. -/
theorem always_iff_guarded_of {inv property : σ → Prop} {assumed guard : σ → ε → Prop}
    (preserved : ∀ state event next, inv state → property state → assumed state event →
      guard state event → step state event = some next → inv next)
    (exact_step : ∀ state event next, inv state → property state → assumed state event →
      step state event = some next → (property next ↔ guard state event))
    {state : σ} (start : inv state) (holds : property state) (events : List ε)
    (given : Guarded step assumed state events) :
    Always step property state events ↔ Guarded step guard state events := by
  induction events generalizing state with
  | nil => exact ⟨fun _ => trivial, fun _ => holds⟩
  | cons event rest ih =>
    constructor
    · intro always next stepped
      have later := always.2 next stepped
      have nextHolds := later.first
      have promised := given next stepped
      have met := (exact_step state event next start holds promised.1 stepped).mp nextHolds
      have kept := preserved state event next start holds promised.1 met stepped
      exact ⟨met, (ih kept nextHolds promised.2).mp later⟩
    · intro guarded
      refine ⟨holds, fun next stepped => ?_⟩
      have promised := given next stepped
      have met := guarded next stepped
      have nextHolds := (exact_step state event next start holds promised.1 stepped).mpr met.1
      have kept := preserved state event next start holds promised.1 met.1 stepped
      exact (ih kept nextHolds promised.2).mpr met.2

/-- A property that holds in one state of a run and is exactly preserved by the steps that
meet a condition holds in every later state if and only if every step meets the condition. -/
theorem always_iff_guarded {inv property : σ → Prop} {guard : σ → ε → Prop}
    (preserved : ∀ state event next, inv state → step state event = some next → inv next)
    (exact_step : ∀ state event next, inv state → property state →
      step state event = some next → (property next ↔ guard state event))
    {state : σ} (start : inv state) (holds : property state) (events : List ε) :
    Always step property state events ↔ Guarded step guard state events :=
  @always_iff_guarded_of _ _ step inv property (fun _ _ => True) guard
    (fun state event next kept _ _ _ stepped => preserved state event next kept stepped)
    (fun state event next kept holds _ stepped => exact_step state event next kept holds stepped)
    state start holds events (guarded_of_forall (fun _ _ => trivial) state)

theorem offered_of_forall {proper : ε → Prop} {events : List ε}
    (holds : ∀ event ∈ events, proper event) (state : σ) :
    Offered step (fun _ event => proper event) state events := by
  induction events generalizing state with
  | nil => trivial
  | cons event rest ih =>
    obtain ⟨first, later⟩ := List.forall_mem_cons.mp holds
    exact ⟨first, fun next _ => ih later next⟩

theorem Performs.last {good : σ → ε → σ → Prop} {state middle : σ} {events : List ε} {event : ε}
    (performs : Performs step good state (events ++ [event]))
    (ran : exec step state events = some middle) :
    ∃ next, step middle event = some next ∧ good middle event next := by
  induction events generalizing state with
  | nil =>
    cases ran
    obtain ⟨next, taken, well, -⟩ := performs
    exact ⟨next, taken, well⟩
  | cons first rest ih =>
    obtain ⟨next, taken, -, later⟩ := performs
    obtain ⟨other, again, ran_⟩ := exec_cons.mp ran
    cases taken.symm.trans again
    exact ih later ran_

/-- The progress rule: where an invariant of the states and the events that are left lets every
event that meets a condition be taken well, all events are taken well if those that the run comes to
meet the condition. -/
theorem performs_of_offered {inv : σ → List ε → Prop} {good : σ → ε → σ → Prop}
    {guard : σ → ε → Prop}
    (progress : ∀ state event rest, inv state (event :: rest) → guard state event →
      ∃ next, step state event = some next ∧ good state event next)
    (preserved : ∀ state event rest next, inv state (event :: rest) → guard state event →
      step state event = some next → good state event next → inv next rest)
    {state : σ} {events : List ε} (start : inv state events)
    (offered : Offered step guard state events) : Performs step good state events := by
  induction events generalizing state with
  | nil => trivial
  | cons event rest ih =>
    obtain ⟨next, taken, well⟩ := progress state event rest start offered.1
    have kept := preserved state event rest next start offered.1 taken well
    exact ⟨next, taken, well, ih kept (offered.2 next taken)⟩

/-- The necessity rule: where an invariant of the states and the events that are left makes every
event that is taken well meet a condition, the events of a run whose events are all taken well meet
it. -/
theorem offered_of_performs {inv : σ → List ε → Prop} {good : σ → ε → σ → Prop}
    {guard : σ → ε → Prop}
    (needed : ∀ state event rest next, inv state (event :: rest) →
      step state event = some next → good state event next → guard state event)
    (preserved : ∀ state event rest next, inv state (event :: rest) →
      step state event = some next → good state event next → inv next rest)
    {state : σ} {events : List ε} (start : inv state events)
    (performs : Performs step good state events) : Offered step guard state events := by
  induction events generalizing state with
  | nil => trivial
  | cons event rest ih =>
    obtain ⟨next, taken, well, later⟩ := performs
    refine ⟨needed state event rest next start taken well, fun other again => ?_⟩
    cases taken.symm.trans again
    exact ih (preserved state event rest next start taken well) later

/-- The exactness rule: where an invariant of the states and the events that are left makes a
condition exactly what lets an event be taken well, all events are taken well if and only if the
events that the run comes to meet the condition. -/
theorem performs_iff {inv : σ → List ε → Prop} {good : σ → ε → σ → Prop} {guard : σ → ε → Prop}
    (exact_ : ∀ state event rest, inv state (event :: rest) →
      ((∃ next, step state event = some next ∧ good state event next) ↔ guard state event))
    (preserved : ∀ state event rest next, inv state (event :: rest) →
      step state event = some next → good state event next → inv next rest)
    {state : σ} {events : List ε} (start : inv state events) :
    Performs step good state events ↔ Offered step guard state events := by
  constructor
  · refine offered_of_performs (fun state event rest next holds taken well => ?_) preserved start
    exact (exact_ state event rest holds).mp ⟨next, taken, well⟩
  · refine performs_of_offered (fun state event rest holds met => ?_)
      (fun state event rest next holds _ => preserved state event rest next holds) start
    exact (exact_ state event rest holds).mpr met

end Run
