import TradingBot.Cqrs.ReadModelBuilder
import TradingBot.Foundation.HighWater
import TradingBot.Foundation.Run

/-!
# Projection of late events

The builder keeps one number, that of the last event it applied, and skips every event whose number
is not above it, seen before or not. So a delivery is applied only if it is above all before it. A
rebuild starts with the number it is to start from, and skips the event that has it.
-/

open Run HighWater

namespace TradingBot.Cqrs

namespace Projection

open ReadModelBuilder

/-- A call that delivers events to a builder. -/
inductive Delivery where
  /-- `project_event`. -/
  | single (event : ViewEvent)
  /-- `project_events_batch`. -/
  | batch (events : List ViewEvent)

/-- The events of a delivery. -/
def Delivery.events : Delivery → List ViewEvent
  | .single event => [event]
  | .batch events => events

/-- A builder and the events that it has applied to its views. -/
structure Session where
  builder : ReadModelBuilder
  applied : List ViewEvent

/-- A session of a new builder. -/
def Session.start : Session := ⟨.new, []⟩

/-- The session after an event is projected. -/
def project (session : Session) (event : ViewEvent) : Session where
  builder := session.builder.projectEvent event
  applied := if event.sequence ≤ session.builder.lastSequence then session.applied
    else session.applied ++ [event]

/-- The session after a delivery. -/
def step (session : Session) : Delivery → Option Session
  | .single event => some (project session event)
  | .batch events => some ((sorted events).foldl project session)

/-- Every event of a delivery is applied to the views once and nothing else is, and the count of a
batch tells how many are applied. -/
structure Good (session : Session) (delivery : Delivery) (next : Session) : Prop where
  once : next.applied.Perm (session.applied ++ delivery.events)
  views : next.builder =
    { next.applied.foldl applyEvent .new with lastSequence := next.builder.lastSequence }
  counted : ∀ events, delivery = .batch events →
    (session.builder.projectEventsBatch events).1 + session.applied.length = next.applied.length

/-- The events of a delivery are above the last number. -/
def AllAbove (session : Session) (delivery : Delivery) : Prop :=
  ∀ event ∈ delivery.events, session.builder.lastSequence < event.sequence

/-- No event comes after one with a higher number, unless in one delivery with it. -/
def InOrder (deliveries : List Delivery) : Prop :=
  deliveries.Pairwise fun earlier later =>
    ∀ first ∈ earlier.events, ∀ second ∈ later.events, first.sequence < second.sequence

instance : DecidablePred InOrder := fun deliveries =>
  inferInstanceAs (Decidable (deliveries.Pairwise _))

/-- A rebuild comes to the end and leaves the views as all the fetched events make them. -/
def Rebuilt (loads : List UInt8 → Option ViewPayload) (builder : ReadModelBuilder)
    (store : EventStore) (startSequence : Nat) : Prop :=
  ∃ events, (store.getEventsFrom startSequence).mapM (eventOf loads) = some events ∧
    (builder.rebuildFromEvents loads store startSequence).1 = true ∧
    (builder.rebuildFromEvents loads store startSequence).2.positions =
      (events.foldl applyEvent (builder.cleared startSequence)).positions ∧
    (builder.rebuildFromEvents loads store startSequence).2.orders =
      (events.foldl applyEvent (builder.cleared startSequence)).orders

/-- Fetched events can be read, rise in number, and none has the number to start from. -/
structure Rising (loads : List UInt8 → Option ViewPayload) (startSequence : Nat)
    (fetched : List Event) : Prop where
  readable : ∀ event ∈ fetched, (eventOf loads event).isSome
  above : ∀ event ∈ fetched, event.sequence ≠ startSequence
  rising : fetched.Pairwise fun first second => first.sequence < second.sequence

instance (loads : List UInt8 → Option ViewPayload) (startSequence : Nat) (fetched : List Event) :
    Decidable (Rising loads startSequence fetched) :=
  decidable_of_iff
    ((∀ event ∈ fetched, (eventOf loads event).isSome) ∧
      (∀ event ∈ fetched, event.sequence ≠ startSequence) ∧
        fetched.Pairwise fun first second => first.sequence < second.sequence)
    ⟨fun ⟨readable, above, rising⟩ => ⟨readable, above, rising⟩,
      fun ⟨readable, above, rising⟩ => ⟨readable, above, rising⟩⟩

/-! ## Folds -/

section Folds

variable {builder : ReadModelBuilder} {events : List ViewEvent}

theorem foldl_applyEvent_with (lastSequence : Int) :
    events.foldl applyEvent { builder with lastSequence } =
      { events.foldl applyEvent builder with lastSequence } := by
  induction events generalizing builder with
  | nil => rfl
  | cons event rest ih => exact @ih (builder.applyEvent event)

theorem foldl_projectEvent :
    events.foldl projectEvent builder =
      { (kept ViewEvent.sequence builder.lastSequence events).foldl applyEvent builder with
        lastSequence := markAfter ViewEvent.sequence builder.lastSequence events } := by
  induction events generalizing builder with
  | nil => rfl
  | cons event rest ih =>
    rw [List.foldl_cons, ih, kept, markAfter_cons, projectEvent]
    by_cases skipped : event.sequence ≤ builder.lastSequence
    · simp only [if_pos skipped]
    · simp only [if_neg skipped]
      rw [foldl_applyEvent_with]
      rfl

theorem foldl_project (session : Session) :
    events.foldl project session =
      { builder := events.foldl projectEvent session.builder
        applied := session.applied ++
          kept ViewEvent.sequence session.builder.lastSequence events } := by
  induction events generalizing session with
  | nil => simp [kept]
  | cons event rest ih =>
    rw [List.foldl_cons, List.foldl_cons, ih, kept]
    unfold project projectEvent
    by_cases skipped : event.sequence ≤ session.builder.lastSequence
    · simp only [if_pos skipped]
    · simp only [if_neg skipped, List.append_assoc]
      rfl

theorem projectEventsBatch_eq (builder : ReadModelBuilder) (events : List ViewEvent) :
    builder.projectEventsBatch events =
      (events.length, (sorted events).foldl projectEvent builder) := by
  have counts : ∀ (rest : List ViewEvent) (count : Nat) (builder : ReadModelBuilder),
      rest.foldl (fun (pair : Nat × ReadModelBuilder) event =>
        (pair.1 + 1, pair.2.projectEvent event)) (count, builder) =
          (count + rest.length, rest.foldl projectEvent builder) := by
    intro rest
    induction rest with
    | nil => exact fun _ _ => rfl
    | cons event rest ih =>
      intro count builder
      rw [List.foldl_cons, List.foldl_cons, ih, List.length_cons]
      congr 1
      omega
  have length_ : (sorted events).length = events.length := List.length_mergeSort events
  refine (counts (sorted events) 0 builder).trans ?_
  rw [length_, Nat.zero_add]

theorem eventCount_foldl :
    (events.foldl applyEvent builder).positions.eventCount =
      builder.positions.eventCount + events.length := by
  induction events generalizing builder with
  | nil => rfl
  | cons event rest ih =>
    rw [List.foldl_cons, ih, List.length_cons]
    have one := PositionsView.eventCount_applyEvent builder.positions event.projected
    show (PositionsView.applyEvent _ _).eventCount + _ = _
    omega

end Folds

/-! ## Deliveries -/

section Deliveries

variable {session next : Session} {delivery : Delivery}

/-- The views of a session are those after the events that it has applied. -/
def Explained (session : Session) : Prop :=
  session.builder =
    { session.applied.foldl applyEvent .new with lastSequence := session.builder.lastSequence }

/-- The events of a delivery in the order in which they are projected. -/
def Delivery.projected : Delivery → List ViewEvent
  | .single event => [event]
  | .batch events => sorted events

theorem projected_perm (delivery : Delivery) : delivery.projected.Perm delivery.events := by
  cases delivery with
  | single event => exact .refl _
  | batch events => exact List.mergeSort_perm events _

theorem projected_sorted (delivery : Delivery) :
    delivery.projected.Pairwise fun first second => first.sequence ≤ second.sequence := by
  cases delivery with
  | single event => exact List.pairwise_singleton _ _
  | batch events =>
    have ordered := @List.pairwise_mergeSort _
      (fun first second : ViewEvent => decide (first.sequence ≤ second.sequence))
      (fun first second third left right => by simp only [decide_eq_true_eq] at *; omega)
      (fun first second => by simp only [Bool.or_eq_true, decide_eq_true_eq]; omega) events
    exact ordered.imp fun below => of_decide_eq_true below

theorem step_eq (session : Session) (delivery : Delivery) :
    step session delivery = some
      { builder := delivery.projected.foldl projectEvent session.builder
        applied := session.applied ++
          kept ViewEvent.sequence session.builder.lastSequence delivery.projected } := by
  cases delivery with
  | single event => exact congrArg some (@foldl_project [event] session)
  | batch events => exact congrArg some (@foldl_project (sorted events) session)

theorem explained_step (explained : Explained session) (taken : step session delivery = some next) :
    Explained next := by
  rw [step_eq] at taken
  cases taken
  unfold Explained at explained ⊢
  dsimp only
  rw [foldl_projectEvent, List.foldl_append]
  generalize kept ViewEvent.sequence session.builder.lastSequence delivery.projected = passed
  rw [explained, foldl_applyEvent_with]

theorem lastSequence_step (taken : step session delivery = some next) :
    next.builder.lastSequence =
      markAfter ViewEvent.sequence session.builder.lastSequence delivery.projected := by
  rw [step_eq] at taken
  cases taken
  dsimp only
  rw [foldl_projectEvent]

theorem good_iff (explained : Explained session)
    (distinct : (delivery.events.map ViewEvent.sequence).Nodup) :
    (∃ next, step session delivery = some next ∧ Good session delivery next) ↔
      AllAbove session delivery := by
  have perm := projected_perm delivery
  have rising : delivery.projected.Pairwise fun first second =>
      first.sequence < second.sequence := by
    have apart := ((perm.map ViewEvent.sequence).nodup_iff.mpr distinct)
    refine ((projected_sorted delivery).and (List.pairwise_map.mp apart)).imp ?_
    exact fun both => lt_of_le_of_ne both.1 both.2
  have all : kept ViewEvent.sequence session.builder.lastSequence delivery.projected =
      delivery.projected ↔ AllAbove session delivery := by
    rw [kept_eq_self_iff, and_iff_left rising]
    exact forall_congr' fun event => imp_congr_left perm.mem_iff
  rw [← all]
  constructor
  · rintro ⟨next, taken, good⟩
    have once := good.once
    rw [step_eq] at taken
    cases taken
    have length_ := (List.perm_append_left_iff session.applied |>.mp once).length_eq
    exact length_kept_iff.mp (length_.trans perm.length_eq.symm)
  · intro same
    refine ⟨_, step_eq session delivery, ?_, explained_step explained (step_eq session delivery),
      ?_⟩
    · dsimp only
      rw [same]
      exact perm.append_left session.applied
    · rintro events rfl
      have length_ := perm.length_eq
      have events_ : (Delivery.batch events).events = events := rfl
      dsimp only
      rw [same, projectEventsBatch_eq, List.length_append, length_, events_]
      exact Nat.add_comm _ _

theorem offered_iff (session : Session) (deliveries : List Delivery) :
    Offered step AllAbove session deliveries ↔
      (∀ delivery ∈ deliveries, AllAbove session delivery) ∧ InOrder deliveries := by
  unfold InOrder
  induction deliveries generalizing session with
  | nil => exact iff_of_true trivial ⟨fun _ member => (nomatch member), .nil⟩
  | cons delivery rest ih =>
    obtain ⟨next, taken⟩ : ∃ next, step session delivery = some next := ⟨_, step_eq _ _⟩
    have later : (∀ other, step session delivery = some other →
        Offered step AllAbove other rest) ↔ Offered step AllAbove next rest := by
      constructor
      · exact fun all => all next taken
      · intro here other again
        cases taken.symm.trans again
        exact here
    -- What is above the new number is above the old one and above the events of the delivery.
    have above : ∀ bound : Int, next.builder.lastSequence < bound ↔
        session.builder.lastSequence < bound ∧
          ∀ event ∈ delivery.events, event.sequence < bound := by
      intro bound
      rw [lastSequence_step taken, markAfter_lt_iff]
      exact and_congr_right fun _ => forall_congr' fun event =>
        imp_congr_left (projected_perm delivery).mem_iff
    rw [Offered, later, ih, List.forall_mem_cons, List.pairwise_cons]
    unfold AllAbove
    simp only [above]
    constructor
    · rintro ⟨first, others, sorted_⟩
      refine ⟨⟨first, fun other member event there => (others other member event there).1⟩,
        fun other member event there second below => ?_, sorted_⟩
      exact (others other member second below).2 event there
    · rintro ⟨⟨first, others⟩, higher, sorted_⟩
      refine ⟨first, fun other member event there => ⟨others other member event there, ?_⟩, sorted_⟩
      exact fun earlier before => higher other member earlier before event there

theorem performs_iff_inOrder (deliveries : List Delivery)
    (distinct : ((deliveries.flatMap Delivery.events).map ViewEvent.sequence).Nodup)
    (positive : ∀ event ∈ deliveries.flatMap Delivery.events, 0 < event.sequence) :
    Performs step Good .start deliveries ↔ InOrder deliveries := by
  have each : ∀ delivery ∈ deliveries, (delivery.events.map ViewEvent.sequence).Nodup := by
    intro delivery member
    refine List.Sublist.nodup (List.Sublist.map _ ?_) distinct
    rw [List.flatMap_def]
    exact List.sublist_flatten_of_mem (List.mem_map_of_mem member)
  refine (@performs_iff _ _ step (fun session rest => Explained session ∧
    ∀ delivery ∈ rest, (delivery.events.map ViewEvent.sequence).Nodup) Good AllAbove ?_ ?_ .start
      _ ⟨rfl, each⟩).trans ?_
  · exact fun session delivery rest holds => good_iff holds.1 (holds.2 delivery List.mem_cons_self)
  · exact fun session delivery rest next holds taken _ => ⟨explained_step holds.1 taken,
      fun other member => holds.2 other (List.mem_cons_of_mem delivery member)⟩
  · refine (offered_iff .start deliveries).trans (and_iff_right ?_)
    exact fun delivery member event there =>
      positive event (List.mem_flatMap.mpr ⟨delivery, member, there⟩)

end Deliveries

/-! ## Rebuilds -/

section Rebuilds

variable {loads : List UInt8 → Option ViewPayload} {startSequence : Nat}

theorem sequence_eventOf {event : Event} {projected : ViewEvent}
    (read : eventOf loads event = some projected) :
    projected.sequence = (event.sequence : Int) := by
  obtain ⟨payload, -, rfl⟩ := Option.map_eq_some_iff.mp read
  rfl

theorem read_cons {event : Event} {rest : List Event} {events : List ViewEvent} :
    (event :: rest).mapM (eventOf loads) = some events ↔
      ∃ projected others, eventOf loads event = some projected ∧
        rest.mapM (eventOf loads) = some others ∧ projected :: others = events := by
  rw [List.mapM_cons]
  constructor
  · intro read
    obtain ⟨projected, here, later⟩ := Option.bind_eq_some_iff.mp read
    obtain ⟨others, there, same⟩ := Option.bind_eq_some_iff.mp later
    exact ⟨projected, others, here, there, Option.some.inj same⟩
  · rintro ⟨projected, others, here, there, rfl⟩
    rw [here, there]
    rfl

theorem sequences_eq {fetched : List Event} {events : List ViewEvent}
    (read : fetched.mapM (eventOf loads) = some events) :
    events.map ViewEvent.sequence = fetched.map fun event => (event.sequence : Int) := by
  induction fetched generalizing events with
  | nil =>
    cases read
    rfl
  | cons event rest ih =>
    obtain ⟨projected, others, here, there, rfl⟩ := read_cons.mp read
    rw [List.map_cons, List.map_cons, sequence_eventOf here, ih there]

theorem read_iff {fetched : List Event} :
    (∃ events, fetched.mapM (eventOf loads) = some events) ↔
      ∀ event ∈ fetched, (eventOf loads event).isSome := by
  induction fetched with
  | nil => exact iff_of_true ⟨[], rfl⟩ fun _ member => nomatch member
  | cons event rest ih =>
    rw [List.forall_mem_cons, ← ih]
    constructor
    · rintro ⟨events, read⟩
      obtain ⟨projected, others, here, there, -⟩ := read_cons.mp read
      exact ⟨by rw [here]; rfl, others, there⟩
    · rintro ⟨here, others, there⟩
      obtain ⟨projected, here⟩ := Option.isSome_iff_exists.mp here
      exact ⟨projected :: others, read_cons.mpr ⟨projected, others, here, there, rfl⟩⟩

theorem projectFetched_eq (builder : ReadModelBuilder) {fetched : List Event}
    {events : List ViewEvent} (read : fetched.mapM (eventOf loads) = some events) :
    projectFetched loads builder fetched = (true, events.foldl projectEvent builder) := by
  induction fetched generalizing builder events with
  | nil =>
    cases read
    rfl
  | cons event rest ih =>
    obtain ⟨projected, others, here, there, rfl⟩ := read_cons.mp read
    rw [projectFetched, here]
    exact ih (builder.projectEvent projected) there

theorem rebuilt_iff (builder : ReadModelBuilder) (store : EventStore) :
    Rebuilt loads builder store startSequence ↔
      Rising loads startSequence (store.getEventsFrom startSequence) := by
  have least : ∀ event ∈ store.getEventsFrom startSequence, startSequence ≤ event.sequence :=
    fun event member => of_decide_eq_true (List.mem_filter.mp member).2
  -- What the views keep of the events that are read is told by the numbers of those fetched.
  have all : ∀ events, (store.getEventsFrom startSequence).mapM (eventOf loads) = some events →
      (kept ViewEvent.sequence (startSequence : Int) events = events ↔
        (∀ event ∈ store.getEventsFrom startSequence, event.sequence ≠ startSequence) ∧
          (store.getEventsFrom startSequence).Pairwise
            fun first second => first.sequence < second.sequence) := by
    intro events read
    have numbers := sequences_eq read
    rw [kept_eq_self_iff]
    refine and_congr ?_ ?_
    · have mapped : (∀ event ∈ events, (startSequence : Int) < event.sequence) ↔
          ∀ number ∈ events.map ViewEvent.sequence, (startSequence : Int) < number :=
        List.forall_mem_map.symm
      rw [mapped, numbers, List.forall_mem_map]
      refine forall_congr' fun event => forall_congr' fun member => ?_
      have above := least event member
      omega
    · have mapped : (events.Pairwise fun first second => first.sequence < second.sequence) ↔
          (events.map ViewEvent.sequence).Pairwise (· < ·) := List.pairwise_map.symm
      rw [mapped, numbers, List.pairwise_map]
      simp only [Int.ofNat_lt]
  have views : ∀ events, (store.getEventsFrom startSequence).mapM (eventOf loads) = some events →
      builder.rebuildFromEvents loads store startSequence =
        (true, events.foldl projectEvent (builder.cleared startSequence)) :=
    fun events read => projectFetched_eq _ read
  constructor
  · rintro ⟨events, read, -, positions, -⟩
    have counts := congrArg PositionsView.eventCount positions
    rw [views events read, foldl_projectEvent] at counts
    dsimp only at counts
    rw [eventCount_foldl, eventCount_foldl] at counts
    have same := (all events read).mp (length_kept_iff.mp (Nat.add_left_cancel counts))
    exact ⟨read_iff.mp ⟨events, read⟩, same.1, same.2⟩
  · rintro ⟨readable, above, rising⟩
    obtain ⟨events, read⟩ := read_iff.mpr readable
    have same := (all events read).mpr ⟨above, rising⟩
    refine ⟨events, read, ?_⟩
    rw [views events read, foldl_projectEvent]
    have start : (builder.cleared startSequence).lastSequence = (startSequence : Int) := rfl
    rw [start, same]
    exact ⟨rfl, rfl, rfl⟩

end Rebuilds

/-- From a new builder on, events with distinct positive numbers are all applied once, and counted
as applied, exactly if their deliveries come in order; and a rebuild leaves the views as the events
of the store make them exactly if these can be read, rise in number, and do not have the number to
start from. -/
theorem projection_iff (loads : List UInt8 → Option ViewPayload) (deliveries : List Delivery)
    (builder : ReadModelBuilder) (store : EventStore) (startSequence : Nat)
    (distinct : ((deliveries.flatMap Delivery.events).map ViewEvent.sequence).Nodup)
    (positive : ∀ event ∈ deliveries.flatMap Delivery.events, 0 < event.sequence) :
    (Performs step Good .start deliveries ↔ InOrder deliveries) ∧
      (Rebuilt loads builder store startSequence ↔
        Rising loads startSequence (store.getEventsFrom startSequence)) :=
  ⟨performs_iff_inOrder deliveries distinct positive, rebuilt_iff builder store⟩

/-- A tick of a number. -/
def tick (sequence : Int) : ViewEvent :=
  ⟨.tickReceived, ⟨⟨some "BTC/USDT", none, none, some 46000⟩, none, false⟩, sequence⟩

/-- A store with events of three numbers. -/
def threeEvents : EventStore where
  sequenceCounter := 4
  events := [⟨1, "TickReceived", [], 0, none⟩, ⟨2, "TickReceived", [], 0, none⟩,
    ⟨3, "TickReceived", [], 0, none⟩]
  writePosition := 3
  totalEvents := 3

/-- Two batches and a single event in order. -/
def threeDeliveries : List Delivery :=
  [.batch [tick 2, tick 1], .single (tick 3), .batch [tick 5, tick 4]]

/-- They are applied, though no batch is sorted, and a rebuild from before the first number takes
all events. -/
theorem batches_in_order :
    Performs step Good .start threeDeliveries ∧ Rebuilt (fun _ => none) .new threeEvents 0 := by
  have exactly := projection_iff (fun _ => none) threeDeliveries .new threeEvents 0 (by decide)
    (by decide)
  exact ⟨exactly.1.mpr (by decide), exactly.2.mpr (by decide)⟩

/-- An event that comes after one with a higher number is not applied, and is counted in a batch;
and a rebuild from the first number leaves out the first event. -/
theorem late_event_skipped :
    ¬ Performs step Good .start [.single (tick 2), .single (tick 1)] ∧
    ¬ Performs step Good .start [.single (tick 2), .batch [tick 1]] ∧
    ((ReadModelBuilder.new.projectEvent (tick 2)).projectEventsBatch [tick 1]).1 = 1 ∧
    ¬ Rebuilt (fun _ => none) .new threeEvents 1 := by
  have one : sorted [tick 1] = [tick 1] := List.mergeSort_singleton _
  refine ⟨?_, ?_, ?_, ?_⟩
  · rintro ⟨_, ⟨⟩, -, _, ⟨⟩, good, -⟩
    exact absurd good.once.length_eq (by decide)
  · rintro ⟨_, ⟨⟩, -, _, ⟨⟩, good, -⟩
    have length_ := good.once.length_eq
    rw [one] at length_
    exact absurd length_ (by decide)
  · rw [projectEventsBatch_eq]
    rfl
  · rintro ⟨events, ⟨⟩, -, positions, -⟩
    exact absurd (congrArg PositionsView.eventCount positions) (by decide)

end Projection

end TradingBot.Cqrs
