import Mathlib.Data.List.Basic
import TradingBot.Foundation.MachineInt

/-!
# The event store

`event_store.rs`: an append-only log that numbers events by an atomic counter and keeps the
newest ten thousand in memory. An append is two atomic steps, drawing a number from the counter
and publishing the event under the write lock; `append` composes them without interruption.
The counter is a `u64` and wraps, which the source guards by refusing the number zero.
-/

open MachineInt

namespace TradingBot

/-- `MAX_IN_MEMORY_EVENTS`: maximum events held in memory. -/
def maxInMemoryEvents : Nat := 10000

/-- A single event in the event store. -/
structure Event where
  /-- Unique sequence number, zero until the store assigns one. -/
  sequence : Nat
  eventType : String
  payload : List UInt8
  timestampUs : Nat
  correlationId : Option String

/-- `Event::new`, at a clock reading. -/
def Event.new (eventType : String) (payload : List UInt8) (correlationId : Option String)
    (timestampUs : Nat) : Event :=
  { sequence := 0, eventType, payload, timestampUs, correlationId }

/-- Result of an append operation. -/
inductive AppendResult where
  | success (sequence : Nat)
  /-- The reason no number was assigned. -/
  | failed (reason : String)

/-- `EventStore`: the counter and the in-memory window. -/
structure EventStore where
  sequenceCounter : Nat
  /-- In-memory buffer for recent events, oldest first. -/
  events : List Event
  /-- Current write position for persistence. -/
  writePosition : Nat
  totalEvents : Nat

namespace EventStore

def new : EventStore where
  sequenceCounter := 1
  events := []
  writePosition := 0
  totalEvents := 0

/-- `sequence_counter.fetch_add(1)`: the number drawn and the store after it. -/
def draw (store : EventStore) : Nat × EventStore :=
  (store.sequenceCounter, { store with sequenceCounter := castU64 (store.sequenceCounter + 1) })

/-- The critical section of `append`, which drops the oldest event at capacity, and the two
statistics counted after it. -/
def publish (store : EventStore) (event : Event) : EventStore :=
  { store with
    events := (if maxInMemoryEvents ≤ store.events.length then store.events.tail
      else store.events) ++ [event]
    totalEvents := castU64 (store.totalEvents + 1)
    writePosition := castU64 (store.writePosition + 1) }

/-- `EventStore::append`, uninterrupted. -/
def append (store : EventStore) (event : Event) : AppendResult × EventStore :=
  let (sequence, drawn) := store.draw
  if sequence = 0 then (.failed "Sequence counter overflow detected", drawn)
  else (.success sequence, drawn.publish { event with sequence })

/-- `EventStore::append_batch`: the appends one after another. -/
def appendBatch (store : EventStore) : List Event → List AppendResult × EventStore
  | [] => ([], store)
  | event :: rest =>
    let (result, next) := store.append event
    let (results, final) := next.appendBatch rest
    (result :: results, final)

/-- `EventStore::get_events_from`: the buffered events from a sequence number on. -/
def getEventsFrom (store : EventStore) (startSequence : Nat) : List Event :=
  store.events.filter fun event => startSequence ≤ event.sequence

/-- `EventStore::latest_sequence`: the counter less one, as a `u64`. -/
def latestSequence (store : EventStore) : Nat :=
  castU64 (store.sequenceCounter + (u64Size - 1))

/-- The scan of `validate_chain` once it expects a sequence number. -/
def validateFrom (expected : Nat) : List Event → Except String Unit
  | [] => .ok ()
  | event :: rest =>
    if event.sequence ≠ expected then
      .error s!"Sequence gap detected: expected {expected}, found {event.sequence}"
    else validateFrom (castU64 (expected + 1)) rest

/-- `EventStore::validate_chain`: the buffered events carry consecutive sequence numbers. -/
def validateChain (store : EventStore) : Except String Unit :=
  match store.events with
  | [] => .ok ()
  | event :: _ => validateFrom event.sequence store.events

/-! ## The retained window -/

/-- The sequence numbers a store retains once it has published the first `published` ones in
order: the newest ten thousand of them. -/
def window (published : Nat) : List Nat :=
  List.range' (published + 1 - min published maxInMemoryEvents) (min published maxInMemoryEvents)

/-- The buffer holds exactly the window. -/
def Retains (store : EventStore) (published : Nat) : Prop :=
  store.events.map Event.sequence = window published

theorem retains_new : new.Retains 0 := rfl

theorem retains_publish {store : EventStore} {published : Nat} {event : Event}
    (retains : store.Retains published) (next : event.sequence = published + 1) :
    (store.publish event).Retains (published + 1) := by
  have length : store.events.length = min published maxInMemoryEvents := by
    have := congrArg List.length retains
    simpa [window] using this
  unfold Retains window at *
  simp only [publish, List.map_append, List.map_cons, List.map_nil, next]
  by_cases full : maxInMemoryEvents ≤ published
  · rw [if_pos (by omega), List.map_tail, retains, Nat.min_eq_right full,
      Nat.min_eq_right (by omega)]
    obtain ⟨capacity, size⟩ : ∃ capacity, maxInMemoryEvents = capacity + 1 := ⟨9999, rfl⟩
    rw [size, List.range'_succ, List.tail_cons, List.range'_1_concat]
    have first : published + 1 - (capacity + 1) + 1 = published + 1 + 1 - (capacity + 1) := by
      omega
    have last : published + 1 + 1 - (capacity + 1) + capacity = published + 1 := by omega
    rw [first, last]
  · rw [if_neg (by omega), retains, Nat.min_eq_left (by omega), Nat.min_eq_left (by omega)]
    have first : published + 1 - published = 1 := by omega
    have next : published + 1 + 1 - (published + 1) = 1 := by omega
    rw [first, next, List.range'_1_concat, Nat.add_comm 1 published]

theorem validateFrom_range {events : List Event} {first : Nat}
    (numbered : events.map Event.sequence = List.range' first events.length)
    (fits : first + events.length ≤ u64Size) : validateFrom first events = .ok () := by
  induction events generalizing first with
  | nil => rfl
  | cons event rest ih =>
    simp only [List.map_cons, List.length_cons, List.range'_succ, List.cons.injEq] at numbered
    simp only [List.length_cons] at fits
    simp only [validateFrom, numbered.1, ne_eq, not_true_eq_false, ↓reduceIte]
    cases rest with
    | nil => rfl
    | cons later rest =>
      simp only [List.length_cons] at fits
      rw [castU64_of_fits (by omega)]
      exact ih numbered.2 (by simp only [List.length_cons]; omega)

theorem validateChain_retains {store : EventStore} {published : Nat}
    (retains : store.Retains published) (fits : published < u64Size) :
    store.validateChain = .ok () := by
  have length : store.events.length = min published maxInMemoryEvents := by
    have := congrArg List.length retains
    simpa [window] using this
  unfold Retains window at retains
  rw [← length] at retains
  unfold validateChain
  cases events : store.events with
  | nil => rfl
  | cons event rest =>
    rw [events] at retains length
    have first : event.sequence = published + 1 - (event :: rest).length := by
      simpa [List.range'_succ] using congrArg List.head? retains
    show validateFrom event.sequence (event :: rest) = .ok ()
    rw [first]
    exact validateFrom_range retains (by omega)

end EventStore

end TradingBot
