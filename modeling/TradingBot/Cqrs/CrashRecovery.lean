import TradingBot.Cqrs.StateRebuilder

/-!
# Crash recovery

A live session appends events to a store and applies each to an aggregator. A rebuild from the
store gives the live positions and totals as long as the store has dropped no fill; once a fill
has slid out of the window, the rebuild replays what is left and still reports success.
-/

open MachineInt

namespace TradingBot.CrashRecovery

open StateRebuilder

/-! ## What an aggregator shows -/

/-- What the getters of an aggregator show: the rest of it no operation reads back. -/
structure View where
  positions : AList fun _ : String => PositionAggregator.Position
  /-- `get_fast_realized_pnl`. -/
  realized : Int
  /-- `get_fast_position_count`. -/
  count : Nat

/-- The view of an aggregator. -/
def view (aggregator : PositionAggregator) : View where
  positions := aggregator.positions
  realized := aggregator.getFastRealizedPnl
  count := aggregator.getFastPositionCount

variable {left right : PositionAggregator} {fromSlice : List UInt8 → Option Payload}

theorem processFill_view (same : view left = view right) (symbol side : String)
    (quantity price sequence timestampUs : Nat) :
    ((left.processFill symbol side quantity price sequence timestampUs).map Prod.snd).map view =
      ((right.processFill symbol side quantity price sequence timestampUs).map Prod.snd).map
        view := by
  obtain ⟨positions, realized, count, leftSequence, leftOverflow⟩ := left
  obtain ⟨_, _, _, rightSequence, rightOverflow⟩ := right
  obtain ⟨rfl, rfl, rfl⟩ := View.mk.inj same
  unfold PositionAggregator.processFill
  split
  · rfl
  split
  · rfl
  simp only
  split
  · rfl
  · rename_i signed _
    simp only [Option.bind_eq_bind, Option.map_bind]
    congr 1
    funext closed
    cases closed with
    | error refused => rfl
    | ok realizedPnl =>
      simp only [Function.comp, Option.map_bind]
      rfl

theorem modify_view (same : view left = view right) (symbol : String)
    (change : PositionAggregator.Position → PositionAggregator.Position) :
    view (left.modify symbol change) = view (right.modify symbol change) := by
  obtain ⟨positions, realized, count, leftSequence, leftOverflow⟩ := left
  obtain ⟨_, _, _, rightSequence, rightOverflow⟩ := right
  obtain ⟨rfl, rfl, rfl⟩ := View.mk.inj same
  unfold PositionAggregator.modify
  simp only
  split <;> rfl

theorem applyEvent_view (fromSlice : List UInt8 → Option Payload) (same : view left = view right)
    (event : Event) : (applyEventToAggregator fromSlice left event).map view =
      (applyEventToAggregator fromSlice right event).map view := by
  unfold applyEventToAggregator
  cases fromSlice event.payload with
  | none => simp only [Option.map_some, same, ite_self]
  | some payload =>
    simp only
    split
    · exact processFill_view same ..
    split
    · exact congrArg some (modify_view same ..)
    split
    · exact congrArg some (modify_view same ..)
    split
    · exact congrArg some (modify_view same ..)
    · exact congrArg some same

theorem replay_view (fromSlice : List UInt8 → Option Payload) (events : List Event)
    (same : view left = view right) :
    (Run.exec (applyEventToAggregator fromSlice) left events).map view =
      (Run.exec (applyEventToAggregator fromSlice) right events).map view := by
  induction events generalizing left right with
  | nil => exact congrArg some same
  | cons event rest ih =>
    have applied := applyEvent_view fromSlice same event
    simp only [Run.exec]
    cases leftNext : applyEventToAggregator fromSlice left event <;>
      cases rightNext : applyEventToAggregator fromSlice right event <;>
      simp only [leftNext, rightNext, Option.map_some, Option.map_none, reduceCtorEq,
        Option.some.injEq] at applied
    · rfl
    · exact ih applied

/-! ## Live sessions -/

/-- One event of a live session: appended to the store and, as numbered, applied. -/
def record (fromSlice : List UInt8 → Option Payload) (live : EventStore × PositionAggregator)
    (event : Event) : Option (EventStore × PositionAggregator) :=
  match live.1.append event with
  | (.success sequence, store) =>
    (applyEventToAggregator fromSlice live.2 { event with sequence }).map (store, ·)
  | (.failed _, store) => some (store, live.2)

/-- The events a publication leaves in the buffer. -/
def kept (store : EventStore) : List Event :=
  if maxInMemoryEvents ≤ store.events.length then store.events.tail else store.events

/-- A record is refused or appends one event and applies it. -/
theorem record_cases {live next : EventStore × PositionAggregator} {event : Event}
    (recorded : record fromSlice live event = some next) :
    (next.1.events = live.1.events ∧ next.2 = live.2) ∨
      (live.1.sequenceCounter ≠ 0 ∧
        next.1.events = kept live.1 ++ [{ event with sequence := live.1.sequenceCounter }] ∧
        applyEventToAggregator fromSlice live.2
          { event with sequence := live.1.sequenceCounter } = some next.2) := by
  unfold record at recorded
  by_cases overflow : live.1.sequenceCounter = 0
  · have failed : live.1.append event =
        (.failed "Sequence counter overflow detected", live.1.draw.2) := if_pos overflow
    rw [failed] at recorded
    cases recorded
    exact .inl ⟨rfl, rfl⟩
  · have published : live.1.append event = (.success live.1.sequenceCounter,
        live.1.draw.2.publish { event with sequence := live.1.sequenceCounter }) :=
      if_neg overflow
    rw [published] at recorded
    obtain ⟨applied, applies, rfl⟩ := Option.map_eq_some_iff.mp recorded
    exact .inr ⟨overflow, rfl, applies⟩

/-- A session that starts with an empty store and an empty aggregator. -/
def session (fromSlice : List UInt8 → Option Payload) (events : List Event) :
    Option (EventStore × PositionAggregator) :=
  Run.exec (record fromSlice) (EventStore.new, PositionAggregator.new) events

/-- A rebuild of the session's store that reports success shows what the live aggregator
shows, whatever rebuilder runs it. -/
def Recovers (ρ : Type) [ReadModel ρ] (fromSlice : List UInt8 → Option Payload)
    (events : List Event) : Prop :=
  ∀ (store : EventStore) (live : PositionAggregator) (rebuilder after : StateRebuilder ρ)
    (elapsedMs : ℚ) (result : RebuildResult),
    session fromSlice events = some (store, live) → rebuilder.eventStore = store →
      rebuilder.rebuild fromSlice elapsedMs 1 = some (result, after) → result.success = true →
        view after.positionAggregator = view live

/-- The payload parses and carries the fields its event type is read for. -/
def WellFormed (fromSlice : List UInt8 → Option Payload) (event : Event) : Prop :=
  ∃ payload symbol, fromSlice event.payload = some payload ∧
    payload.asStr "symbol" = some symbol ∧
    (((event.eventType = "OrderFilled" ∨ event.eventType = "TradeExecuted") ∧
        (payload.asStr "side" = some "buy" ∨ payload.asStr "side" = some "sell") ∧
        (payload.asU64 "quantity").isSome ∧ (payload.asU64 "price").isSome) ∨
      (event.eventType = "TickReceived" ∧ (payload.asU64 "price").isSome) ∨
      event.eventType = "OrderPlaced" ∨ event.eventType = "OrderCancelled")

/-- An event that opens no position. -/
def Quiet (event : Event) : Prop :=
  event.eventType ≠ "OrderFilled" ∧ event.eventType ≠ "TradeExecuted"

/-- The store has room for one more event, or the oldest event, which it drops, is quiet. -/
def Spares (live : EventStore × PositionAggregator) (_event : Event) : Prop :=
  live.1.events.length < maxInMemoryEvents ∨ ∀ oldest ∈ live.1.events.head?, Quiet oldest

/-- Nothing is lost: the live aggregator is the replay of the events the store still holds. -/
structure Complete (fromSlice : List UInt8 → Option Payload)
    (live : EventStore × PositionAggregator) : Prop where
  /-- Every event has been numbered. -/
  numbered : ∀ event ∈ live.1.events, 1 ≤ event.sequence
  /-- The aggregator is the replay of the buffer. -/
  replayed : Run.exec (applyEventToAggregator fromSlice) PositionAggregator.new live.1.events =
    some live.2

theorem quiet_new (fromSlice : List UInt8 → Option Payload) {event : Event} (quiet : Quiet event) :
    applyEventToAggregator fromSlice PositionAggregator.new event = some .new := by
  unfold applyEventToAggregator
  rw [if_neg (not_or.mpr quiet)]
  cases fromSlice event.payload with
  | none => simp only [ite_self]
  | some payload =>
    simp only
    split
    · rfl
    · split
      · rfl
      · split
        · rfl
        · rfl

theorem replay_kept {live : EventStore × PositionAggregator} {event : Event}
    (spares : Spares live event)
    (replayed : Run.exec (applyEventToAggregator fromSlice) PositionAggregator.new live.1.events =
      some live.2) :
    Run.exec (applyEventToAggregator fromSlice) PositionAggregator.new (kept live.1) =
      some live.2 := by
  unfold kept
  by_cases full : maxInMemoryEvents ≤ live.1.events.length
  · have dropped := spares.resolve_left (not_lt.mpr full)
    rw [if_pos full]
    cases events : live.1.events with
    | nil =>
      rw [events] at replayed
      exact replayed
    | cons oldest rest =>
      rw [events] at replayed dropped
      obtain ⟨next, applied, later⟩ := Run.exec_cons.mp replayed
      rw [quiet_new fromSlice (dropped oldest rfl)] at applied
      cases applied
      exact later
  · rw [if_neg full]
    exact replayed

theorem complete_record {live next : EventStore × PositionAggregator} {event : Event}
    (complete : Complete fromSlice live) (spares : Spares live event)
    (recorded : record fromSlice live event = some next) : Complete fromSlice next := by
  cases record_cases recorded with
  | inl failed =>
    constructor
    · rw [failed.1]
      exact complete.numbered
    · rw [failed.1, failed.2]
      exact complete.replayed
  | inr published =>
    obtain ⟨drawn, events, applied⟩ := published
    constructor
    · intro held member
      rw [events] at member
      cases List.mem_append.mp member with
      | inl old =>
        apply complete.numbered held
        unfold kept at old
        split at old
        · exact List.mem_of_mem_tail old
        · exact old
      | inr last =>
        rw [List.mem_singleton.mp last]
        exact Nat.one_le_iff_ne_zero.mpr drawn
    · have replayed := replay_kept spares complete.replayed
      rw [events, Run.exec_append, replayed, Option.bind_some]
      exact Run.exec_cons.mpr ⟨next.2, applied, rfl⟩

theorem complete_session {events : List Event} {final : EventStore × PositionAggregator}
    (spares : Run.Guarded (record fromSlice) Spares (EventStore.new, PositionAggregator.new) events)
    (ran : session fromSlice events = some final) : Complete fromSlice final := by
  have fresh : Complete fromSlice (EventStore.new, PositionAggregator.new) :=
    ⟨(fun event member => nomatch member), rfl⟩
  exact Run.exec_guarded (fun live event next complete spared recorded =>
    complete_record complete spared recorded) fresh spares ran

theorem record_length {live next : EventStore × PositionAggregator} {event : Event}
    (recorded : record fromSlice live event = some next) :
    next.1.events.length ≤ live.1.events.length + 1 := by
  cases record_cases recorded with
  | inl failed =>
    rw [failed.1]
    exact Nat.le_succ _
  | inr published =>
    rw [published.2.1, List.length_append, List.length_singleton]
    apply Nat.succ_le_succ
    unfold kept
    split
    · rw [List.length_tail]
      exact Nat.sub_le _ _
    · exact le_rfl

theorem spares_within_capacity {events : List Event} {live : EventStore × PositionAggregator}
    (room : live.1.events.length + events.length ≤ maxInMemoryEvents) :
    Run.Guarded (record fromSlice) Spares live events := by
  induction events generalizing live with
  | nil => trivial
  | cons event rest ih =>
    intro next recorded
    have grown := record_length recorded
    rw [List.length_cons] at room
    exact ⟨.inl (by omega), ih (by omega)⟩

theorem rebuild_replays {ρ : Type} [ReadModel ρ] {elapsedMs : ℚ}
    {rebuilder after : StateRebuilder ρ} {start : Nat} {result : RebuildResult}
    (rebuilt : rebuilder.rebuild fromSlice elapsedMs start = some (result, after))
    (success : result.success = true) :
    Run.exec (applyEventToAggregator fromSlice) rebuilder.positionAggregator.clear
      (rebuilder.eventStore.getEventsFrom start) = some after.positionAggregator := by
  unfold rebuild at rebuilt
  split at rebuilt
  · simp only [Option.some.injEq, Prod.mk.injEq] at rebuilt
    rw [← rebuilt.1] at success
    cases success
  simp only at rebuilt
  split at rebuilt
  · rename_i none
    simp only [Option.some.injEq, Prod.mk.injEq] at rebuilt
    rw [List.isEmpty_iff.mp none, ← rebuilt.2]
    rfl
  · simp only [Option.bind_eq_bind, Option.bind_eq_some_iff] at rebuilt
    obtain ⟨aggregator, replayed, rebuilt⟩ := rebuilt
    simp only [Option.pure_def, Option.some.injEq, Prod.mk.injEq] at rebuilt
    rw [replayed, ← rebuilt.2]

theorem rebuild_succeeds {ρ : Type} [ReadModel ρ] (elapsedMs : ℚ) (rebuilder : StateRebuilder ρ)
    {start : Nat} {rebuilt : PositionAggregator} (idle : rebuilder.rebuildInProgress = false)
    (replayed : Run.exec (applyEventToAggregator fromSlice) rebuilder.positionAggregator.clear
      (rebuilder.eventStore.getEventsFrom start) = some rebuilt) :
    ∃ result after, rebuilder.rebuild fromSlice elapsedMs start = some (result, after) ∧
      result.success = true ∧ after.positionAggregator = rebuilt := by
  unfold rebuild
  simp only [idle, Bool.false_eq_true, ↓reduceIte]
  split
  · rename_i none
    rw [List.isEmpty_iff.mp none] at replayed
    exact ⟨_, _, rfl, rfl, Option.some.inj replayed⟩
  · rw [replayed]
    exact ⟨_, _, rfl, rfl, rfl⟩

/-- A session whose store only ever drops quiet events is recovered by every rebuild that reports
success. -/
theorem recovers_sparing_fills (ρ : Type) [ReadModel ρ]
    (fromSlice : List UInt8 → Option Payload) (events : List Event)
    (spares : Run.Guarded (record fromSlice) Spares (EventStore.new, PositionAggregator.new)
      events) : Recovers ρ fromSlice events := by
  intro store live rebuilder after elapsedMs result ran holds rebuilt success
  have complete := complete_session spares ran
  have replayed := rebuild_replays rebuilt success
  have all : rebuilder.eventStore.getEventsFrom 1 = store.events := by
    rw [holds]
    exact List.filter_eq_self.mpr fun event member =>
      decide_eq_true (complete.numbered event member)
  rw [all] at replayed
  have same := replay_view fromSlice store.events
    (show view rebuilder.positionAggregator.clear = view PositionAggregator.new from rfl)
  rw [replayed, complete.replayed] at same
  exact Option.some.inj same

instance : ReadModel Unit := ⟨fun _ _ => (), fun _ => ()⟩

/-- The bytes of a fill of one unit at 100 micros. -/
def fillText : List UInt8 :=
  "\x7b\"symbol\":\"BTC/USDT\",\"side\":\"buy\",\"quantity\":1,\"price\":100\x7d".toUTF8.toList

/-- The bytes of a tick at 100 micros. -/
def tickText : List UInt8 :=
  "\x7b\"symbol\":\"BTC/USDT\",\"price\":100\x7d".toUTF8.toList

/-- The fields of the fill and of the tick, as a parser reads them. -/
def sampleFromSlice (bytes : List UInt8) : Option Payload :=
  if bytes = fillText ∨ bytes = tickText then some {
    asStr := fun key => if key = "symbol" then some "BTC/USDT"
      else if key = "side" ∧ bytes = fillText then some "buy" else none
    asU64 := fun key => if key = "price" then some 100
      else if key = "quantity" ∧ bytes = fillText then some 1 else none }
  else none

/-- A session of a fill and a tick is recovered. -/
theorem recovers_fill_and_tick :
    Recovers Unit sampleFromSlice
      [.new "OrderFilled" fillText none 1, .new "TickReceived" tickText none 2] :=
  recovers_sparing_fills Unit sampleFromSlice _ (spares_within_capacity (by decide))

/-! ## Sessions past the capacity -/

theorem modify_empty (aggregator : PositionAggregator) (symbol : String)
    (change : PositionAggregator.Position → PositionAggregator.Position) :
    (aggregator.modify symbol change).positions = ∅ ↔ aggregator.positions = ∅ := by
  unfold PositionAggregator.modify
  cases found : aggregator.positions.lookup symbol with
  | none => exact Iff.rfl
  | some position =>
    constructor
    · intro empty
      simp only at empty
      have inserted : symbol ∈ aggregator.positions.insert symbol (change position) :=
        (AList.mem_insert _).mpr (.inl rfl)
      rw [empty] at inserted
      exact absurd inserted (AList.notMem_empty symbol)
    · intro empty
      rw [empty] at found
      simp at found

theorem quiet_apply (fromSlice : List UInt8 → Option Payload) (aggregator : PositionAggregator)
    {event : Event} (quiet : Quiet event) :
    ∃ next, applyEventToAggregator fromSlice aggregator event = some next ∧
      (next.positions = ∅ ↔ aggregator.positions = ∅) := by
  unfold applyEventToAggregator
  rw [if_neg (not_or.mpr quiet)]
  cases fromSlice event.payload with
  | none => exact ⟨aggregator, by simp only [ite_self], Iff.rfl⟩
  | some payload =>
    simp only
    split
    · exact ⟨_, rfl, modify_empty ..⟩
    split
    · exact ⟨_, rfl, modify_empty ..⟩
    split
    · exact ⟨_, rfl, modify_empty ..⟩
    · exact ⟨_, rfl, Iff.rfl⟩

theorem quiet_replay (fromSlice : List UInt8 → Option Payload) {events : List Event}
    (aggregator : PositionAggregator) (quiet : ∀ event ∈ events, Quiet event) :
    ∃ final, Run.exec (applyEventToAggregator fromSlice) aggregator events = some final ∧
      (final.positions = ∅ ↔ aggregator.positions = ∅) := by
  induction events generalizing aggregator with
  | nil => exact ⟨aggregator, rfl, Iff.rfl⟩
  | cons event rest ih =>
    obtain ⟨next, applied, same⟩ := quiet_apply fromSlice aggregator
      (quiet event List.mem_cons_self)
    obtain ⟨final, ran, finalSame⟩ := ih next fun event member =>
      quiet event (List.mem_cons_of_mem _ member)
    exact ⟨final, Run.exec_cons.mpr ⟨next, applied, ran⟩, finalSame.trans same⟩

/-- A store that has appended `count` quiet events last, the oldest of them as far back as the
window reaches. -/
structure Slid (count : Nat) (store : EventStore) : Prop where
  /-- The window ends in the quiet events it has room for. -/
  ends : ∃ older newer, store.events = older ++ newer ∧ (∀ event ∈ newer, Quiet event) ∧
    newer.length = min count maxInMemoryEvents ∧
    older.length + newer.length ≤ maxInMemoryEvents
  /-- One event was appended before the quiet ones. -/
  counter : store.sequenceCounter = count + 2

theorem slid_record (fromSlice : List UInt8 → Option Payload) {count : Nat}
    (live : EventStore × PositionAggregator) {event : Event} (slid : Slid count live.1)
    (fits : count + 3 < u64Size) (quiet : Quiet event) :
    ∃ next, record fromSlice live event = some next ∧ Slid (count + 1) next.1 ∧
      (next.2.positions = ∅ ↔ live.2.positions = ∅) := by
  obtain ⟨store, aggregator⟩ := live
  obtain ⟨⟨older, newer, split, quiets, reach, bound⟩, counter⟩ := slid
  simp only at split counter
  have numbered : Quiet { event with sequence := count + 2 } := quiet
  obtain ⟨applied, applies, same⟩ := quiet_apply fromSlice aggregator numbered
  refine ⟨⟨({ store with sequenceCounter := castU64 (count + 2 + 1) }).publish
    { event with sequence := count + 2 }, applied⟩, ?_, ⟨?_, ?_⟩, same⟩
  · simp only [record, EventStore.append, EventStore.draw, counter, Nat.add_eq_zero_iff,
      OfNat.ofNat_ne_zero, and_false, ↓reduceIte, applies, Option.map_some]
  · simp only [EventStore.publish, split]
    have appended : ∀ held ∈ newer ++ [{ event with sequence := count + 2 }], Quiet held := by
      intro held member
      rcases List.mem_append.mp member with old | last
      · exact quiets held old
      · rw [List.mem_singleton.mp last]
        exact quiet
    by_cases full : maxInMemoryEvents ≤ (older ++ newer).length
    · rw [if_pos full]
      rw [List.length_append] at full
      cases older with
      | nil =>
        refine ⟨[], newer.tail ++ [{ event with sequence := count + 2 }], by simp, ?_, ?_, ?_⟩
        · intro held member
          apply appended held
          rcases List.mem_append.mp member with old | last
          · exact List.mem_append_left _ (List.mem_of_mem_tail old)
          · exact List.mem_append_right _ last
        all_goals
          simp only [List.length_nil] at full bound
          simp only [List.length_append, List.length_tail, List.length_singleton,
            List.length_nil]
          unfold maxInMemoryEvents at *
          omega
      | cons oldest older =>
        refine ⟨older, newer ++ [{ event with sequence := count + 2 }], by simp, appended, ?_, ?_⟩
        all_goals
          simp only [List.length_cons] at full bound
          simp only [List.length_append, List.length_singleton]
          omega
    · rw [if_neg full]
      rw [List.length_append] at full
      refine ⟨older, newer ++ [{ event with sequence := count + 2 }], by simp, appended, ?_, ?_⟩
      all_goals
        simp only [List.length_append, List.length_singleton]
        omega
  · exact castU64_of_fits fits

theorem slid_session (fromSlice : List UInt8 → Option Payload) {events : List Event}
    {count : Nat} (live : EventStore × PositionAggregator) (slid : Slid count live.1)
    (fits : count + events.length + 2 < u64Size) (quiet : ∀ event ∈ events, Quiet event) :
    ∃ final, Run.exec (record fromSlice) live events = some final ∧
      Slid (count + events.length) final.1 ∧ (final.2.positions = ∅ ↔ live.2.positions = ∅) := by
  induction events generalizing live count with
  | nil => exact ⟨live, rfl, slid, Iff.rfl⟩
  | cons event rest ih =>
    simp only [List.length_cons] at fits
    obtain ⟨next, recorded, nextSlid, same⟩ :=
      slid_record fromSlice live slid (by omega) (quiet event List.mem_cons_self)
    obtain ⟨final, ran, finalSlid, finalSame⟩ := ih next nextSlid (by omega)
      fun event member => quiet event (List.mem_cons_of_mem _ member)
    refine ⟨final, Run.exec_cons.mpr ⟨next, recorded, ran⟩, ?_, finalSame.trans same⟩
    rw [List.length_cons, Nat.add_comm rest.length 1, ← Nat.add_assoc]
    exact finalSlid

theorem forgets_past_capacity (ρ : Type) [ReadModel ρ] (fromSlice : List UInt8 → Option Payload)
    (first : Event) (rest : List Event) (opened : PositionAggregator)
    (opens : applyEventToAggregator fromSlice PositionAggregator.new { first with sequence := 1 } =
      some opened)
    (tracks : opened.positions ≠ ∅) (quiet : ∀ event ∈ rest, Quiet event)
    (long : maxInMemoryEvents ≤ rest.length) (fits : rest.length + 2 < u64Size) :
    ¬Recovers ρ fromSlice (first :: rest) := by
  intro recovers
  have recorded : record fromSlice (EventStore.new, PositionAggregator.new) first =
      some (({ EventStore.new with sequenceCounter := 2 }).publish { first with sequence := 1 },
        opened) := by
    show (applyEventToAggregator fromSlice PositionAggregator.new
      { first with sequence := 1 }).map _ = _
    rw [opens]
    rfl
  have start : Slid 0 (({ EventStore.new with sequenceCounter := 2 }).publish
      { first with sequence := 1 }) :=
    ⟨⟨[{ first with sequence := 1 }], [], rfl, by simp, by simp, by
      simp only [List.length_singleton, List.length_nil]
      decide⟩, rfl⟩
  obtain ⟨⟨store, live⟩, ran, ⟨⟨older, newer, split, quiets, reach, bound⟩, -⟩, same⟩ :=
    slid_session fromSlice (({ EventStore.new with sequenceCounter := 2 }).publish
      { first with sequence := 1 }, opened) start (by omega) quiet
  -- The window is full of quiet events, so the first event is out of it.
  simp only at split
  rw [Nat.zero_add, Nat.min_eq_right long] at reach
  have gone : older = [] := List.length_eq_zero_iff.mp (by omega)
  have held : ∀ event ∈ store.getEventsFrom 1, Quiet event := by
    intro event member
    have inStore := List.mem_of_mem_filter member
    rw [split, gone, List.nil_append] at inStore
    exact quiets event inStore
  obtain ⟨rebuilt, replayed, empty⟩ := quiet_replay fromSlice
    PositionAggregator.new.clear held
  let rebuilder : StateRebuilder ρ := ⟨store, PositionAggregator.new, none, none, false⟩
  obtain ⟨result, after, rebuilds, success, shows⟩ :=
    rebuild_succeeds 0 rebuilder rfl replayed
  have equal := recovers store live rebuilder after 0 result
    (Run.exec_cons.mpr ⟨_, recorded, ran⟩) rfl rebuilds success
  have positions : after.positionAggregator.positions = live.positions :=
    congrArg View.positions equal
  rw [shows, empty.mpr rfl] at positions
  exact tracks (same.mp positions.symm)

/-- A fill and ten thousand ticks: the rebuild reports success without the position. -/
theorem recovery_loses_position :
    ¬∀ events : List Event, (∀ event ∈ events, WellFormed sampleFromSlice event) →
      Recovers Unit sampleFromSlice events := by
  intro law
  have parsesFill : sampleFromSlice fillText = some _ := if_pos (.inl rfl)
  have parsesTick : sampleFromSlice tickText = some _ := if_pos (.inr rfl)
  let fill : Event := .new "OrderFilled" fillText none 1
  let ticks : List Event := List.replicate 10000 (.new "TickReceived" tickText none 2)
  have quiet : ∀ event ∈ ticks, Quiet event := by
    intro event member
    rw [List.eq_of_mem_replicate member]
    exact ⟨by decide, by decide⟩
  have length : ticks.length = 10000 := List.length_replicate
  have opens : applyEventToAggregator sampleFromSlice PositionAggregator.new
      { fill with sequence := 1 } =
        (PositionAggregator.new.processFill "BTC/USDT" "buy" 1 100 1 1).map Prod.snd := by
    simp [applyEventToAggregator, fill, Event.new, parsesFill]
  have tracked : ∃ opened, (PositionAggregator.new.processFill "BTC/USDT" "buy" 1 100 1 1).map
      Prod.snd = some opened ∧ opened.positions ≠ ∅ :=
    ⟨_, rfl, fun empty => absurd (congrArg AList.keys empty) (by decide)⟩
  obtain ⟨opened, filled, tracks⟩ := tracked
  have lossy : ¬Recovers Unit sampleFromSlice (fill :: ticks) :=
    forgets_past_capacity Unit sampleFromSlice fill ticks opened (opens.trans filled) tracks quiet
      (by rw [length]; decide) (by rw [length]; decide)
  apply lossy
  apply law
  intro event member
  rcases List.mem_cons.mp member with rfl | tick
  · exact ⟨_, "BTC/USDT", parsesFill, rfl, .inl ⟨.inl rfl, .inl (by simp), by simp, by simp⟩⟩
  · rw [List.eq_of_mem_replicate tick]
    exact ⟨_, "BTC/USDT", parsesTick, rfl, .inr (.inl ⟨rfl, rfl⟩)⟩

end TradingBot.CrashRecovery
