import TradingBot.Foundation.Run
import TradingBot.Websockets.OrderbookManager

/-!
# What a ready book has applied

Whether the state READY means that the book holds a snapshot and every update after it, over
calls in any order. `apply_delta` marks a gap by the state STALE and overwrites the mark with
READY before it returns; before any snapshot it applies whatever arrives.
-/

open Run

namespace TradingBot.ReadyBook

/-- A call of the book. -/
inductive Call where
  | setSnapshot (snapshot : OrderBookSnapshot)
  | applyDelta (delta : DepthUpdate)

/-- A book with the history of its updates. -/
structure Tracked where
  book : LocalOrderBook
  /-- The id of the last snapshot and the ids of the updates applied since, in order. -/
  applied : Option (Int × List Int)

/-- A new book. -/
def Tracked.new (symbol : String) (maxDepth : Nat) : Tracked where
  book := .new symbol maxDepth
  applied := none

/-- One call; a skipped update is not recorded. -/
def perform (tracked : Tracked) : Call → Tracked
  | .setSnapshot snapshot => {
      book := tracked.book.setSnapshot snapshot
      applied := some (snapshot.lastUpdateId, []) }
  | .applyDelta delta =>
    let (done, book) := tracked.book.applyDelta delta
    { book := book
      applied :=
        if done then tracked.applied.map fun history => (history.1, history.2 ++ [delta.updateId])
        else tracked.applied }

/-- Every call can be made. -/
def step (tracked : Tracked) (call : Call) : Option Tracked := some (perform tracked call)

/-- The ids after one id up to another. -/
def idsBetween (first last : Int) : List Int :=
  (List.range (last - first).toNat).map fun offset : Nat => first + 1 + (offset : Int)

/-- A ready book has a snapshot and has applied every id from the one after it to its last
update id, once and in order. -/
def ReadyMeansSynchronised (tracked : Tracked) : Prop :=
  tracked.book.state = .ready →
    ∃ first, tracked.applied = some (first, idsBetween first tracked.book.lastUpdateId)

/-- An update arrives after a snapshot and leaves no gap. -/
def InSequence (tracked : Tracked) : Call → Prop
  | .setSnapshot _ => True
  | .applyDelta delta => tracked.book.firstUpdateId.isSome ∧
      delta.updateId ≤ tracked.book.lastUpdateId + 1

/-- What holds of every tracked book. -/
structure Consistent (tracked : Tracked) : Prop where
  /-- The history starts with the book's snapshot. -/
  snapshot : tracked.applied.map Prod.fst = tracked.book.firstUpdateId
  /-- The ids do not run backwards. -/
  forward : ∀ first, tracked.book.firstUpdateId = some first → first ≤ tracked.book.lastUpdateId
  /-- A book with a snapshot reports that it is ready, whatever it has met since. -/
  ready : tracked.book.firstUpdateId.isSome → tracked.book.state = .ready

theorem idsBetween_self (id : Int) : idsBetween id id = [] := by
  simp [idsBetween]

theorem idsBetween_succ {first last : Int} (forward : first ≤ last) :
    idsBetween first (last + 1) = idsBetween first last ++ [last + 1] := by
  have count : (last + 1 - first).toNat = (last - first).toNat + 1 := by omega
  have next : first + 1 + ((last - first).toNat : Int) = last + 1 := by omega
  rw [idsBetween, idsBetween, count, List.range_succ, List.map_append, List.map_singleton, next]

theorem idsBetween_length (first last : Int) :
    (idsBetween first last).length = (last - first).toNat := by
  simp [idsBetween]

theorem perform_consistent {tracked : Tracked} {call : Call} (consistent : Consistent tracked) :
    Consistent (perform tracked call) := by
  cases call with
  | setSnapshot snapshot =>
    exact {
      snapshot := rfl
      forward := fun first same => by
        cases same
        exact le_rfl
      ready := fun _ => rfl }
  | applyDelta delta =>
    by_cases old : tracked.book.firstUpdateId.isSome ∧ delta.updateId ≤ tracked.book.lastUpdateId
    · simpa [perform, LocalOrderBook.applyDelta_skipped old.1 old.2] using consistent
    · have fresh : tracked.book.firstUpdateId.isSome →
          tracked.book.lastUpdateId < delta.updateId :=
        fun loaded => not_le.mp fun late => old ⟨loaded, late⟩
      simp only [perform, LocalOrderBook.applyDelta_applied fresh, if_true]
      exact {
        snapshot := by
          rw [Option.map_map]
          exact consistent.snapshot
        forward := fun first same =>
          (consistent.forward first same).trans
            (le_of_lt (fresh (by simp only at same; simp [same])))
        ready := fun _ => rfl }

theorem perform_synchronised {tracked : Tracked} {call : Call} (consistent : Consistent tracked)
    (synchronised : ReadyMeansSynchronised tracked) :
    ReadyMeansSynchronised (perform tracked call) ↔ InSequence tracked call := by
  cases call with
  | setSnapshot snapshot =>
    refine ⟨fun _ => trivial, fun _ _ => ⟨snapshot.lastUpdateId, ?_⟩⟩
    simp only [perform, LocalOrderBook.setSnapshot, idsBetween_self]
  | applyDelta delta =>
    by_cases old : tracked.book.firstUpdateId.isSome ∧ delta.updateId ≤ tracked.book.lastUpdateId
    · have skipped := LocalOrderBook.applyDelta_skipped old.1 old.2
      have inSequence : InSequence tracked (.applyDelta delta) := ⟨old.1, by have := old.2; omega⟩
      simp only [perform, skipped, Bool.false_eq_true, if_false]
      exact ⟨fun _ => inSequence, fun _ => synchronised⟩
    · have fresh : tracked.book.firstUpdateId.isSome →
          tracked.book.lastUpdateId < delta.updateId :=
        fun loaded => not_le.mp fun late => old ⟨loaded, late⟩
      simp only [perform, LocalOrderBook.applyDelta_applied fresh, if_true]
      constructor
      · intro after
        obtain ⟨first, history⟩ := after rfl
        obtain ⟨before, recorded, same⟩ := Option.map_eq_some_iff.mp history
        have start : before.1 = first := congrArg Prod.fst same
        have ids : before.2 ++ [delta.updateId] = idsBetween first delta.updateId :=
          congrArg Prod.snd same
        have loaded : tracked.book.firstUpdateId = some before.1 := by
          rw [← consistent.snapshot, recorded]
          rfl
        have some_ : tracked.book.firstUpdateId.isSome := by rw [loaded]; rfl
        obtain ⟨origin, exact_⟩ := synchronised (consistent.ready some_)
        rw [recorded] at exact_
        cases Option.some.inj exact_
        -- The ids before are complete, so one more id leaves no room for a gap.
        have count := congrArg List.length ids
        rw [List.length_append, idsBetween_length, idsBetween_length,
          List.length_singleton] at count
        have newer := fresh some_
        have forward := consistent.forward _ loaded
        simp only at start
        refine ⟨some_, ?_⟩
        omega
      · intro inSequence _
        obtain ⟨first, history⟩ := synchronised (consistent.ready inSequence.1)
        have loaded : tracked.book.firstUpdateId = some first := by
          rw [← consistent.snapshot, history]
          rfl
        have forward := consistent.forward first loaded
        have next : delta.updateId = tracked.book.lastUpdateId + 1 := by
          have newer := fresh inSequence.1
          have close := inSequence.2
          omega
        refine ⟨first, ?_⟩
        rw [history, next, idsBetween_succ forward]
        rfl

/-- In every run of calls on a new book, READY means synchronised in every state if and only if
every update arrives after a snapshot and leaves no gap to the last one applied. -/
theorem ready_means_synchronised (symbol : String) (maxDepth : Nat) (calls : List Call) :
    Always step ReadyMeansSynchronised (.new symbol maxDepth) calls ↔
      Guarded step InSequence (.new symbol maxDepth) calls := by
  refine @always_iff_guarded _ _ step Consistent ReadyMeansSynchronised InSequence ?_ ?_ _ ?_ ?_ _
  · intro tracked call next consistent stepped
    cases stepped
    exact perform_consistent consistent
  · intro tracked call next consistent synchronised stepped
    cases stepped
    exact perform_synchronised consistent synchronised
  · exact {
      snapshot := rfl
      forward := fun first none => by cases none
      ready := fun none => by cases none }
  · intro ready
    cases ready

/-- An empty snapshot and the update after the next one. -/
def gap : List Call := [
  .setSnapshot { symbol := "BTCUSDT", bids := [], asks := [], timestamp := 0, lastUpdateId := 100 },
  .applyDelta { bids := [], asks := [], updateId := 102, timestamp := 1 }]

/-- The book is ready after it missed the update 101. -/
theorem ready_after_gap :
    ¬Always step ReadyMeansSynchronised (.new "BTCUSDT" 1000) gap := by
  intro always
  obtain ⟨first, history⟩ := ((always.2 _ rfl).2 _ rfl) rfl
  have ids := congrArg (Option.map Prod.snd) history
  have start := congrArg (Option.map Prod.fst) history
  have origin : first = 100 := (Option.some.inj start).symm
  rw [origin] at ids
  exact absurd (Option.some.inj ids) (by decide)

end TradingBot.ReadyBook
