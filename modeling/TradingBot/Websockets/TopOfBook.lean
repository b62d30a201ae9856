import TradingBot.Foundation.BoundedView
import TradingBot.Foundation.Run
import TradingBot.Websockets.OrderbookManager

/-!
# The bounded book and the whole one

The book kept to its maximal depth against a reference that applies the same snapshots and
updates without a bound. Each side is a bounded view of the reference: a trimmed level is
forgotten until an update names its price again, and the book shows the best levels of the
reference as long as enough held levels are better than every forgotten one.
-/

open Run

namespace TradingBot.TopOfBook

/-- The reference: the levels without a bound. -/
structure ReferenceBook where
  /-- Bids at their negated prices. -/
  bids : BookSide
  /-- Asks at their prices. -/
  asks : BookSide

/-- The reference takes over a snapshot. -/
def ReferenceBook.load (snapshot : OrderBookSnapshot) : ReferenceBook where
  bids := LocalOrderBook.loadSide LocalOrderBook.bidKey snapshot.bids
  asks := LocalOrderBook.loadSide LocalOrderBook.askKey snapshot.asks

/-- The reference applies an update, a quantity of zero removing the level. -/
def ReferenceBook.apply (reference : ReferenceBook) (delta : DepthUpdate) : ReferenceBook where
  bids := LocalOrderBook.updateSide LocalOrderBook.bidKey reference.bids delta.bids
  asks := LocalOrderBook.updateSide LocalOrderBook.askKey reference.asks delta.asks

/-- A call of the book. -/
inductive Call where
  | setSnapshot (snapshot : OrderBookSnapshot)
  | applyDelta (delta : DepthUpdate)

/-- A book with its reference and the levels it has forgotten. -/
structure Compared where
  book : LocalOrderBook
  reference : ReferenceBook
  /-- Bids trimmed and not updated since. -/
  forgottenBids : List (ℚ × BookLevel)
  /-- Asks trimmed and not updated since. -/
  forgottenAsks : List (ℚ × BookLevel)
  /-- Whether an update was applied since the last snapshot. -/
  updated : Bool

/-- A new book and an empty reference. -/
def Compared.new (symbol : String) (maxDepth : Nat) : Compared where
  book := .new symbol maxDepth
  reference := ⟨.empty, .empty⟩
  forgottenBids := []
  forgottenAsks := []
  updated := false

/-- The bids as a view of the reference's bids. -/
def bidView (compared : Compared) : BoundedView ℚ BookLevel :=
  ⟨compared.book.bids, compared.reference.bids, compared.forgottenBids⟩

/-- The asks as a view of the reference's asks. -/
def askView (compared : Compared) : BoundedView ℚ BookLevel :=
  ⟨compared.book.asks, compared.reference.asks, compared.forgottenAsks⟩

/-- The change an updated level makes at its key. -/
def levelChange (key : ℚ → ℚ) (level : ℚ × ℚ) : ℚ × Option BookLevel :=
  (key level.1, if level.2 = 0 then none else some { price := level.1, quantity := level.2 })

/-- A view after the updates of its side and before the trim. -/
def updatedView (key : ℚ → ℚ) (levels : List (ℚ × ℚ)) (view : BoundedView ℚ BookLevel) :
    BoundedView ℚ BookLevel :=
  (levels.map (levelChange key)).foldl BoundedView.change view

/-- One call on the book and on the reference; a skipped update changes neither. -/
def perform (compared : Compared) : Call → Compared
  | .setSnapshot snapshot => {
      book := compared.book.setSnapshot snapshot
      reference := .load snapshot
      forgottenBids := []
      forgottenAsks := []
      updated := false }
  | .applyDelta delta =>
    let (done, book) := compared.book.applyDelta delta
    if done then {
      book := book
      reference := compared.reference.apply delta
      forgottenBids := ((updatedView LocalOrderBook.bidKey delta.bids (bidView compared)).trim
        compared.book.maxDepth).forgotten
      forgottenAsks := ((updatedView LocalOrderBook.askKey delta.asks (askView compared)).trim
        compared.book.maxDepth).forgotten
      updated := true }
    else { compared with book := book }

/-- Every call can be made. -/
def step (compared : Compared) (call : Call) : Option Compared := some (perform compared call)

/-- An update follows the last one without a gap. -/
def GapFree (compared : Compared) : Call → Prop
  | .setSnapshot _ => True
  | .applyDelta delta => compared.book.firstUpdateId.isSome ∧
      delta.updateId = compared.book.lastUpdateId + 1

instance (compared : Compared) : ∀ call, Decidable (GapFree compared call)
  | .setSnapshot _ => .isTrue trivial
  | .applyDelta delta => inferInstanceAs (Decidable (compared.book.firstUpdateId.isSome ∧
      delta.updateId = compared.book.lastUpdateId + 1))

/-- The levels of the reference are the levels held and the levels forgotten, with the same
quantities, and none is both. -/
structure Accounted (compared : Compared) : Prop where
  bids : (bidView compared).Accounted
  asks : (askView compared).Accounted

/-- The book holds exactly the best levels of the reference up to its depth, and its getters
answer as the reference would. -/
structure ShowsBest (compared : Compared) : Prop where
  /-- The bids held. -/
  bids : compared.book.bids = compared.reference.bids.take compared.book.maxDepth
  /-- The asks held. -/
  asks : compared.book.asks = compared.reference.asks.take compared.book.maxDepth
  bestBid : compared.book.getBestBid = compared.reference.bids.entries.head?.map Prod.snd
  bestAsk : compared.book.getBestAsk = compared.reference.asks.entries.head?.map Prod.snd
  /-- The first bids. -/
  topBids : ∀ depth ≤ compared.book.maxDepth,
    compared.book.getBids depth = LocalOrderBook.topLevels compared.reference.bids depth
  /-- The first asks. -/
  topAsks : ∀ depth ≤ compared.book.maxDepth,
    compared.book.getAsks depth = LocalOrderBook.topLevels compared.reference.asks depth

/-- After an update the book shows the best levels. -/
def BestAfterUpdate (compared : Compared) : Prop :=
  compared.updated = true → ShowsBest compared

/-- With the update applied and the trim ahead, each side has forgotten nothing or holds its
depth in levels better than everything forgotten. -/
def KeepsAmple (compared : Compared) : Call → Prop
  | .setSnapshot _ => True
  | .applyDelta delta =>
    (updatedView LocalOrderBook.bidKey delta.bids (bidView compared)).Ample
      compared.book.maxDepth ∧
    (updatedView LocalOrderBook.askKey delta.asks (askView compared)).Ample
      compared.book.maxDepth

/-! ## One side -/

theorem updateSide_eq (key : ℚ → ℚ) (side : BookSide) (levels : List (ℚ × ℚ)) :
    LocalOrderBook.updateSide key side levels =
      (levels.map (levelChange key)).foldl OrderedMap.change side := by
  rw [List.foldl_map]
  unfold LocalOrderBook.updateSide
  congr 1
  funext side level
  unfold OrderedMap.change levelChange
  by_cases zero : level.2 = 0
  · simp only [if_pos zero]
  · simp only [if_neg zero]

theorem topLevels_take (side : BookSide) {depth maxDepth : Nat} (within : depth ≤ maxDepth) :
    LocalOrderBook.topLevels (side.take maxDepth) depth = LocalOrderBook.topLevels side depth := by
  rw [LocalOrderBook.topLevels, LocalOrderBook.topLevels, OrderedMap.take, List.take_take,
    Nat.min_eq_left within]

theorem head_take (side : BookSide) {maxDepth : Nat} (positive : 0 < maxDepth) :
    (side.take maxDepth).entries.head? = side.entries.head? := by
  obtain ⟨depth, rfl⟩ := Nat.exists_eq_succ_of_ne_zero (Nat.pos_iff_ne_zero.mp positive)
  cases entries : side.entries with
  | nil => simp [OrderedMap.take, entries]
  | cons first rest => simp [OrderedMap.take, entries]

variable {compared : Compared}

theorem showsBest_iff (positive : 0 < compared.book.maxDepth) : ShowsBest compared ↔
      compared.book.bids = compared.reference.bids.take compared.book.maxDepth ∧
      compared.book.asks = compared.reference.asks.take compared.book.maxDepth := by
  constructor
  · exact fun shows => ⟨shows.bids, shows.asks⟩
  · intro held
    exact {
      bids := held.1
      asks := held.2
      bestBid := by rw [LocalOrderBook.getBestBid, held.1, head_take _ positive]
      bestAsk := by rw [LocalOrderBook.getBestAsk, held.2, head_take _ positive]
      topBids := fun depth within => by
        rw [LocalOrderBook.getBids, held.1, topLevels_take _ within]
      topAsks := fun depth within => by
        rw [LocalOrderBook.getAsks, held.2, topLevels_take _ within] }

/-! ## One call -/

/-- An update without a gap is applied to the book and the reference. -/
theorem perform_delta {delta : DepthUpdate} (gapFree : GapFree compared (.applyDelta delta)) :
    bidView (perform compared (.applyDelta delta)) =
        (updatedView LocalOrderBook.bidKey delta.bids (bidView compared)).trim
          compared.book.maxDepth ∧
      askView (perform compared (.applyDelta delta)) =
        (updatedView LocalOrderBook.askKey delta.asks (askView compared)).trim
          compared.book.maxDepth ∧
      (perform compared (.applyDelta delta)).updated = true ∧
      (perform compared (.applyDelta delta)).book.maxDepth = compared.book.maxDepth := by
  have newer : compared.book.firstUpdateId.isSome →
      compared.book.lastUpdateId < delta.updateId := by
    intro _
    have next := gapFree.2
    omega
  have applied := LocalOrderBook.applyDelta_applied newer
  simp only [perform, applied, if_true, bidView, askView, BoundedView.trim, updatedView,
    BoundedView.held_changes, BoundedView.full_changes, updateSide_eq, ReferenceBook.apply,
    and_self]

theorem perform_accounted {compared : Compared} {call : Call} (accounted : Accounted compared)
    (gapFree : GapFree compared call) : Accounted (perform compared call) := by
  cases call with
  | setSnapshot snapshot =>
    exact {
      bids := BoundedView.accounted_whole _
      asks := BoundedView.accounted_whole _ }
  | applyDelta delta =>
    have views := perform_delta gapFree
    exact {
      bids := by
        rw [views.1]
        exact BoundedView.accounted_trim (BoundedView.accounted_changes accounted.bids _) _
      asks := by
        rw [views.2.1]
        exact BoundedView.accounted_trim (BoundedView.accounted_changes accounted.asks _) _ }

theorem perform_maxDepth {call : Call} (gapFree : GapFree compared call) :
    (perform compared call).book.maxDepth = compared.book.maxDepth := by
  cases call with
  | setSnapshot snapshot => rfl
  | applyDelta delta => exact (perform_delta gapFree).2.2.2

theorem trimmed_iff_ample {view : BoundedView ℚ BookLevel} (accounted : view.Accounted)
    (key : ℚ → ℚ) (levels : List (ℚ × ℚ)) (depth : Nat) :
    ((updatedView key levels view).trim depth).held =
        ((updatedView key levels view).trim depth).full.take depth ↔
      (updatedView key levels view).Ample depth :=
  BoundedView.take_eq_take_iff (BoundedView.accounted_changes accounted _) depth

theorem perform_best {call : Call} (positive : 0 < compared.book.maxDepth)
    (accounted : Accounted compared) (gapFree : GapFree compared call) :
    BestAfterUpdate (perform compared call) ↔ KeepsAmple compared call := by
  cases call with
  | setSnapshot snapshot => exact ⟨fun _ => trivial, fun _ updated => Bool.noConfusion updated⟩
  | applyDelta delta =>
    have views := perform_delta gapFree
    have depth := perform_maxDepth gapFree
    have bidsHeld := congrArg BoundedView.held views.1
    have bidsFull := congrArg BoundedView.full views.1
    have asksHeld := congrArg BoundedView.held views.2.1
    have asksFull := congrArg BoundedView.full views.2.1
    have sides : ShowsBest (perform compared (.applyDelta delta)) ↔
        KeepsAmple compared (.applyDelta delta) := by
      rw [showsBest_iff (depth ▸ positive), depth]
      simp only [bidView, askView] at bidsHeld bidsFull asksHeld asksFull
      rw [bidsHeld, bidsFull, asksHeld, asksFull]
      exact and_congr (trimmed_iff_ample accounted.bids _ _ _)
        (trimmed_iff_ample accounted.asks _ _ _)
    constructor
    · exact fun best => sides.mp (best views.2.2.1)
    · exact fun ample _ => sides.mpr ample

/-! ## Runs -/

theorem accounted_new (symbol : String) (maxDepth : Nat) : Accounted (.new symbol maxDepth) where
  bids := BoundedView.accounted_whole _
  asks := BoundedView.accounted_whole _

/-- In every run without gaps the reference's levels are those the book holds and those it has
forgotten, and after every update the book shows exactly the best levels of the reference if
and only if every update so far left each side ample before its trim. -/
theorem shows_best_iff_ample (symbol : String) {maxDepth : Nat} (positive : 0 < maxDepth)
    (calls : List Call) (gapFree : Guarded step GapFree (.new symbol maxDepth) calls) :
    Always step Accounted (.new symbol maxDepth) calls ∧
      (Always step BestAfterUpdate (.new symbol maxDepth) calls ↔
        Guarded step KeepsAmple (.new symbol maxDepth) calls) := by
  have start := accounted_new symbol maxDepth
  constructor
  · refine always_guarded ?_ start calls gapFree
    intro compared call next accounted given stepped
    cases stepped
    exact perform_accounted accounted given
  · refine @always_iff_guarded_of _ _ step
      (fun compared => Accounted compared ∧ 0 < compared.book.maxDepth) BestAfterUpdate GapFree
      KeepsAmple ?_ ?_ _ ?_ ?_ calls gapFree
    · intro compared call next kept _ given _ stepped
      cases stepped
      exact ⟨perform_accounted kept.1 given, (perform_maxDepth given).symm ▸ kept.2⟩
    · intro compared call next kept _ given stepped
      cases stepped
      exact perform_best kept.2 kept.1 given
    · exact ⟨start, positive⟩
    · exact fun updated => Bool.noConfusion updated

/-- A snapshot with one bid. -/
def oneBid : OrderBookSnapshot where
  symbol := "BTCUSDT"
  bids := [(100, 1)]
  asks := []
  timestamp := 0
  lastUpdateId := 1

/-- An update of one bid. -/
def bidUpdate (updateId : Int) (price quantity : ℚ) : DepthUpdate where
  bids := [(price, quantity)]
  asks := []
  updateId := updateId
  timestamp := 0

/-- A better bid is shown first, and nothing is forgotten at depth two. -/
theorem shows_best_iff_ample_two : Always step BestAfterUpdate (.new "BTCUSDT" 2)
    [.setSnapshot oneBid, .applyDelta (bidUpdate 2 101 2)] := by
  refine (shows_best_iff_ample "BTCUSDT" (by decide) _ (by decide)).2.mpr ?_
  intro loaded load
  cases load
  refine ⟨trivial, ?_⟩
  intro updated update
  cases update
  exact ⟨⟨.inl rfl, .inl rfl⟩, trivial⟩

/-- At depth one the better bid makes the book forget the other, and once it is removed the
book has no bid while the reference has one. -/
theorem removed_best_not_replaced :
    Guarded step GapFree (.new "BTCUSDT" 1) [.setSnapshot oneBid,
        .applyDelta (bidUpdate 2 101 2), .applyDelta (bidUpdate 3 101 0)] ∧
      ¬Always step BestAfterUpdate (.new "BTCUSDT" 1) [.setSnapshot oneBid,
        .applyDelta (bidUpdate 2 101 2), .applyDelta (bidUpdate 3 101 0)] := by
  refine ⟨by decide, fun always => ?_⟩
  let loaded := perform (.new "BTCUSDT" 1) (.setSnapshot oneBid)
  let better := perform loaded (.applyDelta (bidUpdate 2 101 2))
  have firstGapFree : GapFree loaded (.applyDelta (bidUpdate 2 101 2)) := by decide
  have secondGapFree : GapFree better (.applyDelta (bidUpdate 3 101 0)) := by decide
  have start := @perform_accounted _ (.setSnapshot oneBid) (accounted_new "BTCUSDT" 1) trivial
  have accounted : Accounted better := perform_accounted start firstGapFree
  have best : BestAfterUpdate (perform better (.applyDelta (bidUpdate 3 101 0))) :=
    ((always.2 _ rfl).2 _ rfl).2 _ rfl
  have positive : 0 < better.book.maxDepth := by
    rw [perform_maxDepth firstGapFree]
    decide
  have ample := ((perform_best positive accounted secondGapFree).mp best).1
  have view := (perform_delta firstGapFree).1
  rw [perform_maxDepth firstGapFree, view] at ample
  exact absurd ample (by decide +kernel)

end TradingBot.TopOfBook
