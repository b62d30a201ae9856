import TradingBot.Cqrs.FillOverflow
import TradingBot.Foundation.Dict
import TradingBot.Foundation.Locks

/-!
# The lock of the position aggregator

The operations of `position_aggregator.rs` as they hold guards of the map of positions. The counters
are updated at the end of a fill under a guard of its own, which is taken while the fill still holds
one. A fill is otherwise the one without its lock.
-/

open Locks MachineInt

namespace TradingBot.AggregatorLocks

open TradingBot.PositionAggregator RejectedFills FillOverflow PortfolioTotals
open PositionConservation (signedQuantity)

/-- The lock of the aggregator. -/
inductive AggregatorLock where
  | positions
  deriving DecidableEq, Repr

section Operations

variable (conflicts : Mode → Mode → Bool)

def updateAtomicCounters : Locked AggregatorLock PositionAggregator Unit :=
  guarded conflicts .positions .read (update fun aggregator =>
    { aggregator with atomicPositionCount := openPositions aggregator.positions })

/-- The part of `process_fill` under its guard, up to the counters. -/
def bookFill (aggregator : PositionAggregator) (fill : Fill) :
    Option (Except AggregatorError Unit × PositionAggregator) :=
  if fill.symbol ∉ aggregator.positions ∧ maxSymbols ≤ aggregator.positions.keys.length then
    some (.error (.maxSymbolsReached maxSymbols), aggregator)
  else
    let position := (aggregator.positions.lookup fill.symbol).getD (Position.new fill.symbol)
    let entered := { aggregator with
      positions := aggregator.positions.insert fill.symbol position }
    match signedFill fill.side fill.quantity with
    | .error refused => some (.error refused, entered)
    | .ok signed => do
      match ← position.closePnl signed fill.price with
      | .error refused => return (.error refused, entered.flagOverflow)
      | .ok realizedPnl =>
        let booked ← i64 (position.realizedPnlMicros + realizedPnl)
        let moved ← { position with realizedPnlMicros := booked }.adjust fill.side fill.quantity
          fill.price
        let marked := { moved with lastPriceMicros := fill.price, lastUpdateUs := fill.timestampUs }
        return (.ok (), { entered with
          positions := entered.positions.insert fill.symbol marked
          atomicRealizedPnl := castI64 (entered.atomicRealizedPnl + realizedPnl)
          lastSequence := fill.sequence })

def processFill (fill : Fill) :
    Locked AggregatorLock PositionAggregator (Except AggregatorError Unit) :=
  if i64Max < fill.quantity then do
    update flagOverflow
    pure (.error (.overflowRisk "quantity exceeds i64::MAX"))
  else guarded conflicts .positions .write do
    match ← compute fun aggregator => bookFill aggregator fill with
    | .error refused => pure (.error refused)
    | .ok () =>
      updateAtomicCounters conflicts
      pure (.ok ())

def processTick (symbol : String) (price timestampUs : Nat) :
    Locked AggregatorLock PositionAggregator Unit :=
  guarded conflicts .positions .write
    (update fun aggregator => aggregator.processTick symbol price timestampUs)

def processOrderPlaced (symbol : String) : Locked AggregatorLock PositionAggregator Unit :=
  guarded conflicts .positions .write (update fun aggregator =>
    aggregator.processOrderPlaced symbol)

def processOrderCancelled (symbol : String) : Locked AggregatorLock PositionAggregator Unit :=
  guarded conflicts .positions .write (update fun aggregator =>
    aggregator.processOrderCancelled symbol)

/-- `calculate_metrics`, at a reading of the clock. -/
def calculateMetrics (traversal : Traversal Position) (timestampUs : Nat) :
    Locked AggregatorLock PositionAggregator PortfolioMetrics :=
  guarded conflicts .positions .read (compute fun aggregator =>
    (PortfolioTotals.calculateMetrics (traversal.order (getAllPositions aggregator))
      timestampUs).map fun metrics => (metrics, aggregator))

def clear : Locked AggregatorLock PositionAggregator Unit :=
  guarded conflicts .positions .write (update PositionAggregator.clear)

end Operations

/-! ## A fill -/

section Fills

variable {conflicts : Mode → Mode → Bool} {aggregator next : PositionAggregator} {fill : Fill}

theorem process_eq (small : ¬ i64Max < (fill.quantity : Int)) :
    fill.process aggregator = (bookFill aggregator fill).map fun booked =>
      match booked with
      | (.ok (), after) =>
        (.ok (), { after with atomicPositionCount := openPositions after.positions })
      | (.error refused, after) => (.error refused, after) := by
  unfold Fill.process PositionAggregator.processFill bookFill
  rw [if_neg small]
  by_cases full : fill.symbol ∉ aggregator.positions ∧
      maxSymbols ≤ aggregator.positions.keys.length
  · rw [if_pos full, if_pos full]
    rfl
  · rw [if_neg full, if_neg full]
    cases signedFill fill.side fill.quantity with
    | error refused => rfl
    | ok signed =>
      generalize (aggregator.positions.lookup fill.symbol).getD (Position.new fill.symbol) =
        position
      cases closes : position.closePnl signed fill.price with
      | none => simp [closes]
      | some result => cases result with
        | error refused => simp [closes]
        | ok realizedPnl =>
          cases booked : i64 (position.realizedPnlMicros + realizedPnl) with
          | none => simp [closes, booked]
          | some amount =>
            cases moved : { position with realizedPnlMicros := amount }.adjust fill.side
              fill.quantity fill.price with
            | none => simp [closes, booked, moved]
            | some after => simp [closes, booked, moved]

theorem ends_processFill
    {post : Except AggregatorError Unit → Thread AggregatorLock PositionAggregator → Prop} :
    Ends (processFill conflicts fill) post ⟨[], aggregator⟩ ↔
      ∃ result after, fill.process aggregator = some (result, after) ∧
        (result = .ok () → conflicts .write .read = false) ∧ post result ⟨[], after⟩ := by
  by_cases large : i64Max < (fill.quantity : Int)
  · simp [processFill, large, process_large large]
  · rw [process_eq large]
    cases booked : bookFill aggregator fill with
    | none => simp [processFill, large, booked]
    | some result =>
      obtain ⟨result, after⟩ := result
      cases result with
      | error refused => simp [processFill, large, booked]
      | ok => simp [processFill, large, booked, updateAtomicCounters]

/-- The values of every position are of their types. -/
structure Words (aggregator : PositionAggregator) : Prop where
  quantity : ∀ symbol, i64Min ≤ (aggregator.positionOf symbol).quantity ∧
    (aggregator.positionOf symbol).quantity ≤ i64Max
  average : ∀ symbol, (aggregator.positionOf symbol).averagePriceMicros < u64Size
  realized : ∀ symbol, i64Min ≤ (aggregator.positionOf symbol).realizedPnlMicros ∧
    (aggregator.positionOf symbol).realizedPnlMicros ≤ i64Max

/-- A fill is too large, finds no room, names no side, or closes units of a price for a PnL that
does not fit. -/
def FillRefused (aggregator : PositionAggregator) (fill : Fill) : Prop :=
  i64Max < fill.quantity ∨ ¬Room aggregator fill ∨ ¬(fill.side = "buy" ∨ fill.side = "sell") ∨
    let position := aggregator.positionOf fill.symbol
    i64Min < position.quantity ∧ Closes position fill.side fill.quantity ∧
      0 < position.averagePriceMicros ∧ |unitPnl position fill.price| ≤ i64Max ∧
      Refused position fill.quantity fill.price

theorem settle_ok {realizedPnl : Int} {refusal : AggregatorError} :
    settle aggregator fill (.ok realizedPnl) ≠ some (.error refusal, next) := by
  intro refused
  simp only [settle, Option.bind_eq_bind, Option.bind_eq_some_iff] at refused
  obtain ⟨total, _, moved, _, booked_⟩ := refused
  cases booked_

theorem closePnl_smallest {position : Position} {side : String} {quantity price : Nat}
    (smallest : position.quantity = i64Min) (closes : Closes position side quantity) :
    position.closePnl (signedQuantity side quantity) price = none := by
  have short : ¬0 < position.quantity := by
    rw [smallest]
    decide
  have units : i64 (-position.quantity) = none := by
    rw [smallest]
    decide
  have opposed := closes.resolve_left fun long => short long.1
  simp [Position.closePnl, Position.closeQty, opposed, short, units]

/-- A fill that is booked is not refused unless it closes units of a price for a PnL that does not
fit. -/
theorem closePnl_refused (words : Words aggregator) (small : (fill.quantity : Int) ≤ i64Max) :
    (∃ refusal, (aggregator.positionOf fill.symbol).closePnl
        (signedQuantity fill.side fill.quantity) fill.price = some (.error refusal)) ↔
      i64Min < (aggregator.positionOf fill.symbol).quantity ∧
        Closes (aggregator.positionOf fill.symbol) fill.side fill.quantity ∧
        0 < (aggregator.positionOf fill.symbol).averagePriceMicros ∧
        |unitPnl (aggregator.positionOf fill.symbol) fill.price| ≤ i64Max ∧
        Refused (aggregator.positionOf fill.symbol) fill.quantity fill.price := by
  have quantity := words.quantity fill.symbol
  have average := words.average fill.symbol
  have realized := words.realized fill.symbol
  generalize aggregator.positionOf fill.symbol = position at quantity average realized ⊢
  have wide : i64Min = -i64Max - 1 := by decide
  rcases eq_or_lt_of_le quantity.1 with smallest | larger
  · refine iff_of_false ?_ fun refused => absurd smallest (ne_of_lt refused.1)
    rintro ⟨refusal, refused⟩
    by_cases closes : Closes position fill.side fill.quantity
    · rw [closePnl_smallest smallest.symm closes] at refused
      cases refused
    · have zero : position.closePnl (signedQuantity fill.side fill.quantity) fill.price =
          some (.ok 0) := if_neg closes
      rw [zero] at refused
      cases refused
  · have inType : InType position := ⟨abs_le.mpr ⟨by omega, quantity.2⟩, average, realized⟩
    rw [and_iff_right larger]
    by_cases closes : Closes position fill.side fill.quantity ∧ 0 < position.averagePriceMicros
    · rw [closePnl_closes inType small closes.1 closes.2, and_iff_right closes.1,
        and_iff_right closes.2]
      by_cases fits : |unitPnl position fill.price| ≤ i64Max
      · rw [and_iff_right fits]
        rcases realizedPnl_cases (sub_eq_unitPnl position fill.price) inType fits
          (closed_pos closes.1) (closed_le inType) with ⟨leaves, message, refused⟩ | ⟨stays, some_⟩
        · exact iff_of_true ⟨_, refused⟩ leaves
        · rw [some_]
          exact iff_of_false (by simp) stays
      · rw [realizedPnl_none (sub_eq_unitPnl position fill.price) fits]
        exact iff_of_false (by simp) fun both => fits both.1
    · rw [closePnl_zero inType small closes]
      exact iff_of_false (by simp) fun refused => closes ⟨refused.1, refused.2.1⟩

theorem process_refused_iff (words : Words aggregator) :
    (∃ refusal after, fill.process aggregator = some (.error refusal, after)) ↔
      FillRefused aggregator fill := by
  unfold FillRefused
  by_cases large : i64Max < (fill.quantity : Int)
  · exact iff_of_true ⟨_, _, process_large large⟩ (.inl large)
  have small := not_lt.mp large
  rw [or_iff_right large]
  by_cases room : Room aggregator fill
  · rw [or_iff_right (not_not.mpr room)]
    by_cases named : fill.side = "buy" ∨ fill.side = "sell"
    · rw [or_iff_right (not_not.mpr named), process_named small room named]
      refine Iff.trans ?_ (closePnl_refused words small)
      constructor
      · rintro ⟨refusal, after, refused⟩
        obtain ⟨result, closes, settled⟩ := Option.bind_eq_some_iff.mp refused
        cases result with
        | error reason => exact ⟨reason, closes⟩
        | ok realizedPnl => exact absurd settled settle_ok
      · rintro ⟨refusal, closes⟩
        exact ⟨refusal, _, by rw [closes]; rfl⟩
    · exact iff_of_true ⟨_, _, process_unnamed small room named⟩ (.inl named)
  · exact iff_of_true ⟨_, _, process_full small room⟩ (.inl room)

theorem completes_processFill (words : Words aggregator) :
    Completes (processFill exclusive fill) aggregator ↔ FillRefused aggregator fill := by
  rw [← process_refused_iff words, Completes, ends_processFill]
  constructor
  · rintro ⟨result, after, processed, granted, -⟩
    cases result with
    | error refusal => exact ⟨refusal, after, processed⟩
    | ok => exact absurd (granted rfl) (by decide)
  · rintro ⟨refusal, after, processed⟩
    exact ⟨_, after, processed, fun same => absurd same (by simp), rfl⟩

end Fills

/-! ## The metrics -/

section Metrics

/-- A value is a signed 64-bit one. -/
def Fits (value : Int) : Prop := i64Min ≤ value ∧ value ≤ i64Max

instance (value : Int) : Decidable (Fits value) := inferInstanceAs (Decidable (_ ∧ _))

/-- What a position has unrealized, over unbounded integers. -/
def mark (position : Position) : Int :=
  if position.lastPriceMicros = 0 then 0
  else position.quantity * castI64 position.lastPriceMicros -
    position.quantity * castI64 position.averagePriceMicros

/-- What an open position adds to the metrics fits. -/
structure Marks (position : Position) : Prop where
  value : position.lastPriceMicros ≠ 0 → Fits (position.quantity * castI64 position.lastPriceMicros)
  cost : position.lastPriceMicros ≠ 0 →
    Fits (position.quantity * castI64 position.averagePriceMicros)
  gain : Fits (mark position)
  size : Fits |position.quantity|
  exposure : Fits (position.quantity * castI64 position.lastPriceMicros)

/-- The sums over the open positions fit, one after the other, and so does their total. -/
def SumsFit : Int → Int → List Position → Prop
  | realized, unrealized, [] => Fits (realized + unrealized)
  | realized, unrealized, position :: rest =>
    if position.quantity = 0 then SumsFit realized unrealized rest
    else Marks position ∧ Fits (unrealized + mark position) ∧
      Fits (realized + position.realizedPnlMicros) ∧
      SumsFit (realized + position.realizedPnlMicros) (unrealized + mark position) rest

variable {metrics : PortfolioMetrics} {positions : List Position} {position : Position}

theorem unrealized_iff (open_ : position.quantity ≠ 0) {unrealized : Int} :
    position.unrealizedPnlMicros = some unrealized ↔
      ((position.lastPriceMicros ≠ 0 →
        Fits (position.quantity * castI64 position.lastPriceMicros)) ∧
      (position.lastPriceMicros ≠ 0 →
        Fits (position.quantity * castI64 position.averagePriceMicros)) ∧
      Fits (mark position)) ∧ mark position = unrealized := by
  have zero : Fits 0 := by decide
  unfold Position.unrealizedPnlMicros mark
  by_cases unmarked : position.lastPriceMicros = 0
  · simp [unmarked, zero]
  · rw [if_neg (not_or.mpr ⟨open_, unmarked⟩), if_neg unmarked]
    simp only [Option.bind_eq_bind, Option.bind_eq_some_iff, i64_eq_some]
    constructor
    · rintro ⟨_, ⟨value, rfl⟩, _, ⟨cost, rfl⟩, gain, rfl⟩
      exact ⟨⟨fun _ => value, fun _ => cost, gain⟩, rfl⟩
    · rintro ⟨⟨value, cost, gain⟩, rfl⟩
      exact ⟨_, ⟨value unmarked, rfl⟩, _, ⟨cost unmarked, rfl⟩, gain, rfl⟩

theorem addOpen_iff (open_ : position.quantity ≠ 0) :
    (∃ next, metrics.addOpen position = some next) ↔ Marks position ∧
      Fits (metrics.totalUnrealizedPnlMicros + mark position) ∧
      Fits (metrics.totalRealizedPnlMicros + position.realizedPnlMicros) := by
  simp only [PortfolioMetrics.addOpen, Option.bind_eq_bind, Option.bind_eq_some_iff,
    unrealized_iff open_, i64_eq_some]
  constructor
  · rintro ⟨next, _, ⟨⟨value, cost, gain⟩, rfl⟩, _, ⟨unrealized, -⟩, _, ⟨realized, -⟩, _,
      ⟨size, -⟩, _, ⟨exposure, -⟩, -⟩
    exact ⟨⟨value, cost, gain, size, exposure⟩, unrealized, realized⟩
  · rintro ⟨⟨value, cost, gain, size, exposure⟩, unrealized, realized⟩
    exact ⟨_, _, ⟨⟨value, cost, gain⟩, rfl⟩, _, ⟨unrealized, rfl⟩, _, ⟨realized, rfl⟩, _,
      ⟨size, rfl⟩, _, ⟨exposure, rfl⟩, rfl⟩

theorem foldlM_add_iff :
    (∃ next, positions.foldlM PortfolioMetrics.add metrics = some next ∧
      Fits (next.totalRealizedPnlMicros + next.totalUnrealizedPnlMicros)) ↔
      SumsFit metrics.totalRealizedPnlMicros metrics.totalUnrealizedPnlMicros positions := by
  induction positions generalizing metrics with
  | nil => simp [SumsFit]
  | cons position rest ih =>
    rw [SumsFit, List.foldlM_cons]
    by_cases flat : position.quantity = 0
    · have isFlat : position.isFlat = true := decide_eq_true flat
      obtain ⟨counted, adds⟩ : ∃ counted, metrics.add position = some counted := by
        simp [PortfolioMetrics.add, isFlat]
      obtain ⟨realized, unrealized, -⟩ := add_ok adds
      rw [if_pos isFlat, add_zero] at realized
      rw [unrealized_flat isFlat, Option.getD_some, add_zero] at unrealized
      rw [if_pos flat, adds, ← realized, ← unrealized]
      exact ih
    · have isOpen : position.isFlat = false := decide_eq_false flat
      rw [if_neg flat]
      cases added : metrics.addOpen position with
      | none =>
        have refused : metrics.add position = none := by
          simp [PortfolioMetrics.add, isOpen, added]
        rw [refused]
        refine iff_of_false (by simp) fun fits => ?_
        obtain ⟨next, adds⟩ := (addOpen_iff flat).mpr ⟨fits.1, fits.2.1, fits.2.2.1⟩
        rw [added] at adds
        cases adds
      | some opened =>
        obtain ⟨marks, unrealizedFits, realizedFits⟩ := (addOpen_iff flat).mp ⟨opened, added⟩
        have marked : position.unrealizedPnlMicros = some (mark position) :=
          (unrealized_iff flat).mpr ⟨⟨marks.value, marks.cost, marks.gain⟩, rfl⟩
        obtain ⟨counted, adds⟩ : ∃ counted, metrics.add position = some counted := by
          simp [PortfolioMetrics.add, isOpen, added]
        obtain ⟨realized, unrealized, -⟩ := add_ok adds
        rw [isOpen, if_neg Bool.false_ne_true] at realized
        rw [marked, Option.getD_some] at unrealized
        rw [and_iff_right marks, and_iff_right unrealizedFits, and_iff_right realizedFits, adds,
          ← realized, ← unrealized]
        exact ih

theorem calculateMetrics_iff {timestampUs : Nat} :
    (∃ metrics, PortfolioTotals.calculateMetrics positions timestampUs = some metrics) ↔
      SumsFit 0 0 positions := by
  have summed := @foldlM_add_iff (.new timestampUs) positions
  refine Iff.trans ?_ summed
  simp only [PortfolioTotals.calculateMetrics, Option.bind_eq_bind, Option.bind_eq_some_iff,
    i64_eq_some]
  constructor
  · rintro ⟨metrics, next, computed, _, ⟨fits, -⟩, -⟩
    exact ⟨next, computed, fits⟩
  · rintro ⟨next, computed, fits⟩
    exact ⟨_, next, computed, _, ⟨fits, rfl⟩, rfl⟩

end Metrics

/-! ## What completes -/

/-- A call on the aggregator. -/
inductive AggregatorOperation where
  /-- `process_fill`. -/
  | fill (fill : Fill)
  /-- `process_tick`. -/
  | tick (symbol : String) (price timestampUs : Nat)
  /-- `process_order_placed`. -/
  | orderPlaced (symbol : String)
  /-- `process_order_cancelled`. -/
  | orderCancelled (symbol : String)
  /-- `calculate_metrics`. -/
  | metrics (traversal : Traversal Position) (timestampUs : Nat)
  | clear

/-- A call completes with the lock of the aggregator. -/
def OperationCompletes (aggregator : PositionAggregator) : AggregatorOperation → Prop
  | .fill fill => Completes (processFill exclusive fill) aggregator
  | .tick symbol price timestampUs =>
    Completes (processTick exclusive symbol price timestampUs) aggregator
  | .orderPlaced symbol => Completes (processOrderPlaced exclusive symbol) aggregator
  | .orderCancelled symbol => Completes (processOrderCancelled exclusive symbol) aggregator
  | .metrics traversal timestampUs =>
    Completes (calculateMetrics exclusive traversal timestampUs) aggregator
  | .clear => Completes (clear exclusive) aggregator

/-- A fill is refused, and the sums of the metrics fit. -/
def OperationAllowed (aggregator : PositionAggregator) : AggregatorOperation → Prop
  | .fill fill => FillRefused aggregator fill
  | .metrics traversal _ => SumsFit 0 0 (traversal.order (getAllPositions aggregator))
  | .tick .. | .orderPlaced _ | .orderCancelled _ | .clear => True

theorem operationCompletes_iff {aggregator : PositionAggregator} (words : Words aggregator)
    (operation : AggregatorOperation) :
    OperationCompletes aggregator operation ↔ OperationAllowed aggregator operation := by
  cases operation with
  | fill fill => exact completes_processFill words
  | tick | orderPlaced | orderCancelled | clear =>
    simp [OperationCompletes, OperationAllowed, Completes, processTick, processOrderPlaced,
      processOrderCancelled, clear]
  | metrics traversal timestampUs =>
    rw [OperationAllowed, ← @calculateMetrics_iff _ timestampUs]
    simp [OperationCompletes, Completes, calculateMetrics]

end TradingBot.AggregatorLocks
