import TradingBot.Cqrs.AggregatorLocks
import TradingBot.Distributed.FeatureShard
import TradingBot.Events.DeadLetterLocks

/-!
# Calls that wait for themselves

The position aggregator, a shard of the feature state and the dead letter queue each have a call
that takes a lock again of which it still holds a guard. What is left are the calls that return
before they come to it, and those without a second guard, as far as their sums fit.
-/

open Locks MachineInt

namespace TradingBot.Concurrency

open AggregatorLocks RejectedFills
open Distributed (FeatureShard)
open Events (Surroundings PersistentQueue DlqCall)

variable {κ ν τ : Type} [DecidableEq κ]

/-- A call on the aggregator, on a shard or on the dead letter queue completes, without a guard in
the end, exactly if it is allowed: the fill is refused, nothing is inserted and no key that is there
removed, no file is truncated, and all sums fit. -/
theorem completes_iff_allowed :
    (∀ aggregator, Words aggregator → ∀ operation,
      OperationCompletes aggregator operation ↔ OperationAllowed aggregator operation) ∧
    (∀ (shard : FeatureShard κ ν) call, shard.CallCompletes call ↔ shard.CallAllowed call) ∧
    ∀ (around : Surroundings τ) (state : PersistentQueue τ) (call : DlqCall τ),
      state.CallCompletes around call ↔ state.CallAllowed around call :=
  ⟨fun _ words => operationCompletes_iff words, fun _ => FeatureShard.callCompletes_iff,
    fun _ _ => PersistentQueue.callCompletes_iff⟩

/-- Surroundings that let everything succeed. -/
def willing : Surroundings Nat where
  serialize := fun _ => .ok "{}"
  tryClone := .ok ()
  write := fun _ => .ok ()
  metadata := some 3
  rename := .ok ()
  create := .ok ()
  truncate := some (some 0)
  allocates := fun _ => true

/-- An entry. -/
def timedOut : Events.DeadLetterEntry Nat := ⟨7, .timeout, "late", 1, 1, 0, 0, 0⟩

/-- A queue of ten entries with a file. -/
def onDisk : PersistentQueue Nat := ⟨.new 10, true, true, 0⟩

/-- A long position with an open order. -/
def long : PositionAggregator.Position := ⟨"BTC", 1000000000, 1000, 5, 1001, 1, 7⟩

/-- An aggregator that holds it. -/
def holding : PositionAggregator :=
  { PositionAggregator.new with
    positions := PositionAggregator.new.positions.insert "BTC" long
    atomicPositionCount := 1 }

/-- A full queue of one entry. -/
def filled : PersistentQueue Nat :=
  ⟨{ (Events.DeadLetterQueue.new 1 : Events.DeadLetterQueue Nat) with
    queue := [timedOut], entryCount := 1 }, true, true, 0⟩

/-- The values of the position are of their types. -/
theorem words_holding : Words holding := by
  have each (symbol : String) : holding.positionOf symbol =
      if symbol = "BTC" then long else PositionAggregator.new.positionOf symbol :=
    PositionAggregator.positionOf_of_insert rfl symbol
  have fits : 0 < u64Size ∧ i64Min ≤ 0 ∧ 0 ≤ i64Max := by decide
  refine ⟨fun symbol => ?_, fun symbol => ?_, fun symbol => ?_⟩
  all_goals
    rw [each]
    split
  · decide
  · exact fits.2
  · decide
  · exact fits.1
  · decide
  · exact fits.2

/-- On a position, a shard and a full queue that hold something: a close whose PnL does not fit, the
metrics, a key that is not there, an entry that purges another, a replay and a purge of what is too
old are allowed. -/
theorem completes_filled :
    OperationCompletes holding (.fill ⟨"BTC", "sell", 1000000000, 100000000000, 1, 1⟩) ∧
    OperationCompletes holding (.metrics ⟨id, List.Perm.refl⟩ 1) ∧
    (⟨.ofList [(3, 5)], 144⟩ : FeatureShard Nat Nat).CallCompletes (.remove 4) ∧
    filled.CallCompletes willing (.push timedOut 2) ∧
    filled.CallCompletes willing (.popForReplay 4) ∧
    filled.CallCompletes willing (.purgeStale 3 (fun _ => 9) 9) := by
  obtain ⟨aggregator, shard, queue⟩ := @completes_iff_allowed Nat Nat Nat _
  refine ⟨(aggregator _ words_holding _).mpr (.inr (.inr (.inr ⟨?_, ?_, ?_, ?_, ?_⟩))),
    (aggregator _ words_holding _).mpr ?_, (shard _ _).mpr rfl,
    (queue _ _ _).mpr (.inr ⟨⟨by decide, by decide⟩, by decide⟩),
    (queue _ _ _).mpr ⟨rfl, by decide⟩, (queue _ _ _).mpr ⟨⟨by decide, trivial⟩, by decide⟩⟩
  · decide
  · decide
  · decide
  · decide
  · decide
  · show SumsFit 0 0 [long]
    rw [SumsFit, if_neg (by decide)]
    exact ⟨⟨fun _ => by decide, fun _ => by decide, by decide, by decide, by decide⟩, by decide,
      by decide, (by decide : AggregatorLocks.Fits 1000000005)⟩

/-- A first fill, a first value in a shard and a queue whose file is truncated wait for
themselves. -/
theorem waits_for_itself :
    processFill exclusive ⟨"BTC", "buy", 1, 100, 1, 1⟩ ⟨[], .new⟩ = .stuck ∧
    FeatureShard.insert exclusive 3 5 ⟨[], (.new : FeatureShard Nat Nat)⟩ = .stuck ∧
    PersistentQueue.clear willing ⟨[], onDisk⟩ = .stuck ∧
    ¬ (OperationCompletes .new (.fill ⟨"BTC", "buy", 1, 100, 1, 1⟩) ∧
      (FeatureShard.new : FeatureShard Nat Nat).CallCompletes (.insert 3 5) ∧
      onDisk.CallCompletes willing .clear) := by
  refine ⟨rfl, rfl, rfl, ?_⟩
  rintro ⟨-, inserted, -⟩
  exact (FeatureShard.callCompletes_iff _).mp inserted

end TradingBot.Concurrency
