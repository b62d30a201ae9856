import TradingBot.Foundation.Run
import TradingBot.Cqrs.PositionAggregator

/-!
# Rejected fills

A fill that is rejected leaves the totals and the sequence number, but the entry of its symbol is
made before its side is read. A text that is no side therefore uses up one of the symbols that are
tracked, for good.
-/

open MachineInt Run

namespace TradingBot.RejectedFills

open TradingBot.PositionAggregator

/-- The arguments of one `process_fill`. -/
structure Fill where
  symbol : String
  side : String
  quantity : Nat
  /-- The price in micros. -/
  price : Nat
  sequence : Nat
  timestampUs : Nat

/-- `process_fill` with the arguments of a fill. -/
def Fill.process (fill : Fill) (aggregator : PositionAggregator) :
    Option (Except AggregatorError Unit × PositionAggregator) :=
  aggregator.processFill fill.symbol fill.side fill.quantity fill.price fill.sequence
    fill.timestampUs

/-- A step of a run of fills that are all rejected. -/
def rejectStep (aggregator : PositionAggregator) (fill : Fill) : Option PositionAggregator :=
  (fill.process aggregator).bind fun result =>
    match result.1 with
    | .error _ => some result.2
    | .ok () => none

/-- The positions by symbol and the totals are as before. -/
structure Unchanged (before after : PositionAggregator) : Prop where
  positions : ∀ symbol, after.getPosition symbol = before.getPosition symbol
  realized : after.atomicRealizedPnl = before.atomicRealizedPnl
  count : after.atomicPositionCount = before.atomicPositionCount
  sequence : after.lastSequence = before.lastSequence

/-- No fill finds all symbols used up where it did not before. -/
def KeepsSlots (before after : PositionAggregator) : Prop :=
  ∀ (fill : Fill) (max : Nat) (next : PositionAggregator),
    fill.process after = some (.error (.maxSymbolsReached max), next) →
      ∃ same, fill.process before = some (.error (.maxSymbolsReached max), same)

/-- A fill has a side, or a tracked symbol, or it is rejected before its entry is made. -/
def Clean (aggregator : PositionAggregator) (fill : Fill) : Prop :=
  (fill.side = "buy" ∨ fill.side = "sell") ∨ fill.symbol ∈ aggregator.positions ∨
    i64Max < fill.quantity ∨ maxSymbols ≤ aggregator.positions.keys.length

instance (aggregator : PositionAggregator) (fill : Fill) : Decidable (Clean aggregator fill) :=
  inferInstanceAs (Decidable (_ ∨ _))

section Steps

variable {aggregator next final : PositionAggregator} {fill : Fill} {refused : AggregatorError}

theorem Unchanged.refl (aggregator : PositionAggregator) : Unchanged aggregator aggregator :=
  ⟨fun _ => rfl, rfl, rfl, rfl⟩

theorem Unchanged.trans (first : Unchanged aggregator next) (second : Unchanged next final) :
    Unchanged aggregator final where
  positions symbol := (second.positions symbol).trans (first.positions symbol)
  realized := second.realized.trans first.realized
  count := second.count.trans first.count
  sequence := second.sequence.trans first.sequence

theorem closePnl_new (symbol : String) (signed : Int) (price : Nat) :
    (Position.new symbol).closePnl signed price = some (.ok 0) := by
  refine if_neg (not_or.mpr ⟨fun long => ?_, fun short => ?_⟩)
  · exact absurd long.1 (Int.lt_irrefl 0)
  · exact absurd short.1 (Int.lt_irrefl 0)

theorem process_untracked (small : ¬i64Max < fill.quantity)
    (room : ¬maxSymbols ≤ aggregator.positions.keys.length)
    (untracked : fill.symbol ∉ aggregator.positions)
    (named : fill.side = "buy" ∨ fill.side = "sell") :
    fill.process aggregator ≠ some (.error refused, next) := by
  have signed : ∃ signed, signedFill fill.side fill.quantity = .ok signed := by
    rcases named with buys | sells
    · exact ⟨_, if_pos buys⟩
    · exact ⟨_, (if_neg (by rw [sells]; decide)).trans (if_pos sells)⟩
  obtain ⟨signed, signs⟩ := signed
  intro rejected
  unfold Fill.process processFill at rejected
  rw [if_neg small, if_neg fun full => room full.2,
    AList.lookup_eq_none.mpr untracked] at rejected
  simp only [signs, Option.getD_none, closePnl_new, Option.bind_eq_bind, Option.bind_some,
    Option.bind_eq_some_iff] at rejected
  obtain ⟨_, _, _, _, accepted⟩ := rejected
  cases accepted

section

variable (rejected : fill.process aggregator = some (.error refused, next))
include rejected

/-- A rejected fill leaves the totals. Its positions are those before, where it is too large or
finds no room, or have the entry of its symbol. -/
theorem process_error : (next.atomicRealizedPnl = aggregator.atomicRealizedPnl ∧
      next.atomicPositionCount = aggregator.atomicPositionCount ∧
      next.lastSequence = aggregator.lastSequence) ∧
    (next.positions = aggregator.positions ∧ Clean aggregator fill ∨
      next.positions = aggregator.positions.insert fill.symbol (aggregator.positionOf fill.symbol) ∧
        (Clean aggregator fill ↔ fill.symbol ∈ aggregator.positions)) := by
  obtain ⟨positions, totals⟩ := processFill_refused rejected
  refine ⟨totals, ?_⟩
  rcases positions with ⟨same, early⟩ | ⟨entered, small, room⟩
  · exact .inl ⟨same, .inr (.inr early)⟩
  · refine .inr ⟨entered, fun clean => ?_, fun tracked => .inr (.inl tracked)⟩
    by_contra untracked
    have spare := room.resolve_left untracked
    rcases clean with named | tracked | large | used
    · exact process_untracked small spare untracked named rejected
    · exact untracked tracked
    · exact small large
    · exact spare used

theorem getPosition_rejected {symbol : String} {position : Position}
    (tracked : aggregator.getPosition symbol = some position) :
    next.getPosition symbol = some position := by
  unfold getPosition at tracked ⊢
  rcases (process_error rejected).2 with ⟨same, _⟩ | ⟨entered, _⟩
  · rw [same]
    exact tracked
  · rw [entered]
    by_cases filled : symbol = fill.symbol
    · subst filled
      rw [AList.lookup_insert]
      unfold positionOf getPosition
      rw [tracked, Option.getD_some]
    · rw [AList.lookup_insert_ne filled]
      exact tracked

theorem unchanged_iff : Unchanged aggregator next ↔ Clean aggregator fill := by
  obtain ⟨⟨realized, count, sequence⟩, positions⟩ := process_error rejected
  rcases positions with ⟨same, clean⟩ | ⟨entered, clean⟩
  · refine iff_of_true ⟨fun symbol => ?_, realized, count, sequence⟩ clean
    unfold getPosition
    rw [same]
  · rw [clean]
    constructor
    · intro unchanged
      have lookup := unchanged.positions fill.symbol
      unfold getPosition at lookup
      rw [entered, AList.lookup_insert] at lookup
      exact AList.lookup_isSome.mp (lookup ▸ rfl)
    · intro tracked
      refine ⟨fun symbol => ?_, realized, count, sequence⟩
      cases before : aggregator.getPosition symbol with
      | some position => exact getPosition_rejected rejected before
      | none =>
        have other : symbol ≠ fill.symbol := by
          rintro rfl
          exact AList.lookup_eq_none.mp before tracked
        unfold getPosition at before ⊢
        rw [entered, AList.lookup_insert_ne other, before]

end

theorem closePnl_error {position : Position} {signed : Int} {price : Nat}
    (closed : position.closePnl signed price = some (.error refused)) :
    ∃ message, refused = .overflowRisk message := by
  unfold Position.closePnl at closed
  split at closed
  · obtain ⟨closeQty, _, rest⟩ := Option.bind_eq_some_iff.mp closed
    split at rest
    · simp only [Position.realizedPnl, Option.bind_eq_bind, Option.bind_eq_some_iff] at rest
      obtain ⟨_, _, _, _, rest⟩ := rest
      split at rest
      · cases rest
        exact ⟨_, rfl⟩
      obtain ⟨_, _, rest⟩ := Option.bind_eq_some_iff.mp rest
      split at rest
      · cases rest
        exact ⟨_, rfl⟩
      split at rest
      · cases rest
        exact ⟨_, rfl⟩
      · cases rest
    · cases rest
  · cases closed

theorem process_full_iff (max : Nat) :
    (∃ next, fill.process aggregator = some (.error (.maxSymbolsReached max), next)) ↔
      ¬i64Max < fill.quantity ∧ (fill.symbol ∉ aggregator.positions ∧
        maxSymbols ≤ aggregator.positions.keys.length) ∧ max = maxSymbols := by
  unfold Fill.process processFill
  constructor
  · rintro ⟨next, rejected⟩
    by_cases large : i64Max < fill.quantity
    · rw [if_pos large] at rejected
      cases rejected
    by_cases full : fill.symbol ∉ aggregator.positions ∧
        maxSymbols ≤ aggregator.positions.keys.length
    · rw [if_neg large, if_pos full] at rejected
      cases rejected
      exact ⟨large, full, rfl⟩
    rw [if_neg large, if_neg full] at rejected
    simp only at rejected
    split at rejected
    · next refused named =>
      unfold signedFill at named
      split at named
      · cases named
      · split at named
        · cases named
        · cases named
          cases rejected
    obtain ⟨closed, closes, rejected⟩ := Option.bind_eq_some_iff.mp rejected
    cases closed with
    | error refused =>
      obtain ⟨message, rfl⟩ := closePnl_error closes
      cases rejected
    | ok _ =>
      simp only [Option.bind_eq_bind, Option.bind_eq_some_iff] at rejected
      obtain ⟨_, _, _, _, accepted⟩ := rejected
      cases accepted
  · rintro ⟨small, full, rfl⟩
    exact ⟨_, (if_neg small).trans (if_pos full)⟩

theorem keys_perm_of_unchanged (unchanged : Unchanged aggregator next) :
    next.positions.keys.Perm aggregator.positions.keys := by
  refine (List.perm_ext_iff_of_nodup next.positions.keys_nodup
    aggregator.positions.keys_nodup).mpr fun symbol => ?_
  have same : next.positions.lookup symbol = aggregator.positions.lookup symbol :=
    unchanged.positions symbol
  rw [← AList.mem_keys, ← AList.mem_keys, ← AList.lookup_isSome, ← AList.lookup_isSome, same]

theorem keepsSlots_of_unchanged (unchanged : Unchanged aggregator next) :
    KeepsSlots aggregator next := by
  intro fill max left rejected
  have symbols := keys_perm_of_unchanged unchanged
  have untracked : fill.symbol ∉ next.positions ↔ fill.symbol ∉ aggregator.positions := by
    rw [AList.mem_keys, AList.mem_keys, symbols.mem_iff]
  obtain ⟨small, full, same⟩ := (process_full_iff max).mp ⟨left, rejected⟩
  rw [untracked, symbols.length_eq] at full
  exact (process_full_iff max).mpr ⟨small, full, same⟩

end Steps

/-! ## Runs of rejected fills -/

section Runs

variable {aggregator next final : PositionAggregator} {fill : Fill}

theorem rejectStep_eq_some :
    rejectStep aggregator fill = some next ↔
      ∃ refused, fill.process aggregator = some (.error refused, next) := by
  unfold rejectStep
  rw [Option.bind_eq_some_iff]
  constructor
  · rintro ⟨⟨result, after⟩, processed, rejected⟩
    cases result with
    | error refused =>
      cases rejected
      exact ⟨refused, processed⟩
    | ok _ => cases rejected
  · rintro ⟨refused, processed⟩
    exact ⟨_, processed, rfl⟩

theorem getPosition_run {fills : List Fill} (ran : exec rejectStep aggregator fills = some final)
    {symbol : String} {position : Position}
    (tracked : aggregator.getPosition symbol = some position) :
    final.getPosition symbol = some position := by
  induction fills generalizing aggregator with
  | nil =>
    cases ran
    exact tracked
  | cons fill rest ih =>
    obtain ⟨next, stepped, later⟩ := exec_cons.mp ran
    obtain ⟨refused, rejected⟩ := rejectStep_eq_some.mp stepped
    exact ih later (getPosition_rejected rejected tracked)

theorem unchanged_first {refused : AggregatorError} {rest : List Fill}
    (rejected : fill.process aggregator = some (.error refused, next))
    (ran : exec rejectStep next rest = some final) (unchanged : Unchanged aggregator final) :
    Unchanged aggregator next := by
  obtain ⟨realized, count, sequence⟩ := (process_error rejected).1
  refine ⟨fun symbol => ?_, realized, count, sequence⟩
  cases later : next.getPosition symbol with
  | some position => exact (getPosition_run ran later).symm.trans (unchanged.positions symbol)
  | none =>
    cases before : aggregator.getPosition symbol with
    | none => rfl
    | some position => exact later.symm.trans (getPosition_rejected rejected before)

/-- A run of rejected fills from any state changes nothing, and so uses up no symbol, if and only if
every fill has a side, or a tracked symbol, or is rejected before its entry is made. -/
theorem rejected_unchanged_iff {aggregator final : PositionAggregator} {fills : List Fill}
    (ran : exec rejectStep aggregator fills = some final) :
    (Unchanged aggregator final ∧ KeepsSlots aggregator final) ↔
      Guarded rejectStep Clean aggregator fills := by
  rw [and_iff_left_of_imp keepsSlots_of_unchanged]
  induction fills generalizing aggregator with
  | nil =>
    cases ran
    exact iff_of_true (.refl _) trivial
  | cons fill rest ih =>
    obtain ⟨next, stepped, later⟩ := exec_cons.mp ran
    obtain ⟨refused, rejected⟩ := rejectStep_eq_some.mp stepped
    constructor
    · intro unchanged
      have first := unchanged_first rejected later unchanged
      intro other again
      cases stepped.symm.trans again
      have back : Unchanged next aggregator :=
        ⟨fun symbol => (first.positions symbol).symm, first.realized.symm, first.count.symm,
          first.sequence.symm⟩
      exact ⟨(unchanged_iff rejected).mp first, (ih later).mp (back.trans unchanged)⟩
    · intro clean
      have both := clean next stepped
      exact ((unchanged_iff rejected).mpr both.1).trans ((ih later).mpr both.2)

/-- A fill that is too large changes nothing. -/
theorem rejected_unchanged_iff_large :
    Unchanged new new.flagOverflow ∧ KeepsSlots new new.flagOverflow :=
  (@rejected_unchanged_iff new _ [⟨"BTC/USDT", "buy", 9223372036854775808, 1, 1, 1⟩] rfl).mpr
    (by decide)

/-- A side that is none is rejected and uses up a symbol. -/
theorem rejected_not_unchanged :
    ¬∀ (aggregator final : PositionAggregator) (fills : List Fill),
      exec rejectStep aggregator fills = some final →
        Unchanged aggregator final ∧ KeepsSlots aggregator final := by
  intro claim
  have both := claim new _ [⟨"BTC/USDT", "hold", 1, 1, 1, 1⟩] rfl
  exact absurd (both.1.positions "BTC/USDT") (by decide)

end Runs

end TradingBot.RejectedFills
