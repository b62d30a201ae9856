import Mathlib.Algebra.Order.Ring.Abs
import TradingBot.Cqrs.PortfolioMetrics
import TradingBot.Cqrs.PositionConservation
import TradingBot.Cqrs.RejectedFills

/-!
# Overflow in fills

The formulas of a fill are computed here over unbounded integers, to be compared with the ones over
machine words. The two agree, or the fill is refused, unless an increased position leaves the type,
the conversions of the two prices of a closing fill wrap differently, or the fast counter or the
count of refusals wraps.
-/

open MachineInt Run

namespace TradingBot.FillOverflow

open TradingBot.PositionAggregator RejectedFills
open PositionConservation (signedQuantity)
open PortfolioTotals (AggregatorCall step)

/-- A fill is against a position. -/
def Closes (position : Position) (side : String) (quantity : Nat) : Prop :=
  (0 < position.quantity ∧ signedQuantity side quantity < 0) ∨
    (position.quantity < 0 ∧ 0 < signedQuantity side quantity)

instance (position : Position) (side : String) (quantity : Nat) :
    Decidable (Closes position side quantity) := inferInstanceAs (Decidable (_ ∨ _))

/-- The quantity that a fill against a position closes. -/
def closed (position : Position) (quantity : Nat) : Int := min |position.quantity| quantity

/-! ## The formulas over unbounded integers -/

/-- The PnL a fill realizes. -/
def exactPnl (position : Position) (side : String) (quantity price : Nat) : Int :=
  if Closes position side quantity ∧ 0 < position.averagePriceMicros then
    (price - position.averagePriceMicros) * closed position quantity
  else 0

/-- The average price after a fill. -/
def exactAverage (position : Position) (side : String) (quantity price : Nat) : Int :=
  let held := position.quantity + signedQuantity side quantity
  if side = "buy" then
    if 0 ≤ position.quantity then
      if 0 < held then
        (position.quantity * position.averagePriceMicros + quantity * price) / held
      else position.averagePriceMicros
    else if 0 < held then price
    else if held = 0 then 0 else position.averagePriceMicros
  else
    if position.quantity ≤ 0 then
      if held < 0 then
        (-position.quantity * position.averagePriceMicros + quantity * price) / -held
      else position.averagePriceMicros
    else if held < 0 then price
    else if held = 0 then 0 else position.averagePriceMicros

/-- The position of the filled symbol and the fast counter hold what the formulas give. -/
structure Exact (before after : PositionAggregator) (fill : Fill) : Prop where
  quantity : (after.positionOf fill.symbol).quantity =
    (before.positionOf fill.symbol).quantity + signedQuantity fill.side fill.quantity
  average : ((after.positionOf fill.symbol).averagePriceMicros : Int) =
    exactAverage (before.positionOf fill.symbol) fill.side fill.quantity fill.price
  realized : (after.positionOf fill.symbol).realizedPnlMicros =
    (before.positionOf fill.symbol).realizedPnlMicros +
      exactPnl (before.positionOf fill.symbol) fill.side fill.quantity fill.price
  counter : after.getFastRealizedPnl = before.getFastRealizedPnl +
    exactPnl (before.positionOf fill.symbol) fill.side fill.quantity fill.price

/-- A fill comes to an end without overflow: its values are exact, or it is refused for its overflow
risk and counted, or refused for its arguments. -/
def Returns (before : PositionAggregator) (fill : Fill) : Prop :=
  match fill.process before with
  | none => False
  | some (.ok (), after) => Exact before after fill
  | some (.error (.overflowRisk _), after) => after.overflowDetected = before.overflowDetected + 1
  | some (.error _, _) => True

/-- What the overflow protection promises of a fill; the costs are `u128`. -/
structure Protected (before : PositionAggregator) (fill : Fill) : Prop where
  returns : Returns before fill
  cost : (fill.quantity : Int) ≤ i64Max →
    (before.positionOf fill.symbol).quantity.natAbs *
      (before.positionOf fill.symbol).averagePriceMicros + fill.quantity * fill.price < 2 ^ 128

/-! ## The condition -/

/-- The PnL per unit between the prices as `i64` conversions keep them. -/
def unitPnl (position : Position) (price : Nat) : Int :=
  castI64 price - castI64 position.averagePriceMicros

/-- A PnL per unit for some units leaves the type, or makes a realized PnL leave it. -/
def Leaves (realized unit units : Int) : Prop :=
  i64Max < |unit| * units ∨ i64Max < realized + unit * units ∨ realized + unit * units < i64Min

/-- The PnL of a closing fill leaves the type, or makes the realized PnL of the position leave
it. -/
def Refused (position : Position) (quantity price : Nat) : Prop :=
  Leaves position.realizedPnlMicros (unitPnl position price) (closed position quantity)

instance (position : Position) (quantity price : Nat) :
    Decidable (Refused position quantity price) := inferInstanceAs (Decidable (_ ∨ _))

/-- A fill with a side that fits the type is safe. -/
structure SafeFill (aggregator : PositionAggregator) (position : Position) (side : String)
    (quantity price : Nat) : Prop where
  /-- The position stays inside the type when it is increased. -/
  increase : ¬Closes position side quantity →
    |position.quantity| + quantity ≤ i64Max
  /-- A refused fill has a difference of prices and is counted. -/
  refusal : Closes position side quantity → 0 < position.averagePriceMicros →
    Refused position quantity price →
      |unitPnl position price| ≤ i64Max ∧ aggregator.overflowDetected + 1 < u64Size
  /-- A fill that is booked has two prices that wrap alike, and moves the fast counter inside the
  type. -/
  booking : Closes position side quantity → 0 < position.averagePriceMicros →
    ¬Refused position quantity price →
      ((price : Int) ≤ i64Max ↔ (position.averagePriceMicros : Int) ≤ i64Max) ∧
        i64Min ≤ aggregator.atomicRealizedPnl + unitPnl position price * closed position quantity ∧
        aggregator.atomicRealizedPnl + unitPnl position price * closed position quantity ≤ i64Max

instance (aggregator : PositionAggregator) (position : Position) (side : String)
    (quantity price : Nat) : Decidable (SafeFill aggregator position side quantity price) :=
  decidable_of_iff
    ((¬Closes position side quantity → |position.quantity| + quantity ≤ i64Max) ∧
      (Closes position side quantity → 0 < position.averagePriceMicros →
        Refused position quantity price →
          |unitPnl position price| ≤ i64Max ∧ aggregator.overflowDetected + 1 < u64Size) ∧
      (Closes position side quantity → 0 < position.averagePriceMicros →
        ¬Refused position quantity price →
          ((price : Int) ≤ i64Max ↔ (position.averagePriceMicros : Int) ≤ i64Max) ∧
            i64Min ≤
              aggregator.atomicRealizedPnl + unitPnl position price * closed position quantity ∧
            aggregator.atomicRealizedPnl + unitPnl position price * closed position quantity ≤
              i64Max))
    ⟨fun parts => ⟨parts.1, parts.2.1, parts.2.2⟩,
      fun safe => ⟨safe.increase, safe.refusal, safe.booking⟩⟩

/-- The symbol of a fill is tracked, or there is room for it. -/
def Room (aggregator : PositionAggregator) (fill : Fill) : Prop :=
  fill.symbol ∈ aggregator.positions ∨ aggregator.positions.keys.length < maxSymbols

instance (aggregator : PositionAggregator) (fill : Fill) : Decidable (Room aggregator fill) :=
  inferInstanceAs (Decidable (_ ∨ _))

/-- The condition under which a fill is protected: a fill that is too large is counted, and one that
is booked or refused for its PnL is safe. -/
structure Safe (aggregator : PositionAggregator) (fill : Fill) : Prop where
  large : i64Max < fill.quantity → aggregator.overflowDetected + 1 < u64Size
  fits : (fill.quantity : Int) ≤ i64Max → Room aggregator fill →
    (fill.side = "buy" ∨ fill.side = "sell") →
      SafeFill aggregator (aggregator.positionOf fill.symbol) fill.side fill.quantity fill.price

instance (aggregator : PositionAggregator) (fill : Fill) : Decidable (Safe aggregator fill) :=
  decidable_of_iff
    ((i64Max < fill.quantity → aggregator.overflowDetected + 1 < u64Size) ∧
      ((fill.quantity : Int) ≤ i64Max → Room aggregator fill →
        (fill.side = "buy" ∨ fill.side = "sell") →
          SafeFill aggregator (aggregator.positionOf fill.symbol) fill.side fill.quantity
            fill.price))
    ⟨fun parts => ⟨parts.1, parts.2⟩, fun safe => ⟨safe.large, safe.fits⟩⟩

/-! ## Positions inside their types -/

/-- The values of a position are inside their types, and it can be negated. -/
structure InType (position : Position) : Prop where
  quantity : |position.quantity| ≤ i64Max
  average : position.averagePriceMicros < u64Size
  realized : i64Min ≤ position.realizedPnlMicros ∧ position.realizedPnlMicros ≤ i64Max

section Position

variable {position : Position} {side : String} {quantity price : Nat}

theorem closed_pos (closes : Closes position side quantity) :
    0 < closed position quantity := by
  unfold Closes signedQuantity at closes
  have held : position.quantity ≠ 0 := by omega
  have filled : (0 : Int) < quantity := by
    split at closes <;> omega
  exact lt_min (abs_pos.mpr held) filled

theorem closeQty_of_closes (inType : InType position) (small : (quantity : Int) ≤ i64Max)
    (closes : Closes position side quantity) :
    position.closeQty (signedQuantity side quantity) = some (closed position quantity) := by
  have bounded := abs_le.mp inType.quantity
  unfold Closes signedQuantity at closes
  unfold Position.closeQty closed signedQuantity
  by_cases buys : side = "buy"
  · simp only [if_pos buys] at closes ⊢
    have negates : i64 (-position.quantity) = some (-position.quantity) :=
      i64_eq_some.mpr ⟨⟨by unfold i64Min; omega, by omega⟩, rfl⟩
    rw [if_neg (by omega), negates, Option.map_some, abs_of_neg (by omega)]
  · simp only [if_neg buys] at closes ⊢
    have negates : i64 (-(-(quantity : Int))) = some (quantity : Int) :=
      i64_eq_some.mpr ⟨⟨by unfold i64Min; omega, by omega⟩, neg_neg _⟩
    rw [if_pos (by omega), negates, Option.map_some, abs_of_pos (by omega)]

theorem closed_le (inType : InType position) : closed position quantity ≤ i64Max := by
  unfold closed
  exact (min_le_left _ _).trans inType.quantity

theorem multiplies_iff {unit closeQty : Int} (some_ : 0 < closeQty) (fits : closeQty ≤ i64Max) :
    i64Max / max |unit| 1 < |closeQty| ↔ i64Max < |unit| * closeQty := by
  rw [abs_of_pos some_, Int.ediv_lt_iff_lt_mul (by omega : 0 < max |unit| 1)]
  by_cases none_ : unit = 0
  · rw [none_, abs_zero, max_eq_right (by decide : (0 : Int) ≤ 1), mul_one, zero_mul]
    exact iff_of_false (not_lt.mpr fits) (by decide)
  · have positive : 1 ≤ |unit| := abs_pos.mpr none_
    rw [max_eq_left positive, mul_comm]

section Realizes

variable {unit units : Int} (same : castI64 price - castI64 position.averagePriceMicros = unit)

include same

theorem realizedPnl_none (large : ¬|unit| ≤ i64Max) (closeQty : Int) :
    position.realizedPnl closeQty price = none := by
  have overflows : i64 |unit| = none := by
    unfold i64
    rw [if_neg fun both => large both.2]
  unfold Position.realizedPnl
  rw [same]
  cases fits : i64 unit with
  | none => rfl
  | some difference =>
    rw [← (i64_eq_some.mp fits).2]
    simp only [Option.bind_eq_bind, Option.bind_some]
    rw [overflows]
    rfl

/-- Realised profit overflows or is the unit price times the units. -/
theorem realizedPnl_cases (inType : InType position) (fits : |unit| ≤ i64Max) (some_ : 0 < units)
    (small : units ≤ i64Max) :
    (Leaves position.realizedPnlMicros unit units ∧
      ∃ message, position.realizedPnl units price = some (.error (.overflowRisk message))) ∨
    (¬Leaves position.realizedPnlMicros unit units ∧
      position.realizedPnl units price = some (.ok (unit * units))) := by
  have wide : i64Min ≤ -i64Max := by decide
  have low : i64Min ≤ 0 := by decide
  have subtracts : i64 unit = some unit :=
    i64_eq_some.mpr ⟨⟨wide.trans (abs_le.mp fits).1, (abs_le.mp fits).2⟩, rfl⟩
  have sized : i64 |unit| = some |unit| :=
    i64_eq_some.mpr ⟨⟨low.trans (abs_nonneg unit), fits⟩, rfl⟩
  have checks := @multiplies_iff unit _ some_ small
  unfold Position.realizedPnl
  rw [same, subtracts]
  simp only [Option.bind_eq_bind, Option.bind_some]
  rw [sized]
  simp only [Option.bind_some]
  by_cases product : i64Max < |unit| * units
  · rw [if_pos (checks.mpr product)]
    exact .inl ⟨.inl product, _, rfl⟩
  rw [if_neg (mt checks.mp product)]
  have size : |unit * units| ≤ i64Max := by
    rw [abs_mul, abs_of_pos some_]
    exact not_lt.mp product
  have multiplies : i64 (unit * units) = some (unit * units) :=
    i64_eq_some.mpr ⟨⟨wide.trans (abs_le.mp size).1, (abs_le.mp size).2⟩, rfl⟩
  rw [multiplies]
  simp only [Option.bind_some]
  have realized := inType.realized
  by_cases above : i64Max < position.realizedPnlMicros + unit * units
  · rw [if_pos ⟨by omega, by omega⟩]
    exact .inl ⟨.inr (.inl above), _, rfl⟩
  by_cases below : position.realizedPnlMicros + unit * units < i64Min
  · rw [if_neg (by omega), if_pos ⟨by omega, by omega⟩]
    exact .inl ⟨.inr (.inr below), _, rfl⟩
  rw [if_neg (by omega), if_neg (by omega)]
  exact .inr ⟨not_or.mpr ⟨product, not_or.mpr ⟨above, below⟩⟩, rfl⟩

end Realizes

theorem sub_eq_unitPnl (position : Position) (price : Nat) :
    castI64 price - castI64 position.averagePriceMicros = unitPnl position price := by
  rw [unitPnl]

theorem unitPnl_fits (inType : InType position) (priceFits : price < u64Size)
    (alike : (price : Int) ≤ i64Max ↔ (position.averagePriceMicros : Int) ≤ i64Max) :
    |unitPnl position price| ≤ i64Max := by
  have average := inType.average
  unfold unitPnl
  rw [(castI64_sub_eq_iff priceFits average).mpr alike, abs_le]
  unfold u64Size at *
  unfold i64Max at *
  omega

theorem castU64_mean {held average : Nat} (some_ : 0 < held + quantity)
    (averageFits : average < u64Size) (priceFits : price < u64Size) :
    ((castU64 ((held * average + quantity * price) / (held + quantity)) : Nat) : Int) =
      ((held : Int) * average + quantity * price) / ((held : Int) + quantity) := by
  rw [castU64_of_fits (mean_lt some_ averageFits priceFits)]
  push_cast
  rfl

section

variable (inType : InType position)
include inType

theorem adjust_buy_exact (priceFits : price < u64Size)
    (fits : |position.quantity + quantity| ≤ i64Max) :
    ∃ moved, position.adjust "buy" quantity price = some moved ∧
      moved.quantity = position.quantity + quantity ∧
      (moved.averagePriceMicros : Int) = exactAverage position "buy" quantity price ∧
      moved.realizedPnlMicros = position.realizedPnlMicros := by
  have wide : i64Min ≤ -i64Max := by decide
  have sum : i64 (position.quantity + quantity) = some (position.quantity + quantity) :=
    i64_eq_some.mpr ⟨⟨wide.trans (abs_le.mp fits).1, (abs_le.mp fits).2⟩, rfl⟩
  unfold Position.adjust exactAverage signedQuantity
  simp only [↓reduceIte, sum, Option.bind_eq_bind, Option.bind_some]
  by_cases long : 0 ≤ position.quantity
  · rw [if_pos long, if_pos long]
    refine ⟨_, rfl, rfl, ?_, rfl⟩
    dsimp only
    obtain ⟨held, same⟩ := Int.eq_ofNat_of_zero_le long
    by_cases some_ : 0 < position.quantity + quantity
    · rw [if_pos some_, if_pos some_, same, Int.toNat_natCast, Int.toNat_natCast,
        show ((held : Int) + quantity).toNat = held + quantity by omega]
      exact castU64_mean (by omega) inType.average priceFits
    · rw [if_neg some_, if_neg some_]
  · rw [if_neg long, if_neg long]
    refine ⟨_, rfl, rfl, ?_, rfl⟩
    dsimp only
    split
    · rfl
    · split <;> rfl

theorem adjust_sell_exact (priceFits : price < u64Size) {side : String} (sells : side ≠ "buy")
    (fits : |position.quantity - quantity| ≤ i64Max) :
    ∃ moved, position.adjust side quantity price = some moved ∧
      moved.quantity = position.quantity - quantity ∧
      (moved.averagePriceMicros : Int) = exactAverage position side quantity price ∧
      moved.realizedPnlMicros = position.realizedPnlMicros := by
  have wide : i64Min ≤ -i64Max := by decide
  have difference : i64 (position.quantity - quantity) = some (position.quantity - quantity) :=
    i64_eq_some.mpr ⟨⟨wide.trans (abs_le.mp fits).1, (abs_le.mp fits).2⟩, rfl⟩
  unfold Position.adjust exactAverage signedQuantity
  simp only [if_neg sells, difference, Option.bind_eq_bind, Option.bind_some, ← sub_eq_add_neg]
  by_cases short : position.quantity ≤ 0
  · have held := abs_le.mp inType.quantity
    have negates : i64 (-position.quantity) = some (-position.quantity) :=
      i64_eq_some.mpr ⟨⟨by unfold i64Min; omega, by omega⟩, rfl⟩
    rw [if_pos short, if_pos short, negates]
    simp only [Option.bind_some]
    by_cases some_ : position.quantity - quantity < 0
    · have left : i64 (-(position.quantity - quantity)) = some (-(position.quantity - quantity)) :=
        i64_eq_some.mpr ⟨⟨by unfold i64Min; omega, by linarith [(abs_le.mp fits).1]⟩, rfl⟩
      rw [if_pos some_, if_pos some_, left]
      refine ⟨_, rfl, rfl, ?_, rfl⟩
      dsimp only
      obtain ⟨size, same⟩ := Int.eq_ofNat_of_zero_le (neg_nonneg.mpr short)
      have whole : -(position.quantity - quantity) = (size : Int) + quantity := by omega
      rw [whole, same, Int.toNat_natCast, Int.toNat_natCast,
        show ((size : Int) + quantity).toNat = size + quantity by omega]
      exact castU64_mean (by omega) inType.average priceFits
    · rw [if_neg some_, if_neg some_]
      exact ⟨_, rfl, rfl, rfl, rfl⟩
  · rw [if_neg short, if_neg short]
    refine ⟨_, rfl, rfl, ?_, rfl⟩
    dsimp only
    split
    · rfl
    · split <;> rfl

theorem adjust_none (small : (quantity : Int) ≤ i64Max)
    (large : ¬|position.quantity + signedQuantity side quantity| ≤ i64Max) :
    position.adjust side quantity price = none := by
  have held := abs_le.mp inType.quantity
  rw [abs_le] at large
  unfold signedQuantity at large
  unfold Position.adjust
  by_cases buys : side = "buy"
  · rw [if_pos buys] at large ⊢
    have overflows : i64 (position.quantity + quantity) = none := by
      unfold i64
      rw [if_neg (by omega)]
    rw [overflows]
    split <;> rfl
  · rw [if_neg buys] at large ⊢
    have short : position.quantity ≤ 0 := by omega
    have negates : i64 (-position.quantity) = some (-position.quantity) :=
      i64_eq_some.mpr ⟨⟨by unfold i64Min; omega, by omega⟩, rfl⟩
    rw [if_pos short, negates]
    simp only [Option.bind_eq_bind, Option.bind_some]
    cases left : i64 (position.quantity - quantity) with
    | none => rfl
    | some smallest =>
      -- The smallest value of the type is left, which has no opposite.
      rw [← (i64_eq_some.mp left).2]
      have overflows : i64 (-(position.quantity - quantity)) = none := by
        unfold i64
        rw [if_neg (by omega)]
      simp only [Option.bind_some]
      rw [if_pos (by omega), overflows]
      rfl

theorem adjust_exact (priceFits : price < u64Size)
    (fits : |position.quantity + signedQuantity side quantity| ≤ i64Max) :
    ∃ moved, position.adjust side quantity price = some moved ∧
      moved.quantity = position.quantity + signedQuantity side quantity ∧
      (moved.averagePriceMicros : Int) = exactAverage position side quantity price ∧
      moved.realizedPnlMicros = position.realizedPnlMicros := by
  unfold signedQuantity at fits ⊢
  by_cases buys : side = "buy"
  · subst buys
    rw [if_pos rfl] at fits ⊢
    exact adjust_buy_exact inType priceFits fits
  · rw [if_neg buys, ← sub_eq_add_neg] at fits ⊢
    exact adjust_sell_exact inType priceFits buys fits

theorem held_of_closes (small : (quantity : Int) ≤ i64Max)
    (closes : Closes position side quantity) : |position.quantity + signedQuantity side quantity| ≤
      i64Max := by
  have held := abs_le.mp inType.quantity
  unfold Closes signedQuantity at closes
  unfold signedQuantity
  rw [abs_le]
  by_cases buys : side = "buy"
  · rw [if_pos buys] at closes ⊢
    omega
  · rw [if_neg buys] at closes ⊢
    omega

end

theorem abs_increased (increases : ¬Closes position side quantity) :
    |position.quantity + signedQuantity side quantity| = |position.quantity| + quantity := by
  unfold Closes signedQuantity at increases
  unfold signedQuantity
  rcases le_or_gt 0 position.quantity with long | short
  · by_cases buys : side = "buy"
    · rw [if_pos buys, abs_of_nonneg long, abs_of_nonneg (by omega)]
    · rw [if_neg buys] at increases ⊢
      by_cases none_ : quantity = 0
      · simp [none_]
      · have flat : position.quantity = 0 := by omega
        rw [flat, abs_zero, zero_add, abs_neg, abs_of_nonneg (by omega), zero_add]
  · by_cases buys : side = "buy"
    · rw [if_pos buys] at increases ⊢
      have none_ : quantity = 0 := by omega
      simp [none_]
    · rw [if_neg buys, abs_of_neg short, abs_of_neg (by omega)]
      ring

theorem closePnl_zero (inType : InType position) (small : (quantity : Int) ≤ i64Max)
    (nothing : ¬(Closes position side quantity ∧ 0 < position.averagePriceMicros)) :
    position.closePnl (signedQuantity side quantity) price = some (.ok 0) := by
  unfold Position.closePnl
  by_cases closes : Closes position side quantity
  · have free : ¬0 < position.averagePriceMicros := fun priced => nothing ⟨closes, priced⟩
    have opposed := closes
    unfold Closes at opposed
    rw [if_pos opposed, closeQty_of_closes inType small closes]
    simp only [Option.bind_eq_bind, Option.bind_some]
    rw [if_neg fun both => free both.2]
    rfl
  · exact if_neg closes

theorem closePnl_closes (inType : InType position) (small : (quantity : Int) ≤ i64Max)
    (closes : Closes position side quantity) (priced : 0 < position.averagePriceMicros) :
    position.closePnl (signedQuantity side quantity) price =
      position.realizedPnl (closed position quantity) price := by
  have opposed := closes
  unfold Closes at opposed
  unfold Position.closePnl
  rw [if_pos opposed, closeQty_of_closes inType small closes]
  simp only [Option.bind_eq_bind, Option.bind_some]
  rw [if_pos ⟨closed_pos closes, priced⟩]

end Position

/-! ## Fills of an aggregator -/

/-- The values of an aggregator are inside their types. -/
structure Typed (aggregator : PositionAggregator) : Prop where
  positions : ∀ symbol, InType (aggregator.positionOf symbol)
  counter : i64Min ≤ aggregator.atomicRealizedPnl ∧ aggregator.atomicRealizedPnl ≤ i64Max

section Process

variable {aggregator : PositionAggregator} {fill : Fill}

/-- The aggregator with an entry for the symbol of a fill. -/
def entered (aggregator : PositionAggregator) (fill : Fill) : PositionAggregator :=
  { aggregator with
    positions := aggregator.positions.insert fill.symbol (aggregator.positionOf fill.symbol) }

/-- The aggregator after a fill that is booked. -/
def booked (aggregator : PositionAggregator) (fill : Fill) (realizedPnl : Int)
    (moved : Position) : PositionAggregator :=
  let marked := { moved with lastPriceMicros := fill.price, lastUpdateUs := fill.timestampUs }
  let positions := (entered aggregator fill).positions.insert fill.symbol marked
  { aggregator with
    positions
    atomicRealizedPnl := castI64 (aggregator.atomicRealizedPnl + realizedPnl)
    lastSequence := fill.sequence
    atomicPositionCount := openPositions positions }

/-- A fill after its closing part, which refuses it or tells what it realizes. -/
def settle (aggregator : PositionAggregator) (fill : Fill) :
    Except AggregatorError Int → Option (Except AggregatorError Unit × PositionAggregator)
  | .error refused => some (.error refused, (entered aggregator fill).flagOverflow)
  | .ok realizedPnl => do
    let position := aggregator.positionOf fill.symbol
    let total ← i64 (position.realizedPnlMicros + realizedPnl)
    let moved ← { position with realizedPnlMicros := total }.adjust fill.side fill.quantity
      fill.price
    return (.ok (), booked aggregator fill realizedPnl moved)

/-- A fill of a named side closes, then settles. -/
theorem process_named (small : (fill.quantity : Int) ≤ i64Max) (room : Room aggregator fill)
    (named : fill.side = "buy" ∨ fill.side = "sell") :
    fill.process aggregator =
      ((aggregator.positionOf fill.symbol).closePnl (signedQuantity fill.side fill.quantity)
        fill.price).bind (settle aggregator fill) := by
  have signs : signedFill fill.side fill.quantity =
      .ok (signedQuantity fill.side fill.quantity) := by
    unfold signedFill signedQuantity
    rcases named with buys | sells
    · rw [if_pos buys, if_pos buys]
    · rw [if_neg (by rw [sells]; decide), if_pos sells, if_neg (by rw [sells]; decide)]
  have spare : ¬(fill.symbol ∉ aggregator.positions ∧
      maxSymbols ≤ aggregator.positions.keys.length) :=
    fun full => room.elim full.1 (not_lt.mpr full.2)
  have here : (aggregator.positions.lookup fill.symbol).getD (Position.new fill.symbol) =
      aggregator.positionOf fill.symbol := rfl
  unfold Fill.process processFill
  rw [if_neg (not_lt.mpr small), if_neg spare, here]
  simp only [signs]
  cases (aggregator.positionOf fill.symbol).closePnl (signedQuantity fill.side fill.quantity)
    fill.price with
  | none => rfl
  | some result => cases result <;> rfl

/-- A quantity beyond the type is refused. -/
theorem process_large (large : i64Max < fill.quantity) :
    fill.process aggregator =
      some (.error (.overflowRisk "quantity exceeds i64::MAX"), aggregator.flagOverflow) := by
  unfold Fill.process processFill
  rw [if_pos large]

theorem process_unnamed (small : (fill.quantity : Int) ≤ i64Max) (room : Room aggregator fill)
    (unnamed : ¬(fill.side = "buy" ∨ fill.side = "sell")) :
    fill.process aggregator =
      some (.error (.invalidSide fill.side), entered aggregator fill) := by
  have sides := not_or.mp unnamed
  have signs : signedFill fill.side fill.quantity = .error (.invalidSide fill.side) := by
    unfold signedFill
    rw [if_neg sides.1, if_neg sides.2]
  have spare : ¬(fill.symbol ∉ aggregator.positions ∧
      maxSymbols ≤ aggregator.positions.keys.length) :=
    fun full => room.elim full.1 (not_lt.mpr full.2)
  unfold Fill.process processFill
  rw [if_neg (not_lt.mpr small), if_neg spare]
  simp only [signs]
  rfl

theorem process_full (small : (fill.quantity : Int) ≤ i64Max) (full : ¬Room aggregator fill) :
    fill.process aggregator = some (.error (.maxSymbolsReached maxSymbols), aggregator) := by
  have used := not_or.mp full
  unfold Fill.process processFill
  rw [if_neg (not_lt.mpr small), if_pos ⟨used.1, not_lt.mp used.2⟩]

theorem counted_iff (aggregator : PositionAggregator) :
    (aggregator.flagOverflow).overflowDetected = aggregator.overflowDetected + 1 ↔
      aggregator.overflowDetected + 1 < u64Size := by
  unfold flagOverflow castU64
  constructor
  · intro same
    have bounded := Nat.mod_lt (aggregator.overflowDetected + 1) (show 0 < u64Size by decide)
    simp only at same
    omega
  · exact Nat.mod_eq_of_lt

theorem positionOf_booked (realizedPnl : Int) (moved : Position) :
    (booked aggregator fill realizedPnl moved).positionOf fill.symbol =
      { moved with lastPriceMicros := fill.price, lastUpdateUs := fill.timestampUs } := by
  rw [@positionOf_of_insert (entered aggregator fill) _ _ _ rfl, if_pos rfl]

section Named

variable (small : (fill.quantity : Int) ≤ i64Max) (room : Room aggregator fill)
  (named : fill.side = "buy" ∨ fill.side = "sell")

include small room named

theorem returns_refused {message : String}
    (closes : (aggregator.positionOf fill.symbol).closePnl
      (signedQuantity fill.side fill.quantity) fill.price =
        some (.error (.overflowRisk message))) :
    Returns aggregator fill ↔ aggregator.overflowDetected + 1 < u64Size := by
  have result : fill.process aggregator =
      some (.error (.overflowRisk message), (entered aggregator fill).flagOverflow) := by
    rw [process_named small room named, closes]
    rfl
  unfold Returns
  rw [result]
  exact counted_iff (entered aggregator fill)

theorem returns_none
    (closes : (aggregator.positionOf fill.symbol).closePnl
      (signedQuantity fill.side fill.quantity) fill.price = none) :
    ¬Returns aggregator fill := by
  unfold Returns
  rw [process_named small room named, closes]
  exact not_false

/-- A fill that realizes a PnL returns as it should exactly if the quantity fits, the PnL is the
exact one, and the fast counter does not wrap. -/
theorem returns_booked (typed : Typed aggregator) (priceFits : fill.price < u64Size)
    {realizedPnl : Int}
    (closes : (aggregator.positionOf fill.symbol).closePnl
      (signedQuantity fill.side fill.quantity) fill.price = some (.ok realizedPnl))
    (fits : i64Min ≤ (aggregator.positionOf fill.symbol).realizedPnlMicros + realizedPnl ∧
      (aggregator.positionOf fill.symbol).realizedPnlMicros + realizedPnl ≤ i64Max) :
    Returns aggregator fill ↔
      |(aggregator.positionOf fill.symbol).quantity +
        signedQuantity fill.side fill.quantity| ≤ i64Max ∧
      realizedPnl =
        exactPnl (aggregator.positionOf fill.symbol) fill.side fill.quantity fill.price ∧
      i64Min ≤ aggregator.atomicRealizedPnl + realizedPnl ∧
      aggregator.atomicRealizedPnl + realizedPnl ≤ i64Max := by
  have settled : fill.process aggregator = settle aggregator fill (.ok realizedPnl) := by
    rw [process_named small room named, closes]
    rfl
  generalize held : aggregator.positionOf fill.symbol = position at *
  have inType : InType { position with
      realizedPnlMicros := position.realizedPnlMicros + realizedPnl } :=
    ⟨held ▸ (typed.positions fill.symbol).quantity, held ▸ (typed.positions fill.symbol).average,
      fits⟩
  have total : i64 (position.realizedPnlMicros + realizedPnl) =
      some (position.realizedPnlMicros + realizedPnl) := i64_eq_some.mpr ⟨fits, rfl⟩
  unfold settle at settled
  simp only [held, total, Option.bind_eq_bind, Option.bind_some] at settled
  unfold Returns
  rw [settled]
  by_cases inside : |position.quantity + signedQuantity fill.side fill.quantity| ≤ i64Max
  · obtain ⟨moved, moves, quantity, average, realized⟩ := adjust_exact inType priceFits inside
    rw [moves]
    show Exact aggregator (booked aggregator fill realizedPnl moved) fill ↔ _
    rw [and_iff_right inside]
    constructor
    · intro correct
      have booked_ := correct.realized
      rw [positionOf_booked, held] at booked_
      simp only [realized] at booked_
      have same := Int.add_left_cancel booked_
      have counter := correct.counter
      rw [held, ← same] at counter
      exact ⟨same, castI64_eq_self_iff.mp counter⟩
    · rintro ⟨same, counter⟩
      constructor
      · rw [positionOf_booked, held]
        exact quantity
      · rw [positionOf_booked, held]
        exact average
      · rw [positionOf_booked, held, ← same]
        exact realized
      · rw [held, ← same]
        exact castI64_eq_self_iff.mpr counter
  · rw [adjust_none inType small inside]
    exact iff_of_false not_false fun both => inside both.1

theorem returns_iff_of_nothing (typed : Typed aggregator) (priceFits : fill.price < u64Size)
    (nothing : ¬(Closes (aggregator.positionOf fill.symbol) fill.side fill.quantity ∧
      0 < (aggregator.positionOf fill.symbol).averagePriceMicros)) :
    Returns aggregator fill ↔ SafeFill aggregator (aggregator.positionOf fill.symbol) fill.side
      fill.quantity fill.price := by
  have inType := typed.positions fill.symbol
  have closes := @closePnl_zero _ _ _ fill.price inType small nothing
  rw [returns_booked small room named typed priceFits closes (by simpa using inType.realized)]
  have free : exactPnl (aggregator.positionOf fill.symbol) fill.side fill.quantity fill.price = 0 :=
    if_neg nothing
  rw [free, add_zero, and_iff_left ⟨rfl, typed.counter⟩]
  constructor
  · intro inside
    refine ⟨fun increases => ?_, fun closes priced => ?_, fun closes priced => ?_⟩
    · rw [← abs_increased increases]
      exact inside
    · exact absurd ⟨closes, priced⟩ nothing
    · exact absurd ⟨closes, priced⟩ nothing
  · intro safe
    by_cases closes : Closes (aggregator.positionOf fill.symbol) fill.side fill.quantity
    · exact held_of_closes inType small closes
    · rw [abs_increased closes]
      exact safe.increase closes

theorem returns_iff_of_closes (typed : Typed aggregator) (priceFits : fill.price < u64Size)
    (closes : Closes (aggregator.positionOf fill.symbol) fill.side fill.quantity)
    (priced : 0 < (aggregator.positionOf fill.symbol).averagePriceMicros) :
    Returns aggregator fill ↔ SafeFill aggregator (aggregator.positionOf fill.symbol) fill.side
      fill.quantity fill.price := by
  have inType := typed.positions fill.symbol
  have some_ := closed_pos closes
  have realizes := @closePnl_closes _ _ _ fill.price inType small closes priced
  by_cases fits : |unitPnl (aggregator.positionOf fill.symbol) fill.price| ≤ i64Max
  · rcases realizedPnl_cases (sub_eq_unitPnl _ _) inType fits some_ (closed_le inType) with
      ⟨refused, message, answer⟩ | ⟨accepted, answer⟩
    · rw [returns_refused small room named (realizes.trans answer)]
      constructor
      · intro counted
        exact ⟨fun increases => absurd closes increases, fun _ _ _ => ⟨fits, counted⟩,
          fun _ _ accepted => absurd refused accepted⟩
      · intro safe
        exact (safe.refusal closes priced refused).2
    · have exact_ : unitPnl (aggregator.positionOf fill.symbol) fill.price *
            closed (aggregator.positionOf fill.symbol) fill.quantity =
          exactPnl (aggregator.positionOf fill.symbol) fill.side fill.quantity fill.price ↔
          ((fill.price : Int) ≤ i64Max ↔
            ((aggregator.positionOf fill.symbol).averagePriceMicros : Int) ≤ i64Max) := by
        unfold exactPnl
        rw [if_pos ⟨closes, priced⟩, mul_left_inj' (ne_of_gt some_)]
        exact castI64_sub_eq_iff priceFits inType.average
      have stays := accepted
      unfold Leaves at stays
      rw [returns_booked small room named typed priceFits (realizes.trans answer) (by omega),
        exact_, and_iff_right (held_of_closes inType small closes)]
      constructor
      · intro books
        exact ⟨fun increases => absurd closes increases, fun _ _ refused => absurd refused accepted,
          fun _ _ _ => books⟩
      · intro safe
        exact safe.booking closes priced accepted
  · have answer := realizedPnl_none (sub_eq_unitPnl _ _) fits
      (closed (aggregator.positionOf fill.symbol) fill.quantity)
    refine iff_of_false (returns_none small room named (realizes.trans answer)) fun safe => ?_
    by_cases refused : Refused (aggregator.positionOf fill.symbol) fill.quantity fill.price
    · exact fits (safe.refusal closes priced refused).1
    · exact fits (unitPnl_fits inType priceFits (safe.booking closes priced refused).1)

end Named

theorem returns_iff_safe (typed : Typed aggregator) (priceFits : fill.price < u64Size) :
    Returns aggregator fill ↔ Safe aggregator fill := by
  by_cases large : i64Max < fill.quantity
  · unfold Returns
    rw [process_large large]
    refine (counted_iff aggregator).trans ?_
    exact ⟨fun counted => ⟨fun _ => counted, fun small => absurd large (not_lt.mpr small)⟩,
      fun safe => safe.large large⟩
  have small := not_lt.mp large
  have vacuous : i64Max < fill.quantity → aggregator.overflowDetected + 1 < u64Size :=
    fun large_ => absurd large_ large
  by_cases room : Room aggregator fill
  · by_cases named : fill.side = "buy" ∨ fill.side = "sell"
    · have safeFill : Returns aggregator fill ↔ SafeFill aggregator
          (aggregator.positionOf fill.symbol) fill.side fill.quantity fill.price := by
        by_cases both : Closes (aggregator.positionOf fill.symbol) fill.side fill.quantity ∧
            0 < (aggregator.positionOf fill.symbol).averagePriceMicros
        · exact returns_iff_of_closes small room named typed priceFits both.1 both.2
        · exact returns_iff_of_nothing small room named typed priceFits both
      rw [safeFill]
      exact ⟨fun safe => ⟨vacuous, fun _ _ _ => safe⟩, fun safe => safe.fits small room named⟩
    · refine iff_of_true ?_ ⟨vacuous, fun _ _ side => absurd side named⟩
      unfold Returns
      rw [process_unnamed small room named]
      trivial
  · refine iff_of_true ?_ ⟨vacuous, fun _ spare => absurd spare room⟩
    unfold Returns
    rw [process_full small room]
    trivial

end Process

/-! ## Reachable aggregators -/

/-- The quantities and prices of a call are `u64`. -/
def TypedCall : AggregatorCall → Prop
  | .fill _ _ quantity price _ _ => quantity < u64Size ∧ price < u64Size
  | .tick _ price _ => price < u64Size
  | .orderPlaced _ | .orderCancelled _ | .clear => True

instance : DecidablePred TypedCall
  | .fill _ _ quantity price _ _ =>
    inferInstanceAs (Decidable (quantity < u64Size ∧ price < u64Size))
  | .tick _ price _ => inferInstanceAs (Decidable (price < u64Size))
  | .orderPlaced _ | .orderCancelled _ | .clear => .isTrue trivial

section Reachable

variable {aggregator next : PositionAggregator} {fill : Fill}

theorem inType_new (symbol : String) : InType (.new symbol) where
  quantity := (by decide : |(0 : Int)| ≤ i64Max)
  average := (by decide : 0 < u64Size)
  realized := (by decide : i64Min ≤ 0 ∧ 0 ≤ i64Max)

theorem crossed_lt {crosses closes : Prop} [Decidable crosses] [Decidable closes]
    {average price : Nat} (averageFits : average < u64Size) (priceFits : price < u64Size) :
    (if crosses then price else if closes then 0 else average) < u64Size := by
  split
  · exact priceFits
  · split
    · decide
    · exact averageFits

theorem adjust_average {position moved : Position} {side : String} {quantity : Int} {price : Nat}
    (average : position.averagePriceMicros < u64Size) (priceFits : price < u64Size)
    (moves : position.adjust side quantity price = some moved) :
    moved.averagePriceMicros < u64Size := by
  have converted (value : Nat) : castU64 value < u64Size := Nat.mod_lt _ (by decide)
  unfold Position.adjust at moves
  split at moves
  · split at moves
    · obtain ⟨_, _, same⟩ := Option.bind_eq_some_iff.mp moves
      cases same
      dsimp only
      split
      · exact converted _
      · exact average
    · obtain ⟨_, _, same⟩ := Option.bind_eq_some_iff.mp moves
      cases same
      exact crossed_lt average priceFits
  · split at moves
    · obtain ⟨_, _, later⟩ := Option.bind_eq_some_iff.mp moves
      obtain ⟨_, _, last⟩ := Option.bind_eq_some_iff.mp later
      split at last
      · obtain ⟨_, _, same⟩ := Option.bind_eq_some_iff.mp last
        cases same
        exact converted _
      · cases last
        exact average
    · obtain ⟨_, _, same⟩ := Option.bind_eq_some_iff.mp moves
      cases same
      exact crossed_lt average priceFits

theorem process_ok (accepted : fill.process aggregator = some (.ok (), next)) :
    (fill.quantity : Int) ≤ i64Max ∧ ∃ realizedPnl total moved,
      i64 ((aggregator.positionOf fill.symbol).realizedPnlMicros + realizedPnl) = some total ∧
      { aggregator.positionOf fill.symbol with realizedPnlMicros := total }.adjust fill.side
        fill.quantity fill.price = some moved ∧
      next = booked aggregator fill realizedPnl moved := by
  by_cases large : i64Max < fill.quantity
  · rw [process_large large] at accepted
    cases accepted
  have small := not_lt.mp large
  by_cases room : Room aggregator fill
  · by_cases named : fill.side = "buy" ∨ fill.side = "sell"
    · rw [process_named small room named] at accepted
      obtain ⟨closing, _, settled⟩ := Option.bind_eq_some_iff.mp accepted
      unfold settle at settled
      cases closing with
      | error refused => cases settled
      | ok realizedPnl =>
        simp only [Option.bind_eq_bind, Option.bind_eq_some_iff] at settled
        obtain ⟨total, fits, moved, moves, same⟩ := settled
        cases same
        exact ⟨small, realizedPnl, total, moved, fits, moves, rfl⟩
    · rw [process_unnamed small room named] at accepted
      cases accepted
  · rw [process_full small room] at accepted
    cases accepted

theorem typed_fill (typed : Typed aggregator) (priceFits : fill.price < u64Size)
    {result : Except AggregatorError Unit}
    (filled : fill.process aggregator = some (result, next)) : Typed next := by
  cases result with
  | error refusal =>
    obtain ⟨positions, counter, _⟩ := processFill_refused filled
    refine ⟨fun symbol => ?_, counter ▸ typed.counter⟩
    rcases positions with ⟨same, _⟩ | ⟨entered, _⟩
    · unfold positionOf getPosition
      rw [same]
      exact typed.positions symbol
    · rw [positionOf_of_insert entered]
      split <;> exact typed.positions _
  | ok _ =>
    obtain ⟨small, realizedPnl, total, moved, fits, moves, same⟩ := process_ok filled
    have inType : InType { aggregator.positionOf fill.symbol with realizedPnlMicros := total } :=
      { typed.positions fill.symbol with
        realized := (i64_eq_some.mp fits).2 ▸ (i64_eq_some.mp fits).1 }
    have average := adjust_average inType.average priceFits moves
    have inside : |(aggregator.positionOf fill.symbol).quantity +
        signedQuantity fill.side fill.quantity| ≤ i64Max := by
      by_contra large
      rw [adjust_none inType small large] at moves
      cases moves
    obtain ⟨_, again, quantity, _, realized⟩ := adjust_exact inType priceFits inside
    cases moves.symm.trans again
    rw [same]
    refine ⟨fun symbol => ?_, castI64_bounds _⟩
    rw [@positionOf_of_insert (entered aggregator fill) _ _ _ rfl,
      @positionOf_of_insert aggregator _ _ _ rfl]
    split
    · exact ⟨quantity ▸ inside, average, realized ▸ inType.realized⟩
    · exact typed.positions symbol

theorem typed_modify (typed : Typed aggregator) (symbol : String) {change : Position → Position}
    (kept : ∀ position, InType position → InType (change position)) :
    Typed (aggregator.modify symbol change) := by
  refine ⟨fun other => ?_, ?_⟩
  · have here := typed.positions other
    unfold positionOf at here ⊢
    rw [getPosition_modify]
    split
    · next same =>
      subst same
      cases found : aggregator.getPosition other with
      | none => exact inType_new other
      | some position =>
        rw [found, Option.getD_some] at here
        exact kept position here
    · exact here
  · unfold PositionAggregator.modify
    split <;> exact typed.counter

/-- Every call keeps the position within its type. -/
theorem typed_step (typed : Typed aggregator) {call : AggregatorCall} (typedCall : TypedCall call)
    (taken : step aggregator call = some next) : Typed next := by
  cases call with
  | fill symbol side quantity price sequence timestampUs =>
    obtain ⟨⟨result, after⟩, filled, same⟩ := Option.map_eq_some_iff.mp taken
    cases same
    exact @typed_fill aggregator after ⟨symbol, side, quantity, price, sequence, timestampUs⟩ typed
      typedCall.2 result filled
  | tick symbol price timestampUs =>
    cases taken
    exact typed_modify typed symbol fun _ inType => { inType with }
  | orderPlaced symbol =>
    cases taken
    exact typed_modify typed symbol fun _ inType => { inType with }
  | orderCancelled symbol =>
    cases taken
    exact typed_modify typed symbol fun _ inType => { inType with }
  | clear =>
    cases taken
    exact ⟨fun symbol => inType_new symbol, (by decide : i64Min ≤ 0 ∧ 0 ≤ i64Max)⟩

theorem typed_new : Typed new where
  positions symbol := inType_new symbol
  counter := by decide

theorem typed_of_exec {calls : List AggregatorCall} (typedCalls : ∀ call ∈ calls, TypedCall call)
    (reached : exec step new calls = some aggregator) : Typed aggregator :=
  exec_guarded (fun _ _ _ typed typedCall taken => typed_step typed typedCall taken)
    typed_new (guarded_of_forall typedCalls _) reached

theorem cost_lt (typed : Typed aggregator) (priceFits : fill.price < u64Size)
    (small : (fill.quantity : Int) ≤ i64Max) :
    (aggregator.positionOf fill.symbol).quantity.natAbs *
      (aggregator.positionOf fill.symbol).averagePriceMicros + fill.quantity * fill.price <
        2 ^ 128 := by
  have held := (abs_le.mp (typed.positions fill.symbol).quantity)
  have size : (aggregator.positionOf fill.symbol).quantity.natAbs ≤ 2 ^ 63 - 1 := by
    unfold i64Max at held
    omega
  have filled : fill.quantity ≤ 2 ^ 63 - 1 := by
    unfold i64Max at small
    omega
  have average : (aggregator.positionOf fill.symbol).averagePriceMicros ≤ 2 ^ 64 - 1 :=
    Nat.le_sub_one_of_lt (typed.positions fill.symbol).average
  have price : fill.price ≤ 2 ^ 64 - 1 := Nat.le_sub_one_of_lt priceFits
  calc
    _ ≤ (2 ^ 63 - 1) * (2 ^ 64 - 1) + (2 ^ 63 - 1) * (2 ^ 64 - 1) :=
      Nat.add_le_add (Nat.mul_le_mul size average) (Nat.mul_le_mul filled price)
    _ < 2 ^ 128 := by decide

/-- In every state that calls lead to, a fill of a `u64` quantity at a `u64` price is protected from
overflow if and only if it is safe. -/
theorem protected_iff_safe {calls : List AggregatorCall} {aggregator : PositionAggregator}
    {fill : Fill} (typedCalls : ∀ call ∈ calls, TypedCall call)
    (reached : exec step new calls = some aggregator)
    (typedFill : fill.quantity < u64Size ∧ fill.price < u64Size) :
    Protected aggregator fill ↔ Safe aggregator fill := by
  have typed := typed_of_exec typedCalls reached
  rw [← returns_iff_safe typed typedFill.2]
  exact ⟨fun both => both.returns, fun returns => ⟨returns, cost_lt typed typedFill.2⟩⟩

/-- A sale that closes a part of a long at a profit is protected. -/
theorem protected_iff_safe_sale :
    ∃ aggregator, exec step new [.fill "BTC/USDT" "buy" 2 100 1 1] = some aggregator ∧
      Protected aggregator ⟨"BTC/USDT", "sell", 1, 110, 2, 2⟩ :=
  ⟨_, rfl, (@protected_iff_safe [.fill "BTC/USDT" "buy" 2 100 1 1] _ _ (by decide) rfl
    (by decide)).mpr (by decide +kernel)⟩

/-- A sale at the largest price realizes a loss of two micros and is booked. -/
theorem booked_as_loss :
    ¬∀ (calls : List AggregatorCall) (aggregator : PositionAggregator) (fill : Fill),
      (∀ call ∈ calls, TypedCall call) → exec step new calls = some aggregator →
        fill.quantity < u64Size ∧ fill.price < u64Size → Protected aggregator fill := by
  intro claim
  have kept := claim [.fill "BTC/USDT" "buy" 1 1 1 1] _
    ⟨"BTC/USDT", "sell", 1, 18446744073709551615, 2, 2⟩ (by decide) rfl (by decide)
  have realized := kept.returns.realized
  exact absurd realized (by decide)

end Reachable

end TradingBot.FillOverflow
