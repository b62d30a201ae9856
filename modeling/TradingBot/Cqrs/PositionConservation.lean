import Mathlib.Tactic.Linarith
import Mathlib.Tactic.Ring
import TradingBot.Foundation.Run
import TradingBot.Cqrs.PositionAggregator

/-!
# Conservation of profit and loss

The ledger of a symbol adds up what its fills bought, sold and paid, with no notion of an
average price. A position conserves the ledger when its quantity is the ledger's and its
realized PnL less its cost basis is the ledger's cash, up to what the truncated averages lost.
Every fill keeps this but one: a buy that covers a short books `exit - entry` where a short
earns `entry - exit`, so the law holds along a run whose covers are all at the average price.
-/

open MachineInt

namespace TradingBot.PositionConservation

open TradingBot.PositionAggregator

/-! ## Sessions and their ledgers -/

/-- One call on the aggregator. -/
inductive Call where
  /-- `process_fill`. -/
  | fill (symbol side : String) (quantity price sequence timestampUs : Nat)
  /-- `process_tick`. -/
  | tick (symbol : String) (price timestampUs : Nat)

/-- A fill of at least one unit at a price of at least one micro that `price as i64` keeps. -/
def Call.Proper : Call → Prop
  | .fill _ _ quantity price _ _ => 1 ≤ quantity ∧ 1 ≤ price ∧ (price : Int) ≤ i64Max
  | .tick _ _ _ => True

instance (call : Call) : Decidable call.Proper :=
  match call with
  | .fill _ _ quantity price _ _ =>
    inferInstanceAs (Decidable (1 ≤ quantity ∧ 1 ≤ price ∧ (price : Int) ≤ i64Max))
  | .tick _ _ _ => .isTrue trivial

/-- One call of a session in which every fill returns `Ok` and no operation overflows. -/
def step (aggregator : PositionAggregator) : Call → Option PositionAggregator
  | .fill symbol side quantity price sequence timestampUs =>
    match aggregator.processFill symbol side quantity price sequence timestampUs with
    | some (.ok (), next) => some next
    | _ => none
  | .tick symbol price timestampUs => some (aggregator.processTick symbol price timestampUs)

/-- The signed quantity of a fill: buy positive, sell negative. -/
def signedQuantity (side : String) (quantity : Nat) : Int :=
  if side = "buy" then quantity else -quantity

/-- What the fills of one symbol add up to. -/
structure Ledger where
  /-- Sum of the signed fill quantities. -/
  quantity : Int
  /-- Cash flow: minus the sum of signed quantity times price. -/
  cash : Int
  /-- Sum of the held quantities after the fills that opened or increased the position. -/
  slack : Int

/-- No fills. -/
def Ledger.empty : Ledger := ⟨0, 0, 0⟩

/-- One more fill of the symbol. -/
def Ledger.book (ledger : Ledger) (side : String) (quantity price : Nat) : Ledger :=
  let signed := signedQuantity side quantity
  let held := ledger.quantity + signed
  { quantity := held
    cash := ledger.cash - signed * price
    slack := ledger.slack + if 0 ≤ ledger.quantity * signed then |held| else 0 }

/-- One more call, which moves the ledger of a symbol only if it fills that symbol. -/
def Ledger.record (symbol : String) (ledger : Ledger) : Call → Ledger
  | .fill traded side quantity price _ _ =>
    if traded = symbol then ledger.book side quantity price else ledger
  | .tick _ _ _ => ledger

/-- The ledger of a symbol after a session. -/
def ledgerOf (symbol : String) (calls : List Call) : Ledger :=
  calls.foldl (Ledger.record symbol) Ledger.empty

/-- Realized PnL less the cost basis, beyond the cash flow. -/
def drift (position : Position) (ledger : Ledger) : Int :=
  position.realizedPnlMicros - position.quantity * position.averagePriceMicros - ledger.cash

/-- The conservation law for one symbol. -/
def Conserves (position : Position) (ledger : Ledger) : Prop :=
  position.quantity = ledger.quantity ∧ |drift position ledger| ≤ ledger.slack

/-- The call is not a buy that covers a short of the symbol away from its average price. -/
def CoversAtAverage (symbol : String) (aggregator : PositionAggregator) : Call → Prop
  | .fill traded side _ price _ _ =>
    traded = symbol → side = "buy" → (aggregator.positionOf symbol).quantity < 0 →
      price = (aggregator.positionOf symbol).averagePriceMicros
  | .tick _ _ _ => True

instance (symbol : String) (aggregator : PositionAggregator) (call : Call) :
    Decidable (CoversAtAverage symbol aggregator call) :=
  match call with
  | .fill traded side _ price _ _ =>
    inferInstanceAs (Decidable (traded = symbol → side = "buy" →
      (aggregator.positionOf symbol).quantity < 0 →
        price = (aggregator.positionOf symbol).averagePriceMicros))
  | .tick _ _ _ => .isTrue trivial

/-! ## One fill -/

/-- An open position has a positive average price that `as i64` keeps. -/
def Priced (position : Position) : Prop :=
  position.quantity ≠ 0 →
    0 < position.averagePriceMicros ∧ (position.averagePriceMicros : Int) ≤ i64Max

variable {price quantity : Nat} {position : Position} {ledger : Ledger} {side symbol : String}
  {aggregator : PositionAggregator}

/-- The truncated mean of two prices, weighted by what is held and what is added, loses less
than one unit of price for each unit held, and lies between the prices' bounds. -/
theorem truncated_mean {held added average bound : Nat} (adds : 0 < added)
    (entry : 0 < held → 0 < average ∧ average ≤ bound) (paid : 0 < price ∧ price ≤ bound) :
    (held * average + added * price) / (held + added) * (held + added) ≤
        held * average + added * price ∧
      held * average + added * price <
        (held * average + added * price) / (held + added) * (held + added) + (held + added) ∧
      0 < (held * average + added * price) / (held + added) ∧
      (held * average + added * price) / (held + added) ≤ bound := by
  have positive : 0 < held + added := by omega
  have lower : held ≤ held * average := by
    rcases Nat.eq_zero_or_pos held with none | some
    · simp [none]
    · exact Nat.le_mul_of_pos_right held (entry some).1
  have upper : held * average ≤ held * bound := by
    rcases Nat.eq_zero_or_pos held with none | some
    · simp [none]
    · exact Nat.mul_le_mul_left held (entry some).2
  have paidLower : added ≤ added * price := Nat.le_mul_of_pos_right added paid.1
  have paidUpper : added * price ≤ added * bound := Nat.mul_le_mul_left added paid.2
  refine ⟨Nat.div_mul_le_self _ _, Nat.lt_div_mul_add positive,
    Nat.div_pos (by omega) positive, ?_⟩
  apply Nat.div_le_of_le_mul
  rw [Nat.add_mul]
  omega

theorem closeQty_eq {signed closeQty : Int} (closed : position.closeQty signed = some closeQty) :
    closeQty = if 0 < position.quantity then min position.quantity (-signed)
      else min (-position.quantity) signed := by
  unfold Position.closeQty at closed
  split at closed
  · rename_i long
    obtain ⟨sold, fits, rfl⟩ := Option.map_eq_some_iff.mp closed
    rw [if_pos long, (i64_eq_some.mp fits).2]
  · rename_i notLong
    obtain ⟨held, fits, rfl⟩ := Option.map_eq_some_iff.mp closed
    rw [if_neg notLong, (i64_eq_some.mp fits).2]

theorem realizedPnl_ok {closeQty realizedPnl : Int}
    (realized : position.realizedPnl closeQty price = some (.ok realizedPnl)) :
    realizedPnl = (castI64 price - castI64 position.averagePriceMicros) * closeQty := by
  simp only [Position.realizedPnl, Option.bind_eq_bind, Option.bind_eq_some_iff] at realized
  obtain ⟨perUnit, perUnitFits, perUnitAbs, _, rest⟩ := realized
  split at rest
  · simp at rest
  simp only [Option.bind_eq_some_iff] at rest
  obtain ⟨product, productFits, rest⟩ := rest
  split at rest
  · simp at rest
  split at rest
  · simp at rest
  have same : product = realizedPnl := by simpa using rest
  rw [← same, ← (i64_eq_some.mp productFits).2, (i64_eq_some.mp perUnitFits).2]

/-- The realized PnL of an accepted fill: `exit - entry` for each unit it closes, long or
short, and nothing where it closes none. -/
theorem closePnl_ok {signed realizedPnl : Int} (priced : Priced position)
    (paid : (price : Int) ≤ i64Max)
    (closed : position.closePnl signed price = some (.ok realizedPnl)) : realizedPnl =
      if 0 < position.quantity ∧ signed < 0 then
        (price - position.averagePriceMicros) * min position.quantity (-signed)
      else if position.quantity < 0 ∧ 0 < signed then
        (price - position.averagePriceMicros) * min (-position.quantity) signed
      else 0 := by
  have castPrice : castI64 price = price :=
    castI64_of_fits (by unfold i64Min; omega) paid
  unfold Position.closePnl at closed
  split at closed
  · rename_i opposed
    have opened : position.quantity ≠ 0 := by omega
    have castAverage : castI64 position.averagePriceMicros = position.averagePriceMicros :=
      castI64_of_fits (by unfold i64Min; omega) (priced opened).2
    simp only [Option.bind_eq_bind, Option.bind_eq_some_iff] at closed
    obtain ⟨closeQty, closes, rest⟩ := closed
    have smaller := closeQty_eq closes
    have positive : 0 < closeQty := by
      rw [smaller]
      split <;> omega
    rw [if_pos ⟨positive, (priced opened).1⟩] at rest
    rw [realizedPnl_ok rest, castPrice, castAverage, smaller]
    rcases opposed with ⟨long, sells⟩ | ⟨short, buys⟩
    · rw [if_pos long, if_pos ⟨long, sells⟩]
    · rw [if_neg (by omega), if_neg (by omega), if_pos ⟨short, buys⟩]
  · rename_i aligned
    rw [if_neg (by omega), if_neg (by omega)]
    simpa using closed.symm

/-- The average price after a fill that opens or increases a position. -/
def meanPrice (position : Position) (quantity price : Nat) : Nat :=
  (position.quantity.natAbs * position.averagePriceMicros + quantity * price) /
    (position.quantity.natAbs + quantity)

/-- The mean of a priced position and a priced fill loses less than one unit of price for each
unit held, and is a price that `as i64` keeps. -/
theorem meanPrice_bounds (priced : Priced position) (filled : 1 ≤ quantity)
    (paid : 1 ≤ price ∧ (price : Int) ≤ i64Max) :
    (meanPrice position quantity price : Int) * (|position.quantity| + quantity) ≤
        |position.quantity| * position.averagePriceMicros + quantity * price ∧
      |position.quantity| * position.averagePriceMicros + (quantity * price : Int) <
        meanPrice position quantity price * (|position.quantity| + quantity) +
          (|position.quantity| + quantity) ∧
      0 < meanPrice position quantity price ∧
      (meanPrice position quantity price : Int) ≤ i64Max := by
  have entry (held : 0 < position.quantity.natAbs) :
      0 < position.averagePriceMicros ∧ position.averagePriceMicros ≤ i64Max.toNat := by
    have bounds := priced (by omega)
    exact ⟨bounds.1, by unfold i64Max at *; omega⟩
  obtain ⟨lower, upper, positive, bounded⟩ :=
    truncated_mean filled entry ⟨paid.1, by unfold i64Max at *; omega⟩
  change meanPrice position quantity price * _ ≤ _ at lower
  change _ < meanPrice position quantity price * _ + _ at upper
  change meanPrice position quantity price ≤ _ at bounded
  zify at lower upper
  exact ⟨lower, upper, positive, by unfold i64Max at *; omega⟩

theorem castU64_meanPrice (priced : Priced position) (filled : 1 ≤ quantity)
    (paid : 1 ≤ price ∧ (price : Int) ≤ i64Max) :
    castU64 (meanPrice position quantity price) = meanPrice position quantity price := by
  apply castU64_of_fits
  have upper := (meanPrice_bounds priced filled paid).2.2.2
  unfold i64Max at upper
  unfold u64Size
  omega

theorem reduced_short {held left : Int} (short : held < 0) (average price : Nat) :
    (if 0 < left then price else if left = 0 then 0 else average) =
      if 0 < held * left then average else if left = 0 then 0 else price := by
  rcases lt_trichotomy left 0 with still | none | flipped
  · rw [if_neg (by omega), if_neg (by omega), if_pos (mul_pos_of_neg_of_neg short still)]
  · simp [none]
  · have opposed := mul_neg_of_neg_of_pos short flipped
    rw [if_pos flipped, if_neg (by omega), if_neg (by omega)]

theorem reduced_long {held left : Int} (long : 0 < held) (average price : Nat) :
    (if left < 0 then price else if left = 0 then 0 else average) =
      if 0 < held * left then average else if left = 0 then 0 else price := by
  rcases lt_trichotomy left 0 with flipped | none | still
  · have opposed := mul_neg_of_pos_of_neg long flipped
    rw [if_pos flipped, if_neg (by omega), if_neg (by omega)]
  · simp [none]
  · rw [if_neg (by omega), if_neg (by omega), if_pos (mul_pos long still)]

/-- The quantity and the average price after an accepted buy. -/
theorem adjust_buy {moved : Position} (priced : Priced position) (filled : 1 ≤ quantity)
    (paid : 1 ≤ price ∧ (price : Int) ≤ i64Max)
    (adjusted : position.adjust "buy" quantity price = some moved) :
    moved.realizedPnlMicros = position.realizedPnlMicros ∧
      moved.quantity = position.quantity + quantity ∧
      moved.averagePriceMicros =
        if 0 ≤ position.quantity then meanPrice position quantity price
        else if 0 < position.quantity * moved.quantity then position.averagePriceMicros
        else if moved.quantity = 0 then 0 else price := by
  have mean := castU64_meanPrice priced filled paid
  unfold meanPrice at mean
  simp only [Position.adjust, ↓reduceIte] at adjusted
  split at adjusted
  · rename_i long
    simp only [Option.bind_eq_bind, Option.bind_eq_some_iff] at adjusted
    obtain ⟨held, fits, adjusted⟩ := adjusted
    obtain ⟨_, rfl⟩ := i64_eq_some.mp fits
    obtain rfl := Option.some.inj adjusted
    have positive : 0 < position.quantity + quantity := by omega
    have size : (position.quantity + (quantity : Int)).toNat =
        position.quantity.natAbs + quantity := by omega
    have heldSize : position.quantity.toNat = position.quantity.natAbs := by omega
    simp only [if_pos long, if_pos positive, size, heldSize, Int.toNat_natCast, mean, meanPrice,
      true_and]
  · rename_i short
    simp only [Option.bind_eq_bind, Option.bind_eq_some_iff] at adjusted
    obtain ⟨held, fits, adjusted⟩ := adjusted
    obtain ⟨_, rfl⟩ := i64_eq_some.mp fits
    obtain rfl := Option.some.inj adjusted
    refine ⟨rfl, rfl, ?_⟩
    rw [if_neg short]
    exact reduced_short (by omega) _ _

/-- The quantity and the average price after an accepted sell. -/
theorem adjust_sell {moved : Position} (priced : Priced position) (filled : 1 ≤ quantity)
    (paid : 1 ≤ price ∧ (price : Int) ≤ i64Max)
    (adjusted : position.adjust "sell" quantity price = some moved) :
    moved.realizedPnlMicros = position.realizedPnlMicros ∧
      moved.quantity = position.quantity - quantity ∧
      moved.averagePriceMicros =
        if position.quantity ≤ 0 then meanPrice position quantity price
        else if 0 < position.quantity * moved.quantity then position.averagePriceMicros
        else if moved.quantity = 0 then 0 else price := by
  have mean := castU64_meanPrice priced filled paid
  unfold meanPrice at mean
  simp only [Position.adjust, show "sell" ≠ "buy" by decide, ↓reduceIte] at adjusted
  split at adjusted
  · rename_i short
    simp only [Option.bind_eq_bind, Option.bind_eq_some_iff] at adjusted
    obtain ⟨held, heldFits, left, fits, adjusted⟩ := adjusted
    obtain ⟨_, rfl⟩ := i64_eq_some.mp heldFits
    obtain ⟨_, rfl⟩ := i64_eq_some.mp fits
    rw [if_pos (by omega)] at adjusted
    simp only [Option.bind_eq_some_iff] at adjusted
    obtain ⟨size, sizeFits, adjusted⟩ := adjusted
    obtain ⟨_, rfl⟩ := i64_eq_some.mp sizeFits
    obtain rfl := Option.some.inj adjusted
    have newSize : (-(position.quantity - (quantity : Int))).toNat =
        position.quantity.natAbs + quantity := by omega
    have heldSize : (-position.quantity).toNat = position.quantity.natAbs := by omega
    simp only [if_pos short, newSize, heldSize, Int.toNat_natCast, mean, meanPrice, true_and]
  · rename_i long
    simp only [Option.bind_eq_bind, Option.bind_eq_some_iff] at adjusted
    obtain ⟨held, fits, adjusted⟩ := adjusted
    obtain ⟨_, rfl⟩ := i64_eq_some.mp fits
    obtain rfl := Option.some.inj adjusted
    refine ⟨rfl, rfl, ?_⟩
    rw [if_neg long]
    exact reduced_long (by omega) _ _

/-- What a buy that covers a short books with the wrong sign: `exit - entry` per unit. -/
def misbooked (position : Position) (side : String) (quantity price : Nat) : Int :=
  if side = "buy" ∧ position.quantity < 0 then
    (price - position.averagePriceMicros) * min (-position.quantity) quantity
  else 0

/-- The slack a fill adds: what is held after it, where it opened or increased the position. -/
def widening (position : Position) (side : String) (quantity : Nat) : Int :=
  if 0 ≤ position.quantity * signedQuantity side quantity then
    |position.quantity + signedQuantity side quantity| else 0

theorem buy_drift {moved : Position} {realizedPnl : Int} (priced : Priced position)
    (same : position.quantity = ledger.quantity) (filled : 1 ≤ quantity)
    (paid : 1 ≤ price ∧ (price : Int) ≤ i64Max)
    (closed : position.closePnl quantity price = some (.ok realizedPnl))
    (adjusted : position.adjust "buy" quantity price = some moved) :
    |drift { moved with realizedPnlMicros := position.realizedPnlMicros + realizedPnl }
          (ledger.book "buy" quantity price) -
        (drift position ledger + 2 * misbooked position "buy" quantity price)| ≤
      widening position "buy" quantity := by
  have realized := closePnl_ok priced paid.2 closed
  obtain ⟨-, held, average⟩ := adjust_buy priced filled paid adjusted
  simp only [drift, Ledger.book, signedQuantity, misbooked, widening, true_and, ↓reduceIte,
    held]
  rcases lt_or_ge position.quantity 0 with short | long
  · have opposed : ¬0 ≤ position.quantity * (quantity : Int) := by
      have := mul_neg_of_neg_of_pos short (show (0 : Int) < quantity by omega)
      omega
    rw [if_neg (by omega), if_pos ⟨short, by omega⟩] at realized
    rw [if_neg opposed, if_pos short, realized]
    apply le_of_eq
    rw [abs_eq_zero]
    simp only [if_neg (show ¬0 ≤ position.quantity by omega), held] at average
    rcases lt_trichotomy (position.quantity + (quantity : Int)) 0 with still | none | flipped
    · rw [if_pos (mul_pos_of_neg_of_neg short still)] at average
      rw [average, min_eq_right (by omega)]
      ring
    · rw [none, min_eq_right (by omega)]
      have units : position.quantity = -quantity := by omega
      rw [units]
      ring
    · rw [if_neg (by have := mul_neg_of_neg_of_pos short flipped; omega),
        if_neg (by omega)] at average
      rw [average, min_eq_left (by omega)]
      ring
  · have aligned : 0 ≤ position.quantity * (quantity : Int) := mul_nonneg long (by omega)
    rw [if_neg (by omega), if_neg (by omega)] at realized
    rw [if_pos aligned, if_neg (by omega), realized]
    rw [if_pos long] at average
    obtain ⟨lower, upper, -, -⟩ := meanPrice_bounds priced filled paid
    rw [← average, abs_of_nonneg long] at lower upper
    rw [abs_of_nonneg (show 0 ≤ position.quantity + (quantity : Int) by omega), abs_le]
    constructor <;> nlinarith only [lower, upper, long]

theorem sell_drift {moved : Position} {realizedPnl : Int} (priced : Priced position)
    (same : position.quantity = ledger.quantity) (filled : 1 ≤ quantity)
    (paid : 1 ≤ price ∧ (price : Int) ≤ i64Max)
    (closed : position.closePnl (-quantity) price = some (.ok realizedPnl))
    (adjusted : position.adjust "sell" quantity price = some moved) :
    |drift { moved with realizedPnlMicros := position.realizedPnlMicros + realizedPnl }
          (ledger.book "sell" quantity price) - drift position ledger| ≤
      widening position "sell" quantity := by
  have realized := closePnl_ok priced paid.2 closed
  obtain ⟨-, held, average⟩ := adjust_sell priced filled paid adjusted
  simp only [drift, Ledger.book, signedQuantity, widening, show "sell" ≠ "buy" by decide,
    ↓reduceIte, held]
  rcases lt_or_ge 0 position.quantity with long | short
  · have opposed : ¬0 ≤ position.quantity * (-quantity : Int) := by
      have := mul_neg_of_pos_of_neg long (show (-quantity : Int) < 0 by omega)
      omega
    rw [if_pos ⟨long, by omega⟩] at realized
    rw [if_neg opposed, realized]
    apply le_of_eq
    rw [abs_eq_zero]
    simp only [if_neg (show ¬position.quantity ≤ 0 by omega), held] at average
    rcases lt_trichotomy (position.quantity - (quantity : Int)) 0 with flipped | none | still
    · rw [if_neg (by have := mul_neg_of_pos_of_neg long flipped; omega),
        if_neg (by omega)] at average
      rw [average, min_eq_left (by omega)]
      ring
    · rw [none, min_eq_right (by omega)]
      have units : position.quantity = quantity := by omega
      rw [units]
      ring
    · rw [if_pos (mul_pos long still)] at average
      rw [average, min_eq_right (by omega)]
      ring
  · have aligned : 0 ≤ position.quantity * (-quantity : Int) := by
      have := mul_nonneg (show 0 ≤ -position.quantity by omega) (show (0 : Int) ≤ quantity by omega)
      linarith only [this]
    rw [if_neg (by omega), if_neg (by omega)] at realized
    rw [if_pos aligned, realized]
    rw [if_pos short] at average
    obtain ⟨lower, upper, -, -⟩ := meanPrice_bounds priced filled paid
    rw [← average, abs_of_nonpos short] at lower upper
    rw [abs_of_nonpos (show position.quantity + -(quantity : Int) ≤ 0 by omega), abs_le]
    constructor <;> nlinarith only [lower, upper, short]

theorem adjust_priced {moved : Position} (named : side = "buy" ∨ side = "sell")
    (priced : Priced position) (filled : 1 ≤ quantity) (paid : 1 ≤ price ∧ (price : Int) ≤ i64Max)
    (adjusted : position.adjust side quantity price = some moved) : Priced moved := by
  have mean := (meanPrice_bounds priced filled paid).2.2
  -- A kept average belongs to a position that was open, so it is priced already.
  have kept (open_ : 0 < position.quantity * moved.quantity) :
      0 < position.averagePriceMicros ∧ (position.averagePriceMicros : Int) ≤ i64Max :=
    priced (left_ne_zero_of_mul (ne_of_gt open_))
  intro opened
  rcases named with rfl | rfl
  · rw [(adjust_buy priced filled paid adjusted).2.2]
    split
    · exact mean
    split
    · exact kept ‹_›
    · exact paid
  · rw [(adjust_sell priced filled paid adjusted).2.2]
    split
    · exact mean
    split
    · exact kept ‹_›
    · exact paid

/-- A fill that misbooks nothing keeps the conservation law. -/
theorem fill_conserves {moved : Position} {signed realizedPnl : Int} (priced : Priced position)
    (conserves : Conserves position ledger) (filled : 1 ≤ quantity)
    (paid : 1 ≤ price ∧ (price : Int) ≤ i64Max)
    (named : PositionAggregator.signedFill side quantity = .ok signed)
    (closed : position.closePnl signed price = some (.ok realizedPnl))
    (adjusted : position.adjust side quantity price = some moved)
    (booked : misbooked position side quantity price = 0) :
    Conserves { moved with realizedPnlMicros := position.realizedPnlMicros + realizedPnl }
      (ledger.book side quantity price) := by
  obtain ⟨same, bounded⟩ := conserves
  have added : (ledger.book side quantity price).slack =
      ledger.slack + widening position side quantity := by
    simp only [Ledger.book, widening, same]
  unfold PositionAggregator.signedFill at named
  split at named
  · rename_i buys
    subst buys
    obtain rfl := Except.ok.inj named
    have moves := buy_drift priced same filled paid closed adjusted
    rw [booked, mul_zero, add_zero] at moves
    refine ⟨?_, ?_⟩
    · simp only [(adjust_buy priced filled paid adjusted).2.1, Ledger.book, signedQuantity,
        ↓reduceIte, same]
    · have triangle := abs_sub_abs_le_abs_sub (drift { moved with
        realizedPnlMicros := position.realizedPnlMicros + realizedPnl }
          (ledger.book "buy" quantity price)) (drift position ledger)
      linarith only [triangle, moves, bounded, added]
  split at named
  · rename_i sells
    subst sells
    obtain rfl := Except.ok.inj named
    have moves := sell_drift priced same filled paid closed adjusted
    refine ⟨?_, ?_⟩
    · simp only [(adjust_sell priced filled paid adjusted).2.1, Ledger.book, signedQuantity,
        show "sell" ≠ "buy" by decide, ↓reduceIte, same, sub_eq_add_neg]
    · have triangle := abs_sub_abs_le_abs_sub (drift { moved with
        realizedPnlMicros := position.realizedPnlMicros + realizedPnl }
          (ledger.book "sell" quantity price)) (drift position ledger)
      linarith only [triangle, moves, bounded, added]
  · simp at named

/-! ## Sessions -/

/-- The run invariant: the symbol's position is priced and conserves its ledger. -/
def Related (symbol : String) (aggregator : PositionAggregator) (ledger : Ledger) : Prop :=
  Priced (aggregator.positionOf symbol) ∧ Conserves (aggregator.positionOf symbol) ledger

theorem side_of_signedFill {quantity signed : Int}
    (named : PositionAggregator.signedFill side quantity = .ok signed) :
    side = "buy" ∨ side = "sell" := by
  unfold PositionAggregator.signedFill at named
  split at named
  · exact .inl ‹_›
  · split at named
    · exact .inr ‹_›
    · cases named

/-- An accepted fill of the symbol that does not cover a short away from its average keeps the
invariant. -/
theorem related_fill {next : PositionAggregator} {sequence timestampUs : Nat}
    (related : Related symbol aggregator ledger) (filled : 1 ≤ quantity)
    (paid : 1 ≤ price ∧ (price : Int) ≤ i64Max)
    (booked : misbooked (aggregator.positionOf symbol) side quantity price = 0)
    (accepted : aggregator.processFill symbol side quantity price sequence timestampUs =
      some (.ok (), next)) :
    Related symbol next (ledger.book side quantity price) := by
  obtain ⟨priced, conserves⟩ := related
  obtain ⟨signed, realizedPnl, moved, named, closed, adjusted, positions, -, -⟩ :=
    PositionAggregator.processFill_ok accepted
  have position : next.positionOf symbol = { moved with
      realizedPnlMicros := (aggregator.positionOf symbol).realizedPnlMicros + realizedPnl
      lastPriceMicros := price
      lastUpdateUs := timestampUs } := by
    rw [positionOf_of_insert positions, if_pos rfl]
  have stillPriced : Priced moved :=
    adjust_priced (side_of_signedFill named) priced filled paid adjusted
  have kept := fill_conserves priced conserves filled paid named closed adjusted booked
  unfold Related
  rw [position]
  exact ⟨stillPriced, kept⟩

theorem related_fill_other {traded : String} {next : PositionAggregator}
    {sequence timestampUs : Nat} (other : traded ≠ symbol)
    (related : Related symbol aggregator ledger)
    (accepted : aggregator.processFill traded side quantity price sequence timestampUs =
      some (.ok (), next)) :
    Related symbol next ledger := by
  obtain ⟨_, _, _, _, _, _, positions, -, -⟩ := PositionAggregator.processFill_ok accepted
  have position : next.positionOf symbol = aggregator.positionOf symbol := by
    rw [positionOf_of_insert positions, if_neg (Ne.symm other)]
  unfold Related
  rw [position]
  exact related

theorem related_tick (related : Related symbol aggregator ledger) (traded : String)
    (price timestampUs : Nat) :
    Related symbol (aggregator.processTick traded price timestampUs) ledger := by
  have marked : ∃ last updated, (aggregator.processTick traded price timestampUs).positionOf
      symbol = { aggregator.positionOf symbol with
        lastPriceMicros := last
        lastUpdateUs := updated } := by
    unfold PositionAggregator.positionOf PositionAggregator.processTick
    rw [PositionAggregator.getPosition_modify]
    split
    · rename_i same
      subst same
      cases found : aggregator.getPosition symbol with
      | none => exact ⟨0, 0, rfl⟩
      | some position => exact ⟨price, timestampUs, rfl⟩
    · exact ⟨_, _, rfl⟩
  obtain ⟨last, updated, position⟩ := marked
  unfold Related
  rw [position]
  exact related

/-- A proper call keeps the ledger related to the position. -/
theorem step_related {next : PositionAggregator} {call : Call}
    (related : Related symbol aggregator ledger)
    (met : call.Proper ∧ CoversAtAverage symbol aggregator call)
    (stepped : step aggregator call = some next) :
    Related symbol next (ledger.record symbol call) := by
  cases call with
  | fill traded side quantity price sequence timestampUs =>
    obtain ⟨⟨filled, paid⟩, covers⟩ := met
    simp only [step] at stepped
    split at stepped
    · rename_i after accepted
      cases stepped
      by_cases same : traded = symbol
      · subst same
        have booked : misbooked (aggregator.positionOf traded) side quantity price = 0 := by
          unfold misbooked
          split
          · rename_i short
            rw [covers rfl short.1 short.2]
            ring
          · rfl
        simp only [Ledger.record, ↓reduceIte]
        exact related_fill related filled paid booked accepted
      · simp only [Ledger.record, same, ↓reduceIte]
        exact related_fill_other same related accepted
    · cases stepped
  | tick traded price timestampUs =>
    cases stepped
    exact related_tick related traded price timestampUs

theorem related_new (symbol : String) :
    Related symbol PositionAggregator.new Ledger.empty :=
  ⟨fun opened => absurd rfl opened, rfl, le_of_eq rfl⟩

/-- Along every session of proper calls in which no buy covers a short of the symbol away from
its average price, the symbol's position conserves its ledger. -/
theorem pnl_conservation (symbol : String) (calls : List Call) (final : PositionAggregator)
    (proper : ∀ call ∈ calls, call.Proper)
    (covers : Run.Guarded step (CoversAtAverage symbol) PositionAggregator.new calls)
    (ran : Run.exec step PositionAggregator.new calls = some final) :
    Conserves (final.positionOf symbol) (ledgerOf symbol calls) :=
  (Run.exec_refines (fun _ _ _ _ => step_related) (related_new symbol)
    ((Run.guarded_of_forall proper _).and covers) ran).2

/-- A session that truncates an average, flips a long and covers the short at its average. -/
theorem pnl_conservation_flip :
    ∃ final, Run.exec step PositionAggregator.new
        [.fill "BTC/USDT" "buy" 2 100 1 1, .fill "BTC/USDT" "buy" 1 101 2 2,
          .tick "BTC/USDT" 105 3, .fill "BTC/USDT" "sell" 4 110 4 4,
          .fill "BTC/USDT" "buy" 1 110 5 5] = some final ∧
      Conserves (final.positionOf "BTC/USDT") ⟨0, 29, 5⟩ :=
  ⟨_, rfl, pnl_conservation "BTC/USDT"
    [.fill "BTC/USDT" "buy" 2 100 1 1, .fill "BTC/USDT" "buy" 1 101 2 2,
      .tick "BTC/USDT" 105 3, .fill "BTC/USDT" "sell" 4 110 4 4,
      .fill "BTC/USDT" "buy" 1 110 5 5] _ (by decide) (by decide) rfl⟩

/-- A short opened at 100 and covered at 90 earns 10 and is booked as a loss of 10, so the
conservation law fails without the condition on covers. -/
theorem pnl_not_conserved :
    ¬∀ (symbol : String) (calls : List Call) (final : PositionAggregator),
      (∀ call ∈ calls, call.Proper) → Run.exec step PositionAggregator.new calls = some final →
        Conserves (final.positionOf symbol) (ledgerOf symbol calls) := by
  intro law
  have booked := law "BTC/USDT"
    [.fill "BTC/USDT" "sell" 1 100 1 1, .fill "BTC/USDT" "buy" 1 90 2 2] _ (by decide) rfl
  exact absurd booked.2 (by decide)

end TradingBot.PositionConservation
