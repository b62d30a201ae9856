import Mathlib.Data.Rat.Floor
import Mathlib.Tactic.LinearCombination
import TradingBot.Cqrs.PositionConservation
import TradingBot.Cqrs.PositionsView

/-!
# Two read models of positions

The positions view and the position aggregator project the same fills. The view counts prices in
units and the aggregator in micros, truncating every average. They agree after a fill only if
what the aggregator truncated stays below one micro, and a sell only if it closes a part of a
long whose average is a whole number of micros: the view neither opens shorts nor resets the
average of a closed position.
-/

open Run MachineInt

namespace TradingBot.Cqrs

open PositionAggregator PositionConservation

namespace ReadModels

/-- A fill event; the aggregator gets its price in micros. -/
structure Fill where
  symbol : String
  side : String
  quantity : Nat
  priceMicros : Nat
  sequence : Nat
  timestampUs : Nat

/-- A fill of a positive quantity at a positive price of the type `u64`. -/
def Fill.Proper (fill : Fill) : Prop :=
  1 ≤ fill.quantity ∧ 1 ≤ fill.priceMicros ∧ fill.priceMicros < u64Size

instance : DecidablePred Fill.Proper := fun fill =>
  inferInstanceAs (Decidable (1 ≤ fill.quantity ∧ 1 ≤ fill.priceMicros ∧ _ < u64Size))

/-- The event of a fill as the view gets it, its price in units. -/
def Fill.event (fill : Fill) : ProjectedEvent where
  eventType := .orderFilled
  payload := ⟨some fill.symbol, some fill.side, some fill.quantity,
    some (fill.priceMicros / 1000000)⟩

/-- Both read models and the signed sum of the fills of every symbol. -/
structure Session where
  view : PositionsView
  aggregator : PositionAggregator
  netted : String → Int

/-- A session of two new read models. -/
def Session.start : Session := ⟨.new, .new, fun _ => 0⟩

/-- A fill that both project; the aggregator accepts it. -/
def step (session : Session) (fill : Fill) : Option Session :=
  match session.aggregator.processFill fill.symbol fill.side fill.quantity fill.priceMicros
      fill.sequence fill.timestampUs with
  | some (.ok (), next) => some {
      view := session.view.applyEvent fill.event
      aggregator := next
      netted := Function.update session.netted fill.symbol
        (session.netted fill.symbol + signedQuantity fill.side fill.quantity) }
  | _ => none

/-- A position of the view and one of the aggregator hold a quantity, have realized the same and
have the same average, truncated by the aggregator. -/
structure Agree (net : Int) (pos : PositionState) (position : Position) : Prop where
  viewed : pos.quantity = net
  held : position.quantity = net
  realized : pos.realizedPnl * 1000000 = position.realizedPnlMicros
  average : ⌊pos.averagePrice * 1000000⌋ = (position.averagePriceMicros : Int)

/-- The read models agree on every symbol. -/
def ModelsAgree (session : Session) : Prop :=
  ∀ symbol, Agree (session.netted symbol) (session.view.positionOf symbol)
    (session.aggregator.positionOf symbol)

/-- What the aggregator truncates of the average of a buy, together with what it had truncated of
the old average, stays below one micro for each unit held. -/
def TruncationKept (pos : PositionState) (position : Position) (fill : Fill) : Prop :=
  (((position.quantity.natAbs * position.averagePriceMicros + fill.quantity * fill.priceMicros) %
      (position.quantity.natAbs + fill.quantity) : Nat) : ℚ) +
    position.quantity.natAbs * Int.fract (pos.averagePrice * 1000000) <
      position.quantity.natAbs + fill.quantity

/-- A sell closes a part of a long, whose average is a whole number of micros on the same side
of the largest `i64` as the price. -/
def ReducesWholeLong (pos : PositionState) (position : Position) (fill : Fill) : Prop :=
  (fill.quantity : Int) < position.quantity ∧ Int.fract (pos.averagePrice * 1000000) = 0 ∧
    ((fill.priceMicros : Int) ≤ i64Max ↔ (position.averagePriceMicros : Int) ≤ i64Max)

/-- A fill of a named symbol that both read models project alike. -/
def ProjectedAlike (session : Session) (fill : Fill) : Prop :=
  fill.symbol ≠ "" ∧
    if fill.side = "buy" then
      TruncationKept (session.view.positionOf fill.symbol)
        (session.aggregator.positionOf fill.symbol) fill
    else ReducesWholeLong (session.view.positionOf fill.symbol)
      (session.aggregator.positionOf fill.symbol) fill

instance (session : Session) : DecidablePred (ProjectedAlike session) := fun fill =>
  haveI : Decidable (TruncationKept (session.view.positionOf fill.symbol)
      (session.aggregator.positionOf fill.symbol) fill) := inferInstanceAs (Decidable (_ < _))
  haveI : Decidable (ReducesWholeLong (session.view.positionOf fill.symbol)
      (session.aggregator.positionOf fill.symbol) fill) := inferInstanceAs (Decidable (_ ∧ _ ∧ _))
  inferInstanceAs (Decidable (_ ∧ if fill.side = "buy" then _ else _))

/-! ## The averages -/

section Averages

theorem floor_mean_eq_iff {cost divisor : Nat} (positive : 0 < divisor) {lost : ℚ}
    (more : 0 ≤ lost) :
    ⌊(cost + lost) / divisor⌋ = ((cost / divisor : Nat) : Int) ↔
      ((cost % divisor : Nat) : ℚ) + lost < divisor := by
  have wide : (0 : ℚ) < divisor := Nat.cast_pos.mpr positive
  have split_ : (cost : ℚ) = divisor * (cost / divisor : Nat) + (cost % divisor : Nat) := by
    exact_mod_cast (Nat.div_add_mod cost divisor).symm
  rw [Int.floor_eq_iff, le_div_iff₀ wide, div_lt_iff₀ wide, Int.cast_natCast, add_one_mul, split_]
  have remainder : (0 : ℚ) ≤ (cost % divisor : Nat) := Nat.cast_nonneg _
  constructor
  · rintro ⟨_, above⟩
    linarith
  · intro small
    constructor <;> linarith

theorem gained_eq_iff {average : ℚ} {quantity price micros : Nat} {converted : Int}
    (filled : 1 ≤ quantity) (truncated : ⌊average * 1000000⌋ = (micros : Int)) :
    (price / 1000000 - average) * quantity * 1000000 = (converted : ℚ) * quantity ↔
      Int.fract (average * 1000000) = 0 ∧ converted = (price : Int) - micros := by
  have count : (quantity : ℚ) ≠ 0 := Nat.cast_ne_zero.mpr (by omega)
  have parts := Int.floor_add_fract (average * 1000000)
  rw [truncated] at parts
  constructor
  · intro same
    have apart : (price : ℚ) - average * 1000000 = converted := by
      apply mul_right_cancel₀ count
      linear_combination same
    have exact_ : Int.fract (average * 1000000) = 0 := by
      have whole : average * 1000000 = ((price - converted : Int) : ℚ) := by
        push_cast
        linarith
      rw [whole]
      exact Int.fract_intCast _
    refine ⟨exact_, ?_⟩
    rw [exact_, add_zero] at parts
    rw [← parts] at apart
    exact_mod_cast apart.symm
  · rintro ⟨exact_, rfl⟩
    rw [exact_, add_zero] at parts
    push_cast at parts ⊢
    rw [parts]
    ring

end Averages

/-! ## One fill of the aggregator -/

section Aggregator

variable {position moved : Position} {quantity price : Nat} {realizedPnl : Int}

theorem adjust_buy_long (long : 0 ≤ position.quantity) (filled : 1 ≤ quantity)
    (averageFits : position.averagePriceMicros < u64Size) (priceFits : price < u64Size)
    (adjusted : position.adjust "buy" quantity price = some moved) :
    moved.quantity = position.quantity + quantity ∧ moved.averagePriceMicros < u64Size ∧
      moved.averagePriceMicros =
        (position.quantity.natAbs * position.averagePriceMicros + quantity * price) /
          (position.quantity.natAbs + quantity) := by
  have bounded : (position.quantity.natAbs * position.averagePriceMicros + quantity * price) /
      (position.quantity.natAbs + quantity) < u64Size :=
    mean_lt (by omega) averageFits priceFits
  simp only [Position.adjust, ↓reduceIte] at adjusted
  rw [if_pos long] at adjusted
  simp only [Option.bind_eq_bind, Option.bind_eq_some_iff] at adjusted
  obtain ⟨held, fits, adjusted⟩ := adjusted
  obtain ⟨_, rfl⟩ := i64_eq_some.mp fits
  obtain rfl := Option.some.inj adjusted
  have positive : 0 < position.quantity + (quantity : Int) := by omega
  have size : (position.quantity + (quantity : Int)).toNat =
      position.quantity.natAbs + quantity := by omega
  have heldSize : position.quantity.toNat = position.quantity.natAbs := by omega
  dsimp only
  rw [if_pos positive, size, heldSize, Int.toNat_natCast, castU64_of_fits bounded]
  exact ⟨rfl, bounded, rfl⟩

theorem closePnl_buy_long (long : 0 ≤ position.quantity)
    (closed : position.closePnl quantity price = some (.ok realizedPnl)) : realizedPnl = 0 := by
  unfold Position.closePnl at closed
  rw [if_neg (by omega)] at closed
  exact (Except.ok.inj (Option.some.inj closed)).symm

/-- A sale lowers the quantity and keeps the average until it is flat. -/
theorem adjust_sell_cases (filled : 1 ≤ quantity)
    (adjusted : position.adjust "sell" quantity price = some moved) :
    moved.quantity = position.quantity - quantity ∧
      ((quantity : Int) < position.quantity →
        moved.averagePriceMicros = position.averagePriceMicros) ∧
      ((quantity : Int) = position.quantity → moved.averagePriceMicros = 0) := by
  simp only [Position.adjust, show "sell" ≠ "buy" by decide, ↓reduceIte] at adjusted
  split at adjusted
  · rename_i short
    simp only [Option.bind_eq_bind, Option.bind_eq_some_iff] at adjusted
    obtain ⟨held, _, left, fits, adjusted⟩ := adjusted
    obtain ⟨_, rfl⟩ := i64_eq_some.mp fits
    rw [if_pos (by omega)] at adjusted
    simp only [Option.bind_eq_some_iff] at adjusted
    obtain ⟨size, _, adjusted⟩ := adjusted
    obtain rfl := Option.some.inj adjusted
    exact ⟨rfl, fun reduced => by omega, fun whole => by omega⟩
  · rename_i long
    simp only [Option.bind_eq_bind, Option.bind_eq_some_iff] at adjusted
    obtain ⟨left, fits, adjusted⟩ := adjusted
    obtain ⟨_, rfl⟩ := i64_eq_some.mp fits
    obtain rfl := Option.some.inj adjusted
    refine ⟨rfl, fun reduced => ?_, fun whole => ?_⟩
    · dsimp only
      rw [if_neg (by omega), if_neg (by omega)]
    · dsimp only
      rw [if_neg (by omega), if_pos (by omega)]

theorem closePnl_sell_long (filled : 1 ≤ quantity) (held : (quantity : Int) ≤ position.quantity)
    (priced : 0 < position.averagePriceMicros)
    (closed : position.closePnl (-(quantity : Int)) price = some (.ok realizedPnl)) :
    realizedPnl = (castI64 price - castI64 position.averagePriceMicros) * quantity := by
  unfold Position.closePnl at closed
  rw [if_pos (.inl ⟨by omega, by omega⟩)] at closed
  simp only [Option.bind_eq_bind, Option.bind_eq_some_iff] at closed
  obtain ⟨closeQty, closes, rest⟩ := closed
  have sold : closeQty = quantity := by
    rw [closeQty_eq closes, if_pos (by omega), neg_neg, min_eq_right held]
  rw [if_pos ⟨by omega, priced⟩] at rest
  rw [realizedPnl_ok rest, sold]

end Aggregator

/-! ## One fill of both -/

section Fills

variable {net realizedPnl : Int} {pos : PositionState} {position moved : Position} {fill : Fill}

/-- The position of the aggregator after an accepted fill. -/
def booked (position moved : Position) (realizedPnl : Int) (fill : Fill) : Position :=
  { moved with
    realizedPnlMicros := position.realizedPnlMicros + realizedPnl
    lastPriceMicros := fill.priceMicros
    lastUpdateUs := fill.timestampUs }

section

variable (agree : Agree net pos position)
include agree

/-- The average of the view after a buy, in micros: the mean of the truncated average and of what
it lacks. -/
theorem average_buy (long : 0 ≤ net) (filled : 1 ≤ fill.quantity) :
    (pos.fill "buy" fill.quantity (fill.priceMicros / 1000000)).averagePrice * 1000000 =
      (((position.quantity.natAbs * position.averagePriceMicros +
          fill.quantity * fill.priceMicros : Nat) : ℚ) +
        position.quantity.natAbs * Int.fract (pos.averagePrice * 1000000)) /
        ((position.quantity.natAbs + fill.quantity : Nat) : ℚ) := by
  have size : (position.quantity.natAbs : ℚ) = net := by
    rw [agree.held, Nat.cast_natAbs, abs_of_nonneg long]
  have positive : (0 : ℚ) < net + fill.quantity := by exact_mod_cast (by omega)
  have whole : (position.averagePriceMicros : ℚ) +
      Int.fract (pos.averagePrice * 1000000) = pos.averagePrice * 1000000 := by
    have parts := Int.floor_add_fract (pos.averagePrice * 1000000)
    rw [agree.average] at parts
    exact_mod_cast parts
  dsimp only [PositionState.fill]
  rw [if_pos rfl]
  dsimp only
  rw [agree.viewed, if_pos positive]
  push_cast
  rw [size]
  field_simp
  linear_combination (-(net : ℚ)) * whole

theorem buy_exact (long : 0 ≤ net) (proper : fill.Proper)
    (averageFits : position.averagePriceMicros < u64Size)
    (closed : position.closePnl fill.quantity fill.priceMicros = some (.ok realizedPnl))
    (adjusted : position.adjust "buy" fill.quantity fill.priceMicros = some moved) :
    Agree (net + fill.quantity) (pos.fill "buy" fill.quantity (fill.priceMicros / 1000000))
        (booked position moved realizedPnl fill) ↔
      TruncationKept pos position fill := by
  have held : 0 ≤ position.quantity := agree.held.symm ▸ long
  obtain ⟨quantity, _, average⟩ :=
    adjust_buy_long held proper.1 averageFits proper.2.2 adjusted
  have none_ := closePnl_buy_long held closed
  have mean := average_buy agree long proper.1
  have lost : (0 : ℚ) ≤ position.quantity.natAbs * Int.fract (pos.averagePrice * 1000000) :=
    mul_nonneg (Nat.cast_nonneg _) (Int.fract_nonneg _)
  have carried := @floor_mean_eq_iff
    (position.quantity.natAbs * position.averagePriceMicros + fill.quantity * fill.priceMicros)
    (position.quantity.natAbs + fill.quantity) (Nat.add_pos_right _ proper.1) _ lost
  rw [← mean, ← average, Nat.cast_add position.quantity.natAbs] at carried
  constructor
  · exact fun kept => carried.mp kept.average
  · intro kept
    refine ⟨?_, ?_, ?_, carried.mpr kept⟩
    · dsimp only [PositionState.fill]
      rw [if_pos rfl]
      dsimp only
      rw [agree.viewed]
      push_cast
      rfl
    · rw [← agree.held]
      exact quantity
    · dsimp only [PositionState.fill, booked]
      rw [if_pos rfl, none_, add_zero]
      exact agree.realized

/-- A sell of a part of a long that both project keeps them agreed if and only if the average is
whole and the conversion keeps the difference of the prices. -/
theorem sell_part_exact (proper : fill.Proper) (averageFits : position.averagePriceMicros < u64Size)
    (priced : 0 < net → 0 < position.averagePriceMicros) (less : (fill.quantity : Int) < net)
    (closed : position.closePnl (-(fill.quantity : Int)) fill.priceMicros = some (.ok realizedPnl))
    (adjusted : position.adjust "sell" fill.quantity fill.priceMicros = some moved) :
    Agree (net - fill.quantity) (pos.fill "sell" fill.quantity (fill.priceMicros / 1000000))
        (booked position moved realizedPnl fill) ↔
      Int.fract (pos.averagePrice * 1000000) = 0 ∧
        ((fill.priceMicros : Int) ≤ i64Max ↔ (position.averagePriceMicros : Int) ≤ i64Max) := by
  obtain ⟨quantity, reduced, _⟩ := adjust_sell_cases proper.1 adjusted
  have sells : "sell" ≠ "buy" := by decide
  have held : (fill.quantity : ℚ) ≤ pos.quantity := by
    rw [agree.viewed]
    exact_mod_cast less.le
  have opened : 0 < pos.quantity := by
    rw [agree.viewed]
    exact_mod_cast (by omega : 0 < net)
  obtain ⟨left, gained⟩ := @PositionState.sell_part pos fill.quantity
    (fill.priceMicros / 1000000) "sell" sells opened held
  have booked_ := closePnl_sell_long proper.1 (agree.held.symm ▸ less.le) (priced (by omega)) closed
  rw [← castI64_sub_eq_iff proper.2.2 averageFits, ← gained_eq_iff proper.1 agree.average]
  have total : ((booked position moved realizedPnl fill).realizedPnlMicros : ℚ) =
      position.realizedPnlMicros + realizedPnl := Int.cast_add _ _
  have sold : (realizedPnl : ℚ) = ((castI64 fill.priceMicros -
      castI64 position.averagePriceMicros : Int) : ℚ) * fill.quantity := by
    rw [booked_]
    push_cast
    rfl
  constructor
  · intro kept
    have same := kept.realized
    rw [gained, total, sold] at same
    linear_combination same - agree.realized
  · intro same
    refine ⟨?_, ?_, ?_, ?_⟩
    · rw [left, agree.viewed]
      push_cast
      rfl
    · rw [← agree.held]
      exact quantity
    · rw [gained, total, sold]
      linear_combination same + agree.realized
    · rw [PositionState.averagePrice_sell sells, agree.average]
      exact congrArg Nat.cast (reduced (agree.held.symm ▸ less)).symm

/-- A sell that both project keeps them agreed if and only if it reduces a long whose average is
whole. -/
theorem sell_exact (long : 0 ≤ net) (proper : fill.Proper)
    (averageFits : position.averagePriceMicros < u64Size)
    (priced : 0 < net → 0 < position.averagePriceMicros)
    (closed : position.closePnl (-(fill.quantity : Int)) fill.priceMicros = some (.ok realizedPnl))
    (adjusted : position.adjust "sell" fill.quantity fill.priceMicros = some moved) :
    Agree (net - fill.quantity) (pos.fill "sell" fill.quantity (fill.priceMicros / 1000000))
        (booked position moved realizedPnl fill) ↔
      ReducesWholeLong pos position fill := by
  have filled := proper.1
  have sells : "sell" ≠ "buy" := by decide
  rcases lt_trichotomy (fill.quantity : Int) net with less | whole | more
  · unfold ReducesWholeLong
    rw [and_iff_right (agree.held.symm ▸ less)]
    exact sell_part_exact agree proper averageFits priced less closed adjusted
  · -- The view keeps the average of what it has sold, the aggregator clears it.
    refine iff_of_false (fun kept => ?_) fun long => absurd long.1 (by rw [agree.held]; omega)
    have cleared := (adjust_sell_cases proper.1 adjusted).2.2 (agree.held.symm ▸ whole)
    have average := kept.average
    rw [PositionState.averagePrice_sell sells, agree.average] at average
    change (position.averagePriceMicros : Int) = moved.averagePriceMicros at average
    rw [cleared] at average
    have some_ := priced (by omega)
    omega
  · -- The view is left with nothing, the aggregator with a short.
    refine iff_of_false (fun kept => ?_) fun long => absurd long.1 (by rw [agree.held]; omega)
    have viewed := kept.viewed
    rw [PositionState.sell_rest sells (by rw [agree.viewed]; exact_mod_cast long)
      (by rw [agree.viewed]; exact_mod_cast more.le)] at viewed
    have short : net - fill.quantity = 0 := by exact_mod_cast viewed.symm
    omega

end

end Fills

/-! ## Runs -/

/-- The invariant of one symbol: the view holds no short, a long of it costs at least a micro,
and the average of the aggregator has its type. -/
structure Kept (pos : PositionState) (position : Position) : Prop where
  held : 0 ≤ pos.quantity
  priced : 0 < pos.quantity → 1 ≤ pos.averagePrice * 1000000
  fits : position.averagePriceMicros < u64Size

/-- The invariant of a session. -/
def AllKept (session : Session) : Prop :=
  ∀ symbol, Kept (session.view.positionOf symbol) (session.aggregator.positionOf symbol)

section Runs

variable {session next : Session} {fill : Fill}

theorem net_nonneg {net : Int} {pos : PositionState} {position : Position}
    (agree : Agree net pos position) (kept : Kept pos position) : 0 ≤ net := by
  have held := kept.held
  rw [agree.viewed] at held
  exact_mod_cast held

theorem average_pos {net : Int} {pos : PositionState} {position : Position}
    (agree : Agree net pos position) (kept : Kept pos position) (long : 0 < net) :
    0 < position.averagePriceMicros := by
  have opened : 0 < pos.quantity := by
    rw [agree.viewed]
    exact_mod_cast long
  have one : (1 : Int) ≤ ⌊pos.averagePrice * 1000000⌋ :=
    Int.le_floor.mpr (by exact_mod_cast kept.priced opened)
  rw [agree.average] at one
  omega

/-- What both read models do with a fill that the aggregator accepts. -/
theorem step_cases (stepped : step session fill = some next) :
    ∃ signed realizedPnl moved,
      signedFill fill.side fill.quantity = .ok signed ∧
      (session.aggregator.positionOf fill.symbol).closePnl signed fill.priceMicros =
        some (.ok realizedPnl) ∧
      (session.aggregator.positionOf fill.symbol).adjust fill.side fill.quantity
        fill.priceMicros = some moved ∧
      (∀ other, next.aggregator.positionOf other =
        if other = fill.symbol then
          booked (session.aggregator.positionOf fill.symbol) moved realizedPnl fill
        else session.aggregator.positionOf other) ∧
      (∀ other, next.view.positionOf other =
        if other = fill.symbol ∧ fill.symbol ≠ "" then
          (session.view.positionOf fill.symbol).fill fill.side fill.quantity
            (fill.priceMicros / 1000000)
        else session.view.positionOf other) ∧
      ∀ other, next.netted other =
        if other = fill.symbol then
          session.netted fill.symbol + signedQuantity fill.side fill.quantity
        else session.netted other := by
  unfold step at stepped
  split at stepped
  · rename_i aggregator accepted
    cases stepped
    obtain ⟨signed, realizedPnl, moved, named, closed, adjusted, positions, _⟩ :=
      processFill_ok accepted
    refine ⟨signed, realizedPnl, moved, named, closed, adjusted, fun other => ?_, fun other => ?_,
      fun other => ?_⟩
    · dsimp only [positionOf, getPosition] at positions ⊢
      rw [positions]
      by_cases same : other = fill.symbol
      · subst same
        rw [AList.lookup_insert, if_pos rfl]
        rfl
      · rw [AList.lookup_insert_ne same, if_neg same]
    · exact PositionsView.positionOf_fill session.view fill.symbol fill.side other fill.quantity
        (fill.priceMicros / 1000000)
    · exact Function.update_apply _ _ _ _
  · cases stepped

/-- A fill is signed by its side, and other sides are refused. -/
theorem signedFill_cases {side : String} {quantity signed : Int}
    (named : signedFill side quantity = .ok signed) :
    side = "buy" ∧ signed = quantity ∨ side = "sell" ∧ signed = -quantity := by
  unfold signedFill at named
  split at named
  · rename_i buys
    cases named
    exact .inl ⟨buys, rfl⟩
  · split at named
    · rename_i sells
      cases named
      exact .inr ⟨sells, rfl⟩
    · cases named

theorem agree_next_iff (agree : ModelsAgree session) (stepped : step session fill = some next) :
    ModelsAgree next ↔ Agree (next.netted fill.symbol) (next.view.positionOf fill.symbol)
      (next.aggregator.positionOf fill.symbol) := by
  obtain ⟨_, _, _, _, _, _, aggregated, viewed, netted⟩ := step_cases stepped
  refine ⟨fun all => all fill.symbol, fun here symbol => ?_⟩
  by_cases same : symbol = fill.symbol
  · rw [same]
    exact here
  · rw [aggregated, viewed, netted, if_neg same, if_neg same, if_neg fun both => same both.1]
    exact agree symbol

theorem fill_exact (kept : AllKept session) (agree : ModelsAgree session) (proper : fill.Proper)
    (stepped : step session fill = some next) :
    ModelsAgree next ↔ ProjectedAlike session fill := by
  have cases_ := step_cases stepped
  obtain ⟨signed, realizedPnl, moved, side, closed, adjusted, aggregated, viewed, netted⟩ := cases_
  have here := agree fill.symbol
  have long := net_nonneg here (kept fill.symbol)
  by_cases named : fill.symbol = ""
  · refine iff_of_false (fun all => ?_) fun alike => alike.1 named
    have later := (all fill.symbol).viewed
    rw [viewed, netted, if_pos rfl, if_neg fun both => both.2 named, here.viewed] at later
    have none_ : signedQuantity fill.side fill.quantity = 0 := by
      have equal : session.netted fill.symbol =
          session.netted fill.symbol + signedQuantity fill.side fill.quantity := by
        exact_mod_cast later
      omega
    have filled := proper.1
    unfold signedQuantity at none_
    split at none_ <;> omega
  · rw [agree_next_iff agree stepped, aggregated, viewed, netted, if_pos rfl, if_pos rfl,
      if_pos ⟨rfl, named⟩, ProjectedAlike, and_iff_right named]
    rcases signedFill_cases side with ⟨buys, rfl⟩ | ⟨sells, rfl⟩
    · rw [if_pos buys, signedQuantity, if_pos buys, buys]
      rw [buys] at adjusted
      exact buy_exact here long proper (kept fill.symbol).fits closed adjusted
    · have other : ¬ fill.side = "buy" := by
        rw [sells]
        decide
      rw [if_neg other, signedQuantity, if_neg other, sells, ← sub_eq_add_neg]
      rw [sells] at adjusted
      exact sell_exact here long proper (kept fill.symbol).fits
        (average_pos here (kept fill.symbol)) closed adjusted

theorem priced_buy {pos : PositionState} {quantity priceMicros : ℚ} (held : 0 ≤ pos.quantity)
    (priced : 0 < pos.quantity → 1 ≤ pos.averagePrice * 1000000) (filled : 0 < quantity)
    (paid : 1 ≤ priceMicros) :
    0 ≤ (pos.fill "buy" quantity (priceMicros / 1000000)).quantity ∧
      1 ≤ (pos.fill "buy" quantity (priceMicros / 1000000)).averagePrice * 1000000 := by
  have positive : 0 < pos.quantity + quantity := by linarith
  dsimp only [PositionState.fill]
  rw [if_pos rfl]
  dsimp only
  rw [if_pos positive, div_mul_eq_mul_div, le_div_iff₀ positive, one_mul]
  refine ⟨positive.le, ?_⟩
  have entry : pos.quantity ≤ pos.quantity * (pos.averagePrice * 1000000) := by
    rcases held.lt_or_eq with some_ | none_
    · exact le_mul_of_one_le_right held (priced some_)
    · rw [← none_, zero_mul]
  have added : quantity ≤ quantity * priceMicros := le_mul_of_one_le_right filled.le paid
  linarith

theorem fill_kept (kept : AllKept session) (agree : ModelsAgree session) (proper : fill.Proper)
    (alike : ProjectedAlike session fill) (stepped : step session fill = some next) :
    AllKept next := by
  obtain ⟨signed, realizedPnl, moved, side, closed, adjusted, aggregated, viewed, _⟩ :=
    step_cases stepped
  obtain ⟨named, alike⟩ := alike
  intro symbol
  by_cases same : symbol = fill.symbol
  · rw [aggregated, viewed, if_pos same, if_pos ⟨same, named⟩]
    have here := agree fill.symbol
    have before := kept fill.symbol
    have long := net_nonneg here before
    rcases signedFill_cases side with ⟨buys, _⟩ | ⟨sells, _⟩
    · rw [buys] at adjusted ⊢
      obtain ⟨held, priced⟩ := @priced_buy (session.view.positionOf fill.symbol) fill.quantity
        fill.priceMicros before.held before.priced
        (by exact_mod_cast proper.1) (by exact_mod_cast proper.2.1)
      exact ⟨held, fun _ => priced, (adjust_buy_long (here.held.symm ▸ long) proper.1 before.fits
        proper.2.2 adjusted).2.1⟩
    · have other : ¬ fill.side = "buy" := by
        rw [sells]
        decide
      rw [if_neg other] at alike
      have part : (fill.quantity : ℚ) < (session.view.positionOf fill.symbol).quantity := by
        have less := alike.1
        rw [here.held] at less
        rw [here.viewed]
        exact_mod_cast less
      have opened : 0 < (session.view.positionOf fill.symbol).quantity :=
        (Nat.cast_nonneg _).trans_lt part
      have sold := @PositionState.sell_part _ _ (fill.priceMicros / 1000000) _ other opened part.le
      rw [sells] at adjusted
      refine ⟨?_, fun _ => ?_, ?_⟩
      · rw [sold.1]
        exact sub_nonneg.mpr part.le
      · rw [PositionState.averagePrice_sell other]
        exact before.priced opened
      · change moved.averagePriceMicros < u64Size
        rw [(adjust_sell_cases proper.1 adjusted).2.1 alike.1]
        exact before.fits
  · rw [aggregated, viewed, if_neg same, if_neg fun both => same both.1]
    exact kept symbol

end Runs

/-- Along every run of accepted fills of positive quantities and prices, the read models agree on
every symbol after every fill if and only if they project every fill alike. -/
theorem modelsAgree_iff (fills : List Fill) (proper : ∀ fill ∈ fills, fill.Proper) :
    Always step ModelsAgree Session.start fills ↔ Guarded step ProjectedAlike Session.start fills :=
  @always_iff_guarded_of _ _ step AllKept ModelsAgree (fun _ fill => fill.Proper) ProjectedAlike
    (fun _ _ _ kept agree proper alike stepped => fill_kept kept agree proper alike stepped)
    (fun _ _ _ kept agree proper stepped => fill_exact kept agree proper stepped) Session.start
    (fun _ => ⟨le_rfl, fun opened => absurd opened (lt_irrefl 0), Nat.zero_lt_succ _⟩)
    (fun _ => ⟨rfl, rfl, zero_mul _, by
      change ⌊(0 : ℚ) * 1000000⌋ = 0
      rw [zero_mul, Int.floor_zero]⟩)
    fills (guarded_of_forall proper Session.start)

/-- Two buys and a sell of a part. -/
def partialSell : List Fill :=
  [⟨"BTC", "buy", 2, 50000000000, 1, 1⟩, ⟨"BTC", "buy", 2, 60000000000, 2, 2⟩,
    ⟨"BTC", "sell", 1, 70000000000, 3, 3⟩]

/-- The read models agree along a run of two buys and a sell of a part. -/
theorem modelsAgree_partialSell : Always step ModelsAgree Session.start partialSell :=
  (modelsAgree_iff partialSell (by decide)).mpr (by decide +kernel)

/-- After a sell from flat the aggregator is short and the view is flat. -/
theorem sell_from_flat_differs :
    ¬ Always step ModelsAgree Session.start [⟨"BTC", "sell", 1, 50000000000, 1, 1⟩] := by
  have sold : (exec step Session.start [⟨"BTC", "sell", 1, 50000000000, 1, 1⟩]).map
      (fun final => ((final.view.positionOf "BTC").quantity, final.netted "BTC")) =
        some (0, -1) := by
    decide +kernel
  refine not_always_of_view sold fun final amounts agree => ?_
  have viewed := (agree "BTC").viewed
  obtain ⟨quantity, net⟩ := Prod.ext_iff.mp amounts
  dsimp only at quantity net
  rw [quantity, net] at viewed
  exact absurd viewed (by decide)

end ReadModels

end TradingBot.Cqrs
