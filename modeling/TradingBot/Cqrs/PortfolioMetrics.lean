import Mathlib.Algebra.BigOperators.Group.List.Basic
import Mathlib.Tactic.Ring
import TradingBot.Foundation.Run
import TradingBot.Cqrs.PositionAggregator

/-!
# Portfolio metrics

The aggregator tells its totals in three ways: by the atomic shadows, by the positions, and by
metrics computed from the positions. The shadows follow the positions along every run. The
metrics leave out what flat positions realized, so they agree with the shadows exactly while
those amounts add up to nothing.
-/

open MachineInt Run

namespace TradingBot.PortfolioTotals

open PositionAggregator

/-- `PortfolioMetrics`: the aggregated portfolio metrics. -/
structure PortfolioMetrics where
  totalRealizedPnlMicros : Int
  totalUnrealizedPnlMicros : Int
  totalPnlMicros : Int
  /-- Gross exposure (sum of absolute position values). -/
  grossExposureMicros : Nat
  /-- Net exposure (sum of signed position values). -/
  netExposureMicros : Int
  /-- Number of non-flat positions. -/
  positionCount : Nat
  /-- Number of symbols with open orders. -/
  symbolsWithOrders : Nat
  timestampUs : Nat

def PortfolioMetrics.new (timestampUs : Nat) : PortfolioMetrics where
  totalRealizedPnlMicros := 0
  totalUnrealizedPnlMicros := 0
  totalPnlMicros := 0
  grossExposureMicros := 0
  netExposureMicros := 0
  positionCount := 0
  symbolsWithOrders := 0
  timestampUs := timestampUs

/-- The part of the loop of `calculate_metrics` for an open position. -/
def PortfolioMetrics.addOpen (metrics : PortfolioMetrics) (position : Position) :
    Option PortfolioMetrics := do
  let unrealized ← position.unrealizedPnlMicros
  let totalUnrealized ← i64 (metrics.totalUnrealizedPnlMicros + unrealized)
  let totalRealized ← i64 (metrics.totalRealizedPnlMicros + position.realizedPnlMicros)
  let size ← i64 |position.quantity|
  let positionValue := castU64 (size.toNat * position.lastPriceMicros)
  let signedValue ← i64 (position.quantity * castI64 position.lastPriceMicros)
  return { metrics with
    positionCount := metrics.positionCount + 1
    totalUnrealizedPnlMicros := totalUnrealized
    totalRealizedPnlMicros := totalRealized
    grossExposureMicros := min (metrics.grossExposureMicros + positionValue) (u64Size - 1)
    netExposureMicros := max i64Min (min (metrics.netExposureMicros + signedValue) i64Max) }

/-- The loop of `calculate_metrics` for one position. -/
def PortfolioMetrics.add (metrics : PortfolioMetrics) (position : Position) :
    Option PortfolioMetrics :=
  (if position.isFlat then some metrics else metrics.addOpen position).map fun counted =>
    if 0 < position.openOrdersCount then
      { counted with symbolsWithOrders := counted.symbolsWithOrders + 1 }
    else counted

/-- `calculate_metrics`, over the positions in the order in which the map yields them. -/
def calculateMetrics (positions : List Position) (timestampUs : Nat) : Option PortfolioMetrics := do
  let metrics ← positions.foldlM PortfolioMetrics.add (.new timestampUs)
  let total ← i64 (metrics.totalRealizedPnlMicros + metrics.totalUnrealizedPnlMicros)
  return { metrics with totalPnlMicros := total }

/-- `get_all_positions`: the positions in one order of the map. -/
def getAllPositions (aggregator : PositionAggregator) : List Position :=
  aggregator.positions.entries.map fun entry => entry.2

/-- One call on the aggregator. -/
inductive AggregatorCall where
  /-- `process_fill`. -/
  | fill (symbol side : String) (quantity price sequence timestampUs : Nat)
  /-- `process_tick`. -/
  | tick (symbol : String) (price timestampUs : Nat)
  /-- `process_order_placed`. -/
  | orderPlaced (symbol : String)
  /-- `process_order_cancelled`. -/
  | orderCancelled (symbol : String)
  | clear

/-- The aggregator after a call; a fill may be refused, and is no call where an operation of it
overflows. -/
def step (aggregator : PositionAggregator) : AggregatorCall → Option PositionAggregator
  | .fill symbol side quantity price sequence timestampUs =>
    (aggregator.processFill symbol side quantity price sequence timestampUs).map Prod.snd
  | .tick symbol price timestampUs => some (aggregator.processTick symbol price timestampUs)
  | .orderPlaced symbol => some (aggregator.processOrderPlaced symbol)
  | .orderCancelled symbol => some (aggregator.processOrderCancelled symbol)
  | .clear => some aggregator.clear

/-- The sum of a quantity over all positions. -/
def total (quantity : Position → Int) (positions : List Position) : Int :=
  (positions.map quantity).sum

/-- The fast counters, the positions and the metrics agree, in whichever order the map yields
the positions. -/
structure Agrees (aggregator : PositionAggregator) : Prop where
  realized : aggregator.getFastRealizedPnl =
    total Position.realizedPnlMicros (getAllPositions aggregator)
  count : aggregator.getFastPositionCount =
    (getAllPositions aggregator).countP fun position => !position.isFlat
  metrics : ∀ positions timestampUs metrics, positions.Perm (getAllPositions aggregator) →
    calculateMetrics positions timestampUs = some metrics →
      metrics.totalRealizedPnlMicros = aggregator.getFastRealizedPnl ∧
      metrics.positionCount = aggregator.getFastPositionCount ∧
      metrics.totalPnlMicros =
        total (fun position => position.totalPnlMicros.getD 0) (getAllPositions aggregator)

/-- No total overflows: the realized amounts add up to a machine word, the metrics can be
computed, and so can the total of each position. -/
def Fits (aggregator : PositionAggregator) : Prop :=
  let realized := total Position.realizedPnlMicros (getAllPositions aggregator)
  (i64Min ≤ realized ∧ realized ≤ i64Max) ∧
    (calculateMetrics (getAllPositions aggregator) 0).isSome ∧
    ∀ position ∈ getAllPositions aggregator, position.totalPnlMicros.isSome

instance (aggregator : PositionAggregator) : Decidable (Fits aggregator) :=
  inferInstanceAs (Decidable ((_ ∧ _) ∧ _ ∧ _))

/-- What the flat positions realized adds up to nothing. -/
def FlatRealizedNothing (aggregator : PositionAggregator) : Prop :=
  total Position.realizedPnlMicros
    ((getAllPositions aggregator).filter fun position => position.isFlat) = 0

instance (aggregator : PositionAggregator) : Decidable (FlatRealizedNothing aggregator) :=
  inferInstanceAs (Decidable (_ = _))

/-! ## Sums over positions -/

section Sums

variable {positions : List Position} {position : Position}

@[simp] theorem total_nil (quantity : Position → Int) : total quantity [] = 0 := rfl

@[simp] theorem total_cons (quantity : Position → Int) (position : Position)
    (rest : List Position) :
    total quantity (position :: rest) = quantity position + total quantity rest :=
  List.sum_cons

theorem total_perm {others : List Position} (quantity : Position → Int)
    (perm : positions.Perm others) : total quantity positions = total quantity others :=
  (perm.map quantity).sum_eq

theorem total_split (quantity : Position → Int) (positions : List Position) :
    total quantity positions =
      total (fun position => if position.isFlat then 0 else quantity position) positions +
        total quantity (positions.filter fun position => position.isFlat) := by
  induction positions with
  | nil => rfl
  | cons position rest ih =>
    by_cases flat : position.isFlat = true
    · rw [List.filter_cons_of_pos flat]
      simp [flat, ih]
      ring
    · rw [List.filter_cons_of_neg flat]
      simp [flat, ih]
      ring

theorem count_open (positions : List Position) :
    ((positions.countP fun position => !position.isFlat : Nat) : Int) =
      total (fun position => if position.isFlat then 0 else 1) positions := by
  induction positions with
  | nil => rfl
  | cons position rest ih =>
    rw [List.countP_cons, total_cons, ← ih]
    cases position.isFlat <;> simp [Int.add_comm]

theorem total_add (first second : Position → Int) (positions : List Position) :
    total (fun position => first position + second position) positions =
      total first positions + total second positions := by
  induction positions with
  | nil => rfl
  | cons position rest ih =>
    simp only [total_cons, ih]
    ring

theorem total_congr {first second : Position → Int}
    (same : ∀ position ∈ positions, first position = second position) :
    total first positions = total second positions :=
  congrArg List.sum (List.map_congr_left same)

end Sums

/-! ## What the metrics compute -/

section Metrics

variable {metrics next : PortfolioMetrics} {positions : List Position} {position : Position}

theorem unrealized_flat (flat : position.isFlat = true) :
    position.unrealizedPnlMicros = some 0 := by
  unfold Position.unrealizedPnlMicros
  exact if_pos (.inl (of_decide_eq_true flat))

theorem addOpen_ok (added : metrics.addOpen position = some next) :
    next.totalRealizedPnlMicros = metrics.totalRealizedPnlMicros + position.realizedPnlMicros ∧
      next.totalUnrealizedPnlMicros =
        metrics.totalUnrealizedPnlMicros + position.unrealizedPnlMicros.getD 0 ∧
      next.positionCount = metrics.positionCount + 1 := by
  simp only [PortfolioMetrics.addOpen, Option.bind_eq_bind, Option.bind_eq_some_iff] at added
  obtain ⟨unrealized, marked, _, unrealizedFits, _, realizedFits, _, _, _, _, same⟩ := added
  cases Option.some.inj same
  rw [marked, ← (i64_eq_some.mp unrealizedFits).2, ← (i64_eq_some.mp realizedFits).2]
  exact ⟨rfl, rfl, rfl⟩

theorem add_ok (added : metrics.add position = some next) :
    next.totalRealizedPnlMicros = metrics.totalRealizedPnlMicros +
        (if position.isFlat then 0 else position.realizedPnlMicros) ∧
      next.totalUnrealizedPnlMicros =
        metrics.totalUnrealizedPnlMicros + position.unrealizedPnlMicros.getD 0 ∧
      next.positionCount = metrics.positionCount + (if position.isFlat then 0 else 1) := by
  obtain ⟨counted, adds, orders⟩ := Option.map_eq_some_iff.mp added
  -- The count of symbols with orders is all that the second half changes.
  have amounts : next.totalRealizedPnlMicros = counted.totalRealizedPnlMicros ∧
      next.totalUnrealizedPnlMicros = counted.totalUnrealizedPnlMicros ∧
      next.positionCount = counted.positionCount := by
    rw [← orders]
    split <;> exact ⟨rfl, rfl, rfl⟩
  rw [amounts.1, amounts.2.1, amounts.2.2]
  by_cases flat : position.isFlat = true
  · rw [if_pos flat] at adds
    cases adds
    simp [flat, unrealized_flat flat]
  · rw [if_neg flat] at adds
    rw [if_neg flat, if_neg flat]
    exact addOpen_ok adds

/-- The loop adds up what the open positions realized, what all have unrealized, and how many
are open. -/
theorem foldlM_add_ok (computed : positions.foldlM PortfolioMetrics.add metrics = some next) :
    next.totalRealizedPnlMicros = metrics.totalRealizedPnlMicros +
        total (fun position => if position.isFlat then 0 else position.realizedPnlMicros)
          positions ∧
      next.totalUnrealizedPnlMicros = metrics.totalUnrealizedPnlMicros +
        total (fun position => position.unrealizedPnlMicros.getD 0) positions ∧
      next.positionCount =
        metrics.positionCount + positions.countP fun position => !position.isFlat := by
  induction positions generalizing metrics with
  | nil =>
    cases computed
    simp
  | cons position rest ih =>
    rw [List.foldlM_cons] at computed
    obtain ⟨added, adds, later⟩ := Option.bind_eq_some_iff.mp computed
    obtain ⟨realized, unrealized, count⟩ := ih later
    obtain ⟨first, second, third⟩ := add_ok adds
    rw [realized, unrealized, count, first, second, third, total_cons, total_cons,
      List.countP_cons]
    refine ⟨by ring, by ring, ?_⟩
    cases position.isFlat <;> simp
    omega

theorem calculateMetrics_ok {timestampUs : Nat}
    (computed : calculateMetrics positions timestampUs = some metrics) :
    let realized :=
      total (fun position => if position.isFlat then 0 else position.realizedPnlMicros) positions
    metrics.totalRealizedPnlMicros = realized ∧
      metrics.positionCount = (positions.countP fun position => !position.isFlat) ∧
      metrics.totalPnlMicros =
        realized + total (fun position => position.unrealizedPnlMicros.getD 0) positions := by
  simp only [calculateMetrics, Option.bind_eq_bind, Option.bind_eq_some_iff] at computed
  obtain ⟨summed, sums, amount, fits, same⟩ := computed
  obtain ⟨realized, unrealized, count⟩ := foldlM_add_ok sums
  cases Option.some.inj same
  have exact_ := (i64_eq_some.mp fits).2
  refine ⟨realized.trans (Int.zero_add _), count.trans (Nat.zero_add _), ?_⟩
  show amount = _
  rw [← exact_, realized, unrealized]
  simp [PortfolioMetrics.new]

theorem totalPnl_getD (fits : position.totalPnlMicros.isSome) :
    position.totalPnlMicros.getD 0 =
      position.realizedPnlMicros + position.unrealizedPnlMicros.getD 0 := by
  obtain ⟨amount, found⟩ := Option.isSome_iff_exists.mp fits
  have parts := found
  simp only [Position.totalPnlMicros, Option.bind_eq_bind, Option.bind_eq_some_iff] at parts
  obtain ⟨unrealized, marked, sum⟩ := parts
  rw [found, marked]
  exact (i64_eq_some.mp sum).2.symm

end Metrics

/-! ## Positions by symbol -/

section Aggregator

variable {aggregator next : PositionAggregator} {symbol : String}

theorem entries_perm {positions : AList fun _ : String => Position} {position : Position}
    (found : positions.lookup symbol = some position) :
    positions.entries.Perm (⟨symbol, position⟩ :: positions.entries.kerase symbol) := by
  have tracked : symbol ∈ positions.entries.keys :=
    List.mem_keys_of_mem (AList.mem_lookup_iff.mp found)
  obtain ⟨other, before, after, _, parts, erased⟩ := List.exists_of_kerase tracked
  have member : (⟨symbol, other⟩ : Sigma fun _ : String => Position) ∈ positions.entries := by
    rw [parts]
    exact List.mem_append_right _ List.mem_cons_self
  have same : other = position :=
    Option.some.inj ((AList.mem_lookup_iff.mpr member).symm.trans found)
  rw [erased, parts, same]
  exact List.perm_middle

theorem total_insert {positions : AList fun _ : String => Position} (quantity : Position → Int)
    (nothing : quantity (.new symbol) = 0) (position : Position) :
    total quantity ((positions.insert symbol position).entries.map fun entry => entry.2) =
      total quantity (positions.entries.map fun entry => entry.2) -
        quantity ((positions.lookup symbol).getD (.new symbol)) + quantity position := by
  rw [AList.entries_insert, List.map_cons, total_cons]
  cases found : positions.lookup symbol with
  | none =>
    have absent : symbol ∉ positions.entries.keys := AList.lookup_eq_none.mp found
    rw [List.kerase_of_notMem_keys absent, Option.getD_none, nothing]
    ring
  | some old =>
    rw [total_perm quantity ((entries_perm found).map _), List.map_cons, total_cons,
      Option.getD_some]
    ring

/-- The shadows tell what the positions realized, as a machine word, and how many are open. -/
structure Shadowed (aggregator : PositionAggregator) : Prop where
  realized : aggregator.atomicRealizedPnl =
    castI64 (total Position.realizedPnlMicros (getAllPositions aggregator))
  count : aggregator.atomicPositionCount =
    (getAllPositions aggregator).countP fun position => !position.isFlat

theorem shadowed_insert (shadowed : Shadowed aggregator) {position : Position}
    (realized : position.realizedPnlMicros = (aggregator.positionOf symbol).realizedPnlMicros)
    (flat : position.isFlat = (aggregator.positionOf symbol).isFlat)
    (positions : next.positions = aggregator.positions.insert symbol position)
    (pnl : next.atomicRealizedPnl = aggregator.atomicRealizedPnl)
    (count : next.atomicPositionCount = aggregator.atomicPositionCount) : Shadowed next := by
  have sums (quantity : Position → Int) (nothing : quantity (.new symbol) = 0)
      (same : quantity position = quantity (aggregator.positionOf symbol)) :
      total quantity (getAllPositions next) = total quantity (getAllPositions aggregator) := by
    have replaced := @total_insert symbol aggregator.positions quantity nothing position
    unfold getAllPositions
    rw [positions, replaced, same]
    exact Int.sub_add_cancel _ _
  constructor
  · rw [pnl, sums _ rfl realized, shadowed.realized]
  · apply Int.ofNat.inj
    have opens := sums (fun position => if position.isFlat then 0 else 1) rfl (by rw [flat])
    show ((_ : Nat) : Int) = ((_ : Nat) : Int)
    rw [count, shadowed.count, count_open, count_open, opens]

theorem shadowed_modify (shadowed : Shadowed aggregator) (symbol : String)
    {change : Position → Position}
    (realized : ∀ position, (change position).realizedPnlMicros = position.realizedPnlMicros)
    (quantity : ∀ position, (change position).quantity = position.quantity) :
    Shadowed (aggregator.modify symbol change) := by
  unfold PositionAggregator.modify
  cases found : aggregator.positions.lookup symbol with
  | none => exact shadowed
  | some position =>
    have here : aggregator.positionOf symbol = position := by
      unfold positionOf getPosition
      rw [found, Option.getD_some]
    apply @shadowed_insert aggregator _ symbol shadowed (change position)
    · rw [here, realized]
    · unfold Position.isFlat
      rw [here, quantity]
    · rfl
    · rfl
    · rfl

theorem openPositions_eq (positions : AList fun _ : String => Position) :
    openPositions positions =
      (positions.entries.map fun entry => entry.2).countP fun position => !position.isFlat := by
  unfold openPositions
  rw [List.countP_map, List.countP_eq_length_filter]
  rfl

theorem shadowed_fill (shadowed : Shadowed aggregator) {side : String}
    {quantity price sequence timestampUs : Nat} {result : Except AggregatorError Unit}
    (filled : aggregator.processFill symbol side quantity price sequence timestampUs =
      some (result, next)) : Shadowed next := by
  cases result with
  | error refusal =>
    obtain ⟨positions, pnl, count, _⟩ := processFill_refused filled
    rcases positions with ⟨same, _⟩ | ⟨entered, _⟩
    ·
      have kept : getAllPositions next = getAllPositions aggregator := by
        unfold getAllPositions
        rw [same]
      exact ⟨by rw [pnl, kept, shadowed.realized], by rw [count, kept, shadowed.count]⟩
    · exact shadowed_insert shadowed rfl rfl entered pnl count
  | ok _ =>
    obtain ⟨_, realizedPnl, moved, _, _, _, positions, pnl, count⟩ := processFill_ok filled
    have sum := @total_insert symbol aggregator.positions Position.realizedPnlMicros rfl
    constructor
    · show next.atomicRealizedPnl = castI64 (total _ (next.positions.entries.map _))
      rw [pnl, shadowed.realized, positions, sum]
      unfold castI64
      rw [Int.bmod_add_bmod]
      congr 1
      unfold positionOf getPosition getAllPositions
      ring
    · rw [count, openPositions_eq]
      rfl

/-- Every call keeps the shadows in step. -/
theorem shadowed_step (shadowed : Shadowed aggregator) {call : AggregatorCall}
    (taken : step aggregator call = some next) : Shadowed next := by
  cases call with
  | fill symbol side quantity price sequence timestampUs =>
    obtain ⟨outcome, filled, rfl⟩ := Option.map_eq_some_iff.mp taken
    exact shadowed_fill shadowed filled
  | tick symbol price timestampUs =>
    cases taken
    exact shadowed_modify shadowed symbol (fun _ => rfl) fun _ => rfl
  | orderPlaced symbol =>
    cases taken
    exact shadowed_modify shadowed symbol (fun _ => rfl) fun _ => rfl
  | orderCancelled symbol =>
    cases taken
    exact shadowed_modify shadowed symbol (fun _ => rfl) fun _ => rfl
  | clear =>
    cases taken
    exact ⟨rfl, rfl⟩

theorem agrees_iff (shadowed : Shadowed aggregator) (fits : Fits aggregator) :
    Agrees aggregator ↔ FlatRealizedNothing aggregator := by
  let all := getAllPositions aggregator
  have realized : aggregator.getFastRealizedPnl = total Position.realizedPnlMicros all :=
    shadowed.realized.trans (castI64_of_fits fits.1.1 fits.1.2)
  have split := total_split Position.realizedPnlMicros all
  constructor
  · intro agrees
    obtain ⟨metrics, computed⟩ := Option.isSome_iff_exists.mp fits.2.1
    have same := (agrees.metrics all 0 metrics (.refl _) computed).1
    rw [(calculateMetrics_ok computed).1, realized, split] at same
    exact left_eq_add.mp same
  · intro nothing
    have open_ : total Position.realizedPnlMicros all =
        total (fun position => if position.isFlat then 0 else position.realizedPnlMicros) all := by
      unfold FlatRealizedNothing at nothing
      rw [split, nothing, add_zero]
    refine ⟨realized, shadowed.count, fun positions timestampUs metrics perm computed => ?_⟩
    obtain ⟨summed, count, pnl⟩ := calculateMetrics_ok computed
    rw [summed, count, pnl, total_perm _ perm, total_perm _ perm, ← open_]
    refine ⟨realized.symm, (perm.countP_eq _).trans shadowed.count.symm, ?_⟩
    rw [← total_add]
    exact total_congr fun position member => (totalPnl_getD (fits.2.2 position member)).symm

end Aggregator

/-- Along every run of calls on a new aggregator in which no total overflows, the fast counters,
the metrics and the positions agree in every state if and only if in every state the flat
positions realized nothing together. -/
theorem totals_agree (calls : List AggregatorCall)
    (fits : Always step Fits PositionAggregator.new calls) :
    Always step Agrees PositionAggregator.new calls ↔
      Always step FlatRealizedNothing PositionAggregator.new calls := by
  apply always_congr
  · exact fun _ _ _ shadowed taken => shadowed_step shadowed taken
  · exact fun _ shadowed fits => agrees_iff shadowed fits
  · exact ⟨rfl, rfl⟩
  · exact fits

/-- A position that is opened, marked and reduced without profit keeps the totals in agreement. -/
theorem totals_agree_reduced :
    Always step Fits PositionAggregator.new
        [.fill "BTC/USDT" "buy" 2 100 1 1, .orderPlaced "BTC/USDT", .tick "BTC/USDT" 105 2,
          .fill "BTC/USDT" "hold" 1 105 3 3, .fill "BTC/USDT" "sell" 1 110 4 4] ∧
      Always step Agrees PositionAggregator.new
        [.fill "BTC/USDT" "buy" 2 100 1 1, .orderPlaced "BTC/USDT", .tick "BTC/USDT" 105 2,
          .fill "BTC/USDT" "hold" 1 105 3 3, .fill "BTC/USDT" "sell" 1 110 4 4] :=
  ⟨by decide +kernel, (totals_agree _ (by decide +kernel)).mpr (by decide +kernel)⟩

/-- A position bought at 100 and sold at 110 is flat with a profit of 10, which the fast counter
tells and the metrics do not. -/
theorem closed_profit_missing :
    Always step Fits PositionAggregator.new
        [.fill "BTC/USDT" "buy" 1 100 1 1, .fill "BTC/USDT" "sell" 1 110 2 2] ∧
      ¬Always step Agrees PositionAggregator.new
        [.fill "BTC/USDT" "buy" 1 100 1 1, .fill "BTC/USDT" "sell" 1 110 2 2] := by
  refine ⟨by decide +kernel, fun always => ?_⟩
  have closed := (always.2 _ rfl).2 _ rfl
  have told := (closed.metrics _ 0 _ (.refl _) rfl).1
  exact absurd told (by decide +kernel)

end TradingBot.PortfolioTotals
