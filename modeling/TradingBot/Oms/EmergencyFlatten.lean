import TradingBot.Oms.ReconciliationEngine

/-!
# The emergency flatten

What the engine does after a fatal desync: it flattens the positions and cancels the orders of the
symbols for which the order management system holds a position. A position or an order that the
exchange has for another symbol is left.
-/

namespace TradingBot.Reconciliation

/-! ## The exchange -/

/-- `MockExchangeAdapter`: an exchange that holds its orders, positions and balances. -/
structure MockExchangeAdapter where
  orders : Dict String OrderSnapshot
  positions : Dict String PositionSnapshot
  balances : Dict String BalanceSnapshot

/-- The snapshot of a flat position. -/
def flatSnapshot (symbol : String) : PositionSnapshot where
  symbol := symbol
  side := "NONE"
  size := 0
  entryPrice := 0
  unrealizedPnl := 0

namespace MockExchangeAdapter

variable (exchange : MockExchangeAdapter)

/-- `get_open_orders`: the open orders, of one symbol or of all. -/
def getOpenOrders (symbol : Option String) : List OrderSnapshot :=
  match symbol with
  | none => exchange.orders.values
  | some symbol => exchange.orders.values.filter fun order => order.symbol = symbol

/-- `get_position`: the position of a symbol. -/
def getPosition (symbol : String) : Option PositionSnapshot := exchange.positions.get symbol

/-- `flatten_position`: close a position; it returns whether there was one. -/
def flattenPosition (symbol : String) : Bool × MockExchangeAdapter :=
  if (exchange.positions.get symbol).isSome then
    (true, { exchange with positions := exchange.positions.put symbol (flatSnapshot symbol) })
  else (false, exchange)

/-- `cancel_all_orders`: cancel all open orders of a symbol; it returns whether there was one. -/
def cancelAllOrders (symbol : String) : Bool × MockExchangeAdapter :=
  let toRemove :=
    (exchange.orders.entries.filter fun entry => entry.2.symbol = symbol).map Prod.fst
  (0 < toRemove.length, { exchange with orders := exchange.orders.popAll toRemove })

end MockExchangeAdapter

/-- `update_position`: update the position in the state; a size of zero removes it. -/
def OmsStateProvider.updatePosition (oms : OmsStateProvider) (position : PositionSnapshot) :
    OmsStateProvider :=
  if position.size = 0 then { oms with positions := oms.positions.pop position.symbol }
  else { oms with positions := oms.positions.put position.symbol position }

/-! ## The handler -/

/-- An engine with what only the handler of a fatal desync reads and counts. -/
structure FlatteningEngine extends ReconciliationEngine where
  autoFlattenOnFatal : Bool
  flattensTriggered : Nat

/-- The order management system and its exchange. -/
structure Sides where
  oms : OmsStateProvider
  exchange : MockExchangeAdapter

/-- Both sides after the position of a symbol is flattened. -/
def Sides.flatten (sides : Sides) (symbol : String) : Sides :=
  let flattened := sides.exchange.flattenPosition symbol
  if flattened.1 then
    { oms := sides.oms.updatePosition (flatSnapshot symbol), exchange := flattened.2 }
  else { sides with exchange := flattened.2 }

/-- Both sides after the orders of a symbol are cancelled. -/
def Sides.cancel (sides : Sides) (symbol : String) : Sides :=
  { sides with exchange := (sides.exchange.cancelAllOrders symbol).2 }

/-- The drift that a fatal desync records. -/
def fatalDrift : DriftRecord where
  desyncType := .stateMismatch
  severity := .critical
  omsValue := none
  exchangeValue := none
  resolved := false

/-- `_handle_fatal_desync`: flatten positions; it returns the action taken. -/
def FlatteningEngine.handleFatalDesync (engine : FlatteningEngine) (sides : Sides) :
    Option String × FlatteningEngine × Sides :=
  if engine.autoFlattenOnFatal = false then (none, engine, sides)
  else
    let symbols := sides.oms.positions.keys
    let flattened := symbols.foldl Sides.flatten sides
    (some s!"Flattened {symbols.length} positions and cancelled all orders",
      { engine with
        toReconciliationEngine := engine.recordDrift fatalDrift
        flattensTriggered := engine.flattensTriggered + 1 },
      symbols.foldl Sides.cancel flattened)

/-- Both sides after the handler. -/
def FlatteningEngine.afterFatalDesync (engine : FlatteningEngine) (sides : Sides) : Sides :=
  (engine.handleFatalDesync sides).2.2

/-- Nothing is left: no open order of a symbol that had one on either side, every position of the
exchange is flat, and the order management system holds no position that is flat there. -/
structure NothingLeft (before after : Sides) : Prop where
  orders : ∀ symbol, (∃ order ∈ before.oms.orders.values, order.symbol = symbol) ∨
    before.exchange.getOpenOrders (some symbol) ≠ [] →
      after.exchange.getOpenOrders (some symbol) = []
  positions : ∀ symbol position, after.exchange.getPosition symbol = some position →
    position.size = 0
  oms : ∀ symbol position, after.exchange.getPosition symbol = some position →
    position.size = 0 → after.oms.positions.get symbol = none

/-- The order management system holds a position for every symbol for which the exchange has an
order or a position that is not flat. -/
structure HeldByOms (sides : Sides) : Prop where
  orders : ∀ order ∈ sides.exchange.getOpenOrders none, order.symbol ∈ sides.oms.positions.keys
  positions : ∀ symbol position, sides.exchange.getPosition symbol = some position →
    position.size ≠ 0 → symbol ∈ sides.oms.positions.keys

/-! ## What the loops do -/

section Loops

variable (sides : Sides) (symbol : String)

theorem exchange_flatten (other : String) :
    (sides.flatten symbol).exchange.positions.get other =
      if other = symbol then (sides.exchange.positions.get other).map fun _ => flatSnapshot symbol
      else sides.exchange.positions.get other := by
  unfold Sides.flatten MockExchangeAdapter.flattenPosition
  cases there : sides.exchange.positions.get symbol with
  | none =>
    by_cases same : other = symbol
    · simp [same, there]
    · simp [same]
  | some position =>
    by_cases same : other = symbol
    · simp [same, there, Dict.get_put]
    · simp [same, Dict.get_put]

theorem oms_flatten (other : String) :
    (sides.flatten symbol).oms.positions.get other =
      if other = symbol ∧ (sides.exchange.positions.get other).isSome then none
      else sides.oms.positions.get other := by
  unfold Sides.flatten MockExchangeAdapter.flattenPosition OmsStateProvider.updatePosition
  cases there : sides.exchange.positions.get symbol with
  | none =>
    by_cases same : other = symbol
    · simp [same, there]
    · simp [same]
  | some position =>
    by_cases same : other = symbol
    · simp [same, there, Dict.get_pop, flatSnapshot]
    · simp [same, Dict.get_pop, flatSnapshot]

theorem orders_flatten : (sides.flatten symbol).exchange.orders = sides.exchange.orders := by
  unfold Sides.flatten MockExchangeAdapter.flattenPosition
  split <;> rfl

theorem orders_cancel (orderId : String) :
    (sides.cancel symbol).exchange.orders.get orderId =
      (sides.exchange.orders.get orderId).filter fun order => order.symbol ≠ symbol := by
  have listed : ∀ order, sides.exchange.orders.get orderId = some order →
      (orderId ∈ ((sides.exchange.orders.entries.filter fun entry =>
        entry.2.symbol = symbol).map Prod.fst) ↔ order.symbol = symbol) := by
    intro order there
    constructor
    · intro member
      obtain ⟨entry, kept, rfl⟩ := List.mem_map.mp member
      obtain ⟨among, same⟩ := List.mem_filter.mp kept
      cases there.symm.trans (Dict.get_eq_some.mpr among)
      exact of_decide_eq_true same
    · intro same
      refine List.mem_map.mpr ⟨(orderId, order), List.mem_filter.mpr ⟨?_, ?_⟩, rfl⟩
      · exact Dict.get_eq_some.mp there
      · exact decide_eq_true same
  show (sides.exchange.orders.popAll _).get orderId = _
  rw [Dict.get_popAll]
  cases there : sides.exchange.orders.get orderId with
  | none => exact ite_self none
  | some order =>
    by_cases same : order.symbol = symbol
    · rw [if_pos ((listed order there).mpr same), Option.filter_some, if_neg (by simp [same])]
    · rw [if_neg (mt (listed order there).mp same), Option.filter_some, if_pos (by simp [same])]

variable (symbols : List String)

theorem exchange_flattenAll (other : String) :
    (symbols.foldl Sides.flatten sides).exchange.positions.get other =
      if other ∈ symbols then (sides.exchange.positions.get other).map fun _ => flatSnapshot other
      else sides.exchange.positions.get other := by
  induction symbols generalizing sides with
  | nil => rfl
  | cons symbol rest ih =>
    rw [List.foldl_cons, ih, exchange_flatten]
    by_cases here : other = symbol
    · cases here
      rw [if_pos rfl, if_pos List.mem_cons_self]
      split
      · rw [Option.map_map]
        rfl
      · rfl
    · rw [if_neg here]
      by_cases later : other ∈ rest
      · rw [if_pos later, if_pos (List.mem_cons_of_mem symbol later)]
      · rw [if_neg later, if_neg (List.not_mem_cons_of_ne_of_not_mem here later)]

theorem oms_flattenAll (other : String) :
    (symbols.foldl Sides.flatten sides).oms.positions.get other =
      if other ∈ symbols ∧ (sides.exchange.positions.get other).isSome then none
      else sides.oms.positions.get other := by
  induction symbols generalizing sides with
  | nil => simp
  | cons symbol rest ih =>
    rw [List.foldl_cons, ih, exchange_flatten, oms_flatten]
    by_cases here : other = symbol
    · cases here
      cases sides.exchange.positions.get other <;> simp
    · simp [here]

theorem orders_flattenAll :
    (symbols.foldl Sides.flatten sides).exchange.orders = sides.exchange.orders := by
  induction symbols generalizing sides with
  | nil => rfl
  | cons symbol rest ih => rw [List.foldl_cons, ih, orders_flatten]

theorem orders_cancelAll (orderId : String) :
    (symbols.foldl Sides.cancel sides).exchange.orders.get orderId =
      (sides.exchange.orders.get orderId).filter fun order => order.symbol ∉ symbols := by
  induction symbols generalizing sides with
  | nil => cases there : sides.exchange.orders.get orderId <;> simp [Option.filter_some, there]
  | cons symbol rest ih =>
    rw [List.foldl_cons, ih, orders_cancel, Option.filter_filter]
    congr 1
    funext order
    simp

theorem positions_cancelAll :
    (symbols.foldl Sides.cancel sides).exchange.positions = sides.exchange.positions ∧
      (symbols.foldl Sides.cancel sides).oms = sides.oms := by
  induction symbols generalizing sides with
  | nil => exact ⟨rfl, rfl⟩
  | cons symbol rest ih => exact ih (sides.cancel symbol)

end Loops

/-! ## What the handler leaves -/

theorem getOpenOrders_eq_nil (exchange : MockExchangeAdapter) (symbol : String) :
    exchange.getOpenOrders (some symbol) = [] ↔
      ∀ order ∈ exchange.getOpenOrders none, order.symbol ≠ symbol := by
  unfold MockExchangeAdapter.getOpenOrders
  simp [List.filter_eq_nil_iff]

section Handler

variable {engine : FlatteningEngine} (auto : engine.autoFlattenOnFatal = true) (sides : Sides)

include auto

theorem afterFatalDesync_eq :
    engine.afterFatalDesync sides =
      sides.oms.positions.keys.foldl Sides.cancel
        (sides.oms.positions.keys.foldl Sides.flatten sides) := by
  unfold FlatteningEngine.afterFatalDesync FlatteningEngine.handleFatalDesync
  rw [if_neg (by rw [auto]; decide)]

theorem mem_openOrders_after (order : OrderSnapshot) :
    order ∈ (engine.afterFatalDesync sides).exchange.getOpenOrders none ↔
      order ∈ sides.exchange.getOpenOrders none ∧
        order.symbol ∉ sides.oms.positions.keys := by
  unfold MockExchangeAdapter.getOpenOrders
  simp only [Dict.mem_values, afterFatalDesync_eq auto, orders_cancelAll, orders_flattenAll,
    Option.filter_eq_some_iff, decide_eq_true_eq]
  exact exists_and_right

theorem getPosition_after (symbol : String) :
    (engine.afterFatalDesync sides).exchange.getPosition symbol =
      if symbol ∈ sides.oms.positions.keys then
        (sides.exchange.getPosition symbol).map fun _ => flatSnapshot symbol
      else sides.exchange.getPosition symbol := by
  unfold MockExchangeAdapter.getPosition
  rw [afterFatalDesync_eq auto, (positions_cancelAll _ _).1, exchange_flattenAll]

theorem omsPosition_after (symbol : String) :
    (engine.afterFatalDesync sides).oms.positions.get symbol =
      if (sides.exchange.getPosition symbol).isSome then none
      else sides.oms.positions.get symbol := by
  rw [afterFatalDesync_eq auto, (positions_cancelAll _ _).2, oms_flattenAll]
  unfold MockExchangeAdapter.getPosition
  by_cases held : symbol ∈ sides.oms.positions.keys
  · simp only [held, true_and]
  · have absent : sides.oms.positions.get symbol = none :=
      Option.eq_none_iff_forall_ne_some.mpr fun position there =>
        held (Dict.mem_keys.mpr ⟨position, there⟩)
    simp only [held, false_and, absent, ite_self]

/-- After a fatal desync nothing is left if and only if the order management system holds a position
for every symbol for which the exchange has an order or a position that is not flat. -/
theorem nothingLeft_iff :
    NothingLeft sides (engine.afterFatalDesync sides) ↔ HeldByOms sides := by
  constructor
  · intro nothing
    constructor
    · intro order there
      by_contra missing
      have gone := nothing.orders order.symbol (.inr fun empty =>
        (getOpenOrders_eq_nil _ _).mp empty order there rfl)
      have left := (mem_openOrders_after auto sides order).mpr ⟨there, missing⟩
      exact (getOpenOrders_eq_nil _ _).mp gone order left rfl
    · intro symbol position there open_
      by_contra missing
      have left := getPosition_after auto sides symbol
      rw [if_neg missing, there] at left
      exact open_ (nothing.positions symbol position left)
  · intro held
    constructor
    · intro symbol _
      refine (getOpenOrders_eq_nil _ _).mpr fun order left => ?_
      obtain ⟨there, missing⟩ := (mem_openOrders_after auto sides order).mp left
      exact absurd (held.orders order there) missing
    · intro symbol position left
      rw [getPosition_after auto] at left
      split at left
      · obtain ⟨before, _, rfl⟩ := Option.map_eq_some_iff.mp left
        rfl
      · next missing =>
        by_contra open_
        exact missing (held.positions symbol position left open_)
    · intro symbol position left _
      rw [getPosition_after auto] at left
      have there : (sides.exchange.getPosition symbol).isSome = true := by
        split at left
        · obtain ⟨before, there, _⟩ := Option.map_eq_some_iff.mp left
          rw [there]
          rfl
        · rw [left]
          rfl
      rw [omsPosition_after auto, if_pos there]

end Handler

/-- A new engine that flattens. -/
def flatteningEngine : FlatteningEngine where
  toReconciliationEngine := defaultEngine
  autoFlattenOnFatal := true
  flattensTriggered := 0

/-- An order to take the profit of the long position. -/
def takeProfit : OrderSnapshot where
  orderId := "7"
  symbol := "BTCUSDT"
  side := "SELL"
  type := "LIMIT"
  size := 1
  filledSize := 0
  price := some 60000
  status := "NEW"

/-- The same long position on both sides, with an open order on the exchange. -/
def longSides : Sides where
  oms := longOms
  exchange :=
    { orders := Dict.empty.put "7" takeProfit, positions := longOms.positions, balances := .empty }

/-- A position that both sides hold is flattened, its order is cancelled, and nothing is left. -/
theorem nothingLeft_longSides :
    longSides.exchange.getOpenOrders (some "BTCUSDT") = [takeProfit] ∧
      NothingLeft longSides (flatteningEngine.afterFatalDesync longSides) := by
  refine ⟨by decide +kernel, (@nothingLeft_iff flatteningEngine rfl longSides).mpr ⟨?_, ?_⟩⟩
  · decide +kernel
  · exact fun symbol position there _ => Dict.mem_keys.mpr ⟨position, there⟩

/-- A position that only the exchange holds. -/
def strandedSides : Sides where
  oms := { orders := .empty, positions := .empty, balances := .empty }
  exchange := { orders := .empty, positions := longOms.positions, balances := .empty }

/-- A position that only the exchange holds is left open. -/
theorem position_left :
    ¬∀ (engine : FlatteningEngine) (sides : Sides), engine.autoFlattenOnFatal = true →
      NothingLeft sides (engine.afterFatalDesync sides) := by
  intro claim
  have nothing := claim flatteningEngine strandedSides rfl
  have flat : (1 : ℚ) = 0 := nothing.positions "BTCUSDT" longOne (by decide +kernel)
  exact absurd flat (by decide +kernel)

end TradingBot.Reconciliation
