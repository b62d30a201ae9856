import Mathlib.Algebra.Order.Ring.Rat
import Mathlib.Algebra.Order.Group.Abs
import TradingBot.Foundation.Dict

/-!
# The reconciliation engine

`reconciliation_engine.py`: the orders, positions and balances of the order management system
against those of the exchange. Orders are matched by identifier and balances by asset. The
positions of the exchange are never asked for, so that a check compares every position with none.
-/

namespace TradingBot.Reconciliation

/-- `ReconciliationStatus`: status of a reconciliation check. -/
inductive ReconciliationStatus where
  | matched
  | minorDrift
  | majorDrift
  | fatalDesync
  | unableToVerify
  deriving DecidableEq, Repr

/-- `DesyncType`: types of state desyncs. -/
inductive DesyncType where
  | missingOrder
  | extraOrder
  | stateMismatch
  | sizeMismatch
  | priceMismatch
  | positionMismatch
  | balanceMismatch

/-- The severity of a drift. -/
inductive Severity where
  | low
  | medium
  | high
  | critical
  deriving DecidableEq, Repr

/-- `OrderSnapshot`: snapshot of an order for comparison. -/
structure OrderSnapshot where
  orderId : String
  symbol : String
  /-- BUY or SELL. -/
  side : String
  /-- LIMIT, MARKET, etc. -/
  type : String
  size : ℚ
  filledSize : ℚ
  price : Option ℚ
  /-- NEW, FILLED, CANCELED, REJECTED, EXPIRED. -/
  status : String
  deriving DecidableEq

/-- `matches_state`: whether an order matches another in terms of key state. -/
def OrderSnapshot.matchesState (order other : OrderSnapshot) : Bool :=
  order.symbol = other.symbol ∧ order.side = other.side ∧ order.status = other.status ∧
    |order.size - other.size| < 1 / 10000 ∧ |order.filledSize - other.filledSize| < 1 / 10000

/-- `PositionSnapshot`: snapshot of a position for comparison. -/
structure PositionSnapshot where
  symbol : String
  /-- LONG, SHORT, or NONE. -/
  side : String
  size : ℚ
  entryPrice : ℚ
  unrealizedPnl : ℚ
  deriving DecidableEq

/-- `BalanceSnapshot`: snapshot of account balances. -/
structure BalanceSnapshot where
  asset : String
  free : ℚ
  locked : ℚ
  total : ℚ

/-- A value of a drift. -/
inductive DriftValue where
  /-- An order that is on one side only. -/
  | order (order : OrderSnapshot)
  /-- The status and the filled size of an order. -/
  | state (status : String) (filledSize : ℚ)
  /-- The size of a position or the total of a balance. -/
  | amount (value : ℚ)

/-- `DriftRecord`: record of a detected drift. -/
structure DriftRecord where
  desyncType : DesyncType
  severity : Severity
  omsValue : Option DriftValue
  exchangeValue : Option DriftValue
  resolved : Bool

/-- `ReconciliationResult`: result of a reconciliation check. -/
structure ReconciliationResult where
  status : ReconciliationStatus
  omsOrders : Nat
  exchangeOrders : Nat
  drifts : List DriftRecord

/-- `ReconciliationConfig`: what a check reads of the configuration. -/
structure ReconciliationConfig where
  minorDriftThreshold : Int
  majorDriftThreshold : Int
  maxDriftHistory : Int
  positionTolerance : ℚ
  balanceTolerance : ℚ

/-- `validate`: validate configuration parameters. -/
def ReconciliationConfig.validate (config : ReconciliationConfig) : Bool :=
  0 < config.minorDriftThreshold ∧ config.minorDriftThreshold ≤ config.majorDriftThreshold ∧
    0 < config.maxDriftHistory ∧ 0 < config.positionTolerance ∧ 0 < config.balanceTolerance

/-- The default configuration. -/
def ReconciliationConfig.default : ReconciliationConfig where
  minorDriftThreshold := 2
  majorDriftThreshold := 5
  maxDriftHistory := 1000
  positionTolerance := 1 / 1000
  balanceTolerance := 1 / 100

/-- `ExchangeAdapter`: what an exchange answers. -/
structure ExchangeAdapter where
  getOpenOrders : List OrderSnapshot
  getPosition : String → Option PositionSnapshot
  getBalances : List BalanceSnapshot

/-- `OmsStateProvider`: the state of the order management system. -/
structure OmsStateProvider where
  orders : Dict String OrderSnapshot
  positions : Dict String PositionSnapshot
  balances : Dict String BalanceSnapshot

/-- `ReconciliationEngine`: the engine with its valid configuration. -/
structure ReconciliationEngine where
  config : ReconciliationConfig
  valid : config.validate = true
  driftHistory : List DriftRecord
  totalChecks : Nat
  totalDrifts : Nat

/-! ## The checks -/

/-- The drift of an order that the exchange does not have. -/
def missingOrder (order : OrderSnapshot) : DriftRecord where
  desyncType := .missingOrder
  severity := .high
  omsValue := some (.order order)
  exchangeValue := none
  resolved := false

/-- The drift of an order that the order management system does not have. -/
def extraOrder (order : OrderSnapshot) : DriftRecord where
  desyncType := .extraOrder
  severity := .medium
  omsValue := none
  exchangeValue := some (.order order)
  resolved := false

/-- The drift of an order that is not in the same state on both sides. -/
def orderMismatch (oms exchange : OrderSnapshot) : DriftRecord where
  desyncType := .stateMismatch
  severity := .high
  omsValue := some (.state oms.status oms.filledSize)
  exchangeValue := some (.state exchange.status exchange.filledSize)
  resolved := false

/-- `_check_orders`: check for order state drifts. The common identifiers are a set in the source
and come in the order of the first side here. -/
def checkOrders (oms exchange : Dict String OrderSnapshot) : List DriftRecord :=
  (oms.entries.filterMap fun entry =>
    if (exchange.get entry.1).isNone then some (missingOrder entry.2) else none) ++
  (exchange.entries.filterMap fun entry =>
    if (oms.get entry.1).isNone then some (extraOrder entry.2) else none) ++
  oms.entries.filterMap fun entry =>
    (exchange.get entry.1).bind fun order =>
      if entry.2.matchesState order then none else some (orderMismatch entry.2 order)

/-- The amount at a key, which is zero where there is none. -/
def amountAt {ν : Type*} (amount : ν → ℚ) (dict : Dict String ν) (key : String) : ℚ :=
  ((dict.get key).map amount).getD 0

/-- The drifts of the amounts at the keys of either side, in the order of the first side. -/
def checkAmounts {ν : Type*} (amount : ν → ℚ) (desyncType : DesyncType) (severity : Severity)
    (tolerance : ℚ) (oms exchange : Dict String ν) : List DriftRecord :=
  (oms.unionKeys exchange).filterMap fun key =>
    if tolerance < |amountAt amount oms key - amountAt amount exchange key| then
      some {
        desyncType := desyncType
        severity := severity
        omsValue := some (.amount (amountAt amount oms key))
        exchangeValue := some (.amount (amountAt amount exchange key))
        resolved := false }
    else none

namespace ReconciliationEngine

variable (engine : ReconciliationEngine)

/-- `_check_positions`: check for position drifts. -/
def checkPositions : Dict String PositionSnapshot → Dict String PositionSnapshot →
    List DriftRecord :=
  checkAmounts PositionSnapshot.size .positionMismatch .critical engine.config.positionTolerance

/-- `_check_balances`: check for balance drifts. -/
def checkBalances : Dict String BalanceSnapshot → Dict String BalanceSnapshot →
    List DriftRecord :=
  checkAmounts BalanceSnapshot.total .balanceMismatch .high engine.config.balanceTolerance

/-- `_get_exchange_positions`: it asks for none. -/
def getExchangePositions (_exchange : ExchangeAdapter) : List PositionSnapshot := []

/-- `_determine_status`: overall reconciliation status based on drifts. -/
def determineStatus (drifts : List DriftRecord) : ReconciliationStatus :=
  if drifts = [] then .matched
  else
    let criticalCount := drifts.countP (·.severity = .critical)
    let highCount := drifts.countP (·.severity = .high)
    if 0 < criticalCount ∨ engine.config.majorDriftThreshold ≤ highCount then .fatalDesync
    else if 0 < highCount ∨ engine.config.majorDriftThreshold ≤ drifts.length then .majorDrift
    -- Both of the last branches of the source are a minor drift.
    else if engine.config.minorDriftThreshold ≤ drifts.length then .minorDrift
    else .minorDrift

/-- `_record_drift`: record a drift in history, of which the last ones are kept. -/
def recordDrift (drift : DriftRecord) : ReconciliationEngine :=
  let history := engine.driftHistory ++ [drift]
  { engine with
    driftHistory :=
      if engine.config.maxDriftHistory < history.length then
        history.drop (history.length - engine.config.maxDriftHistory.toNat)
      else history
    totalDrifts := engine.totalDrifts + 1 }

/-- The orders of an exchange by identifier. -/
def ordersOf (exchange : ExchangeAdapter) : Dict String OrderSnapshot :=
  .ofList (exchange.getOpenOrders.map fun order => (order.orderId, order))

/-- The balances of an exchange by asset. -/
def balancesOf (exchange : ExchangeAdapter) : Dict String BalanceSnapshot :=
  .ofList (exchange.getBalances.map fun balance => (balance.asset, balance))

/-- `reconcile`: perform a single reconciliation check. -/
def reconcile (oms : OmsStateProvider) (exchange : ExchangeAdapter) :
    ReconciliationResult × ReconciliationEngine :=
  let exchangeOrders := ordersOf exchange
  let exchangePositions :=
    Dict.ofList ((getExchangePositions exchange).map fun position => (position.symbol, position))
  let exchangeBalances := balancesOf exchange
  let drifts := checkOrders oms.orders exchangeOrders ++
    engine.checkPositions oms.positions exchangePositions ++
    engine.checkBalances oms.balances exchangeBalances
  ({
    status := engine.determineStatus drifts
    omsOrders := oms.orders.size
    exchangeOrders := exchangeOrders.size
    drifts := drifts },
    drifts.foldl recordDrift { engine with totalChecks := engine.totalChecks + 1 })

end ReconciliationEngine

/-! ## The same state -/

/-- Both sides have the same orders in the same state. -/
def OrdersSame (oms exchange : Dict String OrderSnapshot) : Prop :=
  ∀ orderId, match oms.get orderId, exchange.get orderId with
    | some order, some other => order.matchesState other = true
    | none, none => True
    | _, _ => False

/-- The signed size of a position. -/
def PositionSnapshot.signed (position : PositionSnapshot) : ℚ :=
  if position.side = "LONG" then position.size
  else if position.side = "SHORT" then -position.size
  else 0

/-- The signed position where there may be none. -/
def signedPosition (position : Option PositionSnapshot) : ℚ :=
  (position.map PositionSnapshot.signed).getD 0

/-- Both sides have the same signed position for each symbol. -/
def PositionsSame (tolerance : ℚ) (oms : OmsStateProvider) (exchange : ExchangeAdapter) : Prop :=
  ∀ symbol, |signedPosition (oms.positions.get symbol) -
    signedPosition (exchange.getPosition symbol)| ≤ tolerance

/-- Both sides have the same total for each asset. -/
def BalancesSame (tolerance : ℚ) (oms exchange : Dict String BalanceSnapshot) : Prop :=
  ∀ asset, |amountAt BalanceSnapshot.total oms asset -
    amountAt BalanceSnapshot.total exchange asset| ≤ tolerance

/-- Both sides are in the same state. -/
structure SameState (config : ReconciliationConfig) (oms : OmsStateProvider)
    (exchange : ExchangeAdapter) : Prop where
  orders : OrdersSame oms.orders (ReconciliationEngine.ordersOf exchange)
  positions : PositionsSame config.positionTolerance oms exchange
  balances : BalancesSame config.balanceTolerance oms.balances
    (ReconciliationEngine.balancesOf exchange)

/-- No position of the order management system is above the tolerance. -/
def PositionsSmall (tolerance : ℚ) (oms : OmsStateProvider) : Prop :=
  ∀ symbol position, oms.positions.get symbol = some position → |position.size| ≤ tolerance

/-! ## Soundness and completeness -/

section Checks

variable {oms exchange : Dict String OrderSnapshot}

theorem checkOrders_eq_nil : checkOrders oms exchange = [] ↔ OrdersSame oms exchange := by
  unfold checkOrders
  rw [List.append_eq_nil_iff, List.append_eq_nil_iff, List.filterMap_eq_nil_iff,
    List.filterMap_eq_nil_iff, List.filterMap_eq_nil_iff]
  constructor
  · rintro ⟨⟨missing, extra⟩, mismatch⟩ orderId
    cases here : oms.get orderId with
    | none =>
      cases there : exchange.get orderId with
      | none => trivial
      | some other =>
        have record := extra _ (Dict.get_eq_some.mp there)
        rw [here] at record
        cases record
    | some order =>
      have member := Dict.get_eq_some.mp here
      cases there : exchange.get orderId with
      | none =>
        have record := missing _ member
        rw [there] at record
        cases record
      | some other =>
        have record := mismatch _ member
        rw [there, Option.bind_some] at record
        show order.matchesState other = true
        by_contra differs
        rw [if_neg differs] at record
        cases record
  · intro same
    refine ⟨⟨?_, ?_⟩, ?_⟩
    · intro entry member
      have agree := same entry.1
      rw [Dict.get_eq_some.mpr member] at agree
      cases there : exchange.get entry.1 with
      | none =>
        rw [there] at agree
        exact agree.elim
      | some other => rfl
    · intro entry member
      have agree := same entry.1
      rw [Dict.get_eq_some.mpr member] at agree
      cases here : oms.get entry.1 with
      | none =>
        rw [here] at agree
        exact agree.elim
      | some order => rfl
    · intro entry member
      have agree := same entry.1
      rw [Dict.get_eq_some.mpr member] at agree
      cases there : exchange.get entry.1 with
      | none => rfl
      | some other =>
        rw [there] at agree
        rw [Option.bind_some, if_pos agree]

theorem checkAmounts_eq_nil {ν : Type*} {amount : ν → ℚ} {desyncType : DesyncType}
    {severity : Severity} {tolerance : ℚ} {oms exchange : Dict String ν}
    (nonneg : 0 ≤ tolerance) :
    checkAmounts amount desyncType severity tolerance oms exchange = [] ↔
      ∀ key, |amountAt amount oms key - amountAt amount exchange key| ≤ tolerance := by
  unfold checkAmounts
  rw [List.filterMap_eq_nil_iff]
  constructor
  · intro none key
    by_cases there : key ∈ oms.unionKeys exchange
    · have record := none key there
      by_contra apart
      rw [if_pos (not_le.mp apart)] at record
      cases record
    · rw [Dict.mem_unionKeys, not_or] at there
      have left : oms.get key = .none :=
        Option.eq_none_iff_forall_ne_some.mpr fun value found => there.1 ⟨value, found⟩
      have right : exchange.get key = .none :=
        Option.eq_none_iff_forall_ne_some.mpr fun value found => there.2 ⟨value, found⟩
      unfold amountAt
      rw [left, right, sub_self, abs_zero]
      exact nonneg
  · intro within key _
    exact if_neg (not_lt.mpr (within key))

end Checks

section Engine

variable (engine : ReconciliationEngine) (oms : OmsStateProvider) (exchange : ExchangeAdapter)

theorem tolerances_pos : 0 < engine.config.positionTolerance ∧ 0 < engine.config.balanceTolerance :=
  (of_decide_eq_true engine.valid).2.2.2

theorem determineStatus_matched (drifts : List DriftRecord) :
    engine.determineStatus drifts = .matched ↔ drifts = [] := by
  unfold ReconciliationEngine.determineStatus
  constructor
  · intro matched
    by_contra some_
    rw [if_neg some_] at matched
    dsimp only at matched
    split_ifs at matched
  · exact fun none => if_pos none

theorem reconcile_matched :
    (engine.reconcile oms exchange).1.status = .matched ↔
      OrdersSame oms.orders (ReconciliationEngine.ordersOf exchange) ∧
      PositionsSmall engine.config.positionTolerance oms ∧
      BalancesSame engine.config.balanceTolerance oms.balances
        (ReconciliationEngine.balancesOf exchange) := by
  have tolerances := tolerances_pos engine
  have positions : engine.checkPositions oms.positions (Dict.ofList []) = [] ↔
      PositionsSmall engine.config.positionTolerance oms := by
    refine (checkAmounts_eq_nil (le_of_lt tolerances.1)).trans (forall_congr' fun symbol => ?_)
    have none : amountAt PositionSnapshot.size (Dict.ofList []) symbol = 0 := rfl
    rw [none, sub_zero]
    unfold amountAt
    cases oms.positions.get symbol with
    | none => exact ⟨fun _ => nofun, fun _ => by simpa using le_of_lt tolerances.1⟩
    | some position =>
      constructor
      · intro small other same
        cases same
        exact small
      · exact fun small => small position rfl
  show engine.determineStatus (_ ++ engine.checkPositions oms.positions (Dict.ofList []) ++ _) = _ ↔
    _
  rw [determineStatus_matched, List.append_eq_nil_iff, List.append_eq_nil_iff, checkOrders_eq_nil,
    positions, and_assoc]
  exact and_congr_right fun _ => and_congr_right fun _ =>
    checkAmounts_eq_nil (le_of_lt tolerances.2)

/-- A check is matched exactly for the same state if and only if the orders or the balances
differ, or the positions are the same exactly when those of the order management system are within
the tolerance. -/
theorem reconcile_exact_iff :
    ((engine.reconcile oms exchange).1.status = .matched ↔
      SameState engine.config oms exchange) ↔
    (¬OrdersSame oms.orders (ReconciliationEngine.ordersOf exchange) ∨
      ¬BalancesSame engine.config.balanceTolerance oms.balances
        (ReconciliationEngine.balancesOf exchange) ∨
      (PositionsSame engine.config.positionTolerance oms exchange ↔
        PositionsSmall engine.config.positionTolerance oms)) := by
  rw [reconcile_matched]
  by_cases orders : OrdersSame oms.orders (ReconciliationEngine.ordersOf exchange)
  · by_cases balances : BalancesSame engine.config.balanceTolerance oms.balances
        (ReconciliationEngine.balancesOf exchange)
    · constructor
      · intro exact_
        refine .inr (.inr ⟨fun same => ?_, fun small => ?_⟩)
        · exact (exact_.mpr ⟨orders, same, balances⟩).2.1
        · exact (exact_.mp ⟨orders, small, balances⟩).positions
      · intro condition
        have agree := (condition.resolve_left (not_not_intro orders)).resolve_left
          (not_not_intro balances)
        exact ⟨fun matched => ⟨orders, agree.mpr matched.2.1, balances⟩,
          fun same => ⟨orders, agree.mp same.positions, balances⟩⟩
    · exact iff_of_true ⟨fun matched => absurd matched.2.2 balances,
        fun same => absurd same.balances balances⟩ (.inr (.inl balances))
  · exact iff_of_true ⟨fun matched => absurd matched.1 orders,
      fun same => absurd same.orders orders⟩ (.inl orders)

end Engine

/-- A new engine with the default configuration. -/
def defaultEngine : ReconciliationEngine where
  config := .default
  valid := by decide +kernel
  driftHistory := []
  totalChecks := 0
  totalDrifts := 0

/-- A long position of one unit. -/
def longOne : PositionSnapshot where
  symbol := "BTCUSDT"
  side := "LONG"
  size := 1
  entryPrice := 50000
  unrealizedPnl := 0

/-- An order management system with one long position. -/
def longOms : OmsStateProvider where
  orders := .empty
  positions := Dict.empty.put "BTCUSDT" longOne
  balances := .empty

/-- An exchange with the same position. -/
def longExchange : ExchangeAdapter where
  getOpenOrders := []
  getPosition := longOms.positions.get
  getBalances := []

/-- Two identical states with a position are reported as drift. -/
theorem identical_states_drift :
    ¬∀ (engine : ReconciliationEngine) (oms : OmsStateProvider) (exchange : ExchangeAdapter),
      (engine.reconcile oms exchange).1.status = .matched ↔
        SameState engine.config oms exchange := by
  intro claim
  have same : SameState defaultEngine.config longOms longExchange := {
    orders := fun _ => trivial
    positions := by
      intro symbol
      show |signedPosition (longOms.positions.get symbol) - signedPosition _| ≤ 1 / 1000
      rw [show longExchange.getPosition symbol = longOms.positions.get symbol from rfl, sub_self]
      decide +kernel
    balances := by
      intro asset
      show |(0 : ℚ) - 0| ≤ 1 / 100
      decide +kernel }
  exact absurd ((claim defaultEngine longOms longExchange).mpr same) (by decide +kernel)

end TradingBot.Reconciliation
