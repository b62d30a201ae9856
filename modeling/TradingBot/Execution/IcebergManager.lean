import Mathlib.Algebra.Order.Field.Rat
import TradingBot.Foundation.Dict

/-!
# The iceberg manager

`iceberg_manager.py`: orders of which a part is visible, refreshed as they are filled and pulled
when there is a threat. Amounts are exact, and what is read from the clock is an argument. Of a
sweep, of which the volumes are not followed here, the threat is kept that its detection leaves.
-/

namespace TradingBot.Execution

/-- `OrderSide` of an iceberg. -/
inductive IcebergSide where
  | buy
  | sell
  deriving DecidableEq, Repr

/-- `IcebergOrder`. -/
structure IcebergOrder where
  orderId : String
  side : IcebergSide
  totalQuantity : ℚ
  visibleQuantity : ℚ
  filledQuantity : ℚ
  price : ℚ
  venue : String
  createdAtNs : Int
  lastRefreshNs : Int
  isActive : Bool
  detectionRiskScore : ℚ
  deriving DecidableEq, Repr

/-- `IcebergManager`, with what its orders and their visible quantities depend on. -/
structure IcebergManager where
  defaultVisiblePct : ℚ
  minVisibleQuantity : ℚ
  maxVisibleQuantity : ℚ
  icebergOrders : Dict String IcebergOrder
  threatDetected : Bool
  lastThreatTimeNs : Int

namespace IcebergManager

/-- `__init__`. -/
def new (defaultVisiblePct minVisibleQuantity maxVisibleQuantity : ℚ) : IcebergManager where
  defaultVisiblePct := defaultVisiblePct
  minVisibleQuantity := minVisibleQuantity
  maxVisibleQuantity := maxVisibleQuantity
  icebergOrders := .empty
  threatDetected := false
  lastThreatTimeNs := 0

/-- The manager that `__init__` makes without arguments. -/
def default : IcebergManager := new (1 / 10) 100 10000

/-- A manager with an order as it is now. -/
def setOrder (manager : IcebergManager) (orderId : String) (order : IcebergOrder) :
    IcebergManager :=
  { manager with icebergOrders := manager.icebergOrders.put orderId order }

/-- A quantity to be shown, between the least and the largest visible one. -/
def clampVisible (manager : IcebergManager) (quantity : ℚ) : ℚ :=
  max manager.minVisibleQuantity (min manager.maxVisibleQuantity quantity)

/-- The percentage that is shown of a new order: one that is not given, or zero, is the default. -/
def visiblePctOr (manager : IcebergManager) : Option ℚ → ℚ
  | none => manager.defaultVisiblePct
  | some visiblePct => if visiblePct = 0 then manager.defaultVisiblePct else visiblePct

def createIcebergOrder (manager : IcebergManager) (orderId : String) (side : IcebergSide)
    (totalQuantity price : ℚ) (venue : String) (visiblePct : Option ℚ)
    (createdAtNs lastRefreshNs : Int) : IcebergOrder × IcebergManager :=
  let order : IcebergOrder := {
    orderId := orderId
    side := side
    totalQuantity := totalQuantity
    visibleQuantity := manager.clampVisible (totalQuantity * manager.visiblePctOr visiblePct)
    filledQuantity := 0
    price := price
    venue := venue
    createdAtNs := createdAtNs
    lastRefreshNs := lastRefreshNs
    isActive := true
    detectionRiskScore := 0 }
  (order, manager.setOrder orderId order)

def updateDetectionRisk (order : IcebergOrder) (nowNs : Int) : IcebergOrder :=
  let elapsedMs : ℚ := ((nowNs - order.createdAtNs : Int) : ℚ) / 1000000
  let fillRate : ℚ :=
    if 0 < order.totalQuantity then order.filledQuantity / order.totalQuantity else 0
  let timeRisk := min 1 (elapsedMs / 60000)
  let fillPatternRisk := fillRate * (1 / 2)
  { order with detectionRiskScore := (timeRisk + fillPatternRisk) / 2 }

/-- An order after a fill. -/
def fillOrder (order : IcebergOrder) (fillQuantity : ℚ) (refreshNs riskNs : Int) : IcebergOrder :=
  let filled := order.filledQuantity + fillQuantity
  if order.totalQuantity ≤ filled then
    { order with filledQuantity := filled, isActive := false }
  else
    let remaining := order.totalQuantity - filled
    updateDetectionRisk
      { order with
        filledQuantity := filled
        visibleQuantity :=
          if remaining < order.visibleQuantity then remaining else order.visibleQuantity
        lastRefreshNs := refreshNs } riskNs

def recordFill (manager : IcebergManager) (orderId : String) (fillQuantity : ℚ)
    (refreshNs riskNs : Int) : Option IcebergOrder × IcebergManager :=
  match manager.icebergOrders.get orderId with
  | none => (none, manager)
  | some order =>
    let filled := fillOrder order fillQuantity refreshNs riskNs
    (some filled, manager.setOrder orderId filled)

/-- The visible quantity that is aimed at, of what remains of an order. -/
def visibleTarget (manager : IcebergManager) (order : IcebergOrder) (remaining : ℚ) :
    Option ℚ → ℚ
  | some newVisiblePct => manager.clampVisible (remaining * newVisiblePct)
  | none =>
    if manager.threatDetected then
      max manager.minVisibleQuantity (remaining * (manager.defaultVisiblePct * (1 / 2)))
    else if 7 / 10 < order.detectionRiskScore then
      max manager.minVisibleQuantity (remaining * (manager.defaultVisiblePct * (7 / 10)))
    else order.visibleQuantity

def adjustVisibleQuantity (manager : IcebergManager) (orderId : String)
    (newVisiblePct : Option ℚ) (refreshNs : Int) : Option ℚ × IcebergManager :=
  match manager.icebergOrders.get orderId with
  | none => (none, manager)
  | some order =>
    let remaining := order.totalQuantity - order.filledQuantity
    let visible := min (manager.visibleTarget order remaining newVisiblePct) remaining
    (some visible, manager.setOrder orderId
      { order with visibleQuantity := visible, lastRefreshNs := refreshNs })

/-- The orders that are pulled, and the orders after that. -/
def pull (manager : IcebergManager) (pulled : IcebergOrder → Bool) :
    List String × Dict String IcebergOrder :=
  ((manager.icebergOrders.entries.filter fun entry => entry.2.isActive && pulled entry.2).map
      Prod.fst,
    manager.icebergOrders.mapValues fun order =>
      if order.isActive && pulled order then { order with isActive := false } else order)

def pullAllIcebergs (manager : IcebergManager) (nowNs : Int) : List String × IcebergManager :=
  let (pulledOrders, icebergOrders) := manager.pull fun _ => true
  (pulledOrders,
    { manager with icebergOrders, threatDetected := true, lastThreatTimeNs := nowNs })

def pullIcebergForVenue (manager : IcebergManager) (venue : String) :
    List String × IcebergManager :=
  let (pulledOrders, icebergOrders) := manager.pull fun order => order.venue = venue
  (pulledOrders, { manager with icebergOrders })

/-- What `detect_liquidity_sweep` leaves of a sweep that it detects. -/
def noteSweep (manager : IcebergManager) (timestampNs : Int) : IcebergManager :=
  { manager with threatDetected := true, lastThreatTimeNs := timestampNs }

def isThreatDetected (manager : IcebergManager) (nowNs : Int) : Bool × IcebergManager :=
  if !manager.threatDetected then (false, manager)
  else
    let elapsedMs : ℚ := ((nowNs - manager.lastThreatTimeNs : Int) : ℚ) / 1000000
    if 5000 < elapsedMs then (false, { manager with threatDetected := false })
    else (true, manager)

variable {manager : IcebergManager} {quantity : ℚ}

theorem clampVisible_pos : 0 < manager.clampVisible quantity ↔
    0 < manager.minVisibleQuantity ∨ 0 < manager.maxVisibleQuantity ∧ 0 < quantity := by
  unfold clampVisible
  rw [lt_max_iff, lt_min_iff]

theorem clampVisible_le {bound : ℚ} : manager.clampVisible quantity ≤ bound ↔
    manager.minVisibleQuantity ≤ bound ∧
      (manager.maxVisibleQuantity ≤ bound ∨ quantity ≤ bound) := by
  unfold clampVisible
  rw [max_le_iff, min_le_iff]

variable {orderId : String}

theorem recordFill_missing (missing : manager.icebergOrders.get orderId = none) (fillQuantity : ℚ)
    (refreshNs riskNs : Int) :
    manager.recordFill orderId fillQuantity refreshNs riskNs = (none, manager) := by
  unfold recordFill
  rw [missing]

theorem recordFill_found {order : IcebergOrder}
    (found : manager.icebergOrders.get orderId = some order) (fillQuantity : ℚ)
    (refreshNs riskNs : Int) : (manager.recordFill orderId fillQuantity refreshNs riskNs).2 =
      manager.setOrder orderId (fillOrder order fillQuantity refreshNs riskNs) := by
  unfold recordFill
  rw [found]

theorem adjustVisibleQuantity_missing (missing : manager.icebergOrders.get orderId = none)
    (newVisiblePct : Option ℚ) (refreshNs : Int) :
    manager.adjustVisibleQuantity orderId newVisiblePct refreshNs = (none, manager) := by
  unfold adjustVisibleQuantity
  rw [missing]

theorem adjustVisibleQuantity_found {order : IcebergOrder}
    (found : manager.icebergOrders.get orderId = some order) (newVisiblePct : Option ℚ)
    (refreshNs : Int) : (manager.adjustVisibleQuantity orderId newVisiblePct refreshNs).2 =
      manager.setOrder orderId
        { order with
          visibleQuantity := min (manager.visibleTarget order
            (order.totalQuantity - order.filledQuantity) newVisiblePct)
            (order.totalQuantity - order.filledQuantity)
          lastRefreshNs := refreshNs } := by
  unfold adjustVisibleQuantity
  rw [found]

theorem icebergOrders_isThreatDetected (nowNs : Int) :
    (manager.isThreatDetected nowNs).2.icebergOrders = manager.icebergOrders := by
  unfold isThreatDetected
  dsimp only
  split
  · rfl
  · split <;> rfl

theorem fillOrder_frame (order : IcebergOrder) (fillQuantity : ℚ) (refreshNs riskNs : Int) :
    (fillOrder order fillQuantity refreshNs riskNs).totalQuantity = order.totalQuantity ∧
      (fillOrder order fillQuantity refreshNs riskNs).filledQuantity =
        order.filledQuantity + fillQuantity ∧
      ((fillOrder order fillQuantity refreshNs riskNs).isActive = true ↔
        order.isActive = true ∧ order.filledQuantity + fillQuantity < order.totalQuantity) := by
  unfold fillOrder
  dsimp only
  split
  next complete =>
    have notBelow : ¬ order.filledQuantity + fillQuantity < order.totalQuantity :=
      not_lt.mpr complete
    exact ⟨rfl, rfl, fun active => (nomatch active), fun open_ => absurd open_.2 notBelow⟩
  next part =>
    have below := not_le.mp part
    exact ⟨rfl, rfl, fun active => ⟨active, below⟩, fun open_ => open_.1⟩

theorem pull_get (manager : IcebergManager) (pulled : IcebergOrder → Bool) {order : IcebergOrder}
    (found : (manager.pull pulled).2.get orderId = some order) :
    ∃ old, manager.icebergOrders.get orderId = some old ∧
      (order.isActive = true → order = old ∧ old.isActive = true ∧ pulled old = false) := by
  have mapped := (Dict.get_mapValues manager.icebergOrders _ orderId).symm.trans found
  obtain ⟨old, there, same⟩ := Option.map_eq_some_iff.mp mapped
  refine ⟨old, there, fun active => ?_⟩
  split at same
  next both =>
    rw [← same] at active
    cases active
  next kept =>
    rw [← same] at active ⊢
    refine ⟨rfl, active, ?_⟩
    cases taken : pulled old with
    | false => rfl
    | true => exact absurd (by rw [active, taken]; rfl) kept

end IcebergManager

end TradingBot.Execution
