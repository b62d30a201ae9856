import Mathlib.Algebra.Order.Field.Rat

/-!
# Capital reserve manager

`CapitalReserveManager`: a part of the portfolio is held in reserve, deployed on opportunities, and
replenished. Floats are rationals. The volatility, the market regime that follows from it, and the
record of opportunities are left out: no amount depends on them here.
-/

namespace TradingBot.Portfolio

/-- `ReserveConfig`, the fields that decide amounts. -/
structure ReserveConfig where
  minReservePct : ℚ
  targetCalmReserve : ℚ
  maxDeploymentPct : ℚ

/-- The defaults of `ReserveConfig`. -/
def ReserveConfig.default : ReserveConfig where
  minReservePct := 10 / 100
  targetCalmReserve := 20 / 100
  maxDeploymentPct := 15 / 100

/-- `ReserveState`, without the regime and the volatility. -/
structure ReserveState where
  totalPortfolioValue : ℚ
  reserveAmount : ℚ
  reservePct : ℚ
  investedAmount : ℚ
  availableForDeployment : ℚ
  pendingDeployments : ℚ

/-- `DeploymentResult`. -/
structure DeploymentResult where
  deployedAmount : ℚ
  remainingReserve : ℚ
  asset : String
  wasCapped : Bool
  capReason : Option String

/-- `CapitalReserveManager`. -/
structure CapitalReserveManager where
  config : ReserveConfig
  totalValue : ℚ
  reserveBalance : ℚ
  pendingDeployments : ℚ

namespace CapitalReserveManager

/-- `__init__`. -/
def new (config : ReserveConfig) : CapitalReserveManager where
  config := config
  totalValue := 100000
  reserveBalance := config.targetCalmReserve * 100000
  pendingDeployments := 0

def getState (manager : CapitalReserveManager) : ReserveState where
  totalPortfolioValue := manager.totalValue
  reserveAmount := manager.reserveBalance
  reservePct := if 0 < manager.totalValue then manager.reserveBalance / manager.totalValue else 0
  investedAmount := manager.totalValue - manager.reserveBalance
  availableForDeployment := max 0 (manager.reserveBalance - manager.pendingDeployments)
  pendingDeployments := manager.pendingDeployments

/-- `min_reserve` of `deploy_reserves`: the floor of the reserve. -/
def minReserve (manager : CapitalReserveManager) : ℚ :=
  manager.config.minReservePct * manager.totalValue

/-- `max_single`: the limit of one deployment. -/
def maxSingle (manager : CapitalReserveManager) : ℚ :=
  manager.config.maxDeploymentPct * manager.totalValue

/-- `max_deployable`: the pending deployments are taken from a balance that they have left. -/
def maxDeployable (manager : CapitalReserveManager) : ℚ :=
  max 0 (manager.reserveBalance - manager.minReserve - manager.pendingDeployments)

/-- `deploy_reserves`; the priority is only recorded. -/
def deployReserves (manager : CapitalReserveManager) (asset : String) (amount : ℚ) :
    DeploymentResult × CapitalReserveManager :=
  let actual := min (min amount manager.maxDeployable) manager.maxSingle
  let next : CapitalReserveManager :=
    { manager with
      pendingDeployments := manager.pendingDeployments + actual
      reserveBalance := manager.reserveBalance - actual }
  ({ deployedAmount := actual
     remainingReserve := next.reserveBalance
     asset := asset
     wasCapped := actual < amount
     capReason :=
       if actual < amount then
         if manager.maxDeployable ≤ actual then some "Minimum reserve floor reached"
         else if manager.maxSingle ≤ actual then some "Single deployment limit reached"
         else none
       else none }, next)

/-- `confirm_deployment`: whichever deployment is confirmed, the same amount is taken from the
pending ones. -/
def confirmDeployment (manager : CapitalReserveManager) (_deploymentId : Nat) :
    CapitalReserveManager :=
  if 0 < manager.pendingDeployments then
    { manager with pendingDeployments := max 0 (manager.pendingDeployments - 1000) }
  else manager

def replenishReserves (manager : CapitalReserveManager) (amount : ℚ) :
    Except String CapitalReserveManager :=
  if amount < 0 then .error "Replenishment amount must be positive"
  else .ok
    { manager with
      reserveBalance := manager.reserveBalance + amount
      totalValue := manager.totalValue + amount }

end CapitalReserveManager

end TradingBot.Portfolio
