import Mathlib.Algebra.BigOperators.Group.List.Basic
import Mathlib.Tactic.Linarith
import TradingBot.Foundation.Run
import TradingBot.Portfolio.CapitalReserver

/-!
# Accounts of the reserve

A deployment leaves the reserve at once and is pending besides, and the next one takes what is
pending from the reserve a second time. A confirmation takes a thousand from what is pending,
whatever was deployed. The reserve itself balances, and keeps its floor.
-/

open Run

namespace TradingBot.Portfolio

namespace ReserveAccounts

/-- What is done with a manager. -/
inductive Call where
  | deployReserves (asset : String) (amount : ℚ)
  /-- A confirmation of the deployment of a number, the first one being zero. -/
  | confirmDeployment (deploymentId : Nat)
  | replenishReserves (amount : ℚ)

/-- An amount of a call is not negative. -/
def Call.Proper : Call → Prop
  | .deployReserves _ amount => 0 ≤ amount
  | .confirmDeployment _ => True
  | .replenishReserves amount => 0 ≤ amount

instance : DecidablePred Call.Proper
  | .deployReserves _ _ => inferInstanceAs (Decidable (_ ≤ _))
  | .confirmDeployment _ => inferInstanceAs (Decidable True)
  | .replenishReserves _ => inferInstanceAs (Decidable (_ ≤ _))

/-- A deployment that was made. -/
structure Deployment where
  amount : ℚ
  confirmed : Bool

/-- What of a deployment is not confirmed. -/
def Deployment.unconfirmed (deployment : Deployment) : ℚ :=
  if deployment.confirmed then 0 else deployment.amount

/-- A manager, the deployments that it made, and the sum of what it was replenished by. -/
structure Session where
  manager : CapitalReserveManager
  deployments : List Deployment
  replenished : ℚ

/-- A session of a new manager. -/
def Session.start (config : ReserveConfig) : Session := ⟨.new config, [], 0⟩

/-- The sum of what was deployed. -/
def Session.deployed (session : Session) : ℚ := (session.deployments.map Deployment.amount).sum

/-- The sum of what is deployed and not confirmed. -/
def Session.unconfirmed (session : Session) : ℚ :=
  (session.deployments.map Deployment.unconfirmed).sum

/-- The session after a call; only a deployment that is not confirmed is confirmed. -/
def step (session : Session) : Call → Option Session
  | .deployReserves asset amount =>
    let (result, manager) := session.manager.deployReserves asset amount
    some { session with
      manager
      deployments := session.deployments ++ [⟨result.deployedAmount, false⟩] }
  | .confirmDeployment deploymentId =>
    match session.deployments[deploymentId]? with
    | some ⟨amount, false⟩ => some
        { session with
          manager := session.manager.confirmDeployment deploymentId
          deployments := session.deployments.set deploymentId ⟨amount, true⟩ }
    | _ => none
  | .replenishReserves amount =>
    match session.manager.replenishReserves amount with
    | .ok manager => some
        { session with manager, replenished := session.replenished + amount }
    | .error _ => none

/-- A deployment is of what is asked for, within the limit of one deployment and what the reserve
has above its floor, and does not take the reserve below the floor; what is pending is what was
deployed and not confirmed; and what the reserve had and got is what it has and what was
deployed. -/
structure Good (initial : ℚ) (session : Session) (call : Call) (next : Session) : Prop where
  deploys : ∀ asset amount, call = .deployReserves asset amount →
    (session.manager.deployReserves asset amount).1.deployedAmount =
      min amount (min (max 0 (session.manager.reserveBalance - session.manager.minReserve))
        session.manager.maxSingle)
  floor : ∀ asset amount, call = .deployReserves asset amount →
    min session.manager.reserveBalance session.manager.minReserve ≤ next.manager.reserveBalance
  pending : next.manager.pendingDeployments = next.unconfirmed
  balance : initial + next.replenished = next.manager.reserveBalance + next.deployed

/-- A deployment comes when nothing is pending, or the reserve is at its floor, or within what is
left when the pending deployments are taken from it a second time; and a deployment that is
confirmed is of a thousand, or of all that is pending if that is less. -/
def InBounds (session : Session) : Call → Prop
  | .deployReserves _ amount =>
    session.manager.pendingDeployments = 0 ∨
      session.manager.reserveBalance ≤ session.manager.minReserve ∨
      min amount session.manager.maxSingle ≤ session.manager.maxDeployable
  | .confirmDeployment deploymentId =>
    ∃ deployment ∈ session.deployments[deploymentId]?, deployment.confirmed = false ∧
      deployment.amount = min 1000 (max 0 session.manager.pendingDeployments)
  | .replenishReserves _ => True

instance (session : Session) : DecidablePred (InBounds session)
  | .deployReserves _ _ => inferInstanceAs (Decidable (_ = _ ∨ _ ≤ _ ∨ _ ≤ _))
  | .confirmDeployment deploymentId => inferInstanceAs
      (Decidable (∃ deployment ∈ session.deployments[deploymentId]?, _ ∧ deployment.amount = _))
  | .replenishReserves _ => inferInstanceAs (Decidable True)

/-- The accounts of a manager are in order, and what is pending has the sign of the limit of one
deployment. -/
structure Sound (initial : ℚ) (session : Session) : Prop where
  total : 0 ≤ session.manager.totalValue
  positive : 0 ≤ session.manager.config.maxDeploymentPct → 0 ≤ session.manager.pendingDeployments
  pending : session.manager.pendingDeployments = session.unconfirmed
  balance : initial + session.replenished = session.manager.reserveBalance + session.deployed

/-! ## Amounts -/

section Amounts

variable {manager : CapitalReserveManager} {amount : ℚ}

theorem maxSingle_neg (total : 0 ≤ manager.totalValue)
    (negative : ¬ 0 ≤ manager.config.maxDeploymentPct) : manager.maxSingle ≤ 0 :=
  mul_nonpos_of_nonpos_of_nonneg (le_of_lt (not_le.mp negative)) total

theorem deployedAmount_eq (asset : String) :
    (manager.deployReserves asset amount).1.deployedAmount =
      min (min amount manager.maxSingle) manager.maxDeployable := by
  show min (min amount manager.maxDeployable) manager.maxSingle = _
  exact min_right_comm amount manager.maxDeployable manager.maxSingle

theorem maxDeployable_le (pending : 0 ≤ manager.pendingDeployments) :
    manager.maxDeployable ≤ max 0 (manager.reserveBalance - manager.minReserve) :=
  max_le_max (le_refl 0) (by linarith)

theorem maxDeployable_eq_iff (pending : 0 ≤ manager.pendingDeployments) :
    manager.maxDeployable = max 0 (manager.reserveBalance - manager.minReserve) ↔
      manager.pendingDeployments = 0 ∨ manager.reserveBalance ≤ manager.minReserve := by
  unfold CapitalReserveManager.maxDeployable
  by_cases above : manager.reserveBalance ≤ manager.minReserve
  · refine iff_of_true ?_ (.inr above)
    rw [max_eq_left (by linarith), max_eq_left (by linarith)]
  · have positive : 0 < manager.reserveBalance - manager.minReserve := by linarith
    rw [max_eq_right (le_of_lt positive), or_iff_left above]
    constructor
    · intro same
      obtain zero | left := max_choice (0 : ℚ)
        (manager.reserveBalance - manager.minReserve - manager.pendingDeployments)
      · rw [zero] at same
        exact absurd same positive.ne
      · rw [left] at same
        linarith
    · intro none_
      rw [none_, sub_zero, max_eq_right (le_of_lt positive)]

theorem deploys_iff (asset : String) (total : 0 ≤ manager.totalValue)
    (positive : 0 ≤ manager.config.maxDeploymentPct → 0 ≤ manager.pendingDeployments) :
    (manager.deployReserves asset amount).1.deployedAmount =
      min amount (min (max 0 (manager.reserveBalance - manager.minReserve)) manager.maxSingle) ↔
    manager.pendingDeployments = 0 ∨ manager.reserveBalance ≤ manager.minReserve ∨
      min amount manager.maxSingle ≤ manager.maxDeployable := by
  rw [deployedAmount_eq]
  have due : min amount (min (max 0 (manager.reserveBalance - manager.minReserve))
      manager.maxSingle) = min (min amount manager.maxSingle)
        (max 0 (manager.reserveBalance - manager.minReserve)) := by
    rw [min_comm (max 0 _) manager.maxSingle, min_assoc]
  rw [due]
  by_cases pct : 0 ≤ manager.config.maxDeploymentPct
  · have pending := positive pct
    have wider := maxDeployable_le pending
    rw [← or_assoc, ← maxDeployable_eq_iff pending]
    constructor
    · intro same
      refine or_iff_not_imp_right.mpr fun beyond => ?_
      have less := not_le.mp beyond
      rw [min_eq_right (le_of_lt less)] at same
      obtain asked | left := min_choice (min amount manager.maxSingle)
        (max 0 (manager.reserveBalance - manager.minReserve))
      · rw [asked] at same
        exact absurd same less.ne
      · exact same.trans left
    · rintro (same | within)
      · rw [same]
      · rw [min_eq_left within, min_eq_left (within.trans wider)]
  · have none_ : min amount manager.maxSingle ≤ 0 :=
      (min_le_right _ _).trans (maxSingle_neg total pct)
    have within : min amount manager.maxSingle ≤ manager.maxDeployable :=
      none_.trans (le_max_left _ _)
    refine iff_of_true ?_ (.inr (.inr within))
    rw [min_eq_left within, min_eq_left (none_.trans (le_max_left _ _))]

theorem floor_deploy (asset : String) (total : 0 ≤ manager.totalValue)
    (positive : 0 ≤ manager.config.maxDeploymentPct → 0 ≤ manager.pendingDeployments) :
    min manager.reserveBalance manager.minReserve ≤
      (manager.deployReserves asset amount).2.reserveBalance := by
  show _ ≤ manager.reserveBalance - (manager.deployReserves asset amount).1.deployedAmount
  rw [deployedAmount_eq]
  by_cases pct : 0 ≤ manager.config.maxDeploymentPct
  · have within : min (min amount manager.maxSingle) manager.maxDeployable ≤
        max 0 (manager.reserveBalance - manager.minReserve) :=
      (min_le_right _ _).trans (maxDeployable_le (positive pct))
    obtain zero | left := max_choice (0 : ℚ) (manager.reserveBalance - manager.minReserve)
    · rw [zero] at within
      have lower := min_le_left manager.reserveBalance manager.minReserve
      linarith
    · rw [left] at within
      have lower := min_le_right manager.reserveBalance manager.minReserve
      linarith
  · have none_ : min (min amount manager.maxSingle) manager.maxDeployable ≤ 0 :=
      ((min_le_left _ _).trans (min_le_right _ _)).trans (maxSingle_neg total pct)
    have lower := min_le_left manager.reserveBalance manager.minReserve
    linarith

theorem deployedAmount_nonneg (asset : String) (total : 0 ≤ manager.totalValue)
    (asked : 0 ≤ amount) (pct : 0 ≤ manager.config.maxDeploymentPct) :
    0 ≤ (manager.deployReserves asset amount).1.deployedAmount := by
  rw [deployedAmount_eq]
  exact le_min (le_min asked (mul_nonneg pct total)) (le_max_left _ _)

theorem confirm_iff (deploymentId : Nat) :
    (manager.confirmDeployment deploymentId).pendingDeployments =
        manager.pendingDeployments - amount ↔
      amount = min 1000 (max 0 manager.pendingDeployments) := by
  unfold CapitalReserveManager.confirmDeployment
  by_cases pending : 0 < manager.pendingDeployments
  · rw [if_pos pending, max_eq_right (le_of_lt pending)]
    dsimp only
    obtain whole | part := le_total manager.pendingDeployments 1000
    · rw [max_eq_left (by linarith), min_eq_right whole]
      constructor <;> intro same <;> linarith
    · rw [max_eq_right (by linarith), min_eq_left part]
      constructor <;> intro same <;> linarith
  · rw [if_neg pending, max_eq_left (not_lt.mp pending), min_eq_right (by norm_num)]
    constructor <;> intro same <;> linarith


theorem confirm_frame (manager : CapitalReserveManager) (deploymentId : Nat) :
    (manager.confirmDeployment deploymentId).totalValue = manager.totalValue ∧
      (manager.confirmDeployment deploymentId).config = manager.config ∧
      (manager.confirmDeployment deploymentId).reserveBalance = manager.reserveBalance ∧
      (0 ≤ manager.pendingDeployments →
        0 ≤ (manager.confirmDeployment deploymentId).pendingDeployments) := by
  unfold CapitalReserveManager.confirmDeployment
  split
  · exact ⟨rfl, rfl, rfl, fun _ => le_max_left _ _⟩
  · exact ⟨rfl, rfl, rfl, id⟩

end Amounts

/-! ## Steps -/

section Steps

variable {initial : ℚ} {session next : Session} {call : Call}

variable {deploymentId : Nat}

theorem sum_set_map {deployments : List Deployment} {old : Deployment}
    (found : deployments[deploymentId]? = some old) (new : Deployment) (weigh : Deployment → ℚ) :
    ((deployments.set deploymentId new).map weigh).sum + weigh old =
      (deployments.map weigh).sum + weigh new := by
  obtain ⟨inside, at_⟩ := List.getElem?_eq_some_iff.mp found
  have there : deploymentId < (deployments.map weigh).length := by
    rw [List.length_map]
    exact inside
  rw [List.map_set, List.sum_set', dif_pos there, List.getElem_map, at_]
  linarith

theorem unconfirmed_append (deployments : List Deployment) (amount : ℚ) :
    ((deployments ++ [(⟨amount, false⟩ : Deployment)]).map Deployment.unconfirmed).sum =
        (deployments.map Deployment.unconfirmed).sum + amount ∧
      ((deployments ++ [(⟨amount, false⟩ : Deployment)]).map Deployment.amount).sum =
        (deployments.map Deployment.amount).sum + amount := by
  simp [Deployment.unconfirmed]

theorem deploy_iff (sound : Sound initial session) (asset : String) {amount : ℚ}
    (asked : 0 ≤ amount) :
    ∃ next, step session (.deployReserves asset amount) = some next ∧
      (Good initial session (.deployReserves asset amount) next ↔
        InBounds session (.deployReserves asset amount)) ∧ Sound initial next := by
  let manager := session.manager
  let actual := (manager.deployReserves asset amount).1.deployedAmount
  obtain ⟨unconfirmed, deployed⟩ := unconfirmed_append session.deployments actual
  let next : Session := { session with
    manager := (manager.deployReserves asset amount).2
    deployments := session.deployments ++ [⟨actual, false⟩] }
  have unconfirmed : next.unconfirmed = session.unconfirmed + actual := unconfirmed
  have deployed : next.deployed = session.deployed + actual := deployed
  have pends : next.manager.pendingDeployments = manager.pendingDeployments + actual := rfl
  have leaves : next.manager.reserveBalance = manager.reserveBalance - actual := rfl
  have pendingBefore : manager.pendingDeployments = session.unconfirmed := sound.pending
  have balanceBefore : initial + session.replenished = manager.reserveBalance + session.deployed :=
    sound.balance
  have pending : next.manager.pendingDeployments = next.unconfirmed := by linarith
  have balance : initial + next.replenished = next.manager.reserveBalance + next.deployed := by
    have same : next.replenished = session.replenished := rfl
    linarith
  have exact_ := @deploys_iff manager amount asset sound.total sound.positive
  refine ⟨next, rfl, ⟨fun good => exact_.mp (good.deploys asset amount rfl), fun bound => ?_⟩, ?_⟩
  · refine ⟨?_, ?_, pending, balance⟩
    · rintro _ _ ⟨⟩
      exact exact_.mpr bound
    · rintro _ _ ⟨⟩
      exact floor_deploy asset sound.total sound.positive
  · refine ⟨sound.total, fun pct => ?_, pending, balance⟩
    have before := sound.positive pct
    have more := deployedAmount_nonneg asset sound.total asked pct
    exact add_nonneg before more

theorem found_of_confirmed (taken : step session (.confirmDeployment deploymentId) = some next) :
    ∃ amount, session.deployments[deploymentId]? = some ⟨amount, false⟩ := by
  unfold step at taken
  dsimp only at taken
  split at taken
  · next amount found => exact ⟨amount, found⟩
  · cases taken

section

variable (sound : Sound initial session)
include sound

theorem confirmed_iff {amount : ℚ}
    (found : session.deployments[deploymentId]? = some ⟨amount, false⟩) :
    ∃ next, step session (.confirmDeployment deploymentId) = some next ∧
      (Good initial session (.confirmDeployment deploymentId) next ↔
        amount = min 1000 (max 0 session.manager.pendingDeployments)) ∧
      (Good initial session (.confirmDeployment deploymentId) next → Sound initial next) := by
  let next : Session := { session with
    manager := session.manager.confirmDeployment deploymentId
    deployments := session.deployments.set deploymentId ⟨amount, true⟩ }
  have taken : step session (.confirmDeployment deploymentId) = some next := by
    unfold step
    dsimp only
    rw [found]
  obtain ⟨total, config, reserve, kept⟩ := confirm_frame session.manager deploymentId
  have unconfirmed : next.unconfirmed + amount = session.unconfirmed + 0 :=
    sum_set_map found ⟨amount, true⟩ Deployment.unconfirmed
  have deployed : next.deployed + amount = session.deployed + amount :=
    sum_set_map found ⟨amount, true⟩ Deployment.amount
  have before := sound.pending
  have balanceBefore := sound.balance
  have balance : initial + next.replenished = next.manager.reserveBalance + next.deployed := by
    have same : next.replenished = session.replenished := rfl
    have reserve_ : next.manager.reserveBalance = session.manager.reserveBalance := reserve
    linarith
  have pending : next.manager.pendingDeployments = next.unconfirmed ↔
      amount = min 1000 (max 0 session.manager.pendingDeployments) := by
    refine Iff.trans ?_ (confirm_iff deploymentId)
    show (session.manager.confirmDeployment deploymentId).pendingDeployments = _ ↔ _
    constructor <;> intro same <;> linarith
  refine ⟨next, taken, ⟨fun good => pending.mp good.pending, fun bound => ?_⟩, fun good => ?_⟩
  · exact ⟨fun _ _ other => (nomatch other), fun _ _ other => (nomatch other), pending.mpr bound,
      balance⟩
  · refine ⟨?_, fun pct => kept (sound.positive ?_), good.pending, good.balance⟩
    · exact total.symm ▸ sound.total
    · exact config ▸ pct

/-- A replenishment is taken and accounted for. -/
theorem replenish_step {amount : ℚ} (given_ : 0 ≤ amount) :
    ∃ next, step session (.replenishReserves amount) = some next ∧
      Good initial session (.replenishReserves amount) next ∧ Sound initial next := by
  let next : Session :=
    { session with
      manager := { session.manager with
        reserveBalance := session.manager.reserveBalance + amount
        totalValue := session.manager.totalValue + amount }
      replenished := session.replenished + amount }
  have taken : step session (.replenishReserves amount) = some next := by
    unfold step CapitalReserveManager.replenishReserves
    dsimp only
    rw [if_neg (not_lt.mpr given_)]
  have balance : initial + next.replenished = next.manager.reserveBalance + next.deployed := by
    have before := sound.balance
    show initial + (session.replenished + amount) =
      session.manager.reserveBalance + amount + session.deployed
    linarith
  have good : Good initial session (.replenishReserves amount) next :=
    ⟨fun _ _ other => (nomatch other), fun _ _ other => (nomatch other), sound.pending, balance⟩
  refine ⟨next, taken, good, ?_⟩
  exact ⟨add_nonneg sound.total given_, sound.positive, sound.pending, balance⟩

theorem good_iff (proper : call.Proper) :
    (∃ next, step session call = some next ∧ Good initial session call next) ↔
      InBounds session call := by
  cases call with
  | deployReserves asset amount =>
    obtain ⟨next, taken, exact_, -⟩ := deploy_iff sound asset proper
    rw [← exact_]
    constructor
    · rintro ⟨other, again, well⟩
      cases taken.symm.trans again
      exact well
    · exact fun well => ⟨next, taken, well⟩
  | confirmDeployment deploymentId =>
    constructor
    · rintro ⟨next, taken, well⟩
      obtain ⟨amount, found⟩ := found_of_confirmed taken
      obtain ⟨other, again, exact_, -⟩ := confirmed_iff sound found
      cases taken.symm.trans again
      exact ⟨_, Option.mem_def.mpr found, rfl, exact_.mp well⟩
    · rintro ⟨⟨amount, _⟩, found, rfl, bound⟩
      obtain ⟨next, taken, exact_, -⟩ := confirmed_iff sound (Option.mem_def.mp found)
      exact ⟨next, taken, exact_.mpr bound⟩
  | replenishReserves amount =>
    obtain ⟨next, taken, well, -⟩ := replenish_step sound proper
    exact iff_of_true ⟨next, taken, well⟩ trivial

theorem sound_step (proper : call.Proper) (taken : step session call = some next)
    (good : Good initial session call next) : Sound initial next := by
  cases call with
  | deployReserves asset amount =>
    obtain ⟨other, again, -, kept⟩ := deploy_iff sound asset proper
    cases taken.symm.trans again
    exact kept
  | confirmDeployment deploymentId =>
    obtain ⟨amount, found⟩ := found_of_confirmed taken
    obtain ⟨other, again, -, kept⟩ := confirmed_iff sound found
    cases taken.symm.trans again
    exact kept good
  | replenishReserves amount =>
    obtain ⟨other, again, -, kept⟩ := replenish_step sound proper
    cases taken.symm.trans again
    exact kept

end

theorem sound_start (config : ReserveConfig) :
    Sound (config.targetCalmReserve * 100000) (.start config) where
  total := by
    show (0 : ℚ) ≤ 100000
    norm_num
  positive := fun _ => le_refl _
  pending := rfl
  balance := rfl

/-- With any configuration, from a new manager on, every deployment is of what is asked for within
the limits, the reserve keeps its floor and balances, and what is pending is what was deployed and
not confirmed, precisely as long as every call is in bounds. -/
theorem reserve_accounts_iff (config : ReserveConfig) (calls : List Call)
    (proper : ∀ call ∈ calls, call.Proper) :
    Performs step (Good (config.targetCalmReserve * 100000)) (.start config) calls ↔
      Offered step InBounds (.start config) calls := by
  refine @performs_iff _ _ step
    (fun session rest => Sound (config.targetCalmReserve * 100000) session ∧
      ∀ call ∈ rest, call.Proper) _ InBounds ?_ ?_ _ _ ⟨sound_start config, proper⟩
  · exact fun session call rest holds => good_iff holds.1 (holds.2 call List.mem_cons_self)
  · exact fun session call rest next holds taken good =>
      ⟨sound_step holds.1 (holds.2 call List.mem_cons_self) taken good,
        fun later member => holds.2 later (List.mem_cons_of_mem call member)⟩

end Steps

/-- A thousand is deployed and confirmed, the reserve is replenished, and more than the limit of one
deployment is asked for. -/
def confirmedFirst : List Call :=
  [.deployReserves "BTC" 1000, .confirmDeployment 0, .replenishReserves 500,
    .deployReserves "ETH" 50000]

/-- Those calls keep the accounts. -/
theorem confirmedFirst_accounted :
    Performs step (Good (ReserveConfig.default.targetCalmReserve * 100000))
      (.start ReserveConfig.default) confirmedFirst :=
  (reserve_accounts_iff .default confirmedFirst (by decide +kernel)).mpr (by decide +kernel)

/-- A deployment of eight thousand from a reserve of twenty leaves two above the floor, and the next
one of two deploys nothing; and the confirmation of the first leaves seven thousand pending. -/
theorem pending_counted_twice :
    ¬ Performs step (Good (ReserveConfig.default.targetCalmReserve * 100000))
      (.start ReserveConfig.default) [.deployReserves "BTC" 8000, .deployReserves "ETH" 2000] ∧
    ¬ Performs step (Good (ReserveConfig.default.targetCalmReserve * 100000))
      (.start ReserveConfig.default) [.deployReserves "BTC" 8000, .confirmDeployment 0] := by
  constructor
  · rintro ⟨_, ⟨⟩, -, _, ⟨⟩, good, -⟩
    exact absurd (good.deploys _ _ rfl) (by decide +kernel)
  · rintro ⟨_, ⟨⟩, -, _, ⟨⟩, good, -⟩
    exact absurd good.pending (by decide +kernel)

end ReserveAccounts

end TradingBot.Portfolio
