import Mathlib.Tactic.Positivity
import TradingBot.Arbitrage.InventoryManager

/-!
# What a rebalance does to the delta

Every order takes its share of the whole delta from a position, and not of what the orders before it
have left: up to half of the position, or all that is above its risk limit. So the orders bring the
delta closer to zero exactly if the rounded shares of the positions that the loop comes to do not
add up to more than it.
-/

namespace TradingBot.Arbitrage

namespace DeltaRebalance

open InventoryManager

/-- An exchange that fills every order at the current price of its position. -/
def fillsAtMarket (positions : Dict String Position) (order : RebalanceOrder) : OrderResult :=
  match positions.get order.symbol with
  | some position => .filled position.currentPrice
  | none => .unfilled

/-- A trade of a positive quantity that a position has, in the direction that shrinks it. -/
def Reduces (positions : Dict String Position) (symbol : String) (side : RebalanceSide)
    (quantity : ℚ) : Prop :=
  ∃ position, positions.get symbol = some position ∧ 0 < quantity ∧
    quantity ≤ |position.quantity| ∧
    match side with
    | .sell => 0 < position.quantity
    | .buy => position.quantity < 0

/-- The delta after all orders are executed completely at the current prices. -/
def deltaAfter (clock : Nat → Nat) (manager : InventoryManager) : ℚ :=
  (manager.executeRebalance clock (fillsAtMarket manager.positions)
    false).2.calculatePortfolioDelta

/-- Every order reduces its position, and together they leave a delta that is not larger and not on
the other side. -/
structure Rebalanced (clock : Nat → Nat) (manager : InventoryManager) : Prop where
  reduces : ∀ order ∈ (manager.calculateRebalanceOrders clock).1,
    Reduces manager.positions order.symbol order.side order.quantity
  smaller : |deltaAfter clock manager| ≤ |manager.calculatePortfolioDelta|
  sameSide : 0 ≤ manager.calculatePortfolioDelta * deltaAfter clock manager

/-- A position is left out of a rebalance: it is not on the side of the delta, worth more than
twenty times the delta, or gives less than 100. -/
def LeftOut (delta : ℚ) (position : Position) : Prop :=
  delta * position.quantity ≤ 0 ∨ 20 * |delta| < |position.marketValue| ∨
    min |delta| (|position.marketValue| / 2) < 100

instance (delta : ℚ) (position : Position) : Decidable (LeftOut delta position) :=
  inferInstanceAs (Decidable (_ ∨ _ ∨ _))

/-- The share of a position in a delta, if it is not left out: as much as the delta, up to half of
the position, but all that is above the risk limit. A short position that does not keep its limit
with the share added to it gives only what is above the limit, if there is any. -/
def shareOf (delta riskLimit : ℚ) (position : Position) : ℚ :=
  let value := |position.marketValue|
  let part := min |delta| (value / 2)
  if LeftOut delta position then 0
  else if 0 < position.quantity then max part (value - riskLimit)
  else if value + part ≤ riskLimit then part
  else max 0 (value - riskLimit)

/-- The first elements of a list, as long as 100 or more are left of a number after their
weights. -/
def takenFrom {α : Type} (weight : α → ℚ) : ℚ → List α → List α
  | _, [] => []
  | left, entry :: rest =>
    if |left| < 100 then [] else entry :: takenFrom weight (left - weight entry) rest

/-- The share of a position of a manager. -/
def shareIn (riskLimits : Dict String ℚ) (delta : ℚ) (entry : String × Position) : ℚ :=
  shareOf delta ((riskLimits.get entry.1).getD 100000) entry.2

/-- The positions with a share in the delta, those with the largest market value first, as long as
100 or more are left of it. -/
def sharing (manager : InventoryManager) : List (String × Position) :=
  let delta := manager.calculatePortfolioDelta
  let share := shareIn manager.riskLimits delta
  takenFrom share |delta|
    (manager.sortedPositions.filter fun entry => entry.1 ≠ "USDT" ∧ 0 < share entry)

/-- The value of a share in whole ten-thousandths of the quantity. -/
def roundedShare (share price : ℚ) : ℚ := (⌊share / price * 10000⌋ : ℚ) / 10000 * price

/-- The values of the rounded shares together. -/
def sharedOut (manager : InventoryManager) : ℚ :=
  ((sharing manager).map fun entry =>
    roundedShare (shareIn manager.riskLimits manager.calculatePortfolioDelta entry)
      entry.2.currentPrice).sum

/-- No share is worth less than a ten-thousandth of the quantity, and the rounded ones do not add up
to more than the delta. -/
def Restrained (manager : InventoryManager) : Prop :=
  (∀ entry ∈ sharing manager, entry.2.currentPrice ≤
    10000 * shareIn manager.riskLimits manager.calculatePortfolioDelta entry) ∧
    sharedOut manager ≤ |manager.calculatePortfolioDelta|

/-! ## Shares -/

section Shares

variable {delta riskLimit : ℚ} {position : Position}

theorem reduction_value (price : 0 < position.currentPrice) (quantity : position.quantity ≠ 0) :
    |position.quantity| * min (|delta| / |position.marketValue|) (1 / 2) *
      position.currentPrice = min |delta| (|position.marketValue| / 2) := by
  have value : |position.marketValue| = |position.quantity| * position.currentPrice := by
    unfold Position.marketValue
    rw [abs_mul, abs_of_pos price]
  have positive : 0 < |position.marketValue| := by
    rw [value]
    exact mul_pos (abs_pos.mpr quantity) price
  calc |position.quantity| * min (|delta| / |position.marketValue|) (1 / 2) *
        position.currentPrice
      = |position.marketValue| * min (|delta| / |position.marketValue|) (1 / 2) := by
        rw [value]
        ring
    _ = min (|position.marketValue| * (|delta| / |position.marketValue|))
          (|position.marketValue| * (1 / 2)) := mul_min_of_nonneg _ _ positive.le
    _ = min |delta| (|position.marketValue| / 2) := by
        rw [mul_div_cancel₀ _ positive.ne', mul_one_div]

theorem shareOf_out (out : LeftOut delta position) : shareOf delta riskLimit position = 0 :=
  if_pos out

/-- The share of a position that is not left out is what the risk limit and its part of the delta
make of it, if that is positive. -/
theorem shareOf_in (kept : ¬LeftOut delta position) :
    shareOf delta riskLimit position =
      max 0 (if 0 < position.quantity then
          max (min |delta| (|position.marketValue| / 2)) (|position.marketValue| - riskLimit)
        else if |position.marketValue| + min |delta| (|position.marketValue| / 2) ≤ riskLimit then
          min |delta| (|position.marketValue| / 2)
        else |position.marketValue| - riskLimit) := by
  have large : 0 ≤ min |delta| (|position.marketValue| / 2) :=
    le_min (abs_nonneg _) (div_nonneg (abs_nonneg _) zero_le_two)
  refine (if_neg kept).trans ?_
  split
  · exact (max_eq_right (large.trans (le_max_left _ _))).symm
  · split
    · exact (max_eq_right large).symm
    · rfl

theorem shareOf_le (limited : 0 < riskLimit) :
    shareOf delta riskLimit position ≤ |position.marketValue| := by
  have worth := abs_nonneg position.marketValue
  have half := min_le_right |delta| (|position.marketValue| / 2)
  unfold shareOf
  dsimp only
  split
  · exact worth
  · split
    · exact max_le (by linarith) (by linarith)
    · split
      · linarith
      · exact max_le worth (by linarith)

theorem sideOf_eq (some_ : delta ≠ 0) (quantity : ℚ) :
    sideOf delta quantity =
      if 0 < delta * quantity then some (if 0 < delta then .sell else .buy) else none := by
  unfold sideOf
  obtain short | long := lt_or_gt_of_ne some_
  · have same : 0 < delta * quantity ↔ quantity < 0 :=
      ⟨fun both => neg_of_mul_pos_right both short.le, mul_pos_of_neg_of_neg short⟩
    rw [if_neg short.not_gt, if_neg short.not_gt]
    exact if_congr same.symm rfl rfl
  · have same : 0 < delta * quantity ↔ 0 < quantity := mul_pos_iff_of_pos_left long
    rw [if_pos long, if_pos long]
    exact if_congr same.symm rfl rfl

theorem left_value {reduction : ℚ} (price : 0 < position.currentPrice) (positive : 0 ≤ reduction)
    (half : reduction ≤ |position.quantity|) :
    |position.quantity - reduction| * position.currentPrice =
      if 0 < position.quantity then |position.marketValue| - reduction * position.currentPrice
      else |position.marketValue| + reduction * position.currentPrice := by
  unfold Position.marketValue
  rw [abs_mul, abs_of_pos price]
  by_cases long : 0 < position.quantity
  · rw [abs_of_pos long] at half
    rw [if_pos long, abs_of_pos long, abs_of_nonneg (by linarith)]
    ring
  · have short := not_lt.mp long
    rw [if_neg long, abs_of_nonpos short, abs_of_nonpos (by linarith)]
    ring

/-- The quantity that is traded, with the risk limit, is worth the share if that is positive. -/
theorem tradeQty_value {reduction part value : ℚ} (price : 0 < position.currentPrice)
    (positive : 0 < part) (half : part ≤ value / 2) (worth : value = |position.marketValue|)
    (taken : reduction * position.currentPrice = part) :
    (if riskLimit < |position.quantity - reduction| * position.currentPrice then
        |position.quantity| - riskLimit / position.currentPrice
      else reduction) * position.currentPrice =
      if 0 < position.quantity then max part (value - riskLimit)
      else if value + part ≤ riskLimit then part
      else value - riskLimit := by
  have value_ : value = |position.quantity| * position.currentPrice := by
    rw [worth]
    unfold Position.marketValue
    rw [abs_mul, abs_of_pos price]
  have some_ : 0 ≤ reduction := by
    refine (pos_of_mul_pos_left ?_ price.le).le
    rw [taken]
    exact positive
  have inside : reduction ≤ |position.quantity| := by
    refine le_of_mul_le_mul_right ?_ price
    rw [taken, ← value_]
    linarith
  rw [left_value price some_ inside, ← worth, taken, ite_mul, taken, sub_mul, ← value_,
    div_mul_cancel₀ _ price.ne']
  by_cases long : 0 < position.quantity
  · rw [if_pos long, if_pos long]
    by_cases above : riskLimit < value - part
    · rw [if_pos above, max_eq_right (by linarith)]
    · rw [if_neg above, max_eq_left (by linarith)]
  · rw [if_neg long, if_neg long]
    by_cases above : riskLimit < value + part
    · rw [if_pos above, if_neg (not_le.mpr above)]
    · rw [if_neg above, if_pos (not_lt.mp above)]

theorem deviation_lt_iff (positive : 0 < |position.marketValue|) :
    |delta| / |position.marketValue| < rebalanceThresholdPct ↔
      20 * |delta| < |position.marketValue| := by
  unfold rebalanceThresholdPct
  rw [div_lt_iff₀ positive]
  constructor
  · intro below
    linarith
  · intro far
    linarith

theorem traded_if {tradeQty : ℚ} (price : 0 < position.currentPrice) (trade : ℚ → Trade) :
    (if tradeQty ≤ 0 then none else some (trade tradeQty)) =
      if 0 < max 0 (tradeQty * position.currentPrice) then
        some (trade (max 0 (tradeQty * position.currentPrice) / position.currentPrice))
      else none := by
  by_cases nothing : tradeQty ≤ 0
  · have worthless : tradeQty * position.currentPrice ≤ 0 :=
      mul_nonpos_of_nonpos_of_nonneg nothing price.le
    rw [if_pos nothing, max_eq_left worthless, if_neg (lt_irrefl _)]
  · have worth : 0 < tradeQty * position.currentPrice := mul_pos (not_le.mp nothing) price
    rw [if_neg nothing, max_eq_right worth.le, if_pos worth, mul_div_cancel_right₀ _ price.ne']

theorem tradeOf_eq (some_ : delta ≠ 0) (price : 0 < position.currentPrice) :
    tradeOf delta riskLimit position =
      if 0 < shareOf delta riskLimit position then
        some ⟨if 0 < delta then .sell else .buy,
          shareOf delta riskLimit position / position.currentPrice,
          |delta| / |position.marketValue|⟩
      else none := by
  unfold tradeOf
  dsimp only
  rw [sideOf_eq some_]
  by_cases same : 0 < delta * position.quantity
  · have quantity : position.quantity ≠ 0 := right_ne_zero_of_mul same.ne'
    have worth : position.marketValue ≠ 0 := mul_ne_zero quantity price.ne'
    have positive := abs_pos.mpr worth
    have value := @reduction_value delta position price quantity
    rw [if_neg worth, if_pos same]
    dsimp only
    rw [value, if_congr (deviation_lt_iff positive) rfl rfl]
    by_cases far : 20 * |delta| < |position.marketValue|
    · rw [if_pos far, shareOf_out (.inr (.inl far)), if_neg (lt_irrefl _)]
    · by_cases small : min |delta| (|position.marketValue| / 2) < minRebalanceSizeUsdt
      · rw [if_neg far, if_pos small, shareOf_out (.inr (.inr small)), if_neg (lt_irrefl _)]
      · have large : 0 < min |delta| (|position.marketValue| / 2) :=
          lt_of_lt_of_le (by decide) (not_lt.mp small)
        have kept : ¬LeftOut delta position := by
          rintro (other | wide_ | small_)
          · exact other.not_gt same
          · exact far wide_
          · exact small small_
        have share := @shareOf_in delta riskLimit position kept
        rw [← tradeQty_value price large (min_le_right _ _) rfl value] at share
        rw [if_neg far, if_neg small, share]
        exact traded_if price fun quantity =>
          ⟨if 0 < delta then .sell else .buy, quantity, |delta| / |position.marketValue|⟩
  · have apart : delta * position.quantity ≤ 0 := not_lt.mp same
    rw [if_neg same, shareOf_out (.inl apart), if_neg (lt_irrefl _)]
    exact ite_self _

end Shares

/-! ## Orders -/

section Orders

variable {delta share price : ℚ} {clock : Nat → Nat} {riskLimits : Dict String ℚ}
  {manager : InventoryManager}

/-- What is traded by an order. -/
def tradedBy (order : RebalanceOrder) : String × RebalanceSide × ℚ :=
  (order.symbol, order.side, order.quantity)

/-- The trade of the share of a position. -/
def tradeFor (riskLimits : Dict String ℚ) (delta : ℚ) (entry : String × Position) :
    String × RebalanceSide × ℚ :=
  (entry.1, if 0 < delta then .sell else .buy,
    quantizeQuantity (shareIn riskLimits delta entry / entry.2.currentPrice))

/-- What is left of the delta, on its side. -/
def leftOf (delta remainingDelta : ℚ) : ℚ := if 0 < delta then remainingDelta else -remainingDelta

theorem abs_leftOf (delta remainingDelta : ℚ) :
    |leftOf delta remainingDelta| = |remainingDelta| := by
  unfold leftOf
  split
  · rfl
  · exact abs_neg _

theorem leftOf_taken (delta remainingDelta quantity price deviationPct : ℚ) :
    leftOf delta (remainingDelta -
      Trade.taken ⟨if 0 < delta then .sell else .buy, quantity, deviationPct⟩ price) =
        leftOf delta remainingDelta - quantity * price := by
  unfold leftOf Trade.taken
  by_cases long : 0 < delta
  · rw [if_pos long, if_pos long, if_pos long]
  · rw [if_neg long, if_neg long, if_neg long]
    ring

theorem takenFrom_few {α : Type} {weight : α → ℚ} {left : ℚ} (few : |left| < 100)
    (entries : List α) : takenFrom weight left entries = [] := by
  cases entries with
  | nil => rfl
  | cons entry rest => exact if_pos few

theorem rebalanceLoop_eq (some_ : delta ≠ 0) {entries : List (String × Position)}
    (prices : ∀ entry ∈ entries, 0 < entry.2.currentPrice) (remainingDelta : ℚ) (counter : Nat) :
    (rebalanceLoop clock riskLimits delta entries remainingDelta counter).1.map tradedBy =
      (takenFrom (shareIn riskLimits delta) (leftOf delta remainingDelta)
        (entries.filter fun entry => entry.1 ≠ "USDT" ∧ 0 < shareIn riskLimits delta entry)).map
          (tradeFor riskLimits delta) := by
  induction entries generalizing remainingDelta counter with
  | nil => rfl
  | cons entry rest ih =>
    obtain ⟨symbol, position⟩ := entry
    obtain ⟨price, later⟩ := List.forall_mem_cons.mp prices
    have pass := @tradeOf_eq delta ((riskLimits.get symbol).getD defaultRiskLimit) position some_
      price
    unfold rebalanceLoop
    by_cases cash : symbol = "USDT"
    · rw [if_pos cash, List.filter_cons_of_neg (by simp [cash])]
      exact ih later remainingDelta counter
    · rw [if_neg cash]
      by_cases few : |remainingDelta| < minRebalanceSizeUsdt
      · rw [if_pos few, takenFrom_few (by rw [abs_leftOf]; exact few)]
        rfl
      · have enough : ¬|leftOf delta remainingDelta| < 100 := by
          rw [abs_leftOf]
          exact few
        rw [if_neg few]
        by_cases shared : 0 < shareIn riskLimits delta (symbol, position)
        · have traded := pass.trans (if_pos shared)
          rw [traded, List.filter_cons_of_pos (by simp [cash, shared])]
          dsimp only
          rw [List.map_cons, ih later, leftOf_taken, takenFrom, if_neg enough, List.map_cons]
          have worth : shareOf delta ((riskLimits.get symbol).getD defaultRiskLimit) position /
              position.currentPrice * position.currentPrice =
                shareIn riskLimits delta (symbol, position) := div_mul_cancel₀ _ price.ne'
          rw [worth]
          rfl
        · have skipped := pass.trans (if_neg shared)
          rw [skipped, List.filter_cons_of_neg (by simp [shared])]
          exact ih later remainingDelta counter

theorem netDelta_eq (manager : InventoryManager) :
    (manager.calculateNetExposure.get "NET_DELTA").getD 0 = manager.calculatePortfolioDelta := by
  unfold calculateNetExposure
  dsimp only
  rw [Dict.get_put_self]
  rfl

theorem orders_perm (prices : ∀ position ∈ manager.positions.values, 0 < position.currentPrice)
    (clock : Nat → Nat) :
    ∃ made, ((manager.calculateRebalanceOrders clock).1).Perm made ∧ made.map tradedBy =
      (sharing manager).map (tradeFor manager.riskLimits manager.calculatePortfolioDelta) := by
  have listed : ∀ entry ∈ manager.sortedPositions, 0 < entry.2.currentPrice := by
    intro entry member
    have there := (List.mem_mergeSort).mp member
    exact prices entry.2 (List.mem_map_of_mem there)
  unfold calculateRebalanceOrders
  dsimp only
  rw [netDelta_eq]
  by_cases few : |manager.calculatePortfolioDelta| < minRebalanceSizeUsdt
  · refine ⟨[], ?_, ?_⟩
    · rw [if_pos few]
    · have nothing : sharing manager = [] := takenFrom_few (by rw [abs_abs]; exact few) _
      rw [nothing]
      rfl
  · have some_ : manager.calculatePortfolioDelta ≠ 0 := by
      intro zero
      rw [zero, abs_zero] at few
      exact few (by decide)
    rw [if_neg few]
    refine ⟨_, List.mergeSort_perm _ _, ?_⟩
    rw [rebalanceLoop_eq some_ listed]
    have whole : leftOf manager.calculatePortfolioDelta manager.calculatePortfolioDelta =
        |manager.calculatePortfolioDelta| := by
      unfold leftOf
      split
      · next long => exact (abs_of_pos long).symm
      · next short => exact (abs_of_nonpos (not_lt.mp short)).symm
    rw [whole]
    rfl

theorem positions_calculate (clock : Nat → Nat) (manager : InventoryManager) :
    (manager.calculateRebalanceOrders clock).2.positions = manager.positions := by
  unfold calculateRebalanceOrders
  dsimp only
  split <;> rfl

/-- What a trade at the current price of its position adds to the delta. -/
def changeOf (positions : Dict String Position) (trade : String × RebalanceSide × ℚ) : ℚ :=
  match positions.get trade.1 with
  | none => 0
  | some position =>
    match trade.2.1 with
    | .sell => -(trade.2.2 * position.currentPrice)
    | .buy => trade.2.2 * position.currentPrice

theorem delta_fill {order : RebalanceOrder} {position : Position}
    (found : manager.positions.get order.symbol = some position) :
    (manager.fill order position.currentPrice).calculatePortfolioDelta =
      manager.calculatePortfolioDelta + changeOf manager.positions (tradedBy order) := by
  have changed := Dict.sum_put (fun position : Position =>
    position.quantity * position.currentPrice) found
      (filledPosition order position.currentPrice position)
  have filled : (manager.fill order position.currentPrice).positions =
      manager.positions.put order.symbol
        (filledPosition order position.currentPrice position) := by
    unfold fill
    rw [found]
  have value : (filledPosition order position.currentPrice position).quantity *
      (filledPosition order position.currentPrice position).currentPrice =
        position.quantity * position.currentPrice +
          changeOf manager.positions (tradedBy order) := by
    unfold changeOf tradedBy
    dsimp only
    rw [found]
    unfold filledPosition
    cases order.side with
    | buy =>
      show (position.quantity + order.quantity) * position.currentPrice = _
      ring
    | sell =>
      show (position.quantity - order.quantity) * position.currentPrice = _
      ring
  unfold calculatePortfolioDelta
  rw [filled]
  linarith

/-- Orders of different symbols that are filled at the current prices change the delta by their
values. -/
theorem delta_executeOrders {positions : Dict String Position} {orders : List RebalanceOrder}
    (apart : (orders.map RebalanceOrder.symbol).Nodup)
    (known : ∀ order ∈ orders, ∃ position, positions.get order.symbol = some position)
    (same : ∀ order ∈ orders, manager.positions.get order.symbol = positions.get order.symbol) :
    (executeOrders (fillsAtMarket positions) manager orders).1 = true ∧
      (executeOrders (fillsAtMarket positions) manager orders).2.calculatePortfolioDelta =
        manager.calculatePortfolioDelta +
          (orders.map fun order => changeOf positions (tradedBy order)).sum := by
  induction orders generalizing manager with
  | nil => exact ⟨rfl, (add_zero _).symm⟩
  | cons order rest ih =>
    obtain ⟨fresh, later⟩ := List.nodup_cons.mp apart
    obtain ⟨position, found⟩ := known order List.mem_cons_self
    have here := same order List.mem_cons_self
    have answer : fillsAtMarket positions order = .filled position.currentPrice := by
      unfold fillsAtMarket
      rw [found]
    let placed := { manager with
      pendingOrders := manager.pendingOrders.put order.orderId order }
    have there : placed.positions.get order.symbol = some position := here.trans found
    have others : ∀ other ∈ rest,
        (placed.fill order position.currentPrice).positions.get other.symbol =
          positions.get other.symbol := by
      intro other member
      have differs : other.symbol ≠ order.symbol := fun equal =>
        fresh (equal ▸ List.mem_map_of_mem member)
      rw [← same other (List.mem_cons_of_mem _ member)]
      show (match placed.positions.get order.symbol with
        | some position => placed.positions.put order.symbol _
        | none => placed.positions).get other.symbol = _
      rw [there]
      exact (Dict.get_put _ _ _ _).trans (if_neg differs)
    have first := delta_fill there
    have change : changeOf placed.positions (tradedBy order) =
        changeOf positions (tradedBy order) := by
      unfold changeOf tradedBy
      dsimp only
      rw [there, found]
    obtain ⟨ended, total⟩ := ih later
      (fun other member => known other (List.mem_cons_of_mem _ member)) others
    unfold executeOrders
    dsimp only
    rw [answer]
    refine ⟨ended, total.trans ?_⟩
    rw [first, change, List.map_cons, List.sum_cons]
    exact add_assoc _ _ _

/-- A rebalance whose orders are all filled at the current prices changes the delta by their
values. -/
theorem delta_executeRebalance
    (apart : ((manager.calculateRebalanceOrders clock).1.map RebalanceOrder.symbol).Nodup)
    (known : ∀ order ∈ (manager.calculateRebalanceOrders clock).1,
      ∃ position, manager.positions.get order.symbol = some position) :
    deltaAfter clock manager = manager.calculatePortfolioDelta +
      ((manager.calculateRebalanceOrders clock).1.map fun order =>
        changeOf manager.positions (tradedBy order)).sum := by
  have positions := positions_calculate clock manager
  unfold deltaAfter executeRebalance
  generalize manager.calculateRebalanceOrders clock = calculated at apart known positions ⊢
  obtain ⟨orders, counted⟩ := calculated
  have same : counted.positions = manager.positions := positions
  dsimp only at apart known ⊢
  cases orders with
  | nil =>
    show counted.calculatePortfolioDelta = _
    unfold calculatePortfolioDelta
    rw [same]
    exact (add_zero _).symm
  | cons order rest =>
    let started := { counted with totalRebalances := counted.totalRebalances + 1 }
    obtain ⟨ended, total⟩ := @delta_executeOrders started manager.positions (order :: rest) apart
      known fun other _ => congrArg (fun positions => Dict.get positions other.symbol) same
    have before : started.calculatePortfolioDelta = manager.calculatePortfolioDelta := by
      unfold calculatePortfolioDelta
      rw [show started.positions = manager.positions from same]
    rw [before] at total
    generalize reached : executeOrders (fillsAtMarket manager.positions) started (order :: rest) =
      result at ended total
    obtain ⟨whole, executed⟩ := result
    cases ended
    refine Eq.trans ?_ total
    show executed.checkDeltaNeutrality.2.calculatePortfolioDelta = executed.calculatePortfolioDelta
    unfold checkDeltaNeutrality
    dsimp only
    split <;> rfl

end Orders

/-! ## Results -/

section Results

variable {delta share price riskLimit : ℚ} {manager : InventoryManager}
  {entry : String × Position}

theorem takenFrom_sublist {α : Type} (weight : α → ℚ) (left : ℚ) (entries : List α) :
    (takenFrom weight left entries).Sublist entries := by
  induction entries generalizing left with
  | nil => exact .slnil
  | cons entry rest ih =>
    unfold takenFrom
    split
    · exact List.nil_sublist _
    · exact (ih _).cons_cons entry

/-- A position that shares in the hedge is held and has a share left. -/
theorem mem_sharing (member : entry ∈ sharing manager) :
    manager.positions.get entry.1 = some entry.2 ∧
      0 < shareIn manager.riskLimits manager.calculatePortfolioDelta entry := by
  have kept := List.mem_filter.mp ((takenFrom_sublist _ _ _).mem member)
  have there := List.mem_mergeSort.mp kept.1
  exact ⟨Dict.get_eq_some.mpr there, (of_decide_eq_true kept.2).2⟩

theorem nodup_sharing (manager : InventoryManager) : ((sharing manager).map Prod.fst).Nodup := by
  have part := (takenFrom_sublist (shareIn manager.riskLimits manager.calculatePortfolioDelta)
    |manager.calculatePortfolioDelta| _).trans
      (@List.filter_sublist _ (fun entry => decide (entry.1 ≠ "USDT" ∧
        0 < shareIn manager.riskLimits manager.calculatePortfolioDelta entry))
        manager.sortedPositions)
  have sorted : (manager.sortedPositions.map Prod.fst).Nodup :=
    ((List.mergeSort_perm _ _).map Prod.fst).nodup_iff.mpr manager.positions.nodup
  exact (part.map Prod.fst).nodup sorted

theorem quantizeQuantity_mul (positive : 0 ≤ share) (priced : 0 < price) :
    quantizeQuantity (share / price) * price = roundedShare share price := by
  unfold quantizeQuantity roundedShare
  rw [if_pos (div_nonneg positive priced.le)]

theorem roundedShare_nonneg (positive : 0 ≤ share) (priced : 0 < price) :
    0 ≤ roundedShare share price := by
  have quantity : 0 ≤ share / price * 10000 :=
    mul_nonneg (div_nonneg positive priced.le) (by norm_num)
  have whole : (0 : ℚ) ≤ ⌊share / price * 10000⌋ := by
    exact_mod_cast Int.floor_nonneg.mpr quantity
  unfold roundedShare
  positivity

theorem reduces_iff (found : manager.positions.get entry.1 = some entry.2)
    (priced : 0 < entry.2.currentPrice)
    (limited : 0 < (manager.riskLimits.get entry.1).getD 100000)
    (shared : 0 < shareIn manager.riskLimits delta entry) :
    Reduces manager.positions entry.1 (tradeFor manager.riskLimits delta entry).2.1
        (tradeFor manager.riskLimits delta entry).2.2 ↔
      entry.2.currentPrice ≤ 10000 * shareIn manager.riskLimits delta entry := by
  have most : shareIn manager.riskLimits delta entry ≤ |entry.2.marketValue| := shareOf_le limited
  have kept : ¬LeftOut delta entry.2 := fun out => shared.ne' (shareOf_out out)
  have same : 0 < delta * entry.2.quantity := not_le.mp (mt .inl kept)
  have direction : match (tradeFor manager.riskLimits delta entry).2.1 with
      | .sell => 0 < entry.2.quantity
      | .buy => entry.2.quantity < 0 := by
    unfold tradeFor
    by_cases long : 0 < delta
    · rw [if_pos long]
      exact pos_of_mul_pos_right same long.le
    · rw [if_neg long]
      exact neg_of_mul_pos_right same (not_lt.mp long)
  have quantity : 0 ≤ shareIn manager.riskLimits delta entry / entry.2.currentPrice :=
    (div_pos shared priced).le
  have rounded : (tradeFor manager.riskLimits delta entry).2.2 =
      (⌊shareIn manager.riskLimits delta entry / entry.2.currentPrice * 10000⌋ : ℚ) / 10000 := by
    show quantizeQuantity _ = _
    unfold quantizeQuantity
    rw [if_pos quantity]
  have inside : (tradeFor manager.riskLimits delta entry).2.2 ≤ |entry.2.quantity| := by
    have value : |entry.2.marketValue| = |entry.2.quantity| * entry.2.currentPrice := by
      unfold Position.marketValue
      rw [abs_mul, abs_of_pos priced]
    have part : shareIn manager.riskLimits delta entry / entry.2.currentPrice ≤
        |entry.2.quantity| := by
      rw [div_le_iff₀ priced, ← value]
      exact most
    have floor := Int.floor_le
      (shareIn manager.riskLimits delta entry / entry.2.currentPrice * 10000)
    rw [rounded]
    linarith
  have positive : 0 < (tradeFor manager.riskLimits delta entry).2.2 ↔
      entry.2.currentPrice ≤ 10000 * shareIn manager.riskLimits delta entry := by
    rw [rounded, div_pos_iff_of_pos_right (by norm_num), Int.cast_pos, Int.floor_pos,
      div_mul_eq_mul_div, le_div_iff₀ priced, one_mul, mul_comm]
  constructor
  · rintro ⟨-, -, some_, -⟩
    exact positive.mp some_
  · exact fun large => ⟨entry.2, found, positive.mpr large, inside, direction⟩

theorem closer_iff {left part : ℚ} (positive : 0 ≤ left) (some_ : 0 ≤ part) :
    (|left - part| ≤ |left| ∧ 0 ≤ left * (left - part)) ↔ part ≤ left := by
  constructor
  · rintro ⟨smaller, same⟩
    by_contra exceeded
    have beyond := not_le.mp exceeded
    obtain zero | more := positive.eq_or_lt
    · rw [← zero, abs_zero, zero_sub, abs_neg, abs_of_nonneg some_] at smaller
      linarith
    · exact same.not_gt (mul_neg_of_pos_of_neg more (by linarith))
  · intro inside
    have rest : 0 ≤ left - part := sub_nonneg.mpr inside
    refine ⟨?_, mul_nonneg positive rest⟩
    rw [abs_of_nonneg rest, abs_of_nonneg positive]
    linarith

section

variable (prices : ∀ position ∈ manager.positions.values, 0 < position.currentPrice)
include prices

theorem changes_eq : ((sharing manager).map fun entry => changeOf manager.positions
        (tradeFor manager.riskLimits manager.calculatePortfolioDelta entry)).sum =
      if 0 < manager.calculatePortfolioDelta then -sharedOut manager else sharedOut manager := by
  have each : ∀ entry ∈ sharing manager, changeOf manager.positions
      (tradeFor manager.riskLimits manager.calculatePortfolioDelta entry) =
        if 0 < manager.calculatePortfolioDelta then
          -roundedShare (shareIn manager.riskLimits manager.calculatePortfolioDelta entry)
            entry.2.currentPrice
        else roundedShare (shareIn manager.riskLimits manager.calculatePortfolioDelta entry)
            entry.2.currentPrice := by
    intro entry member
    obtain ⟨found, shared⟩ := mem_sharing member
    have priced := prices entry.2 (Dict.mem_values.mpr ⟨entry.1, found⟩)
    rw [← quantizeQuantity_mul shared.le priced]
    unfold changeOf tradeFor
    dsimp only
    rw [found]
    by_cases long : 0 < manager.calculatePortfolioDelta
    · rw [if_pos long, if_pos long]
    · rw [if_neg long, if_neg long]
  rw [List.map_congr_left each]
  unfold sharedOut
  by_cases long : 0 < manager.calculatePortfolioDelta
  · simp only [if_pos long]
    rw [List.sum_neg, List.map_map]
    rfl
  · simp only [if_neg long]

theorem sharedOut_nonneg : 0 ≤ sharedOut manager := by
  refine List.sum_nonneg fun value member => ?_
  obtain ⟨entry, listed, rfl⟩ := List.mem_map.mp member
  obtain ⟨found, shared⟩ := mem_sharing listed
  exact roundedShare_nonneg shared.le (prices entry.2 (Dict.mem_values.mpr ⟨entry.1, found⟩))

theorem deltaAfter_eq (clock : Nat → Nat) : deltaAfter clock manager =
      if 0 < manager.calculatePortfolioDelta then
        manager.calculatePortfolioDelta - sharedOut manager
      else manager.calculatePortfolioDelta + sharedOut manager := by
  obtain ⟨made, sorted, trades⟩ := orders_perm prices clock
  have positions := positions_calculate clock manager
  have symbols : made.map RebalanceOrder.symbol = (sharing manager).map Prod.fst := by
    have firsts := congrArg (List.map Prod.fst) trades
    rw [List.map_map, List.map_map] at firsts
    exact firsts
  have change := changes_eq prices
  have total : deltaAfter clock manager = manager.calculatePortfolioDelta +
      ((manager.calculateRebalanceOrders clock).1.map fun order =>
        changeOf manager.positions (tradedBy order)).sum := by
    have apart : ((manager.calculateRebalanceOrders clock).1.map RebalanceOrder.symbol).Nodup := by
      rw [(sorted.map _).nodup_iff, symbols]
      exact nodup_sharing manager
    have known : ∀ order ∈ (manager.calculateRebalanceOrders clock).1,
        ∃ position, manager.positions.get order.symbol = some position := by
      intro order member
      have listed : order.symbol ∈ (sharing manager).map Prod.fst := by
        rw [← symbols]
        exact List.mem_map_of_mem (sorted.mem_iff.mp member)
      obtain ⟨entry, shares, same⟩ := List.mem_map.mp listed
      exact ⟨entry.2, same ▸ (mem_sharing shares).1⟩
    exact delta_executeRebalance apart known
  have moved : ((manager.calculateRebalanceOrders clock).1.map fun order =>
      changeOf manager.positions (tradedBy order)).sum =
        ((sharing manager).map fun entry => changeOf manager.positions
          (tradeFor manager.riskLimits manager.calculatePortfolioDelta entry)).sum := by
    have each := congrArg (fun list => (list.map (changeOf manager.positions)).sum) trades
    rw [List.map_map, List.map_map] at each
    exact ((sorted.map _).sum_eq).trans each
  rw [total, moved, change]
  split
  · rw [sub_eq_add_neg]
  · rfl

theorem reduces_all_iff (limits : ∀ limit ∈ manager.riskLimits.values, 0 < limit)
    (clock : Nat → Nat) : (∀ order ∈ (manager.calculateRebalanceOrders clock).1,
        Reduces manager.positions order.symbol order.side order.quantity) ↔
      ∀ entry ∈ sharing manager, entry.2.currentPrice ≤
        10000 * shareIn manager.riskLimits manager.calculatePortfolioDelta entry := by
  obtain ⟨made, sorted, trades⟩ := orders_perm prices clock
  have each : (∀ order ∈ (manager.calculateRebalanceOrders clock).1,
      Reduces manager.positions order.symbol order.side order.quantity) ↔
        ∀ trade ∈ made.map tradedBy, Reduces manager.positions trade.1 trade.2.1 trade.2.2 := by
    rw [List.forall_mem_map]
    exact forall_congr' fun order => by rw [sorted.mem_iff]; exact Iff.rfl
  rw [each, trades, List.forall_mem_map]
  refine forall_congr' fun entry => forall_congr' fun member => ?_
  obtain ⟨found, shared⟩ := mem_sharing member
  have priced := prices entry.2 (Dict.mem_values.mpr ⟨entry.1, found⟩)
  have limited : 0 < (manager.riskLimits.get entry.1).getD 100000 := by
    cases limit : manager.riskLimits.get entry.1 with
    | none => exact (by norm_num : (0 : ℚ) < 100000)
    | some value => exact limits value (Dict.mem_values.mpr ⟨entry.1, limit⟩)
  exact reduces_iff found priced limited shared

end

/-- With positive prices and risk limits every order reduces its position and all of them leave a
delta that is not larger and not on the other side, if and only if no share that the loop comes to
is worth less than a ten-thousandth of the quantity, and the rounded shares do not add up to more
than the delta. -/
theorem rebalanced_iff (clock : Nat → Nat) (manager : InventoryManager)
    (prices : ∀ position ∈ manager.positions.values, 0 < position.currentPrice)
    (limits : ∀ limit ∈ manager.riskLimits.values, 0 < limit) :
    Rebalanced clock manager ↔ Restrained manager := by
  have reduces := reduces_all_iff prices limits clock
  have after := deltaAfter_eq prices clock
  have positive := sharedOut_nonneg prices
  have split_ : Rebalanced clock manager ↔
      (∀ order ∈ (manager.calculateRebalanceOrders clock).1,
        Reduces manager.positions order.symbol order.side order.quantity) ∧
      |deltaAfter clock manager| ≤ |manager.calculatePortfolioDelta| ∧
        0 ≤ manager.calculatePortfolioDelta * deltaAfter clock manager :=
    ⟨fun holds => ⟨holds.reduces, holds.smaller, holds.sameSide⟩,
      fun holds => ⟨holds.1, holds.2.1, holds.2.2⟩⟩
  rw [split_, reduces]
  refine and_congr_right fun _ => ?_
  rw [after]
  by_cases long : 0 < manager.calculatePortfolioDelta
  · rw [if_pos long, closer_iff long.le positive, abs_of_pos long]
  · have short := not_lt.mp long
    have mirrored := closer_iff (neg_nonneg.mpr short) positive
    rw [if_neg long, abs_of_nonpos short, ← mirrored]
    have turned : ∀ part : ℚ, -manager.calculatePortfolioDelta - part =
        -(manager.calculatePortfolioDelta + part) := fun part => by ring
    rw [turned, abs_neg, neg_mul_neg, abs_of_nonneg (neg_nonneg.mpr short)]

/-- Two long positions of 20000 and of 12000, of which the second is limited to 4000, a short one of
10000 and an amount of the quote currency. -/
def longHeavy : InventoryManager :=
  .new (.ofList [("ETH", 4000)]) (.ofList [("BTC", ⟨20, 1000, 1000, 0⟩),
    ("ETH", ⟨12, 1000, 1000, 0⟩), ("SOL", ⟨-10, 1000, 1000, 0⟩), ("USDT", ⟨500, 1, 1, 0⟩)])

/-- Half of the first is sold and of the second all above its limit, which leaves a delta of 4000 of
22000. -/
theorem longHeavy_rebalanced :
    (∀ position ∈ longHeavy.positions.values, 0 < position.currentPrice) ∧
    (∀ limit ∈ longHeavy.riskLimits.values, 0 < limit) ∧ sharedOut longHeavy = 18000 ∧
    Rebalanced (fun _ => 0) longHeavy := by
  have prices : ∀ position ∈ longHeavy.positions.values, 0 < position.currentPrice := by
    decide +kernel
  have limits : ∀ limit ∈ longHeavy.riskLimits.values, 0 < limit := by decide +kernel
  have sorted : longHeavy.sortedPositions = longHeavy.positions.entries :=
    List.mergeSort_of_pairwise (by decide +kernel)
  have shares : sharedOut longHeavy = 18000 := by
    unfold sharedOut sharing
    rw [sorted]
    decide +kernel
  refine ⟨prices, limits, shares, (rebalanced_iff _ longHeavy prices limits).mpr ?_⟩
  unfold Restrained sharedOut sharing
  rw [sorted]
  decide +kernel

/-- Two long positions of 80000 and a short one of 100000. -/
def twoLongs : InventoryManager :=
  .new .empty (.ofList [("SOL", ⟨-100, 1000, 1000, 0⟩), ("BTC", ⟨80, 1000, 1000, 0⟩),
    ("ETH", ⟨80, 1000, 1000, 0⟩)])

/-- Half of both is sold for a delta of 60000, which leaves one of -20000. -/
theorem delta_overshot : ¬∀ (clock : Nat → Nat) (manager : InventoryManager),
    (∀ position ∈ manager.positions.values, 0 < position.currentPrice) →
      (∀ limit ∈ manager.riskLimits.values, 0 < limit) → Rebalanced clock manager := by
  intro claim
  have prices : ∀ position ∈ twoLongs.positions.values, 0 < position.currentPrice := by
    decide +kernel
  have sorted : twoLongs.sortedPositions = twoLongs.positions.entries :=
    List.mergeSort_of_pairwise (by decide +kernel)
  have before : twoLongs.calculatePortfolioDelta = 60000 := by decide +kernel
  have after : deltaAfter (fun _ => 0) twoLongs = -20000 := by
    rw [deltaAfter_eq prices]
    unfold sharedOut sharing
    rw [sorted]
    decide +kernel
  have same := (claim (fun _ => 0) twoLongs prices nofun).sameSide
  rw [before, after] at same
  revert same
  norm_num

end Results

end DeltaRebalance

end TradingBot.Arbitrage
