import Mathlib.Data.Rat.Floor
import TradingBot.Foundation.MachineInt
import TradingBot.Foundation.Text

/-!
# The post-only manager

`post_only_manager.rs`: a price that would take liquidity is moved next to the opposite quote, and
an order is refused if that does not help. Prices are exact, and the clock's readings are arguments.
Without a tick size no tick is below or above a price, and the price is moved to the other quote.
-/

open MachineInt

namespace TradingBot.Oms.PostOnly

def maxPriceAdjustments : Nat := 3

def minPriceImprovementTicks : Nat := 1

/-- The largest 64-bit floating-point number. -/
def f64Max : ℚ := (2 ^ 53 - 1) * 2 ^ 971

/-- `RejectReason`. -/
inductive RejectReason where
  | spreadTooTight
  | wouldCrossRepeatedly
  | marketTooFast
  | sizeExceedsLimit
  | invalidPrice

/-- `PostOnlyOrder`. -/
structure PostOnlyOrder where
  orderId : Nat
  symbol : List UInt8
  isBuy : Bool
  size : ℚ
  requestedPrice : ℚ
  postedPrice : ℚ
  adjustmentCount : Nat
  timestampNs : Nat
  isPosted : Bool
  rejectReason : Option RejectReason

/-- `MarketState`, with what a price is checked against. -/
structure MarketState where
  bestBid : ℚ
  bestAsk : ℚ
  tickSize : ℚ

namespace MarketState

def midPrice (market : MarketState) : ℚ := (market.bestBid + market.bestAsk) / 2

def spreadBps (market : MarketState) : ℚ :=
  if market.midPrice ≤ 0 then f64Max
  else (market.bestAsk - market.bestBid) / market.midPrice * 10000

/-- `would_cross_as_buy` and `would_cross_as_sell`. -/
def wouldCross (market : MarketState) (isBuy : Bool) (price : ℚ) : Bool :=
  if isBuy then market.bestAsk ≤ price else price ≤ market.bestBid

def maxPostOnlyBuyPrice (market : MarketState) : ℚ :=
  if market.tickSize = 0 then market.bestBid
  else
    let ticksBelow := (⌊market.bestAsk / market.tickSize⌋ - minPriceImprovementTicks) *
      market.tickSize
    max ticksBelow market.bestBid

def minPostOnlySellPrice (market : MarketState) : ℚ :=
  if market.tickSize = 0 then market.bestAsk
  else
    let ticksAbove := (⌈market.bestBid / market.tickSize⌉ + minPriceImprovementTicks) *
      market.tickSize
    min ticksAbove market.bestAsk

/-- The price that an order is moved to. -/
def postOnlyPrice (market : MarketState) (isBuy : Bool) : ℚ :=
  if isBuy then market.maxPostOnlyBuyPrice else market.minPostOnlySellPrice

/-- A price after at most some adjustments, with their number. -/
def adjustPrice (market : MarketState) (isBuy : Bool) : Nat → ℚ → Nat → ℚ × Nat
  | 0, currentPrice, adjustments => (currentPrice, adjustments)
  | rounds + 1, currentPrice, adjustments =>
    if market.wouldCross isBuy currentPrice then
      market.adjustPrice isBuy rounds (market.postOnlyPrice isBuy) (adjustments + 1)
    else (currentPrice, adjustments)

def calculatePostOnlyPrice (market : MarketState) (isBuy : Bool) (price : ℚ) : ℚ × Nat :=
  market.adjustPrice isBuy maxPriceAdjustments price 0

end MarketState

/-- `PostOnlyManager`. -/
structure PostOnlyManager where
  marketState : Option MarketState
  orderCounter : Nat
  totalOrders : Nat
  postedOrders : Nat
  rejectedOrders : Nat
  adjustedOrders : Nat
  totalAdjustments : Nat
  feeSavings : ℚ
  recentOrders : List PostOnlyOrder
  maxHistory : Nat
  minSpreadBps : ℚ
  enabled : Bool

namespace PostOnlyManager

def new (minSpreadBps : ℚ) (maxHistory : Nat) : PostOnlyManager where
  marketState := none
  orderCounter := 0
  totalOrders := 0
  postedOrders := 0
  rejectedOrders := 0
  adjustedOrders := 0
  totalAdjustments := 0
  feeSavings := 0
  recentOrders := []
  maxHistory := maxHistory
  minSpreadBps := minSpreadBps
  enabled := true

def updateMarketState (manager : PostOnlyManager) (state : MarketState) : PostOnlyManager :=
  { manager with marketState := some state }

def recordOrder (manager : PostOnlyManager) (order : PostOnlyOrder) : PostOnlyManager :=
  let history :=
    if manager.maxHistory ≤ manager.recentOrders.length then manager.recentOrders.drop 1
    else manager.recentOrders
  { manager with recentOrders := history ++ [order] }

/-- An order that is refused for a reason that is counted. -/
def reject (manager : PostOnlyManager) (order : PostOnlyOrder) (reason : RejectReason) :
    PostOnlyOrder × PostOnlyManager :=
  ({ order with rejectReason := some reason },
    { manager with rejectedOrders := castU64 (manager.rejectedOrders + 1) })

/-- The adjustments of an order are counted, if there are any. -/
def countAdjustments (manager : PostOnlyManager) (order : PostOnlyOrder) (adjustments : Nat) :
    PostOnlyOrder × PostOnlyManager :=
  if 0 < adjustments then
    ({ order with adjustmentCount := adjustments },
      { manager with
        adjustedOrders := castU64 (manager.adjustedOrders + 1)
        totalAdjustments := castU64 (manager.totalAdjustments + adjustments) })
  else (order, manager)

/-- A manager after an id was drawn from its counter. -/
def drawId (manager : PostOnlyManager) : PostOnlyManager :=
  { manager with orderCounter := castU64 (manager.orderCounter + 1) }

/-- An order that is posted: it is recorded, and a second id is drawn for the one that is
returned. -/
def post (manager : PostOnlyManager) (order : PostOnlyOrder) (finalPrice : ℚ) :
    PostOnlyOrder × PostOnlyManager :=
  let order := { order with postedPrice := finalPrice, isPosted := true }
  let counted := { manager with postedOrders := castU64 (manager.postedOrders + 1) }
  let recorded := counted.recordOrder order
  ({ order with orderId := recorded.orderCounter }, recorded.drawId)

/-- The price of an order is validated at a market. -/
def validate (manager : PostOnlyManager) (market : MarketState) (order : PostOnlyOrder) :
    PostOnlyOrder × PostOnlyManager :=
  if market.spreadBps < manager.minSpreadBps then manager.reject order .spreadTooTight
  else
    let (finalPrice, adjustments) :=
      market.calculatePostOnlyPrice order.isBuy order.requestedPrice
    let (order, manager) := manager.countAdjustments order adjustments
    if maxPriceAdjustments ≤ adjustments then manager.reject order .wouldCrossRepeatedly
    else if finalPrice ≤ 0 then manager.reject order .invalidPrice
    else manager.post order finalPrice

/-- `prepare_post_only_order`; a refusal without a market state is not counted. -/
def preparePostOnlyOrder (manager : PostOnlyManager) (nowNs : Nat) (symbol : String)
    (isBuy : Bool) (size requestedPrice : ℚ) : PostOnlyOrder × PostOnlyManager :=
  let order := {
    orderId := manager.orderCounter
    symbol := (Text.asBytes symbol ++ List.replicate 8 0).take 8
    isBuy := isBuy
    size := size
    requestedPrice := requestedPrice
    postedPrice := requestedPrice
    adjustmentCount := 0
    timestampNs := nowNs
    isPosted := false
    rejectReason := none }
  let manager := manager.drawId
  if !manager.enabled then ({ order with isPosted := true }, manager)
  else
    match manager.marketState with
    | none => ({ order with rejectReason := some .marketTooFast }, manager)
    | some market => manager.validate market order

def recordFill (manager : PostOnlyManager) (orderId : Nat) (fillSize fillPrice takerFeeRate : ℚ) :
    PostOnlyManager :=
  match manager.recentOrders.find? fun order => order.orderId = orderId with
  | none => manager
  | some _ =>
    { manager with feeSavings := manager.feeSavings + fillSize * fillPrice * takerFeeRate }

def incrementTotal (manager : PostOnlyManager) : PostOnlyManager :=
  { manager with totalOrders := castU64 (manager.totalOrders + 1) }

/-- `build` of an order builder. -/
def build (manager : PostOnlyManager) (nowNs : Nat) (symbol : String) (isBuy : Bool)
    (size price : ℚ) : PostOnlyOrder × PostOnlyManager :=
  manager.incrementTotal.preparePostOnlyOrder nowNs symbol isBuy size price

end PostOnlyManager

/-! ## Adjusted prices -/

namespace MarketState

/-- The price of an order next to the opposite quote, if it would take liquidity. -/
def adjustedPrice (market : MarketState) (isBuy : Bool) (price : ℚ) : ℚ :=
  if market.wouldCross isBuy price then market.postOnlyPrice isBuy else price

/-- A price can be posted: the spread is wide enough, and the adjusted price takes no liquidity and
is positive. -/
def Posts (market : MarketState) (minSpreadBps : ℚ) (isBuy : Bool) (price : ℚ) : Prop :=
  minSpreadBps ≤ market.spreadBps ∧
    market.wouldCross isBuy (market.adjustedPrice isBuy price) = false ∧
    0 < market.adjustedPrice isBuy price

instance (market : MarketState) (minSpreadBps : ℚ) (isBuy : Bool) (price : ℚ) :
    Decidable (market.Posts minSpreadBps isBuy price) :=
  inferInstanceAs (Decidable (_ ≤ _ ∧ _ = _ ∧ _ < _))

section Prices

variable {market : MarketState} {isBuy : Bool} {price : ℚ}

theorem calculatePostOnlyPrice_eq (market : MarketState) (isBuy : Bool) (price : ℚ) :
    market.calculatePostOnlyPrice isBuy price =
      (market.adjustedPrice isBuy price,
        if market.wouldCross isBuy price = false then 0
        else if market.wouldCross isBuy (market.adjustedPrice isBuy price) = false then 1
        else maxPriceAdjustments) := by
  unfold calculatePostOnlyPrice adjustedPrice
  by_cases crosses : market.wouldCross isBuy price
  · by_cases again : market.wouldCross isBuy (market.postOnlyPrice isBuy)
    · simp [maxPriceAdjustments, adjustPrice, crosses, again]
    · simp [maxPriceAdjustments, adjustPrice, crosses, again]
  · simp [maxPriceAdjustments, adjustPrice, crosses]

theorem maxPostOnlyBuyPrice_lt (tick : 0 < market.tickSize)
    (spread : market.bestBid < market.bestAsk) : market.maxPostOnlyBuyPrice < market.bestAsk := by
  have below := Int.floor_le (market.bestAsk / market.tickSize)
  rw [le_div_iff₀ tick] at below
  have step : ((⌊market.bestAsk / market.tickSize⌋ : ℚ) - minPriceImprovementTicks) *
      market.tickSize = ⌊market.bestAsk / market.tickSize⌋ * market.tickSize - market.tickSize := by
    simp only [minPriceImprovementTicks]
    ring
  unfold maxPostOnlyBuyPrice
  rw [if_neg tick.ne']
  simp only [step]
  exact max_lt (by linarith) spread

theorem lt_minPostOnlySellPrice (tick : 0 < market.tickSize)
    (spread : market.bestBid < market.bestAsk) : market.bestBid < market.minPostOnlySellPrice := by
  have above := Int.le_ceil (market.bestBid / market.tickSize)
  rw [div_le_iff₀ tick] at above
  have step : ((⌈market.bestBid / market.tickSize⌉ : ℚ) + minPriceImprovementTicks) *
      market.tickSize = ⌈market.bestBid / market.tickSize⌉ * market.tickSize + market.tickSize := by
    simp only [minPriceImprovementTicks]
    ring
  unfold minPostOnlySellPrice
  rw [if_neg tick.ne']
  simp only [step]
  exact lt_min (by linarith) spread

theorem wouldCross_adjustedPrice (tick : 0 < market.tickSize)
    (spread : market.bestBid < market.bestAsk) (isBuy : Bool) (price : ℚ) :
    market.wouldCross isBuy (market.adjustedPrice isBuy price) = false := by
  unfold adjustedPrice
  by_cases crosses : market.wouldCross isBuy price = true
  · rw [if_pos crosses]
    cases isBuy with
    | true => simpa [wouldCross, postOnlyPrice] using maxPostOnlyBuyPrice_lt tick spread
    | false => simpa [wouldCross, postOnlyPrice] using lt_minPostOnlySellPrice tick spread
  · rw [if_neg crosses]
    exact Bool.not_eq_true _ |>.mp crosses

end Prices

end MarketState

/-! ## Orders that are posted -/

namespace PostOnlyManager

section Orders

variable {manager : PostOnlyManager} {market : MarketState} {order : PostOnlyOrder}

/-- The number of adjustments of a price that can be posted. -/
def adjustmentsOf (market : MarketState) (isBuy : Bool) (price : ℚ) : Nat :=
  if market.wouldCross isBuy price = false then 0 else 1

theorem countAdjustments_eq (manager : PostOnlyManager) (order : PostOnlyOrder)
    (adjustments : Nat) :
    ∃ adjustedOrders totalAdjustments, manager.countAdjustments order adjustments =
      ({ order with
          adjustmentCount := if 0 < adjustments then adjustments else order.adjustmentCount },
        { manager with
          adjustedOrders := adjustedOrders
          totalAdjustments := totalAdjustments }) := by
  unfold countAdjustments
  by_cases some_ : 0 < adjustments
  · exact ⟨_, _, by rw [if_pos some_, if_pos some_]⟩
  · exact ⟨manager.adjustedOrders, manager.totalAdjustments, by rw [if_neg some_, if_neg some_]⟩

theorem validate_posts
    (posts : market.Posts manager.minSpreadBps order.isBuy order.requestedPrice) :
    manager.validate market order =
      let counted := manager.countAdjustments order
        (adjustmentsOf market order.isBuy order.requestedPrice)
      counted.2.post counted.1 (market.adjustedPrice order.isBuy order.requestedPrice) := by
  obtain ⟨spread, free, positive⟩ := posts
  unfold validate adjustmentsOf
  rw [if_neg (not_lt.mpr spread), MarketState.calculatePostOnlyPrice_eq]
  simp only [free, if_true]
  split
  · rw [if_neg (by decide), if_neg (not_le.mpr positive)]
  · rw [if_neg (by decide), if_neg (not_le.mpr positive)]

theorem validate_refuses
    (refused : ¬ market.Posts manager.minSpreadBps order.isBuy order.requestedPrice) :
    (manager.validate market order).1.isPosted = order.isPosted ∧
      (manager.validate market order).1.orderId = order.orderId ∧
      ∃ adjustedOrders totalAdjustments, (manager.validate market order).2 = { manager with
        rejectedOrders := castU64 (manager.rejectedOrders + 1)
        adjustedOrders := adjustedOrders
        totalAdjustments := totalAdjustments } := by
  unfold validate
  by_cases tight : market.spreadBps < manager.minSpreadBps
  · rw [if_pos tight]
    exact ⟨rfl, rfl, _, _, rfl⟩
  · obtain ⟨adjusted, total, counted⟩ := manager.countAdjustments_eq order
      (market.calculatePostOnlyPrice order.isBuy order.requestedPrice).2
    rw [if_neg tight]
    simp only [counted]
    rw [MarketState.calculatePostOnlyPrice_eq]
    by_cases crosses : market.wouldCross order.isBuy
        (market.adjustedPrice order.isBuy order.requestedPrice) = false
    · have first := refused
      unfold MarketState.Posts at first
      have low : market.adjustedPrice order.isBuy order.requestedPrice ≤ 0 := by
        by_contra positive
        exact first ⟨not_lt.mp tight, crosses, not_le.mp positive⟩
      simp only [if_pos low]
      split
      · exact ⟨rfl, rfl, _, _, rfl⟩
      · exact ⟨rfl, rfl, _, _, rfl⟩
    · have asked : ¬ market.wouldCross order.isBuy order.requestedPrice = false := by
        intro free
        unfold MarketState.adjustedPrice at crosses
        rw [free] at crosses
        exact crosses free
      simp only [if_neg crosses, if_neg asked, if_pos (Nat.le_refl maxPriceAdjustments)]
      exact ⟨rfl, rfl, _, _, rfl⟩

theorem prepare_validates (enabled : manager.enabled = true)
    (present : manager.marketState = some market) (nowNs : Nat) (symbol : String) (isBuy : Bool)
    (size requestedPrice : ℚ) :
    ∃ order, manager.preparePostOnlyOrder nowNs symbol isBuy size requestedPrice =
        manager.drawId.validate market order ∧
      order.orderId = manager.orderCounter ∧ order.isBuy = isBuy ∧
      order.requestedPrice = requestedPrice ∧ order.adjustmentCount = 0 ∧
      order.isPosted = false := by
  unfold preparePostOnlyOrder
  simp only [drawId, enabled, present, Bool.not_true, Bool.false_eq_true, if_false]
  exact ⟨_, rfl, rfl, rfl, rfl, rfl, rfl⟩

theorem posted_eq (posts : market.Posts manager.minSpreadBps order.isBuy order.requestedPrice)
    (fresh : order.adjustmentCount = 0) :
    (manager.validate market order).1 = { order with
      orderId := manager.orderCounter
      postedPrice := market.adjustedPrice order.isBuy order.requestedPrice
      adjustmentCount := adjustmentsOf market order.isBuy order.requestedPrice
      isPosted := true } := by
  rw [validate_posts posts]
  obtain ⟨adjusted, total, counted⟩ := manager.countAdjustments_eq order
    (adjustmentsOf market order.isBuy order.requestedPrice)
  simp only [counted, post, recordOrder, fresh]
  congr 1
  unfold adjustmentsOf
  split
  · rfl
  · rfl

theorem posts_of_posted (unposted : order.isPosted = false)
    (posted : (manager.validate market order).1.isPosted = true) :
    market.Posts manager.minSpreadBps order.isBuy order.requestedPrice := by
  by_contra refused
  have same := (validate_refuses refused).1
  rw [same, unposted] at posted
  exact absurd posted Bool.false_ne_true

theorem wouldCross_eq_false {isBuy : Bool} {price : ℚ} :
    market.wouldCross isBuy price = false ↔
      (isBuy = true → price < market.bestAsk) ∧ (isBuy = false → market.bestBid < price) := by
  cases isBuy with
  | true => simp [MarketState.wouldCross]
  | false => simp [MarketState.wouldCross]

theorem adjustmentsOf_le (market : MarketState) (isBuy : Bool) (price : ℚ) :
    adjustmentsOf market isBuy price ≤ 1 := by
  unfold adjustmentsOf
  split
  · exact Nat.zero_le 1
  · exact Nat.le_refl 1

/-- An enabled manager posts no order that takes liquidity; and where there is a spread that is wide
enough, and the adjusted price is positive, it posts the order after one adjustment at most, at the
price that was asked for if that takes none. -/
theorem postOnly_prices (manager : PostOnlyManager) (market : MarketState) (nowNs : Nat)
    (symbol : String) (isBuy : Bool) (size requestedPrice : ℚ) (enabled : manager.enabled = true)
    (present : manager.marketState = some market) (tick : 0 < market.tickSize) :
    let order := (manager.preparePostOnlyOrder nowNs symbol isBuy size requestedPrice).1
    (order.isPosted = true →
      (isBuy = true → order.postedPrice < market.bestAsk) ∧
        (isBuy = false → market.bestBid < order.postedPrice)) ∧
    (market.bestBid < market.bestAsk → manager.minSpreadBps ≤ market.spreadBps →
      0 < market.adjustedPrice isBuy requestedPrice →
        order.isPosted = true ∧ order.adjustmentCount ≤ 1 ∧
          (market.wouldCross isBuy requestedPrice = false →
            order.postedPrice = requestedPrice)) := by
  obtain ⟨order, prepared, -, side, price, fresh, unposted⟩ :=
    prepare_validates enabled present nowNs symbol isBuy size requestedPrice
  rw [prepared]
  constructor
  · intro posted
    have posts := @posts_of_posted manager.drawId market order unposted posted
    have free := posts.2.1
    rw [posted_eq posts fresh]
    rw [side, price] at free ⊢
    exact wouldCross_eq_false.mp free
  · intro spread wide positive
    have free := MarketState.wouldCross_adjustedPrice tick spread isBuy requestedPrice
    have posts : market.Posts manager.drawId.minSpreadBps order.isBuy order.requestedPrice := by
      rw [side, price]
      exact ⟨wide, free, positive⟩
    rw [posted_eq posts fresh]
    refine ⟨rfl, adjustmentsOf_le market order.isBuy order.requestedPrice, ?_⟩
    intro asked
    rw [side, price]
    unfold MarketState.adjustedPrice
    rw [asked]
    rfl

end Orders

/-- The market of the tests. -/
def testMarket : MarketState := { bestBid := 50000, bestAsk := 50010, tickSize := 1 / 100 }

/-- The manager of the tests, at their market. -/
def testManager : PostOnlyManager := (new (1 / 2) 100).updateMarketState testMarket

/-- A buy above the best ask is posted below it. -/
theorem postOnly_prices_above :
    (testManager.preparePostOnlyOrder 0 "BTC" true 1 50015).1.isPosted = true ∧
      (testManager.preparePostOnlyOrder 0 "BTC" true 1 50015).1.postedPrice < 50010 := by
  have prices := postOnly_prices testManager testMarket 0 "BTC" true 1 50015 rfl rfl
    (by decide +kernel)
  have posted := prices.2 (by decide +kernel) (by decide +kernel) (by decide +kernel)
  exact ⟨posted.1, (prices.1 posted.1).1 rfl⟩

end PostOnlyManager

end TradingBot.Oms.PostOnly
