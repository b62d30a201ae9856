import Mathlib.Algebra.Order.Ring.Rat
import TradingBot.Foundation.Dict

/-!
# Legging risk shield

`legging_risk_shield.rs`: the legs of an arbitrage trade are to fill together. The shield keeps the
active trades, takes the reports on their legs, and tells whether a trade is to go on, is complete
or is to be aborted. Quantities and prices are exact rationals. The reading of the clock during a
call is an argument in nanoseconds and is not before the submission of any leg.
-/

namespace TradingBot.Arbitrage

def maxLegExecutionMs : Nat := 500

/-- `LegStatus`. -/
inductive LegStatus where
  | pending
  | submitted
  | partiallyFilled
  | filled
  | cancelled
  | failed
  | expired
  deriving DecidableEq, Repr

/-- `LegAction`. -/
inductive LegAction where
  | continue_
  | abortTrade
  | completeTrade
  deriving DecidableEq, Repr

/-- `TradeLeg`. -/
structure TradeLeg where
  legId : Nat
  arbId : Nat
  symbol : String
  isBuy : Bool
  quantity : ℚ
  limitPrice : Option ℚ
  status : LegStatus
  fillPrice : Option ℚ
  fillQuantity : ℚ
  /-- Submission timestamp in nanoseconds; zero before the submission. -/
  submittedAtNs : Nat
  filledAtNs : Option Nat
  errorMessage : Option String

namespace TradeLeg

def new (legId arbId : Nat) (symbol : String) (isBuy : Bool) (quantity : ℚ) : TradeLeg where
  legId := legId
  arbId := arbId
  symbol := symbol
  isBuy := isBuy
  quantity := quantity
  limitPrice := none
  status := .pending
  fillPrice := none
  fillQuantity := 0
  submittedAtNs := 0
  filledAtNs := none
  errorMessage := none

def isFilled (leg : TradeLeg) : Bool :=
  leg.status = .filled && |leg.fillQuantity - leg.quantity| < 1 / 10 ^ 8

def elapsedMs (leg : TradeLeg) (nowNs : Nat) : Nat :=
  if leg.submittedAtNs = 0 then 0 else (nowNs - leg.submittedAtNs) / 1000000

def isTimedOut (leg : TradeLeg) (nowNs : Nat) : Bool := maxLegExecutionMs < leg.elapsedMs nowNs

/-- What `update_leg_status` writes into a leg. -/
def report (leg : TradeLeg) (status : LegStatus) (fillPrice : Option ℚ) (fillQuantity : ℚ)
    (nowNs : Nat) : TradeLeg :=
  { leg with
    status := status
    fillPrice := fillPrice
    fillQuantity := fillQuantity
    filledAtNs := if status = .filled then some nowNs else leg.filledAtNs }

end TradeLeg

/-- `ArbTrade`. -/
structure ArbTrade where
  arbId : Nat
  legs : List TradeLeg
  isComplete : Bool
  isAborted : Bool

namespace ArbTrade

def new (arbId : Nat) (legs : List TradeLeg) : ArbTrade where
  arbId := arbId
  legs := legs
  isComplete := false
  isAborted := false

def allLegsFilled (trade : ArbTrade) : Bool := trade.legs.all TradeLeg.isFilled

def anyLegFailed (trade : ArbTrade) : Bool :=
  trade.legs.any fun leg => leg.status = .failed || leg.status = .expired

def anyLegTimedOut (trade : ArbTrade) (nowNs : Nat) : Bool :=
  trade.legs.any fun leg => leg.isTimedOut nowNs

def filledLegCount (trade : ArbTrade) : Nat := trade.legs.countP TradeLeg.isFilled

def shouldAbortTrade (trade : ArbTrade) (nowNs : Nat) : Bool :=
  if trade.anyLegFailed then true
  else if trade.anyLegTimedOut nowNs then true
  else if 0 < trade.filledLegCount ∧ trade.filledLegCount < trade.legs.length then
    trade.legs.any fun leg => !leg.isFilled && leg.isTimedOut nowNs
  else false

/-- The legs of a trade after a report on the first leg with an id. -/
def reportLeg (legId : Nat) (change : TradeLeg → TradeLeg) :
    List TradeLeg → Option (List TradeLeg)
  | [] => none
  | leg :: rest =>
    if leg.legId = legId then some (change leg :: rest)
    else (reportLeg legId change rest).map (leg :: ·)

/-- The trade after a report on one of its legs. -/
def report (trade : ArbTrade) (legId : Nat) (status : LegStatus) (fillPrice : Option ℚ)
    (fillQuantity : ℚ) (nowNs : Nat) : Option ArbTrade :=
  (reportLeg legId (fun leg => leg.report status fillPrice fillQuantity nowNs) trade.legs).map
    fun legs => { trade with legs := legs }

end ArbTrade

/-- `CancelOrder`. -/
structure CancelOrder where
  legId : Nat
  symbol : String
  reason : String

/-- `LeggingRiskShield`. -/
structure LeggingRiskShield where
  activeTrades : Dict Nat ArbTrade
  nextArbId : Nat
  enabled : Bool
  totalArbsInitiated : Nat
  successfulCompletions : Nat
  abortedTrades : Nat
  legFailures : Nat
  cancellationsExecuted : Nat
  maxConcurrentArbs : Nat

namespace LeggingRiskShield

def new (maxConcurrent : Nat) : LeggingRiskShield where
  activeTrades := .empty
  nextArbId := 1
  enabled := true
  totalArbsInitiated := 0
  successfulCompletions := 0
  abortedTrades := 0
  legFailures := 0
  cancellationsExecuted := 0
  maxConcurrentArbs := maxConcurrent

def createArbTrade (shield : LeggingRiskShield) (legs : List TradeLeg) :
    Option Nat × LeggingRiskShield :=
  if !shield.enabled then (none, shield)
  else if shield.maxConcurrentArbs ≤ shield.activeTrades.size then (none, shield)
  else
    let arbId := shield.nextArbId
    let trade := ArbTrade.new arbId (legs.map fun leg => { leg with arbId := arbId })
    (some arbId, { shield with
      activeTrades := shield.activeTrades.put arbId trade
      nextArbId := arbId + 1
      totalArbsInitiated := shield.totalArbsInitiated + 1 })

/-- The shield with a trade written back. -/
def keep (shield : LeggingRiskShield) (arbId : Nat) (trade : ArbTrade) : LeggingRiskShield :=
  { shield with activeTrades := shield.activeTrades.put arbId trade }

def updateLegStatus (shield : LeggingRiskShield) (arbId legId : Nat) (status : LegStatus)
    (fillPrice : Option ℚ) (fillQuantity : ℚ) (nowNs : Nat) :
    Option LegAction × LeggingRiskShield :=
  match shield.activeTrades.get arbId with
  | none => (none, shield)
  | some trade =>
    match trade.report legId status fillPrice fillQuantity nowNs with
    | none => (none, shield)
    | some reported =>
      if reported.shouldAbortTrade nowNs then (some .abortTrade, shield.keep arbId reported)
      else if reported.allLegsFilled then
        (some .completeTrade, shield.keep arbId { reported with isComplete := true })
      else (some .continue_, shield.keep arbId reported)

def abortTrade (shield : LeggingRiskShield) (arbId : Nat) :
    List CancelOrder × LeggingRiskShield :=
  match shield.activeTrades.get arbId with
  | none => ([], shield)
  | some trade =>
    let unfilled := trade.legs.filter fun leg => !leg.isFilled && leg.status ≠ .cancelled
    let failures := trade.legs.countP fun leg => leg.status = .failed || leg.status = .expired
    let orders := unfilled.map fun leg =>
      { legId := leg.legId, symbol := leg.symbol, reason := "arb_aborted" }
    (orders, { shield with
      activeTrades := shield.activeTrades.put arbId { trade with isAborted := true }
      abortedTrades := shield.abortedTrades + 1
      cancellationsExecuted := shield.cancellationsExecuted + orders.length
      legFailures := shield.legFailures + failures })

def completeTrade (shield : LeggingRiskShield) (arbId : Nat) :
    Option ArbTrade × LeggingRiskShield :=
  match shield.activeTrades.get arbId with
  | none => (none, shield)
  | some trade => (some trade, { shield with
      activeTrades := shield.activeTrades.pop arbId
      successfulCompletions := shield.successfulCompletions + 1 })

/-- The entry `monitor_active_trades` makes for a trade, if any. -/
def monitorEntry (nowNs : Nat) (entry : Nat × ArbTrade) : Option (Nat × LegAction) :=
  if entry.2.shouldAbortTrade nowNs then some (entry.1, .abortTrade)
  else if entry.2.allLegsFilled then some (entry.1, .completeTrade)
  else none

def monitorActiveTrades (shield : LeggingRiskShield) (nowNs : Nat) : List (Nat × LegAction) :=
  shield.activeTrades.entries.filterMap (monitorEntry nowNs)

def setEnabled (shield : LeggingRiskShield) (enabled : Bool) : LeggingRiskShield :=
  { shield with enabled := enabled }

end LeggingRiskShield

end TradingBot.Arbitrage
