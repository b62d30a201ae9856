import TradingBot.Foundation.MachineInt

/-!
# The counters of profit and loss

`atomic_counters.rs`: any number of threads call the two updates of a counter, and every atomic
load, store, addition and exchange is a step of its own. A sum that leaves the machine's integers
ends the run.
-/

open MachineInt

namespace TradingBot.Concurrency

def scaleFactor : Nat := 1000000000

/-- The conversion of a whole number to `i64`, which stops at the ends of the type. -/
def saturate (value : Int) : Int := max i64Min (min i64Max value)

/-- The product in `to_scaled` without its fraction. -/
def exactScaled (value : ℚ) : Int := (value * scaleFactor).num.tdiv (value * scaleFactor).den

def toScaled (value : ℚ) : Int := saturate (exactScaled value)

/-- `AtomicPnLCounter`. -/
structure AtomicPnLCounter where
  realizedPnl : Int
  unrealizedPnl : Int
  totalPnl : Int
  tradeCount : Nat
  winCount : Nat
  lossCount : Nat
  maxDrawdown : Int
  peakPnl : Int
  lastUpdateNs : Nat

/-- `new`, at a reading of the clock. -/
def AtomicPnLCounter.new (nowNs : Nat) : AtomicPnLCounter where
  realizedPnl := 0
  unrealizedPnl := 0
  totalPnl := 0
  tradeCount := 0
  winCount := 0
  lossCount := 0
  maxDrawdown := 0
  peakPnl := 0
  lastUpdateNs := nowNs

/-- An update of a counter, with the reading of the clock at its end. -/
inductive PnlUpdate where
  | addRealizedPnl (pnl : ℚ) (nowNs : Nat)
  | updateUnrealizedPnl (pnl : ℚ) (nowNs : Nat)
  deriving DecidableEq, Repr

/-- What a call is about to do. -/
inductive PnlStage where
  /-- To add to the realized or to set the unrealized amount. -/
  | write
  /-- To load the other amount. -/
  | loadOther
  /-- To store the sum of the two. -/
  | storeTotal (other : Int)
  | countTrade (currentPnl : Int)
  /-- To count the win or the loss. -/
  | countOutcome (currentPnl : Int)
  | loadPeak (currentPnl : Int)
  /-- To exchange the peak. -/
  | raisePeak (currentPnl peak : Int)
  | loadMaxDrawdown (drawdown : Int)
  /-- To exchange the maximum drawdown. -/
  | raiseMaxDrawdown (drawdown maxDd : Int)
  /-- To store the timestamp. -/
  | updateTimestamp
  /-- Nothing more. -/
  | returned
  deriving DecidableEq, Repr

/-- A call of an update: its own amount after it was written, which an addition returns, and its
stage. -/
structure PnlCall where
  update : PnlUpdate
  own : Int
  stage : PnlStage
  deriving DecidableEq, Repr

/-- A call that starts. -/
def PnlCall.enter (update : PnlUpdate) : PnlCall where
  update := update
  own := 0
  stage := .write

/-- A call at another stage. -/
def PnlCall.goto (call : PnlCall) (stage : PnlStage) : PnlCall := { call with stage := stage }

/-- The stage of `update_peak_and_drawdown` after a peak was read that is not to be raised: a
drawdown is looked at if it is positive. -/
def stageAfterPeak (currentPnl peak : Int) : Option PnlStage :=
  (i64 (peak - currentPnl)).map fun drawdown =>
    if 0 < drawdown then .loadMaxDrawdown drawdown else .updateTimestamp

/-- The stage of `update_peak_and_drawdown` after the peak was read. -/
def stageAtPeak (currentPnl peak : Int) : Option PnlStage :=
  if peak < currentPnl then some (.raisePeak currentPnl peak) else stageAfterPeak currentPnl peak

/-- The stage of `update_peak_and_drawdown` after the maximum drawdown was read. -/
def stageAtDrawdown (drawdown maxDd : Int) : PnlStage :=
  if maxDd < drawdown then .raiseMaxDrawdown drawdown maxDd else .updateTimestamp

/-- The first step of an update. -/
def writeOwn (counter : AtomicPnLCounter) (call : PnlCall) :
    Option (AtomicPnLCounter × PnlCall) :=
  match call.update with
  | .addRealizedPnl pnl _ =>
    (i64 (counter.realizedPnl + toScaled pnl)).map fun newRealized =>
      ({ counter with realizedPnl := newRealized },
        { call with own := newRealized, stage := .loadOther })
  | .updateUnrealizedPnl pnl _ =>
    some ({ counter with unrealizedPnl := toScaled pnl },
      { call with own := toScaled pnl, stage := .loadOther })

/-- The other amount than the one an update writes. -/
def otherAmount (counter : AtomicPnLCounter) : PnlUpdate → Int
  | .addRealizedPnl .. => counter.unrealizedPnl
  | .updateUnrealizedPnl .. => counter.realizedPnl

/-- The stage of an update after the total is stored: only an addition is a trade. -/
def stageAfterTotal (total : Int) : PnlUpdate → PnlStage
  | .addRealizedPnl .. => .countTrade total
  | .updateUnrealizedPnl .. => .loadPeak total

/-- The amount of an update. -/
def PnlUpdate.pnl : PnlUpdate → ℚ
  | .addRealizedPnl pnl _ => pnl
  | .updateUnrealizedPnl pnl _ => pnl

/-- The clock at the end of an update. -/
def PnlUpdate.nowNs : PnlUpdate → Nat
  | .addRealizedPnl _ nowNs => nowNs
  | .updateUnrealizedPnl _ nowNs => nowNs

/-- The next step of a call. A weak exchange that fails for no reason reads the value that it
expected, and leaves the call where it was. -/
def next (counter : AtomicPnLCounter) (call : PnlCall) : Option (AtomicPnLCounter × PnlCall) :=
  match call.stage with
  | .write => writeOwn counter call
  | .loadOther =>
    some (counter, call.goto (.storeTotal (otherAmount counter call.update)))
  | .storeTotal other =>
    (i64 (call.own + other)).map fun total =>
      ({ counter with totalPnl := total }, call.goto (stageAfterTotal total call.update))
  | .countTrade currentPnl =>
    some ({ counter with tradeCount := castU64 (counter.tradeCount + 1) },
      call.goto (if call.update.pnl = 0 then .loadPeak currentPnl else .countOutcome currentPnl))
  | .countOutcome currentPnl =>
    some (
      if 0 < call.update.pnl then { counter with winCount := castU64 (counter.winCount + 1) }
      else { counter with lossCount := castU64 (counter.lossCount + 1) },
      call.goto (.loadPeak currentPnl))
  | .loadPeak currentPnl =>
    (stageAtPeak currentPnl counter.peakPnl).map fun stage => (counter, call.goto stage)
  | .raisePeak currentPnl peak =>
    if counter.peakPnl = peak then
      -- The peak read before is what the drawdown is measured from.
      (stageAfterPeak currentPnl peak).map fun stage =>
        ({ counter with peakPnl := currentPnl }, call.goto stage)
    else (stageAtPeak currentPnl counter.peakPnl).map fun stage => (counter, call.goto stage)
  | .loadMaxDrawdown drawdown =>
    some (counter, call.goto (stageAtDrawdown drawdown counter.maxDrawdown))
  | .raiseMaxDrawdown drawdown maxDd =>
    if counter.maxDrawdown = maxDd then
      some ({ counter with maxDrawdown := drawdown }, call.goto .updateTimestamp)
    else some (counter, call.goto (stageAtDrawdown drawdown counter.maxDrawdown))
  | .updateTimestamp =>
    some ({ counter with lastUpdateNs := call.update.nowNs }, call.goto .returned)
  | .returned => none

end TradingBot.Concurrency
