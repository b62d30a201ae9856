import Mathlib.Data.Rat.Floor
import TradingBot.Foundation.MachineInt

/-!
# Footprint matrix

`footprint_builder.rs`: the volume of a candle by price level and side. The prices, the volumes and
the size of a tick are exact rationals.
-/

open MachineInt

namespace TradingBot.Orderflow

/-- `FootprintLevel`. -/
structure FootprintLevel where
  price : ℚ
  bidVolume : ℚ
  askVolume : ℚ
  tradeCount : Nat
  delta : ℚ
  imbalanceRatio : ℚ
  lastUpdateTs : Nat

namespace FootprintLevel

def new (price : ℚ) : FootprintLevel where
  price := price
  bidVolume := 0
  askVolume := 0
  tradeCount := 0
  delta := 0
  imbalanceRatio := 0
  lastUpdateTs := 0

/-- The side of a trade gains its volume: the bid when the buyer is the maker. -/
def trade (level : FootprintLevel) (volume : ℚ) (isBuyerMaker : Bool) : FootprintLevel :=
  if isBuyerMaker then { level with bidVolume := level.bidVolume + volume }
  else { level with askVolume := level.askVolume + volume }

def update (level : FootprintLevel) (volume : ℚ) (isBuyerMaker : Bool) (ts : Nat) :
    FootprintLevel :=
  let traded := level.trade volume isBuyerMaker
  let total := traded.bidVolume + traded.askVolume
  { traded with
    tradeCount := (traded.tradeCount + 1) % (u32Max + 1)
    delta := traded.askVolume - traded.bidVolume
    imbalanceRatio := if 0 < total then (traded.askVolume - traded.bidVolume) / total else 0
    lastUpdateTs := ts }

def reset (level : FootprintLevel) : FootprintLevel :=
  { level with bidVolume := 0, askVolume := 0, tradeCount := 0, delta := 0, imbalanceRatio := 0 }

end FootprintLevel

/-- `f64::round`: to the nearest integer, halves away from zero. -/
def roundHalfAway (value : ℚ) : Int :=
  if 0 ≤ value then round value else -round (-value)

/-- `FootprintMatrix`, without the candle times that nothing sets. -/
structure FootprintMatrix where
  levels : List FootprintLevel
  minPrice : ℚ
  maxPrice : ℚ
  tickSize : ℚ
  levelCount : Nat
  /-- An index below the count is in bounds. -/
  counted : levels.length = levelCount

namespace FootprintMatrix

/-- How many levels `FootprintMatrix::new` makes. -/
def countLevels (minPrice maxPrice tickSize : ℚ) : Nat :=
  ⌈(maxPrice - minPrice) / tickSize⌉.toNat + 1

/-- The levels of `FootprintMatrix::new`. -/
def makeLevels (minPrice tickSize : ℚ) (levelCount : Nat) : List FootprintLevel :=
  (List.range levelCount).map fun (i : Nat) => .new (minPrice + i * tickSize)

def new (minPrice maxPrice tickSize : ℚ) : FootprintMatrix where
  levels := makeLevels minPrice tickSize (countLevels minPrice maxPrice tickSize)
  minPrice := minPrice
  maxPrice := maxPrice
  tickSize := tickSize
  levelCount := countLevels minPrice maxPrice tickSize
  counted := by rw [makeLevels, List.length_map, List.length_range]

def priceToIndex (matrix : FootprintMatrix) (price : ℚ) : Option Nat :=
  if price < matrix.minPrice ∨ matrix.maxPrice < price then none
  else
    let offset := (roundHalfAway ((price - matrix.minPrice) / matrix.tickSize)).toNat
    if offset < matrix.levelCount then some offset else none

def updateTick (matrix : FootprintMatrix) (price volume : ℚ) (isBuyerMaker : Bool) (ts : Nat) :
    FootprintMatrix :=
  match matrix.priceToIndex price with
  | none => matrix
  | some index =>
    { matrix with
      levels := matrix.levels.modify index fun level => level.update volume isBuyerMaker ts
      counted := (List.length_modify _ _ _).trans matrix.counted }

def reset (matrix : FootprintMatrix) (newMin newMax : ℚ) : FootprintMatrix :=
  { matrix with
    levels := matrix.levels.map FootprintLevel.reset
    minPrice := newMin
    maxPrice := newMax
    counted := (List.length_map _).trans matrix.counted }

end FootprintMatrix

end TradingBot.Orderflow
