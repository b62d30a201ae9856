import Mathlib.Data.List.Nodup
import Mathlib.Data.Rat.Floor
import TradingBot.Foundation.BinaryHeap
import TradingBot.Foundation.MachineInt

/-!
# The smart order router

`sor_engine.rs`: the routes of an order are scored, kept in a heap whose order is turned around, and
taken out of it as the vector that the heap keeps. How floats are rounded is left open, except that
a conversion to an integer truncates and saturates; an integer computation that leaves its type
stops the program.
-/

open MachineInt

namespace TradingBot.Execution.Sor

/-- `Venue`. -/
inductive Venue where
  | spot
  | marginIsolated
  | marginCross
  | futuresUsdM
  | futuresCoinM
  deriving DecidableEq, Repr

/-- `OrderSide`. -/
inductive OrderSide where
  | buy
  | sell

/-- `VenueLevel`. -/
structure VenueLevel where
  venue : Venue
  priceBps : Int
  volume : Nat
  feeBps : Int
  latencyUs : Nat
  available : Bool

/-- `ExecutionRoute`. -/
structure ExecutionRoute where
  venue : Venue
  quantity : Nat
  expectedPriceBps : Int
  totalCostBps : Int
  estimatedSlippageBps : Int
  priorityScore : Int

/-- `VenueInfo`, with what a route depends on. -/
structure VenueInfo where
  venue : Venue
  makerRebateBps : Int
  takerFeeBps : Int
  minOrderSize : Nat
  maxOrderSize : Nat

/-- `SorState`. -/
inductive SorState where
  | idle
  | analyzing
  | routing
  | executing
  | completed
  | failed

/-- `RoutingConfig`. -/
structure RoutingConfig where
  preferMaker : Bool
  maxSlippageBps : Nat
  allowSplitting : Bool
  minSplitQuantity : Nat
  latencyWeight : Nat
  feeWeight : Nat
  liquidityWeight : Nat

/-- The default configuration. -/
def RoutingConfig.default : RoutingConfig where
  preferMaker := true
  maxSlippageBps := 50
  allowSplitting := true
  minSplitQuantity := 100
  latencyWeight := 30
  feeWeight := 40
  liquidityWeight := 30

/-- `SorEngine`, with what a route depends on. -/
structure SorEngine where
  state : SorState
  venues : List VenueInfo
  routingConfig : RoutingConfig
  /-- `update_venue` keeps one entry for each venue. -/
  distinct : (venues.map VenueInfo.venue).Nodup

/-- The venues after one of them is written. -/
def putVenue (info : VenueInfo) : List VenueInfo → List VenueInfo
  | [] => [info]
  | first :: rest => if first.venue = info.venue then info :: rest else first :: putVenue info rest

theorem mem_putVenue (info : VenueInfo) (venues : List VenueInfo) (venue : Venue) :
    venue ∈ (putVenue info venues).map VenueInfo.venue ↔
      venue = info.venue ∨ venue ∈ venues.map VenueInfo.venue := by
  induction venues with
  | nil => simp [putVenue]
  | cons first rest ih =>
    unfold putVenue
    split
    next same => simp [same]
    next =>
      rw [List.map_cons, List.mem_cons, List.map_cons, List.mem_cons, ih]
      exact or_left_comm

theorem putVenue_distinct (info : VenueInfo) {venues : List VenueInfo}
    (distinct : (venues.map VenueInfo.venue).Nodup) :
    ((putVenue info venues).map VenueInfo.venue).Nodup := by
  induction venues with
  | nil => exact List.nodup_singleton _
  | cons first rest ih =>
    rw [List.map_cons, List.nodup_cons] at distinct
    unfold putVenue
    split
    next same =>
      rw [List.map_cons, List.nodup_cons]
      exact ⟨same ▸ distinct.1, distinct.2⟩
    next other =>
      rw [List.map_cons, List.nodup_cons]
      refine ⟨fun member => ?_, ih distinct.2⟩
      obtain same | there := (mem_putVenue info rest first.venue).mp member
      · exact other same
      · exact distinct.1 there

/-- A float as a signed 64-bit integer. -/
def floatToI64 (value : ℚ) : Int :=
  max i64Min (min i64Max (if 0 ≤ value then ⌊value⌋ else ⌈value⌉))

/-- A signed 64-bit integer as an unsigned one. -/
def i64ToU64 (value : Int) : Nat := (value % u64Size).toNat

/-- The routes in the order of the heap: `Ord` of `ExecutionRoute` compares the other way around. -/
def routeLe (left right : ExecutionRoute) : Bool := right.priorityScore ≤ left.priorityScore

section Floats

-- How the result of an operation of floats is rounded.
variable (round : ℚ → ℚ)

/-- The slippage that is estimated for a quantity at a level. -/
def slippageEstimateBps (quantity volume : Nat) : Int :=
  if 0 < volume then floatToI64 (round (round (round quantity / round volume) * 10)) else 100

def calculateRouteScore (config : RoutingConfig) (venueInfo : VenueInfo) (level : VenueLevel)
    (quantity : Nat) : Option ExecutionRoute := do
  let effectiveFeeBps :=
    if config.preferMaker then venueInfo.makerRebateBps else venueInfo.takerFeeBps
  let slippage := slippageEstimateBps round quantity level.volume
  let fee ← i64 |effectiveFeeBps|
  let totalCostBps ← i64 (fee + slippage)
  let quick ← i64 (100 - floatToI64 (min (round (round level.latencyUs / 100)) 100))
  let latency ← i64 (quick * castI64 config.latencyWeight)
  let cheap ← i64 (50 - totalCostBps)
  let fees ← i64 (max cheap 0 * castI64 config.feeWeight)
  let liquidity ← i64 (floatToI64 (min (round (round level.volume / 10000)) 100) *
    castI64 config.liquidityWeight)
  let first ← i64 (latency.tdiv 100 + fees.tdiv 100)
  let priorityScore ← i64 (first + liquidity.tdiv 100)
  some {
    venue := venueInfo.venue
    quantity := quantity
    expectedPriceBps := level.priceBps
    totalCostBps := totalCostBps
    estimatedSlippageBps := slippage
    priorityScore := priorityScore }

namespace SorEngine

/-- `new`, with the default venues. -/
def new (routingConfig : RoutingConfig) : SorEngine where
  state := .idle
  venues :=
    [⟨.spot, 0, 10, 10, 10000000⟩, ⟨.marginIsolated, 0, 10, 10, 5000000⟩,
      ⟨.futuresUsdM, 2, 4, 1, 100000000⟩]
  routingConfig := routingConfig
  distinct := by decide

def updateVenue (engine : SorEngine) (info : VenueInfo) : SorEngine where
  state := engine.state
  venues := putVenue info engine.venues
  routingConfig := engine.routingConfig
  distinct := putVenue_distinct info engine.distinct

def isVenueSuitable (venue : VenueInfo) (quantity : Nat) (_side : OrderSide) : Bool :=
  venue.minOrderSize ≤ quantity ∧ quantity ≤ venue.maxOrderSize

/-- The level of the market that a venue is scored with. -/
def levelOf (market : List VenueLevel) (venue : VenueInfo) : Option VenueLevel :=
  market.find? fun level => level.venue = venue.venue ∧ level.available

/-- The loop of `find_best_route` over the venues. -/
def scoreVenues (config : RoutingConfig) (side : OrderSide) (quantity : Nat)
    (market : List VenueLevel) : List ExecutionRoute → List VenueInfo →
      Option (List ExecutionRoute)
  | routes, [] => some routes
  | routes, venue :: rest =>
    if !isVenueSuitable venue quantity side then
      scoreVenues config side quantity market routes rest
    else
      match levelOf market venue with
      | none => scoreVenues config side quantity market routes rest
      | some level => (calculateRouteScore round config venue level quantity).bind fun route =>
        scoreVenues config side quantity market
          (if i64ToU64 route.totalCostBps ≤ config.maxSlippageBps
            then BinaryHeap.push routeLe routes route else routes) rest

end SorEngine

end Floats

/-- The loop of `optimize_split`: what is left to allocate, and the routes of the split. -/
def allocate (minSplitQuantity : Nat) :
    Nat → List ExecutionRoute → List ExecutionRoute → Nat × List ExecutionRoute
  | remaining, split, [] => (remaining, split)
  | remaining, split, route :: rest =>
    if remaining = 0 then (remaining, split)
    else
      let quantity := min remaining route.quantity
      if minSplitQuantity ≤ quantity then
        allocate minSplitQuantity (remaining - quantity) (split ++ [{ route with quantity }]) rest
      else allocate minSplitQuantity remaining split rest

def optimizeSplit (config : RoutingConfig) (routes : List ExecutionRoute) (totalQuantity : Nat)
    (_side : OrderSide) : Option (List ExecutionRoute) :=
  if routes = [] ∨ totalQuantity = 0 then some routes
  else
    let sorted := routes.mergeSort fun left right => right.priorityScore ≤ left.priorityScore
    match allocate config.minSplitQuantity totalQuantity [] sorted with
    | (_, []) => some []
    | (remaining, best :: others) =>
      if remaining = 0 then some (best :: others)
      else (u64 (best.quantity + remaining)).map fun quantity =>
        { best with quantity } :: others

/-- The routes after a split, if there is one. -/
def splitRoutes (config : RoutingConfig) (side : OrderSide) (quantity : Nat)
    (routes : List ExecutionRoute) : Option (List ExecutionRoute) :=
  if config.allowSplitting then
    (u64 (config.minSplitQuantity * 2)).bind fun twice =>
      if twice < quantity then optimizeSplit config routes quantity side else some routes
  else some routes

def SorEngine.findBestRoute (round : ℚ → ℚ) (engine : SorEngine) (side : OrderSide)
    (quantity : Nat) (market : List VenueLevel) : Option (List ExecutionRoute × SorEngine) := do
  let config := engine.routingConfig
  let routes ← scoreVenues round config side quantity market [] engine.venues
  let result ← splitRoutes config side quantity routes
  some (result, { engine with state := .routing })

end TradingBot.Execution.Sor
