import TradingBot.Foundation.IdCounter

/-!
# The execution router

`execution_router.rs`: a parent order is split into child orders. The shares of a split are rounded
down and nothing takes what remains, and an iceberg shows its smallest size even of an order that
is below it.
-/

open MachineInt

namespace TradingBot.Execution

/-- `ExecAlgo`. -/
inductive ExecAlgo where
  | twap
  | vwap
  | iceberg
  | sniper
  deriving DecidableEq, Repr

/-- `Side`. -/
inductive Side where
  | buy
  | sell

/-- `ChildOrder`. -/
structure ChildOrder where
  orderId : Nat
  parentOrderId : Nat
  venueId : Nat
  side : Side
  priceMicro : Nat
  quantityMicro : Nat
  algo : ExecAlgo
  sequence : Nat
  totalSequences : Nat

/-- `ParentOrder`, as far as a split reads it. -/
structure ParentOrder where
  orderId : Nat
  side : Side
  totalQuantityMicro : Nat
  executedQuantityMicro : Nat
  algo : ExecAlgo
  timeHorizonMs : Nat
  venues : List Nat

def ParentOrder.remaining (parent : ParentOrder) : Nat :=
  parent.totalQuantityMicro - parent.executedQuantityMicro

/-- `ExecutionRouter`, as far as a split reads and changes it. -/
structure ExecutionRouter where
  orderCounter : Nat
  defaultVenues : List Nat

namespace ExecutionRouter

def new (defaultVenues : List Nat) : ExecutionRouter where
  orderCounter := 1
  defaultVenues := defaultVenues

def nextOrderId (router : ExecutionRouter) : Nat × ExecutionRouter :=
  (router.orderCounter, { router with orderCounter := castU64 (router.orderCounter + 1) })

/-- The venues of a split. -/
def venuesOf (router : ExecutionRouter) (parent : ParentOrder) : List Nat :=
  if parent.venues = [] then router.defaultVenues else parent.venues

/-- Some children are pushed in turn, each with an id of its own. -/
def pushChildren (router : ExecutionRouter) :
    List (Nat → ChildOrder) → List ChildOrder × ExecutionRouter
  | [] => ([], router)
  | child :: rest =>
    let (orderId, next) := router.nextOrderId
    let (children, final) := next.pushChildren rest
    (child orderId :: children, final)

/-- The number of slices of `split_twap`, one a second. -/
def numSlices (parent : ParentOrder) : Nat := min (max (parent.timeHorizonMs / 1000) 1) 100

/-- The venue of a slice, in rotation. -/
def rotated (venues : List Nat) (some_ : venues ≠ []) (i : Nat) : Nat :=
  venues.get ⟨i % venues.length, Nat.mod_lt _ (List.length_pos_iff.mpr some_)⟩

/-- `split_twap`; without any venue the rotation stops the program. -/
def splitTwap (router : ExecutionRouter) (parent : ParentOrder) (remaining : Nat) :
    Option (List ChildOrder × ExecutionRouter) :=
  let qtyPerSlice := remaining / numSlices parent
  let venues := router.venuesOf parent
  if some_ : venues = [] then none
  else some (router.pushChildren ((List.range (numSlices parent)).map fun i orderId => {
    orderId := orderId
    parentOrderId := parent.orderId
    venueId := rotated venues some_ i
    side := parent.side
    priceMicro := 0
    quantityMicro := qtyPerSlice
    algo := .twap
    sequence := i
    totalSequences := numSlices parent }))

/-- `split_vwap`; a venue without a price has the price zero. -/
def splitVwap (router : ExecutionRouter) (parent : ParentOrder) (remaining : Nat)
    (currentPrices : List (Nat × Nat)) : List ChildOrder × ExecutionRouter :=
  let venues := router.venuesOf parent
  if venues = [] then ([], router)
  else
    let qtyPerVenue := remaining / venues.length
    router.pushChildren (venues.zipIdx.map fun (venueId, i) orderId => {
      orderId := orderId
      parentOrderId := parent.orderId
      venueId := venueId
      side := parent.side
      priceMicro := ((currentPrices.find? fun price => price.1 = venueId).map Prod.snd).getD 0
      quantityMicro := qtyPerVenue
      algo := .vwap
      sequence := i
      totalSequences := venues.length })

/-- The part of an iceberg that is shown. -/
def displayQty (remaining : Nat) : Nat := max (remaining / 10) 10000

/-- `split_iceberg`; a number of slices that does not fit stops the program. -/
def splitIceberg (router : ExecutionRouter) (parent : ParentOrder) (remaining : Nat) :
    Option (List ChildOrder × ExecutionRouter) :=
  match (router.venuesOf parent).head? with
  | none => some ([], router)
  | some venueId =>
    (u64 (remaining + displayQty remaining)).map fun sum =>
      router.pushChildren [fun orderId => {
        orderId := orderId
        parentOrderId := parent.orderId
        venueId := venueId
        side := parent.side
        priceMicro := 0
        quantityMicro := displayQty remaining
        algo := .iceberg
        sequence := 0
        totalSequences := (sum - 1) / displayQty remaining }]

/-- `split_sniper`, at the largest price. -/
def splitSniper (router : ExecutionRouter) (parent : ParentOrder) (remaining : Nat) :
    List ChildOrder × ExecutionRouter :=
  let venues := router.venuesOf parent
  router.pushChildren (venues.zipIdx.map fun (venueId, i) orderId => {
    orderId := orderId
    parentOrderId := parent.orderId
    venueId := venueId
    side := parent.side
    priceMicro := u64Size - 1
    quantityMicro := remaining / venues.length
    algo := .sniper
    sequence := i
    totalSequences := venues.length })

def splitOrder (router : ExecutionRouter) (parent : ParentOrder)
    (currentPrices : List (Nat × Nat)) : Option (List ChildOrder × ExecutionRouter) :=
  if parent.remaining = 0 ∨ parent.venues = [] then some ([], router)
  else
    match parent.algo with
    | .twap => router.splitTwap parent parent.remaining
    | .vwap => some (router.splitVwap parent parent.remaining currentPrices)
    | .iceberg => router.splitIceberg parent parent.remaining
    | .sniper => some (router.splitSniper parent parent.remaining)

/-- Some orders are split in turn, each at the prices of its time. -/
def splitOrders (router : ExecutionRouter) :
    List (ParentOrder × List (Nat × Nat)) → Option (List (List ChildOrder) × ExecutionRouter)
  | [] => some ([], router)
  | (parent, currentPrices) :: rest =>
    (router.splitOrder parent currentPrices).bind fun (children, next) =>
      (next.splitOrders rest).map fun (answers, final) => (children :: answers, final)

end ExecutionRouter

end TradingBot.Execution
