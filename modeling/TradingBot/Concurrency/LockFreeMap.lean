import Mathlib.Algebra.Order.Field.Rat

/-!
# The order map

`lock_free_map.rs`, run by one thread: buckets are chains of nodes, edited at their heads. The hash
function is a parameter, fills are exact, and the clock's readings are arguments. There are fewer
nodes than the counter of entries can hold.
-/

namespace TradingBot.Concurrency

/-- `OrderState`. -/
inductive OrderState where
  | pending
  | submitted
  | acknowledged
  | partiallyFilled
  | filled
  | cancelled
  | rejected
  | expired
  deriving DecidableEq, Repr

/-- `OrderInfo`. -/
structure OrderInfo where
  orderId : Nat
  symbolId : Nat
  side : Nat
  quantity : ℚ
  filledQuantity : ℚ
  price : ℚ
  state : OrderState
  timestampNs : Nat
  lastUpdateNs : Nat
  deriving DecidableEq, Repr

def OrderInfo.new (orderId symbolId side : Nat) (quantity price : ℚ) (nowNs : Nat) : OrderInfo where
  orderId := orderId
  symbolId := symbolId
  side := side
  quantity := quantity
  filledQuantity := 0
  price := price
  state := .pending
  timestampNs := nowNs
  lastUpdateNs := nowNs

def OrderInfo.updateFill (order : OrderInfo) (fillQuantity : ℚ) (newState : OrderState)
    (nowNs : Nat) : OrderInfo :=
  { order with
    filledQuantity := order.filledQuantity + fillQuantity
    state := newState
    lastUpdateNs := nowNs }

/-- `Node`; the pointer to the next node is the rest of a chain. -/
structure Node where
  key : Nat
  value : OrderInfo
  hash : Nat

/-- Whether a node is the one that is looked for. -/
def Node.isFor (node : Node) (hash orderId : Nat) : Bool :=
  node.hash = hash && node.key = orderId

/-- The first node of a chain that is the one looked for, and the nodes behind it. -/
def seek (hash orderId : Nat) : List Node → Option (Node × List Node)
  | [] => none
  | node :: behind =>
    if node.isFor hash orderId then some (node, behind) else seek hash orderId behind

/-- The order of a key in a chain. -/
def lookup (hash orderId : Nat) (chain : List Node) : Option OrderInfo :=
  (seek hash orderId chain).map fun found => found.1.value

def stripeCount : Nat := 64

/-- `LockFreeOrderMap`, with the chains of its buckets and the function that hashes its keys. -/
structure LockFreeOrderMap (hashKey : Nat → Nat) where
  buckets : List (List Node)
  bucketMask : Nat
  size : Nat
  /-- Every masked hash is the index of a bucket. -/
  masked : bucketMask < buckets.length

namespace LockFreeOrderMap

variable {hashKey : Nat → Nat}

/-- `new`; a capacity without a power of two above it in 64 bits is refused. -/
def new (hashKey : Nat → Nat) (initialCapacity : Nat) : Option (LockFreeOrderMap hashKey) :=
  if 2 ^ 63 < initialCapacity then none
  else
    let bucketCount := max initialCapacity.nextPowerOfTwo stripeCount
    some {
      buckets := List.replicate bucketCount []
      bucketMask := bucketCount - 1
      size := 0
      masked := by
        rw [List.length_replicate]
        apply Nat.sub_lt _ Nat.one_pos
        exact lt_of_lt_of_le (by decide : 0 < stripeCount) (le_max_right _ _) }

def getBucketIndex (map : LockFreeOrderMap hashKey) (hash : Nat) : Fin map.buckets.length :=
  ⟨hash &&& map.bucketMask, lt_of_le_of_lt Nat.and_le_right map.masked⟩

/-- The chain of the bucket of a hash. -/
def chain (map : LockFreeOrderMap hashKey) (hash : Nat) : List Node :=
  map.buckets.get (map.getBucketIndex hash)

/-- A map whose bucket of a hash has another chain. -/
def setChain (map : LockFreeOrderMap hashKey) (hash : Nat) (nodes : List Node) :
    LockFreeOrderMap hashKey :=
  { map with
    buckets := map.buckets.set (map.getBucketIndex hash) nodes
    masked := by
      rw [List.length_set]
      exact map.masked }

def insert (map : LockFreeOrderMap hashKey) (order : OrderInfo) :
    Option OrderInfo × LockFreeOrderMap hashKey :=
  let hash := hashKey order.orderId
  let newNode : Node := { key := order.orderId, value := order, hash := hash }
  match seek hash order.orderId (map.chain hash) with
  -- The head is replaced by a node that points behind the one found.
  | some (found, behind) => (some found.value, map.setChain hash (newNode :: behind))
  | none => (none, { map.setChain hash (newNode :: map.chain hash) with size := map.size + 1 })

def get (map : LockFreeOrderMap hashKey) (orderId : Nat) : Option OrderInfo :=
  let hash := hashKey orderId
  lookup hash orderId (map.chain hash)

def remove (map : LockFreeOrderMap hashKey) (orderId : Nat) :
    Option OrderInfo × LockFreeOrderMap hashKey :=
  let hash := hashKey orderId
  match seek hash orderId (map.chain hash) with
  | some (found, _) =>
    (some found.value,
      { map.setChain hash ((map.chain hash).eraseP fun node => node.isFor hash orderId) with
        size := map.size - 1 })
  | none => (none, map)

/-- `update_state`; only a node that is the head of its chain is replaced. -/
def updateState (map : LockFreeOrderMap hashKey) (orderId : Nat) (newState : OrderState)
    (fillQty : ℚ) (nowNs : Nat) : Bool × LockFreeOrderMap hashKey :=
  let hash := hashKey orderId
  match map.chain hash with
  | [] => (false, map)
  | node :: behind =>
    if node.isFor hash orderId then
      let updated := node.value.updateFill fillQty newState nowNs
      (true, map.setChain hash ({ key := orderId, value := updated, hash := hash } :: behind))
    else (false, map)

def len (map : LockFreeOrderMap hashKey) : Nat := map.size

end LockFreeOrderMap

end TradingBot.Concurrency
