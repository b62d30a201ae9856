import TradingBot.Foundation.Bytes
import TradingBot.Foundation.MachineInt
import TradingBot.Foundation.Run

/-!
# The ring buffer

`ring_buffer.py`: items of one size in a byte array, between a write and a read position that
only grow. The capacity is rounded up to a power of two and one slot stays free, while the array
is allocated for the capacity asked for and grows where a slice is assigned behind its end. The
buffer is a queue of all but one of its slots, and its `is_full` is never true.
-/

open Bytes MachineInt Run

namespace TradingBot.Ipc

def bitLength (value : Int) : Nat := if value = 0 then 0 else value.natAbs.log2 + 1

/-- The capacity rounded up to a power of two. -/
def roundedCapacity (capacity : Nat) : Nat := 2 ^ bitLength (capacity - 1)

/-- `AtomicCounter`: a counter of the values of a `c_longlong`. -/
structure AtomicCounter where
  value : Int
  fits : castI64 value = value
  deriving DecidableEq

namespace AtomicCounter

/-- `__init__` and `store`: a counter at a value. -/
def store (value : Int) : AtomicCounter where
  value := castI64 value
  fits := castI64_castI64 value

def load (counter : AtomicCounter) : Int := counter.value

/-- The counter after `fetch_add`, which returns the value before. -/
def fetchAdd (counter : AtomicCounter) (delta : Int) : AtomicCounter :=
  store (counter.value + delta)

/-- The counter after `fetch_sub`, which returns the value before. -/
def fetchSub (counter : AtomicCounter) (delta : Int) : AtomicCounter :=
  store (counter.value - delta)

/-- A position within the type is loaded as it was stored. -/
theorem load_store {value : Int} (lower : i64Min ≤ value) (upper : value ≤ i64Max) :
    (store value).load = value :=
  castI64_of_fits lower upper

theorem load_fetchAdd {counter : AtomicCounter} {delta : Int}
    (lower : i64Min ≤ counter.load + delta) (upper : counter.load + delta ≤ i64Max) :
    (counter.fetchAdd delta).load = counter.load + delta :=
  load_store lower upper

theorem load_fetchSub {counter : AtomicCounter} {delta : Int}
    (lower : i64Min ≤ counter.load - delta) (upper : counter.load - delta ≤ i64Max) :
    (counter.fetchSub delta).load = counter.load - delta :=
  load_store lower upper

end AtomicCounter

/-- `BufferState`: ring buffer operational states. -/
inductive BufferState where
  | empty
  | running
  | full
  | wrapping
  | shutdown
  deriving DecidableEq, Repr

/-- `RingBufferStats`: the counts; the times and the latency are left to the clock. -/
structure RingBufferStats where
  totalWrites : Nat
  totalReads : Nat
  droppedItems : Nat
  highWaterMark : Nat
  deriving DecidableEq, Repr

/-- `LockFreeRingBuffer`. -/
structure LockFreeRingBuffer where
  /-- Number of slots, a power of two. -/
  capacity : Nat
  elementSize : Nat
  head : AtomicCounter
  tail : AtomicCounter
  buffer : List UInt8
  state : BufferState
  stats : RingBufferStats
  deriving DecidableEq

namespace LockFreeRingBuffer

/-- `__init__`; a byte array of more than a machine word of bytes is refused. -/
def init (capacity elementSize : Nat) : Option LockFreeRingBuffer :=
  if (capacity * elementSize : Int) ≤ i64Max then
    some {
      capacity := roundedCapacity capacity
      elementSize := elementSize
      head := .store 0
      tail := .store 0
      buffer := List.replicate (capacity * elementSize) 0
      state := .empty
      stats := { totalWrites := 0, totalReads := 0, droppedItems := 0, highWaterMark := 0 } }
  else none

/-- A position `& mask`: the low bits, which for a power of two are the remainder. -/
def masked (ring : LockFreeRingBuffer) (position : Int) : Nat :=
  (position % ring.capacity).toNat

/-- `size`: current number of elements in buffer. -/
def size (ring : LockFreeRingBuffer) : Nat := ring.masked (ring.head.load - ring.tail.load)

def isEmpty (ring : LockFreeRingBuffer) : Bool := ring.head.load = ring.tail.load

def isFull (ring : LockFreeRingBuffer) : Bool := ring.size = ring.capacity

/-- `_get_offset`: byte offset for a position. -/
def getOffset (ring : LockFreeRingBuffer) (position : Int) : Nat :=
  ring.masked position * ring.elementSize

/-- The bytes of a position. -/
def readAt (ring : LockFreeRingBuffer) (position : Int) : List UInt8 :=
  (ring.buffer.drop (ring.getOffset position)).take ring.elementSize

/-- `push`: whether the item was written; an item of another size is refused with an error. -/
def push (ring : LockFreeRingBuffer) (data : List UInt8) : Option (Bool × LockFreeRingBuffer) :=
  if data.length ≠ ring.elementSize then none
  else if ring.masked (ring.head.load + 1) = ring.masked ring.tail.load then
    some (false, { ring with
      stats := { ring.stats with droppedItems := ring.stats.droppedItems + 1 }
      state := .full })
  else
    let written := { ring with
      buffer := overwrite ring.buffer (ring.getOffset ring.head.load) data
      head := ring.head.fetchAdd 1 }
    some (true, { written with
      stats := { ring.stats with
        totalWrites := ring.stats.totalWrites + 1
        highWaterMark := max ring.stats.highWaterMark written.size }
      state := if ring.state = .empty then .running else ring.state })

/-- `pop`: the next item, if there is one. -/
def pop (ring : LockFreeRingBuffer) : Option (List UInt8) × LockFreeRingBuffer :=
  if ring.head.load = ring.tail.load then (none, { ring with state := .empty })
  else
    (some (ring.readAt ring.tail.load), { ring with
      tail := ring.tail.fetchAdd 1
      stats := { ring.stats with totalReads := ring.stats.totalReads + 1 } })

/-- `peek`: the next item without removing it. -/
def peek (ring : LockFreeRingBuffer) : Option (List UInt8) :=
  if ring.head.load = ring.tail.load then none else some (ring.readAt ring.tail.load)

/-- `push_batch`: how many items were written before one was refused. -/
def pushBatch (ring : LockFreeRingBuffer) : List (List UInt8) → Option (Nat × LockFreeRingBuffer)
  | [] => some (0, ring)
  | item :: rest => do
    let pushed ← ring.push item
    if pushed.1 then (pushed.2.pushBatch rest).map fun later => (later.1 + 1, later.2)
    else return (0, pushed.2)

/-- `pop_batch`: the next items up to a count. -/
def popBatch (ring : LockFreeRingBuffer) : Nat → List (List UInt8) × LockFreeRingBuffer
  | 0 => ([], ring)
  | count + 1 =>
    match ring.pop with
    | (none, after) => ([], after)
    | (some item, after) => (item :: (after.popBatch count).1, (after.popBatch count).2)

/-- How far the read position is behind the write position, around the counters. -/
def distance (ring : LockFreeRingBuffer) : Nat :=
  ((ring.head.load - ring.tail.load) % u64Size).toNat

theorem distance_pop {ring : LockFreeRingBuffer} (some_ : ¬ring.isEmpty = true) :
    ring.pop.2.distance < ring.distance := by
  have apart : ring.head.load ≠ ring.tail.load := fun same => some_ (decide_eq_true same)
  have residue : (ring.head.load - ring.tail.load) % u64Size ≠ 0 := by
    intro none
    have same := Int.emod_eq_emod_iff_emod_sub_eq_zero.mpr none
    have words : castI64 ring.head.load = castI64 ring.tail.load := by
      unfold castI64
      rw [← Int.emod_bmod, same, Int.emod_bmod]
    exact apart ((ring.head.fits.symm.trans words).trans ring.tail.fits)
  have tail : ring.pop.2.tail.load = castI64 (ring.tail.load + 1) := by
    unfold pop
    rw [if_neg apart]
    rfl
  have head : ring.pop.2.head = ring.head := by
    unfold pop
    split <;> rfl
  have closer : (ring.pop.2.head.load - ring.pop.2.tail.load) % u64Size =
      (ring.head.load - ring.tail.load) % u64Size - 1 := by
    rw [head, tail]
    obtain ⟨turns, around⟩ := castI64_inj (castI64_castI64 (ring.tail.load + 1))
    unfold u64Size at *
    omega
  unfold distance
  rw [closer]
  have nonneg := Int.emod_nonneg (ring.head.load - ring.tail.load)
    (show (u64Size : Int) ≠ 0 by decide)
  omega

/-- The loop of `clear`: the items popped until the buffer is empty. -/
def drain (ring : LockFreeRingBuffer) : List (List UInt8) × LockFreeRingBuffer :=
  if ring.isEmpty then ([], ring)
  else
    match ring.pop.1 with
    | none => ([], ring.pop.2)
    | some item => (item :: ring.pop.2.drain.1, ring.pop.2.drain.2)
termination_by ring.distance
decreasing_by all_goals exact distance_pop ‹_›

/-- `clear`: drop all elements; it returns their number. -/
def clear (ring : LockFreeRingBuffer) : Nat × LockFreeRingBuffer :=
  (ring.drain.1.length, { ring.drain.2 with state := .empty })

/-- `__iter__`: one item of an iteration, which drains the buffer. -/
def iterNext (ring : LockFreeRingBuffer) : Option (List UInt8) × LockFreeRingBuffer := ring.pop

/-- `shutdown`: signal buffer shutdown. -/
def shutdown (ring : LockFreeRingBuffer) : LockFreeRingBuffer := { ring with state := .shutdown }

def isShutdown (ring : LockFreeRingBuffer) : Bool := ring.state = .shutdown

end LockFreeRingBuffer

end TradingBot.Ipc
