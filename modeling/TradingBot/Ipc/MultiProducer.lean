import TradingBot.Foundation.Interleaving
import TradingBot.Ipc.RingBuffer

/-!
# The ring buffer of many producers

`ring_buffer.py`: pushes draw numbers from the head and look at the sequence number of their slot
before they write it; one consumer follows with the tail. Any number of pushes and the pops of the
consumer interleave in their atomic steps. The protocol is that of a bounded queue as long as the
slots tell the truth. They do not from the start: all of them begin at zero, so that only the
first slot looks ready, and a slot that holds an unread item of a single slot looks ready too.
-/

open Bytes Interleaving MachineInt Run

namespace TradingBot.Ipc.MultiProducer

/-- `MultiProducerRingBuffer`, without its statistics. -/
structure MultiProducerRingBuffer where
  /-- Number of slots, a power of two. -/
  capacity : Nat
  positive : 0 < capacity
  elementSize : Nat
  /-- Number the next push draws. -/
  head : AtomicCounter
  /-- Number the next pop reads. -/
  tail : AtomicCounter
  buffer : List UInt8
  /-- Sequence number of each slot. -/
  slots : Fin capacity → AtomicCounter

namespace MultiProducerRingBuffer

/-- `__init__`; bytes or slots whose number is not a machine word are refused. -/
def init (capacity elementSize : Nat) : Option MultiProducerRingBuffer :=
  if (roundedCapacity capacity * elementSize : Int) ≤ i64Max ∧
      (roundedCapacity capacity : Int) ≤ i64Max then
    some {
      capacity := roundedCapacity capacity
      positive := Nat.two_pow_pos _
      elementSize := elementSize
      head := .store 0
      tail := .store 0
      buffer := List.replicate (roundedCapacity capacity * elementSize) 0
      slots := fun _ => .store 0 }
  else none

variable (ring : MultiProducerRingBuffer)

/-- A number `& mask`: the low bits, which for a power of two are the remainder. -/
def index (number : Int) : Fin ring.capacity :=
  ⟨(number % ring.capacity).toNat, by
    have positive := ring.positive
    have nonneg := Int.emod_nonneg number (show (ring.capacity : Int) ≠ 0 by omega)
    have below := Int.emod_lt_of_pos number (show (0 : Int) < ring.capacity by omega)
    omega⟩

/-- The sequence number of the slot of a number. -/
def sequence (number : Int) : Int := (ring.slots (ring.index number)).load

/-- The bytes of the slot of a number. -/
def bytes (number : Int) : List UInt8 := slot ring.buffer ring.elementSize (ring.index number)

/-- A buffer after data is written to the slot of a number. -/
def write (number : Int) (data : List UInt8) : MultiProducerRingBuffer :=
  { ring with buffer := overwrite ring.buffer (ring.index number * ring.elementSize) data }

/-- A buffer after a sequence number is stored in the slot of a number. -/
def mark (number value : Int) : MultiProducerRingBuffer :=
  { ring with slots := Function.update ring.slots (ring.index number) (.store value) }

end MultiProducerRingBuffer

/-! ## Calls and their atomic steps -/

/-- Where a call of `push` stands. -/
inductive PushCall where
  /-- Before the `fetch_add` of the head. -/
  | draw (data : List UInt8)
  /-- Before the load of the slot. -/
  | check (number : Int) (data : List UInt8)
  /-- Before the `fetch_sub` of the head, as the slot is not ready. -/
  | rollBack (number : Int)
  /-- Before the write of the data. -/
  | write (number : Int) (data : List UInt8)
  /-- Before the store of the slot. -/
  | mark (number : Int) (data : List UInt8)
  /-- Returned with success. -/
  | accepted (number : Int) (data : List UInt8)
  /-- Returned without. -/
  | refused
  deriving DecidableEq, Repr

/-- A call of `push` at its first step; data of another size is refused before. -/
def enter (elementSize : Nat) (data : List UInt8) : PushCall :=
  if data.length = elementSize then .draw data else .refused

/-- The steps of `push`. -/
def nextPush (ring : MultiProducerRingBuffer) :
    PushCall → Option (MultiProducerRingBuffer × PushCall)
  | .draw data => some ({ ring with head := ring.head.fetchAdd 1 }, .check ring.head.load data)
  | .check number data =>
    some (ring, if ring.sequence number < number then .rollBack number else .write number data)
  | .rollBack _ => some ({ ring with head := ring.head.fetchSub 1 }, .refused)
  | .write number data => some (ring.write number data, .mark number data)
  | .mark number data => some (ring.mark number (number + 1), .accepted number data)
  | .accepted .. => none
  | .refused => none

/-- Where the consumer stands in its calls of `pop`. -/
inductive PopStep where
  /-- Before the load of the tail. -/
  | idle
  /-- Before the load of the slot. -/
  | check (tail : Int)
  /-- Before the read of the data. -/
  | read (tail : Int)
  /-- Before the store of the slot. -/
  | release (tail : Int) (data : List UInt8)
  /-- Before the `fetch_add` of the tail. -/
  | advance (data : List UInt8)
  deriving DecidableEq, Repr

/-- What a pop returns with its next step. -/
def PopStep.returned : PopStep → List (List UInt8)
  | .advance data => [data]
  | _ => []

/-- The steps of `pop`; a pop that finds nothing returns before it reads. -/
def nextPop (ring : MultiProducerRingBuffer) : PopStep → MultiProducerRingBuffer × PopStep
  | .idle => (ring, .check ring.tail.load)
  | .check tail => (ring, if ring.sequence tail < tail + 1 then .idle else .read tail)
  | .read tail => (ring, .release tail (ring.bytes tail))
  | .release tail data => (ring.mark tail (tail + ring.capacity), .advance data)
  | .advance _ => ({ ring with tail := ring.tail.fetchAdd 1 }, .idle)

/-- The consumer with the items it popped in order. -/
structure Consumer where
  stage : PopStep
  popped : List (List UInt8)

/-- The items that were taken out of their slots in order; the last may not be returned yet. -/
def Consumer.taken (consumer : Consumer) : List (List UInt8) :=
  consumer.popped ++ consumer.stage.returned

/-- The pushes that were called on a buffer and its consumer. -/
structure Session where
  pool : Pool MultiProducerRingBuffer PushCall
  consumer : Consumer

/-- What can happen next. -/
inductive BufferEvent where
  /-- A push is called or takes its next step. -/
  | producer (move : Move (List UInt8))
  /-- The consumer takes its next step. -/
  | consumer

/-- A session after the next step of a push or of the consumer. -/
def step (session : Session) : BufferEvent → Option Session
  | .producer move =>
    (session.pool.step (enter session.pool.shared.elementSize) nextPush move).map fun pool =>
      { session with pool := pool }
  | .consumer =>
    some {
      pool := { session.pool with shared := (nextPop session.pool.shared session.consumer.stage).1 }
      consumer := {
        stage := (nextPop session.pool.shared session.consumer.stage).2
        popped := session.consumer.taken } }

/-- A new session of a buffer. -/
def Session.start (ring : MultiProducerRingBuffer) : Session where
  pool := { shared := ring, calls := [] }
  consumer := { stage := .idle, popped := [] }

/-! ## A bounded queue -/

/-- The number a call has drawn and not given back. -/
def PushCall.drawn : PushCall → Option Int
  | .check number _ => some number
  | .rollBack number => some number
  | .write number _ => some number
  | .mark number _ => some number
  | .accepted number _ => some number
  | .draw _ => none
  | .refused => none

/-- Whether a call has not returned. -/
def PushCall.inProgress : PushCall → Bool
  | .accepted .. => false
  | .refused => false
  | _ => true

/-- Whether a call was accepted with a number. -/
def PushCall.acceptedAs (number : Int) : PushCall → Bool
  | .accepted other _ => other = number
  | _ => false

/-- Whether a call was accepted with a number from another on. -/
def PushCall.acceptedFrom (first : Int) : PushCall → Bool
  | .accepted number _ => first ≤ number
  | _ => false

/-- The number of items that are stored and not taken. -/
def Session.unread (session : Session) : Nat :=
  session.pool.count (PushCall.acceptedFrom session.consumer.taken.length)

/-- The session is that of a bounded queue. The items taken are those of the accepted pushes with
the first numbers in order, each number is accepted once, the others are intact in their slots and
no more than the capacity, and no number is left out when no push is in progress. -/
structure Queues (session : Session) : Prop where
  order : ∀ (position : Nat) item, session.consumer.taken[position]? = some item →
    .accepted position item ∈ session.pool.calls
  once : ∀ number : Int, session.pool.count (PushCall.acceptedAs number) ≤ 1
  intact : ∀ (number : Int) item, .accepted number item ∈ session.pool.calls →
    session.consumer.taken.length ≤ number →
      session.pool.shared.sequence number = number + 1 ∧ session.pool.shared.bytes number = item
  bounded : ∀ (number : Int) item, .accepted number item ∈ session.pool.calls → 0 ≤ number ∧
    number < session.consumer.taken.length + session.pool.shared.capacity
  gapless : session.pool.count PushCall.inProgress = 0 → ∀ number : Int, 0 ≤ number →
    number < session.pool.shared.head.load → ∃ item, .accepted number item ∈ session.pool.calls

/-- One push is in progress and no pop. -/
def Quiet (session : Session) : Prop :=
  session.pool.count PushCall.inProgress = 1 ∧ session.consumer.stage = .idle

instance (session : Session) : Decidable (Quiet session) :=
  inferInstanceAs (Decidable (_ ∧ _))

/-- A call that is refused alone is so as the buffer is full. -/
def RefusedFull (session : Session) : PushCall → Prop
  | .check number _ => session.pool.shared.sequence number < number → Quiet session →
    session.pool.shared.capacity ≤ session.unread
  | _ => True

/-- A push that decides on its slot while nothing else is in progress is refused only by a full
buffer. -/
def RefusesOnlyFull (session : Session) : BufferEvent → Prop
  | .producer (.advance position) =>
    ∀ call ∈ session.pool.calls[position]?, RefusedFull session call
  | _ => True

/-- The next step of a call finds the counters as the protocol needs them: a number is drawn
while the counters are far from their end, a slot looks ready exactly when the item before was
taken from it, and a number is given back only as the last one drawn. -/
def Fits (session : Session) : PushCall → Prop
  | .draw _ => session.pool.shared.head.load + session.pool.shared.capacity < i64Max
  | .check number _ => session.pool.shared.sequence number < number ↔
    session.consumer.taken.length + session.pool.shared.capacity ≤ number
  | .rollBack number => session.pool.shared.head.load = number + 1
  | _ => True

/-- The counters are as the protocol needs them for the next step. -/
def Protocol (session : Session) : BufferEvent → Prop
  | .producer (.advance position) => ∀ call ∈ session.pool.calls[position]?, Fits session call
  | _ => True

instance (session : Session) : DecidablePred (RefusedFull session)
  | .check .. => inferInstanceAs (Decidable (_ → _ → _))
  | .draw _ | .rollBack _ | .write .. | .mark .. | .accepted .. | .refused =>
    inferInstanceAs (Decidable True)

instance (session : Session) : DecidablePred (Fits session)
  | .draw _ => inferInstanceAs (Decidable (_ < _))
  | .check .. => inferInstanceAs (Decidable (_ ↔ _))
  | .rollBack _ => inferInstanceAs (Decidable (_ = _))
  | .write .. | .mark .. | .accepted .. | .refused => inferInstanceAs (Decidable True)

instance (session : Session) : DecidablePred (RefusesOnlyFull session)
  | .producer (.advance _) => inferInstanceAs (Decidable (∀ call ∈ _, _))
  | .producer (.start _) | .consumer => inferInstanceAs (Decidable True)

instance (session : Session) : DecidablePred (Protocol session)
  | .producer (.advance _) => inferInstanceAs (Decidable (∀ call ∈ _, _))
  | .producer (.start _) | .consumer => inferInstanceAs (Decidable True)

/-! ## Slots -/

section Slots

variable {ring : MultiProducerRingBuffer} {first number other value : Int} {data : List UInt8}

theorem index_ne (different : number ≠ other)
    (near : first ≤ number ∧ number < first + ring.capacity)
    (nearOther : first ≤ other ∧ other < first + ring.capacity) :
    ring.index number ≠ ring.index other := by
  intro same
  have positive := ring.positive
  have nonneg := Int.emod_nonneg number (show (ring.capacity : Int) ≠ 0 by omega)
  have nonnegOther := Int.emod_nonneg other (show (ring.capacity : Int) ≠ 0 by omega)
  have residues : number % ring.capacity = other % ring.capacity := by
    have values := Fin.mk.inj same
    omega
  have divides := Int.dvd_of_emod_eq_zero (Int.emod_eq_emod_iff_emod_sub_eq_zero.mp residues)
  have none := Int.eq_zero_of_abs_lt_dvd divides (abs_lt.mpr ⟨by omega, by omega⟩)
  omega

theorem index_add (ring : MultiProducerRingBuffer) (number : Int) :
    ring.index (number + ring.capacity) = ring.index number := by
  unfold MultiProducerRingBuffer.index
  rw [Fin.mk.injEq, Int.add_emod_right]

theorem sequence_mark_same (lower : i64Min ≤ value) (upper : value ≤ i64Max)
    (same : ring.index other = ring.index number) :
    (ring.mark number value).sequence other = value := by
  show (Function.update ring.slots (ring.index number) _ (ring.index other)).load = value
  rw [same, Function.update_self]
  exact AtomicCounter.load_store lower upper

theorem sequence_mark_other (different : ring.index other ≠ ring.index number) :
    (ring.mark number value).sequence other = ring.sequence other := by
  show (Function.update ring.slots (ring.index number) _ (ring.index other)).load = _
  rw [Function.update_of_ne different]
  rfl

section

variable (allocated : ring.buffer.length = ring.capacity * ring.elementSize)
include allocated

theorem index_inside (number : Int) :
    ring.index number * ring.elementSize ≤ ring.buffer.length := by
  rw [allocated]
  exact Nat.mul_le_mul_right _ (Nat.le_of_lt (ring.index number).isLt)

theorem bytes_write_same (sized : data.length = ring.elementSize) :
    (ring.write number data).bytes number = data :=
  slot_overwrite_same (index_inside allocated number) sized

theorem bytes_write_other (sized : data.length = ring.elementSize)
    (different : ring.index other ≠ ring.index number) :
    (ring.write number data).bytes other = ring.bytes other :=
  slot_overwrite_other (index_inside allocated number) sized
    fun same => different (Fin.ext same)

theorem length_write (sized : data.length = ring.elementSize) :
    (ring.write number data).buffer.length = ring.capacity * ring.elementSize := by
  have inside : (ring.index number + 1) * ring.elementSize ≤ ring.capacity * ring.elementSize :=
    Nat.mul_le_mul_right _ (ring.index number).isLt
  rw [Nat.succ_mul] at inside
  show (overwrite _ _ _).length = _
  rw [length_overwrite_slot (index_inside allocated number) sized, allocated]
  exact Nat.max_eq_left inside

end

end Slots

/-! ## Numbers -/

/-- Every number below the head is held by one call, and no other number is. -/
structure Numbers (pool : Pool MultiProducerRingBuffer PushCall) : Prop where
  nonneg : 0 ≤ pool.shared.head.load
  room : pool.shared.head.load + pool.shared.capacity ≤ i64Max
  held : ∀ number, pool.count (fun call => decide (call.drawn = some number)) =
    if 0 ≤ number ∧ number < pool.shared.head.load then 1 else 0

section Numbers

variable {pool : Pool MultiProducerRingBuffer PushCall} {position : Nat} {call moved : PushCall}
  {number : Int}

section

variable (numbers : Numbers pool)
include numbers

theorem Numbers.between (member : call ∈ pool.calls) (drew : call.drawn = some number) :
    0 ≤ number ∧ number < pool.shared.head.load := by
  by_contra outside
  have none := numbers.held number
  rw [if_neg outside] at none
  exact List.countP_eq_zero.mp none call member (decide_eq_true drew)

theorem Numbers.unique {other : PushCall} (member : call ∈ pool.calls)
    (memberOther : other ∈ pool.calls) (drew : call.drawn = some number)
    (drewOther : other.drawn = some number) : call = other := by
  have once := numbers.held number
  rw [if_pos (numbers.between member drew)] at once
  exact member_unique (Nat.le_of_eq once) member memberOther (decide_eq_true drew)
    (decide_eq_true drewOther)

theorem Numbers.holder (nonneg : 0 ≤ number) (below : number < pool.shared.head.load) :
    ∃ call ∈ pool.calls, call.drawn = some number := by
  have once := numbers.held number
  rw [if_pos ⟨nonneg, below⟩] at once
  have positive := Nat.lt_of_lt_of_eq Nat.zero_lt_one once.symm
  obtain ⟨call, member, drew⟩ := List.countP_pos_iff.mp positive
  exact ⟨call, member, of_decide_eq_true drew⟩

theorem Numbers.start (elementSize : Nat) (data : List UInt8) :
    Numbers { pool with calls := pool.calls ++ [enter elementSize data] } where
  nonneg := numbers.nonneg
  room := numbers.room
  held := by
    intro number
    have none : (enter elementSize data).drawn = none := by
      unfold enter
      split <;> rfl
    have held := numbers.held number
    rw [count_start, none]
    exact held

theorem Numbers.advance (found : pool.calls[position]? = some call)
    {shared : MultiProducerRingBuffer} (nonneg : 0 ≤ shared.head.load)
    (room : shared.head.load + shared.capacity ≤ i64Max)
    (balanced : ∀ number, (decide (call.drawn = some number)).toNat +
      (if 0 ≤ number ∧ number < shared.head.load then 1 else 0) =
      (decide (moved.drawn = some number)).toNat +
      (if 0 ≤ number ∧ number < pool.shared.head.load then 1 else 0)) :
    Numbers { shared := shared, calls := pool.calls.set position moved } where
  nonneg := nonneg
  room := room
  held := by
    intro number
    have counted : Pool.count { shared := shared, calls := pool.calls.set position moved } _ + _ =
        _ + _ := count_advance (fun call => decide (call.drawn = some number)) found moved
    rw [numbers.held number] at counted
    have balance := balanced number
    show Pool.count _ _ = if 0 ≤ number ∧ number < shared.head.load then 1 else 0
    omega

theorem Numbers.keep (found : pool.calls[position]? = some call) (before : call.drawn = some number)
    (after : moved.drawn = some number) {shared : MultiProducerRingBuffer}
    (head : shared.head = pool.shared.head) (capacity : shared.capacity = pool.shared.capacity) :
    Numbers { shared := shared, calls := pool.calls.set position moved } := by
  apply numbers.advance found (head ▸ numbers.nonneg) (head ▸ capacity ▸ numbers.room)
  intro other
  rw [head, before, after]

theorem Numbers.draw {data : List UInt8} (found : pool.calls[position]? = some (.draw data))
    (room : pool.shared.head.load + pool.shared.capacity < i64Max) : Numbers {
      shared := { pool.shared with head := pool.shared.head.fetchAdd 1 }
      calls := pool.calls.set position (.check pool.shared.head.load data) } := by
  have nonneg := numbers.nonneg
  have lower : i64Min ≤ pool.shared.head.load + 1 := by
    unfold i64Min
    omega
  have head := AtomicCounter.load_fetchAdd lower (by omega)
  apply numbers.advance found
  · show 0 ≤ (pool.shared.head.fetchAdd 1).load
    omega
  · show (pool.shared.head.fetchAdd 1).load + (pool.shared.capacity : Int) ≤ _
    omega
  · intro number
    show 0 + (if 0 ≤ number ∧ number < (pool.shared.head.fetchAdd 1).load then 1 else 0) =
      (decide (some pool.shared.head.load = some number)).toNat + _
    rw [head]
    by_cases last : pool.shared.head.load = number
    · rw [if_pos ⟨by omega, by omega⟩, if_neg (by omega), decide_eq_true (congrArg some last)]
      rfl
    · rw [decide_eq_false fun same => last (Option.some.inj same), Bool.toNat_false]
      exact congrArg (0 + ·) (if_congr (by omega) rfl rfl)

theorem Numbers.rollBack (found : pool.calls[position]? = some (.rollBack number))
    (last : pool.shared.head.load = number + 1) : Numbers {
      shared := { pool.shared with head := pool.shared.head.fetchSub 1 }
      calls := pool.calls.set position .refused } := by
  have between := numbers.between (List.mem_of_getElem? found) rfl
  have room := numbers.room
  have lower : i64Min ≤ pool.shared.head.load - 1 := by
    unfold i64Min
    omega
  have head := AtomicCounter.load_fetchSub lower (by omega)
  apply numbers.advance found
  · show 0 ≤ (pool.shared.head.fetchSub 1).load
    omega
  · show (pool.shared.head.fetchSub 1).load + (pool.shared.capacity : Int) ≤ _
    omega
  · intro other
    show (decide (some number = some other)).toNat +
      (if 0 ≤ other ∧ other < (pool.shared.head.fetchSub 1).load then 1 else 0) = 0 + _
    rw [head]
    by_cases same : number = other
    · rw [if_neg (by omega), if_pos ⟨by omega, by omega⟩, decide_eq_true (congrArg some same)]
      rfl
    · rw [decide_eq_false fun equal => same (Option.some.inj equal), Bool.toNat_false]
      exact congrArg (0 + ·) (if_congr (by omega) rfl rfl)

end

end Numbers

/-! ## Contents of the slots -/

/-- Whether a call is about to write its slot, has written it or has returned with success. -/
def PushCall.storing : PushCall → Bool
  | .write .. => true
  | .mark .. => true
  | .accepted .. => true
  | _ => false

/-- The slots of the numbers from the first one that is not taken: accepted numbers are marked and
their items intact, the other slots are not marked, and what is written stays until it is. -/
structure Contents (ring : MultiProducerRingBuffer) (calls : List PushCall) (first : Int) :
    Prop where
  allocated : ring.buffer.length = ring.capacity * ring.elementSize
  passed : ∀ number data, .write number data ∈ calls →
    first ≤ number ∧ number < first + ring.capacity
  written : ∀ number data, .mark number data ∈ calls →
    (first ≤ number ∧ number < first + ring.capacity) ∧ ring.bytes number = data
  accepted : ∀ number data, .accepted number data ∈ calls → number < first + ring.capacity ∧
    (first ≤ number → ring.sequence number = number + 1 ∧ ring.bytes number = data)
  free : ∀ number, first ≤ number → number < first + ring.capacity →
    ring.sequence number ≤ number ∨ ∃ data, .accepted number data ∈ calls

section Contents

variable {ring : MultiProducerRingBuffer} {calls : List PushCall} {first number : Int}
  {data : List UInt8} {position : Nat}

section

variable (contents : Contents ring calls first)
include contents

theorem Contents.congr {after : List PushCall}
    (same : ∀ call, call.storing = true → (call ∈ after ↔ call ∈ calls))
    (head tail : AtomicCounter) :
      Contents { ring with head := head, tail := tail } after first where
  allocated := contents.allocated
  passed := fun number data member => contents.passed number data ((same _ rfl).mp member)
  written := fun number data member => contents.written number data ((same _ rfl).mp member)
  accepted := fun number data member => contents.accepted number data ((same _ rfl).mp member)
  free := fun number from_ near => (contents.free number from_ near).imp_right
    fun ⟨data, member⟩ => ⟨data, (same _ rfl).mpr member⟩

theorem Contents.keep {call moved : PushCall} (found : calls[position]? = some call)
    (before : call.storing = false) (after : moved.storing = false) (head tail : AtomicCounter) :
    Contents { ring with head := head, tail := tail } (calls.set position moved) first := by
  apply contents.congr
  intro other stores
  apply mem_replaced found
  · intro same
    exact Bool.false_ne_true (before.symm.trans (same ▸ stores))
  · intro same
    exact Bool.false_ne_true (after.symm.trans (same ▸ stores))

theorem Contents.pass (found : calls[position]? = some (.check number data))
    (from_ : first ≤ number) (near : number < first + ring.capacity) :
    Contents ring (calls.set position (.write number data)) first where
  allocated := contents.allocated
  passed := by
    intro other item member
    rcases List.mem_or_eq_of_mem_set member with old | new
    · exact contents.passed other item old
    · cases new
      exact ⟨from_, near⟩
  written := fun other item member =>
    contents.written other item ((mem_replaced found (by nofun) (by nofun)).mp member)
  accepted := fun other item member =>
    contents.accepted other item ((mem_replaced found (by nofun) (by nofun)).mp member)
  free := fun other from_ near => (contents.free other from_ near).imp_right
    fun ⟨item, member⟩ => ⟨item, (mem_replaced found (by nofun) (by nofun)).mpr member⟩

theorem Contents.write (found : calls[position]? = some (.write number data))
    (holds : ∀ call ∈ calls, call.drawn = some number → call = .write number data)
    (sized : data.length = ring.elementSize) :
    Contents (ring.write number data) (calls.set position (.mark number data)) first := by
  have near := contents.passed number data (List.mem_of_getElem? found)
  have others : ∀ other item, (.mark other item ∈ calls ∨ .accepted other item ∈ calls) →
      first ≤ other → other < first + ring.capacity →
        (ring.write number data).bytes other = ring.bytes other := by
    intro other item member from_ below
    have different : other ≠ number := by
      rintro rfl
      cases member with
      | inl marks => cases holds _ marks rfl
      | inr accepts => cases holds _ accepts rfl
    exact bytes_write_other contents.allocated sized (index_ne different ⟨from_, below⟩ near)
  exact {
    allocated := length_write contents.allocated sized
    passed := fun other item member =>
      contents.passed other item ((List.mem_or_eq_of_mem_set member).resolve_right nofun)
    written := by
      intro other item member
      rcases List.mem_or_eq_of_mem_set member with old | new
      · have kept := contents.written other item old
        exact ⟨kept.1, (others other item (.inl old) kept.1.1 kept.1.2).trans kept.2⟩
      · cases new
        exact ⟨near, bytes_write_same contents.allocated sized⟩
    accepted := by
      intro other item member
      have old := (mem_replaced found (by nofun) (by nofun)).mp member
      have kept := contents.accepted other item old
      exact ⟨kept.1, fun from_ =>
        ⟨(kept.2 from_).1, (others other item (.inr old) from_ kept.1).trans (kept.2 from_).2⟩⟩
    free := fun other from_ near => (contents.free other from_ near).imp_right
      fun ⟨item, member⟩ => ⟨item, (mem_replaced found (by nofun) (by nofun)).mpr member⟩ }

theorem Contents.mark (found : calls[position]? = some (.mark number data))
    (holds : ∀ call ∈ calls, call.drawn = some number → call = .mark number data)
    (lower : i64Min ≤ number + 1) (upper : number + 1 ≤ i64Max) :
    Contents (ring.mark number (number + 1)) (calls.set position (.accepted number data))
      first := by
  have stored := contents.written number data (List.mem_of_getElem? found)
  have others : ∀ other, other ≠ number → first ≤ other → other < first + ring.capacity →
      (ring.mark number (number + 1)).sequence other = ring.sequence other :=
    fun other different from_ below =>
      sequence_mark_other (index_ne different ⟨from_, below⟩ stored.1)
  exact {
    allocated := contents.allocated
    passed := fun other item member =>
      contents.passed other item ((List.mem_or_eq_of_mem_set member).resolve_right nofun)
    written := fun other item member =>
      contents.written other item ((List.mem_or_eq_of_mem_set member).resolve_right nofun)
    accepted := by
      intro other item member
      rcases List.mem_or_eq_of_mem_set member with old | new
      · have kept := contents.accepted other item old
        refine ⟨kept.1, fun from_ => ⟨?_, (kept.2 from_).2⟩⟩
        have different : other ≠ number := by
          rintro rfl
          cases holds _ old rfl
        exact (others other different from_ kept.1).trans (kept.2 from_).1
      · cases new
        exact ⟨stored.1.2, fun _ => ⟨sequence_mark_same lower upper rfl, stored.2⟩⟩
    free := by
      intro other from_ below
      by_cases same : other = number
      · rw [same]
        exact .inr ⟨data, mem_replacement found _⟩
      · rw [others other same from_ below]
        exact (contents.free other from_ below).imp_right fun ⟨item, member⟩ => ⟨item,
          (mem_replaced found (by nofun) fun equal => same (by cases equal; rfl)).mpr member⟩ }

theorem Contents.release
    (holds : ∀ call ∈ calls, call.drawn = some first → call = .accepted first data)
    (lower : i64Min ≤ first + ring.capacity) (upper : first + ring.capacity ≤ i64Max) :
    Contents (ring.mark first (first + ring.capacity)) calls (first + 1) := by
  have positive := ring.positive
  have others : ∀ other, first + 1 ≤ other → other < first + ring.capacity →
      (ring.mark first (first + ring.capacity)).sequence other = ring.sequence other :=
    fun other from_ below => sequence_mark_other
      (index_ne (by omega) ⟨by omega, below⟩ ⟨Int.le_refl first, by omega⟩)
  exact {
    allocated := contents.allocated
    passed := by
      intro other item member
      have kept := contents.passed other item member
      have different : other ≠ first := by
        rintro rfl
        cases holds _ member rfl
      show _ ∧ other < first + 1 + (ring.capacity : Int)
      omega
    written := by
      intro other item member
      have kept := contents.written other item member
      have different : other ≠ first := by
        rintro rfl
        cases holds _ member rfl
      refine ⟨?_, kept.2⟩
      show _ ∧ other < first + 1 + (ring.capacity : Int)
      omega
    accepted := by
      intro other item member
      have kept := contents.accepted other item member
      constructor
      · show other < first + 1 + (ring.capacity : Int)
        omega
      · intro from_
        rw [others other from_ kept.1]
        exact kept.2 (by omega)
    free := by
      intro other from_ below
      have below : other < first + 1 + ring.capacity := below
      by_cases last : other = first + ring.capacity
      · rw [last]
        exact .inl (Int.le_of_eq (sequence_mark_same lower upper (index_add ring first)))
      · rw [others other from_ (by omega)]
        exact contents.free other (by omega) (by omega) }

end

end Contents

/-! ## Runs -/

/-- What the consumer knows at a step of its pop, of which the number is that of the items it
popped. -/
def Stands (calls : List PushCall) (count : Int) : PopStep → Prop
  | .check tail => tail = count
  | .read tail => tail = count ∧ ∃ data, .accepted tail data ∈ calls
  | .release tail data => tail = count ∧ .accepted tail data ∈ calls
  | .idle => True
  | .advance _ => True

/-- The consumer follows the accepted pushes in order. -/
structure Follows (tail : AtomicCounter) (calls : List PushCall) (consumer : Consumer) : Prop where
  tail : tail.load = consumer.popped.length
  order : ∀ (position : Nat) item, consumer.taken[position]? = some item →
    .accepted position item ∈ calls
  stage : Stands calls consumer.popped.length consumer.stage

/-- The data of a call has the size of an element. -/
def PushCall.Sized (elementSize : Nat) : PushCall → Prop
  | .draw data => data.length = elementSize
  | .check _ data => data.length = elementSize
  | .write _ data => data.length = elementSize
  | _ => True

/-- A session in which the counters were always as the protocol needs them. -/
structure Sound (session : Session) : Prop where
  numbers : Numbers session.pool
  contents : Contents session.pool.shared session.pool.calls session.consumer.taken.length
  follows : Follows session.pool.shared.tail session.pool.calls session.consumer
  sized : ∀ call ∈ session.pool.calls, call.Sized session.pool.shared.elementSize

section Runs

variable {session next : Session} {event : BufferEvent} {position : Nat} {call moved : PushCall}
  {number : Int} {data : List UInt8} {calls : List PushCall}

theorem accepted_of_drawn (returned : call.inProgress = false) (drew : call.drawn = some number) :
    ∃ data, call = .accepted number data := by
  cases call with
  | accepted other data =>
    cases drew
    exact ⟨data, rfl⟩
  | refused => cases drew
  | draw data => cases drew
  | _ => cases returned

theorem accepted_kept (found : calls[position]? = some call) (running : call.inProgress = true)
    (member : .accepted number data ∈ calls) :
    .accepted number data ∈ calls.set position moved := by
  by_cases same : .accepted number data = moved
  · exact same ▸ mem_replacement found moved
  · refine (mem_replaced found ?_ same).mpr member
    intro accepts
    rw [← accepts] at running
    cases running

theorem Follows.mono {tail : AtomicCounter} {consumer : Consumer} {after : List PushCall}
    (follows : Follows tail calls consumer)
    (kept : ∀ number data, .accepted number data ∈ calls → .accepted number data ∈ after) :
    Follows tail after consumer where
  tail := follows.tail
  order := fun position item found => kept position item (follows.order position item found)
  stage := by
    have stage := follows.stage
    revert stage
    cases consumer.stage with
    | idle => exact id
    | check tail => exact id
    | read tail => exact fun ⟨same, data, member⟩ => ⟨same, data, kept tail data member⟩
    | release tail data => exact fun ⟨same, member⟩ => ⟨same, kept tail data member⟩
    | advance data => exact id

section

variable (sound : Sound session)
include sound

theorem Sound.ahead (member : call ∈ session.pool.calls) (drew : call.drawn = some number)
    (running : call.inProgress = true) : session.consumer.taken.length ≤ number := by
  by_contra behind
  have between := sound.numbers.between member drew
  have inside : number.toNat < session.consumer.taken.length := by omega
  have accepted := sound.follows.order number.toNat _ (List.getElem?_eq_getElem inside)
  rw [Int.toNat_of_nonneg between.1] at accepted
  cases sound.numbers.unique member accepted drew rfl
  cases running

theorem Sound.advance (found : session.pool.calls[position]? = some call)
    (running : call.inProgress = true) {shared : MultiProducerRingBuffer}
    (numbers : Numbers { shared := shared, calls := session.pool.calls.set position moved })
    (contents : Contents shared
      (session.pool.calls.set position moved) session.consumer.taken.length)
    (tail : shared.tail = session.pool.shared.tail)
    (elementSize : shared.elementSize = session.pool.shared.elementSize)
    (sized : moved.Sized session.pool.shared.elementSize) : Sound { session with pool := {
      shared := shared, calls := session.pool.calls.set position moved } } where
  numbers := numbers
  contents := contents
  follows := tail ▸ sound.follows.mono fun _ _ member => accepted_kept found running member
  sized := by
    intro other member
    show other.Sized shared.elementSize
    rw [elementSize]
    rcases List.mem_or_eq_of_mem_set member with old | new
    · exact sound.sized other old
    · exact new ▸ sized

/-- A push that fits keeps the buffer sound. -/
theorem sound_push (found : session.pool.calls[position]? = some call) (fits : Fits session call)
    {shared : MultiProducerRingBuffer}
    (taken : nextPush session.pool.shared call = some (shared, moved)) :
    Sound { session with pool := {
      shared := shared, calls := session.pool.calls.set position moved } } := by
  have member := List.mem_of_getElem? found
  have sized := sound.sized call member
  cases call with
  | draw data =>
    cases taken
    exact sound.advance found rfl (sound.numbers.draw found fits)
      (sound.contents.keep found rfl rfl _ _) rfl rfl sized
  | check number data =>
    have ahead := sound.ahead member rfl rfl
    cases taken
    by_cases ready : session.pool.shared.sequence number < number
    · rw [if_pos ready]
      exact sound.advance found rfl (sound.numbers.keep found rfl rfl rfl rfl)
        (sound.contents.keep found rfl rfl _ _) rfl rfl trivial
    · rw [if_neg ready]
      have near := mt fits.mpr ready
      exact sound.advance found rfl (sound.numbers.keep found rfl rfl rfl rfl)
        (sound.contents.pass found ahead (by omega)) rfl rfl sized
  | rollBack number =>
    cases taken
    exact sound.advance found rfl (sound.numbers.rollBack found fits)
      (sound.contents.keep found rfl rfl _ _) rfl rfl trivial
  | write number data =>
    cases taken
    have holds : ∀ call ∈ session.pool.calls, call.drawn = some number →
        call = .write number data :=
      fun other there drew => sound.numbers.unique there member drew rfl
    exact sound.advance found rfl (sound.numbers.keep found rfl rfl rfl rfl)
      (sound.contents.write found holds sized) rfl rfl trivial
  | mark number data =>
    cases taken
    have holds : ∀ call ∈ session.pool.calls, call.drawn = some number →
        call = .mark number data :=
      fun other there drew => sound.numbers.unique there member drew rfl
    have between := sound.numbers.between member rfl
    have room := sound.numbers.room
    have lower : i64Min ≤ number + 1 := by
      unfold i64Min
      omega
    exact sound.advance found rfl (sound.numbers.keep found rfl rfl rfl rfl)
      (sound.contents.mark found holds lower (by omega)) rfl rfl trivial
  | accepted number data => cases taken
  | refused => cases taken

theorem Sound.turn {stage : PopStep} (before : session.consumer.stage.returned = [])
    (after : stage.returned = [])
    (stands : Stands session.pool.calls session.consumer.popped.length stage) :
    Sound { session with consumer := { stage := stage, popped := session.consumer.taken } } := by
  have popped : session.consumer.taken = session.consumer.popped := by
    unfold Consumer.taken
    rw [before, List.append_nil]
  have again : (Consumer.mk stage session.consumer.taken).taken = session.consumer.taken := by
    show session.consumer.taken ++ stage.returned = _
    rw [after, List.append_nil]
  exact {
    numbers := sound.numbers
    contents := by
      show Contents _ _ (Consumer.mk stage _).taken.length
      rw [again]
      exact sound.contents
    follows := {
      tail := by
        show session.pool.shared.tail.load = (session.consumer.taken.length : Int)
        rw [popped]
        exact sound.follows.tail
      order := by
        show ∀ (position : Nat) item, (Consumer.mk stage _).taken[position]? = some item → _
        rw [again]
        exact sound.follows.order
      stage := by
        show Stands _ session.consumer.taken.length stage
        rw [popped]
        exact stands }
    sized := sound.sized }

theorem Sound.take {tail : Int} (stage : session.consumer.stage = .release tail data) : Sound {
      pool := { session.pool with
        shared := session.pool.shared.mark tail (tail + session.pool.shared.capacity) }
      consumer := { stage := .advance data, popped := session.consumer.taken } } := by
  have popped : session.consumer.taken = session.consumer.popped := by
    unfold Consumer.taken
    rw [stage]
    exact List.append_nil _
  have stands := sound.follows.stage
  rw [stage, ← popped] at stands
  obtain ⟨rfl, member⟩ := stands
  have between := sound.numbers.between member rfl
  have room := sound.numbers.room
  have lower : i64Min ≤ (session.consumer.taken.length : Int) + session.pool.shared.capacity := by
    unfold i64Min
    omega
  have holds : ∀ call ∈ session.pool.calls,
      call.drawn = some (session.consumer.taken.length : Int) →
        call = .accepted session.consumer.taken.length data :=
    fun other there drew => sound.numbers.unique there member drew rfl
  have more : ((session.consumer.taken ++ [data]).length : Int) =
      session.consumer.taken.length + 1 := by simp
  exact {
    numbers := { sound.numbers with }
    contents := by
      show Contents _ _ (session.consumer.taken ++ [data]).length
      rw [more]
      exact sound.contents.release holds lower (by omega)
    follows := {
      tail := by
        show session.pool.shared.tail.load = (session.consumer.taken.length : Int)
        rw [popped]
        exact sound.follows.tail
      order := by
        show ∀ (position : Nat) item, (session.consumer.taken ++ [data])[position]? = some item → _
        intro position item found
        by_cases earlier : position < session.consumer.taken.length
        · rw [List.getElem?_append_left earlier] at found
          exact sound.follows.order position item found
        · rw [List.getElem?_append_right (Nat.le_of_not_lt earlier)] at found
          have last := (List.getElem?_eq_some_iff.mp found).1
          have here : position = session.consumer.taken.length := by
            rw [List.length_singleton] at last
            omega
          rw [List.mem_singleton.mp (List.mem_of_getElem? found), here]
          exact member
      stage := trivial }
    sized := sound.sized }

theorem Sound.back (stage : session.consumer.stage = .advance data) : Sound {
      pool := { session.pool with
        shared := { session.pool.shared with tail := session.pool.shared.tail.fetchAdd 1 } }
      consumer := { stage := .idle, popped := session.consumer.taken } } := by
  have popped : session.consumer.taken = session.consumer.popped ++ [data] := by
    unfold Consumer.taken
    rw [stage]
    rfl
  have again : (Consumer.mk .idle session.consumer.taken).taken = session.consumer.taken :=
    List.append_nil _
  have last : session.consumer.taken[session.consumer.popped.length]? = some data := by
    rw [popped, List.getElem?_append_right (Nat.le_refl _), Nat.sub_self]
    rfl
  have between := sound.numbers.between (sound.follows.order _ data last) rfl
  have room := sound.numbers.room
  have tail := sound.follows.tail
  have lower : i64Min ≤ session.pool.shared.tail.load + 1 := by
    unfold i64Min
    omega
  exact {
    numbers := { sound.numbers with }
    contents := by
      show Contents _ _ (Consumer.mk .idle _).taken.length
      rw [again]
      exact { sound.contents with }
    follows := {
      tail := by
        show (session.pool.shared.tail.fetchAdd 1).load = (session.consumer.taken.length : Int)
        rw [AtomicCounter.load_fetchAdd lower (by omega), tail, popped, List.length_append]
        rfl
      order := by
        show ∀ (position : Nat) item, (Consumer.mk .idle _).taken[position]? = some item → _
        rw [again]
        exact sound.follows.order
      stage := trivial }
    sized := sound.sized }

/-- A pop keeps the buffer sound. -/
theorem sound_pop (taken : step session .consumer = some next) : Sound next := by
  have stands := sound.follows.stage
  have tail := sound.follows.tail
  have positive := session.pool.shared.positive
  cases taken
  cases stage : session.consumer.stage with
  | idle => exact sound.turn (by rw [stage]; rfl) rfl tail
  | check number =>
    rw [stage] at stands
    have popped : session.consumer.taken = session.consumer.popped := by
      unfold Consumer.taken
      rw [stage]
      exact List.append_nil _
    show Sound { session with consumer := { stage := if _ then _ else _, popped := _ } }
    by_cases ready : session.pool.shared.sequence number < number + 1
    · rw [if_pos ready]
      exact sound.turn (by rw [stage]; rfl) rfl trivial
    · rw [if_neg ready]
      have first : number = (session.consumer.taken.length : Int) := popped ▸ stands
      have accepted := (sound.contents.free number (by omega) (by omega)).resolve_left (by omega)
      exact sound.turn (by rw [stage]; rfl) rfl ⟨stands, accepted⟩
  | read number =>
    rw [stage] at stands
    obtain ⟨first, data, member⟩ := stands
    have popped : session.consumer.taken = session.consumer.popped := by
      unfold Consumer.taken
      rw [stage]
      exact List.append_nil _
    have intact := ((sound.contents.accepted number data member).2 (by rw [popped]; omega)).2
    refine sound.turn (by rw [stage]; rfl) rfl ⟨first, ?_⟩
    rw [intact]
    exact member
  | release number data => exact sound.take stage
  | advance data => exact sound.back stage

end

/-- A new buffer is sound. -/
theorem sound_start {capacity elementSize : Nat} {ring : MultiProducerRingBuffer}
    (made : MultiProducerRingBuffer.init capacity elementSize = some ring) :
    Sound (Session.start ring) := by
  unfold MultiProducerRingBuffer.init at made
  split at made
  · next fits =>
    cases made
    have zero : (AtomicCounter.store 0).load = 0 :=
      AtomicCounter.load_store (by decide) (by decide)
    exact {
      numbers := {
        nonneg := Int.le_of_eq zero.symm
        room := by
          show (AtomicCounter.store 0).load + _ ≤ i64Max
          rw [zero, Int.zero_add]
          exact fits.2
        held := by
          intro number
          show 0 = if 0 ≤ number ∧ number < (AtomicCounter.store 0).load then 1 else 0
          rw [zero, if_neg (by omega)] }
      contents := {
        allocated := List.length_replicate
        passed := fun _ _ member => by cases member
        written := fun _ _ member => by cases member
        accepted := fun _ _ member => by cases member
        free := fun number from_ _ => .inl (Int.le_trans (Int.le_of_eq zero) from_) }
      follows := {
        tail := zero
        order := fun position item found => by cases found
        stage := trivial }
      sized := fun _ member => by cases member }
  · cases made

theorem Sound.enters (sound : Sound session) (data : List UInt8) :
    Sound { session with pool := { session.pool with
      calls := session.pool.calls ++ [enter session.pool.shared.elementSize data] } } where
  numbers := sound.numbers.start _ data
  contents := by
    apply sound.contents.congr
    intro call stores
    rw [List.mem_append, List.mem_singleton]
    refine or_iff_left fun new => ?_
    rw [new] at stores
    unfold enter at stores
    split at stores <;> cases stores
  follows := sound.follows.mono fun _ _ member => List.mem_append_left _ member
  sized := by
    intro call member
    rcases List.mem_append.mp member with old | new
    · exact sound.sized call old
    · rw [List.mem_singleton.mp new]
      unfold enter
      split
      · next fits => exact fits
      · trivial

/-- A step of the protocol keeps the buffer sound. -/
theorem sound_step (sound : Sound session) (protocol : Protocol session event)
    (taken : step session event = some next) : Sound next := by
  cases event with
  | producer move =>
    obtain ⟨pool, moves, rfl⟩ := Option.map_eq_some_iff.mp taken
    cases move with
    | start data =>
      cases moves
      exact sound.enters data
    | advance position =>
      obtain ⟨call, found, shared, moved, advances, rfl⟩ := step_advance.mp moves
      exact sound_push sound found (protocol call found) advances
  | consumer => exact sound_pop sound taken

theorem queues_of_sound (sound : Sound session) : Queues session where
  order := sound.follows.order
  once := by
    intro number
    have held := sound.numbers.held number
    have least : session.pool.count (PushCall.acceptedAs number) ≤
        session.pool.count fun call => decide (call.drawn = some number) := by
      apply List.countP_mono_left
      intro call _ accepted
      cases call with
      | accepted other item =>
        exact decide_eq_true (congrArg some (of_decide_eq_true accepted))
      | _ => cases accepted
    split at held <;> omega
  intact := fun number item member from_ => (sound.contents.accepted number item member).2 from_
  bounded := fun number item member => ⟨(sound.numbers.between member rfl).1,
    (sound.contents.accepted number item member).1⟩
  gapless := by
    intro returned number nonneg below
    obtain ⟨call, member, drew⟩ := sound.numbers.holder nonneg below
    have still := Bool.eq_false_iff.mpr (List.countP_eq_zero.mp returned call member)
    obtain ⟨item, rfl⟩ := accepted_of_drawn still drew
    exact ⟨item, member⟩

theorem refuses_only_full (sound : Sound session) (protocol : Protocol session event) :
    RefusesOnlyFull session event := by
  cases event with
  | consumer => trivial
  | producer move =>
    cases move with
    | start data => trivial
    | advance position =>
      intro call found
      have fits := protocol call found
      cases call with
      | check number data =>
        intro unready quiet
        have member := List.mem_of_getElem? found
        have full := fits.mp unready
        have below := (sound.numbers.between member rfl).2
        -- The numbers of a capacity from the first that is not taken on are all accepted.
        let numbers := (List.range session.pool.shared.capacity).map fun offset =>
          (session.consumer.taken.length : Int) + (offset : Nat)
        have distinct : numbers.Nodup := List.nodup_range.map fun _ _ same => by omega
        have accepted : ∀ value ∈ numbers, ∃ call ∈ session.pool.calls,
            call.acceptedFrom session.consumer.taken.length = true ∧ call.drawn = some value := by
          intro value among
          obtain ⟨offset, within, rfl⟩ := List.mem_map.mp among
          have short := List.mem_range.mp within
          obtain ⟨holder, holds, drew⟩ := sound.numbers.holder (by omega)
            (show (session.consumer.taken.length : Int) + (offset : Nat) < _ by omega)
          refine ⟨holder, holds, ?_, drew⟩
          cases running : holder.inProgress with
          | true =>
            have same := member_unique (Nat.le_of_eq quiet.1) holds member running rfl
            rw [same] at drew
            cases drew
            omega
          | false =>
            obtain ⟨item, rfl⟩ := accepted_of_drawn running drew
            exact decide_eq_true (by omega)
        have stored := length_le_count distinct accepted
        rw [List.length_map, List.length_range] at stored
        exact stored
      | _ => trivial

/-- In every interleaving of the pushes on a new buffer of any capacity with the pops of its
consumer whose steps find the counters as the protocol needs them, the buffer is a bounded queue,
and a push alone is refused only by a full buffer. -/
theorem bounded_queue_of_protocol {capacity elementSize : Nat} {ring : MultiProducerRingBuffer}
    (made : MultiProducerRingBuffer.init capacity elementSize = some ring)
    (events : List BufferEvent) (protocol : Guarded step Protocol (Session.start ring) events) :
    Always step Queues (Session.start ring) events ∧
      Guarded step RefusesOnlyFull (Session.start ring) events := by
  have preserved : ∀ session event next, Sound session → Protocol session event →
      step session event = some next → Sound next := fun _ _ _ => sound_step
  have start := sound_start made
  constructor
  · exact (always_guarded preserved start events protocol).imp fun _ => queues_of_sound
  · exact guarded_mono preserved (fun _ _ _ sound met _ => refuses_only_full sound met) start
      events protocol

/-- A new buffer of a power of two of bytes. -/
def byteSlots (exponent : Nat) : MultiProducerRingBuffer where
  capacity := 2 ^ exponent
  positive := Nat.two_pow_pos exponent
  elementSize := 1
  head := .store 0
  tail := .store 0
  buffer := List.replicate (2 ^ exponent) 0
  slots := fun _ => .store 0

/-- Some steps of the push at a position. -/
def advances (position count : Nat) : List BufferEvent :=
  List.replicate count (.producer (.advance position))

/-- Two pushes that draw at once, of which the second is refused, and a third after a pop. -/
def turns : List BufferEvent :=
  [.producer (.start [7]), .producer (.start [8])] ++ advances 0 1 ++ advances 1 3 ++
    advances 0 3 ++ List.replicate 5 .consumer ++ .producer (.start [9]) :: advances 2 4 ++
      List.replicate 5 .consumer

/-- A push of an item, one of an item that is too long, and one that draws its number and goes no
further, with a pop that takes the item and one that finds nothing. -/
def overlapping : List BufferEvent :=
  [.producer (.start [7]), .producer (.start [8, 8]), .producer (.start [9])] ++ advances 0 3 ++
    advances 2 1 ++ .producer (.advance 0) :: List.replicate 7 .consumer

/-- The interleaving of the pushes is that of a bounded queue, in turns on a buffer of one slot and
overlapping on one of four. -/
theorem bounded_queue_of_protocol_overlapping :
    ((Always step Queues (Session.start (byteSlots 0)) turns ∧
      Guarded step RefusesOnlyFull (Session.start (byteSlots 0)) turns) ∧
        (exec step (Session.start (byteSlots 0)) turns).map (·.consumer.popped) =
          some [[7], [9]]) ∧
    (Always step Queues (Session.start (byteSlots 2)) overlapping ∧
      Guarded step RefusesOnlyFull (Session.start (byteSlots 2)) overlapping) ∧
        (exec step (Session.start (byteSlots 2)) overlapping).map (·.consumer.popped) =
          some [[7]] := by
  refine ⟨⟨?_, by decide +kernel⟩, ?_, by decide +kernel⟩
  · exact bounded_queue_of_protocol
      (show MultiProducerRingBuffer.init 1 1 = some (byteSlots 0) from rfl) turns
      (by decide +kernel)
  · exact bounded_queue_of_protocol
      (show MultiProducerRingBuffer.init 4 1 = some (byteSlots 2) from rfl) overlapping
      (by decide +kernel)

/-- A buffer of two slots with one unread item refuses a push that runs alone. -/
theorem refused_with_free_slot :
    ¬∀ (capacity elementSize : Nat) (ring : MultiProducerRingBuffer) (events : List BufferEvent),
      1 ≤ capacity → MultiProducerRingBuffer.init capacity elementSize = some ring →
        Always step Queues (Session.start ring) events ∧
          Guarded step RefusesOnlyFull (Session.start ring) events := by
  intro claim
  have both := claim 2 1 (byteSlots 1)
    (.producer (.start [7]) :: advances 0 4 ++ .producer (.start [8]) :: advances 1 3)
    (by decide) rfl
  exact absurd both.2 (by decide +kernel)

end Runs

end TradingBot.Ipc.MultiProducer
