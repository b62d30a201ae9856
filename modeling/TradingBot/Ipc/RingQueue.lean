import TradingBot.Foundation.RingWindow
import TradingBot.Ipc.RingBuffer

/-!
# The ring buffer as a queue

The positions of a ring buffer are the numbers of items it accepted and popped, kept as machine
words and masked to slots. Between them every slot holds its item, around the capacity and past
the end of the allocated array. The buffer is therefore a first-in first-out queue along every
run. It refuses an item with one slot still free, where its `is_full` says otherwise.
-/

open Bytes MachineInt Run

namespace TradingBot.Ipc.RingQueue

open LockFreeRingBuffer

/-- One call on a ring buffer. -/
inductive BufferCall where
  | push (data : List UInt8)
  | pop
  | peek
  | pushBatch (items : List (List UInt8))
  | popBatch (count : Nat)
  | clear

/-- A ring buffer with the items it accepted and the items it popped, both in order. -/
structure Session where
  ring : LockFreeRingBuffer
  accepted : List (List UInt8)
  popped : List (List UInt8)

/-- A session after a call; there is no call with an item of another size. -/
def step (session : Session) : BufferCall → Option Session
  | .push data => (session.ring.push data).map fun answer =>
      { session with
        ring := answer.2
        accepted := session.accepted ++ if answer.1 then [data] else [] }
  | .pop =>
    some { session with
      ring := session.ring.pop.2
      popped := session.popped ++ session.ring.pop.1.toList }
  | .peek => some session
  | .pushBatch items =>
    if ∀ item ∈ items, item.length = session.ring.elementSize then
      (session.ring.pushBatch items).map fun answer =>
        { session with
          ring := answer.2
          accepted := session.accepted ++ items.take answer.1 }
    else none
  | .popBatch count =>
    some { session with
      ring := (session.ring.popBatch count).2
      popped := session.popped ++ (session.ring.popBatch count).1 }
  | .clear =>
    some { session with
      ring := session.ring.clear.2
      popped := session.popped ++ session.ring.drain.1 }

/-- The buffer is a queue: the popped items are the first accepted ones in order, the size is the
number of the others, and the first of these is what `peek` shows and the next `pop` returns. -/
structure Queues (session : Session) : Prop where
  order : session.popped <+: session.accepted
  size : session.ring.size = session.accepted.length - session.popped.length
  peek : session.ring.peek = session.accepted[session.popped.length]?
  pop : session.ring.pop.1 = session.ring.peek

/-- A push is refused exactly when `is_full` says so. -/
def PushTruthful (ring : LockFreeRingBuffer) (data : List UInt8) : Prop :=
  (ring.push data).map Prod.fst = some false ↔ ring.isFull = true

/-- Every push of a batch is refused exactly when `is_full` says so. -/
def BatchTruthful : LockFreeRingBuffer → List (List UInt8) → Prop
  | _, [] => True
  | ring, item :: rest => PushTruthful ring item ∧
      ∀ after, ring.push item = some (true, after) → BatchTruthful after rest

/-- The pushes of a call are refused exactly when `is_full` says so. -/
def Truthful (session : Session) : BufferCall → Prop
  | .push data => PushTruthful session.ring data
  | .pushBatch items => BatchTruthful session.ring items
  | _ => True

/-- The items of a call leave at least the one slot free that the buffer never fills. -/
def Room (session : Session) : BufferCall → Prop
  | .push _ => session.ring.size + 1 < session.ring.capacity
  | .pushBatch items =>
    items = [] ∨ session.ring.size + items.length < session.ring.capacity
  | _ => True

instance (session : Session) : ∀ call, Decidable (Room session call)
  | .push _ => inferInstanceAs (Decidable (_ < _))
  | .pushBatch _ => inferInstanceAs (Decidable (_ ∨ _))
  | .pop | .peek | .popBatch _ | .clear => inferInstanceAs (Decidable True)

/-! ## Positions -/

section Positions

variable {ring : LockFreeRingBuffer}

theorem masked_store (divides : ring.capacity ∣ u64Size) (count : Nat) :
    ring.masked (castI64 count) = count % ring.capacity := by
  unfold masked
  rw [castI64_emod divides]
  exact Int.toNat_natCast _

theorem masked_store_succ (divides : ring.capacity ∣ u64Size) (count : Nat) :
    ring.masked (castI64 count + 1) = (count + 1) % ring.capacity := by
  unfold masked
  rw [Int.add_emod, castI64_emod divides, ← Int.add_emod]
  exact Int.toNat_natCast _

theorem masked_difference (divides : ring.capacity ∣ u64Size) {head tail : Nat}
    (ordered : tail ≤ head) (near : head - tail < ring.capacity) :
    ring.masked (castI64 head - castI64 tail) = head - tail := by
  have difference : (head : Int) - tail = ((head - tail : Nat) : Int) := by omega
  unfold masked
  rw [Int.sub_emod, castI64_emod divides, castI64_emod divides, ← Int.sub_emod, difference,
    ← Int.natCast_emod, Int.toNat_natCast, Nat.mod_eq_of_lt near]

theorem store_eq {head tail : Nat} (ordered : tail ≤ head) (near : head - tail < u64Size) :
    castI64 head = castI64 tail ↔ head = tail := by
  constructor
  · intro same
    obtain ⟨turns, apart⟩ := castI64_inj same
    unfold u64Size at *
    omega
  · exact fun same => same ▸ rfl

end Positions

theorem prefix_next {α : Type*} {front list : List α} {value : α} (front_ : front <+: list)
    (behind : list[front.length]? = some value) : front ++ [value] <+: list := by
  obtain ⟨rest, rfl⟩ := front_
  rw [List.getElem?_append_right (Nat.le_refl _), Nat.sub_self] at behind
  cases rest with
  | nil => cases behind
  | cons first others =>
    cases behind
    exact ⟨others, List.append_assoc _ _ _⟩

/-! ## The items in their slots -/

/-- A ring buffer stores the items it accepted and did not pop, each in the slot of its position;
one slot is free, and the array reaches over every slot that was written. -/
structure Stores (ring : LockFreeRingBuffer) (accepted popped : List (List UInt8)) : Prop where
  divides : ring.capacity ∣ u64Size
  head : ring.head.load = castI64 accepted.length
  tail : ring.tail.load = castI64 popped.length
  order : popped <+: accepted
  free : accepted.length - popped.length < ring.capacity
  reach : min accepted.length ring.capacity * ring.elementSize ≤ ring.buffer.length
  items : ∀ position item, popped.length ≤ position → accepted[position]? = some item →
    slot ring.buffer ring.elementSize (position % ring.capacity) = item

section Stores

variable {ring : LockFreeRingBuffer} {accepted popped : List (List UInt8)} {data : List UInt8}

section

variable (stores : Stores ring accepted popped)
include stores

/-- No more is popped than was accepted. -/
theorem Stores.ordered : popped.length ≤ accepted.length :=
  stores.order.length_le

theorem Stores.narrow : ring.capacity ≤ u64Size :=
  Nat.le_of_dvd (by decide) stores.divides

theorem Stores.head_eq_tail :
    ring.head.load = ring.tail.load ↔ accepted.length = popped.length := by
  rw [stores.head, stores.tail]
  exact store_eq stores.ordered (Nat.lt_of_lt_of_le stores.free stores.narrow)

/-- The size is what was accepted and not yet popped. -/
theorem Stores.size : ring.size = accepted.length - popped.length := by
  unfold LockFreeRingBuffer.size
  rw [stores.head, stores.tail]
  exact masked_difference stores.divides stores.ordered stores.free

theorem Stores.not_full : ring.isFull = false := by
  unfold isFull
  rw [stores.size]
  exact decide_eq_false (Nat.ne_of_lt stores.free)

theorem Stores.readAt_tail {item : List UInt8} (first : accepted[popped.length]? = some item) :
    ring.readAt ring.tail.load = item := by
  have here := stores.items popped.length item (Nat.le_refl _) first
  unfold readAt getOffset
  rw [stores.tail, masked_store stores.divides]
  exact here

theorem Stores.peek : ring.peek = accepted[popped.length]? := by
  unfold LockFreeRingBuffer.peek
  by_cases none : accepted.length = popped.length
  · rw [if_pos (stores.head_eq_tail.mpr none)]
    exact (List.getElem?_eq_none (Nat.le_of_eq none)).symm
  · rw [if_neg fun same => none (stores.head_eq_tail.mp same)]
    have inside : popped.length < accepted.length := by
      have ordered := stores.ordered
      omega
    have first := List.getElem?_eq_getElem inside
    rw [stores.readAt_tail first, first]

/-- A pop returns the next item. -/
theorem Stores.pop : ring.pop.1 = accepted[popped.length]? ∧
      Stores ring.pop.2 accepted (popped ++ ring.pop.1.toList) := by
  have shown := stores.peek
  unfold LockFreeRingBuffer.peek at shown
  unfold LockFreeRingBuffer.pop
  by_cases none : ring.head.load = ring.tail.load
  · rw [if_pos none] at shown ⊢
    refine ⟨shown, ?_⟩
    show Stores _ accepted (popped ++ [])
    rw [List.append_nil]
    exact { stores with }
  · rw [if_neg none] at shown ⊢
    refine ⟨shown, ?_⟩
    show Stores _ accepted (popped ++ [ring.readAt ring.tail.load])
    have inside := (List.getElem?_eq_some_iff.mp shown.symm).1
    have more : (popped ++ [ring.readAt ring.tail.load]).length = popped.length + 1 := by simp
    have tail : castI64 (ring.tail.load + 1) = castI64 ((popped.length + 1 : Nat) : Int) := by
      rw [stores.tail, castI64_castI64_add]
      rfl
    exact {
      divides := stores.divides
      head := stores.head
      tail := by rw [more]; exact tail
      order := prefix_next stores.order shown.symm
      free := by
        have free := stores.free
        rw [more]
        show accepted.length - (popped.length + 1) < ring.capacity
        omega
      reach := stores.reach
      items := fun position item later found =>
        stores.items position item (by rw [more] at later; omega) found }

theorem Stores.inside :
    accepted.length % ring.capacity * ring.elementSize ≤ ring.buffer.length := by
  have room : 0 < ring.capacity := Nat.zero_lt_of_lt stores.free
  have small : accepted.length % ring.capacity ≤ min accepted.length ring.capacity :=
    Nat.le_min.mpr ⟨Nat.mod_le _ _, Nat.le_of_lt (Nat.mod_lt _ room)⟩
  exact Nat.le_trans (Nat.mul_le_mul_right _ small) stores.reach

theorem Stores.reach_overwrite (sized : data.length = ring.elementSize) :
    min (accepted.length + 1) ring.capacity * ring.elementSize ≤
      (overwrite ring.buffer (accepted.length % ring.capacity * ring.elementSize) data).length := by
  have reach := stores.reach
  rw [length_overwrite_slot stores.inside sized]
  by_cases filling : accepted.length < ring.capacity
  · rw [Nat.min_eq_left (by omega), Nat.mod_eq_of_lt filling, Nat.succ_mul]
    exact Nat.le_max_right _ _
  · rw [Nat.min_eq_right (by omega)] at reach ⊢
    exact Nat.le_trans reach (Nat.le_max_left _ _)

theorem Stores.items_overwrite (sized : data.length = ring.elementSize) {position : Nat}
    {item : List UInt8} (later : popped.length ≤ position)
    (found : (accepted ++ [data])[position]? = some item) :
    slot (overwrite ring.buffer (accepted.length % ring.capacity * ring.elementSize) data)
      ring.elementSize (position % ring.capacity) = item := by
  have free := stores.free
  by_cases earlier : position < accepted.length
  · have apart : position % ring.capacity ≠ accepted.length % ring.capacity :=
      RingWindow.mod_ne (by omega) (by omega) (by omega)
    rw [slot_overwrite_other stores.inside sized apart]
    exact stores.items position item later
      ((List.getElem?_append_left earlier).symm.trans found)
  · have last := (List.getElem?_append_right (Nat.le_of_not_lt earlier)).symm.trans found
    have here : position = accepted.length := by
      have within := (List.getElem?_eq_some_iff.mp found).1
      rw [List.length_append, List.length_singleton] at within
      omega
    have same : data = item := (List.mem_singleton.mp (List.mem_of_getElem? last)).symm
    rw [here, slot_overwrite_same stores.inside sized, same]

end

/-- A push with room is accepted. -/
theorem Stores.push (stores : Stores ring accepted popped)
    (room : accepted.length - popped.length + 1 < ring.capacity)
    (sized : data.length = ring.elementSize) :
    ∃ after, ring.push data = some (true, after) ∧ Stores after (accepted ++ [data]) popped ∧
      after.capacity = ring.capacity ∧ after.elementSize = ring.elementSize := by
  have ordered := stores.ordered
  have free_ : (accepted.length + 1) % ring.capacity ≠ popped.length % ring.capacity :=
    (RingWindow.mod_ne (by omega) (by omega) (by omega)).symm
  have head : ring.masked (ring.head.load + 1) = (accepted.length + 1) % ring.capacity := by
    rw [stores.head]
    exact masked_store_succ stores.divides _
  have tail : ring.masked ring.tail.load = popped.length % ring.capacity := by
    rw [stores.tail]
    exact masked_store stores.divides _
  have offset : ring.getOffset ring.head.load =
      accepted.length % ring.capacity * ring.elementSize := by
    unfold getOffset
    rw [stores.head, masked_store stores.divides]
  have more : (accepted ++ [data]).length = accepted.length + 1 := by simp
  unfold LockFreeRingBuffer.push
  rw [if_neg (not_not_intro sized), head, tail, if_neg free_, offset]
  refine ⟨_, rfl, ?_, rfl, rfl⟩
  exact {
    divides := stores.divides
    head := by
      show castI64 (ring.head.load + 1) = _
      rw [stores.head, castI64_castI64_add, more]
      rfl
    tail := stores.tail
    order := stores.order.trans (List.prefix_append _ _)
    free := by
      rw [more]
      show accepted.length + 1 - popped.length < ring.capacity
      omega
    reach := by
      rw [more]
      exact stores.reach_overwrite sized
    items := fun position item later found => stores.items_overwrite sized later found }

section

variable (stores : Stores ring accepted popped)
include stores

/-- A push without room is refused. -/
theorem Stores.push_refused (none : ¬accepted.length - popped.length + 1 < ring.capacity)
    (sized : data.length = ring.elementSize) :
    ∃ after, ring.push data = some (false, after) ∧ Stores after accepted popped := by
  have ordered := stores.ordered
  have full : accepted.length + 1 = popped.length + ring.capacity := by
    have free := stores.free
    omega
  have head : ring.masked (ring.head.load + 1) = popped.length % ring.capacity := by
    rw [stores.head, masked_store_succ stores.divides, full, Nat.add_mod_right]
  have tail : ring.masked ring.tail.load = popped.length % ring.capacity := by
    rw [stores.tail]
    exact masked_store stores.divides _
  unfold LockFreeRingBuffer.push
  rw [if_neg (not_not_intro sized), head, tail, if_pos rfl]
  exact ⟨_, rfl, { stores with }⟩

theorem Stores.push_truthful (sized : data.length = ring.elementSize) :
    PushTruthful ring data ↔ ring.size + 1 < ring.capacity := by
  unfold PushTruthful
  rw [stores.not_full, stores.size]
  by_cases room : accepted.length - popped.length + 1 < ring.capacity
  · obtain ⟨after, pushed, _⟩ := stores.push room sized
    rw [pushed]
    exact ⟨fun _ => room, fun _ => ⟨nofun, nofun⟩⟩
  · obtain ⟨after, pushed, _⟩ := stores.push_refused room sized
    rw [pushed]
    exact ⟨fun truthful => absurd (truthful.mp rfl) Bool.false_ne_true,
      fun fits => absurd fits room⟩

theorem Stores.batch_truthful {items : List (List UInt8)}
    (sized : ∀ item ∈ items, item.length = ring.elementSize) :
    BatchTruthful ring items ↔ items = [] ∨ ring.size + items.length < ring.capacity := by
  induction items generalizing ring accepted with
  | nil => exact ⟨fun _ => .inl rfl, fun _ => trivial⟩
  | cons item rest ih =>
    have first := (List.forall_mem_cons.mp sized).1
    show PushTruthful ring item ∧ _ ↔ _
    rw [stores.push_truthful first, stores.size]
    by_cases room : accepted.length - popped.length + 1 < ring.capacity
    · obtain ⟨after, pushed, stored, capacity, elementSize⟩ := stores.push room first
      have later := ih stored fun other member =>
        elementSize ▸ (List.forall_mem_cons.mp sized).2 other member
      have ordered := stores.ordered
      rw [stored.size, capacity, List.length_append, List.length_singleton] at later
      rw [pushed, List.length_cons]
      constructor
      · intro truthful
        refine .inr ?_
        cases later.mp (truthful.2 after rfl) with
        | inl none =>
          rw [none]
          exact room
        | inr fits => omega
      · intro fits
        have roomy := fits.resolve_left (List.cons_ne_nil _ _)
        refine ⟨room, fun other same => ?_⟩
        cases same
        exact later.mpr (.inr (by omega))
    · constructor
      · exact fun truthful => absurd truthful.1 room
      · intro fits
        have roomy := fits.resolve_left (List.cons_ne_nil _ _)
        rw [List.length_cons] at roomy
        omega

theorem Stores.pushBatch {items : List (List UInt8)} {written : Nat} {after : LockFreeRingBuffer}
    (sized : ∀ item ∈ items, item.length = ring.elementSize)
    (pushed : ring.pushBatch items = some (written, after)) :
    Stores after (accepted ++ items.take written) popped := by
  induction items generalizing ring accepted written with
  | nil =>
    cases pushed
    exact (List.append_nil accepted).symm ▸ stores
  | cons item rest ih =>
    have first := (List.forall_mem_cons.mp sized).1
    obtain ⟨answer, answered, later⟩ := Option.bind_eq_some_iff.mp pushed
    by_cases room : accepted.length - popped.length + 1 < ring.capacity
    · obtain ⟨middle, accepts, stored, _, elementSize⟩ := stores.push room first
      cases answered.symm.trans accepts
      obtain ⟨result, rested, same⟩ := Option.map_eq_some_iff.mp later
      cases same
      have stored := ih stored (fun other member =>
        elementSize ▸ (List.forall_mem_cons.mp sized).2 other member) rested
      rw [List.take_succ_cons, List.append_cons]
      exact stored
    · obtain ⟨middle, refuses, stored⟩ := stores.push_refused room first
      cases answered.symm.trans refuses
      cases later
      exact (List.append_nil accepted).symm ▸ stored

theorem Stores.popBatch (count : Nat) :
    Stores (ring.popBatch count).2 accepted (popped ++ (ring.popBatch count).1) := by
  induction count generalizing ring popped with
  | zero => exact (List.append_nil popped).symm ▸ stores
  | succ count ih =>
    have after := stores.pop.2
    unfold LockFreeRingBuffer.popBatch
    rcases answer : ring.pop with ⟨first, left⟩
    rw [answer] at after
    cases first with
    | none => exact after
    | some item =>
      have later := ih after
      rw [List.append_assoc] at later
      exact later

theorem Stores.drain : Stores ring.drain.2 accepted (popped ++ ring.drain.1) := by
  induction ring using LockFreeRingBuffer.drain.induct generalizing popped with
  | case1 ring empty =>
    rw [LockFreeRingBuffer.drain, if_pos empty, List.append_nil]
    exact stores
  | case2 ring filled none =>
    have after := stores.pop.2
    rw [LockFreeRingBuffer.drain, if_neg filled]
    rw [none] at after ⊢
    exact after
  | case3 ring filled item first ih =>
    have after := stores.pop.2
    rw [LockFreeRingBuffer.drain, if_neg filled]
    rw [first] at after ⊢
    have later := ih after
    rw [List.append_assoc] at later
    exact later

end

end Stores

/-! ## Runs -/

section Runs

variable {session next : Session} {call : BufferCall}

/-- The buffer of a session stores what it accepted and did not pop. -/
def Sound (session : Session) : Prop :=
  Stores session.ring session.accepted session.popped

/-- Every call keeps the ring sound. -/
theorem sound_step (sound : Sound session) (taken : step session call = some next) :
    Sound next := by
  cases call with
  | push data =>
    obtain ⟨answer, pushed, rfl⟩ := Option.map_eq_some_iff.mp taken
    have sized : data.length = session.ring.elementSize := by
      by_contra other
      unfold LockFreeRingBuffer.push at pushed
      rw [if_pos other] at pushed
      cases pushed
    by_cases room : session.accepted.length - session.popped.length + 1 < session.ring.capacity
    · obtain ⟨after, accepts, stored, _⟩ := Stores.push sound room sized
      cases pushed.symm.trans accepts
      exact stored
    · obtain ⟨after, refuses, stored⟩ := Stores.push_refused sound room sized
      cases pushed.symm.trans refuses
      exact (List.append_nil session.accepted).symm ▸ stored
  | pop =>
    cases taken
    exact (Stores.pop sound).2
  | peek =>
    cases taken
    exact sound
  | pushBatch items =>
    simp only [step] at taken
    split at taken
    · next sized =>
      obtain ⟨answer, pushed, rfl⟩ := Option.map_eq_some_iff.mp taken
      exact Stores.pushBatch sound sized pushed
    · cases taken
  | popBatch count =>
    cases taken
    exact Stores.popBatch sound count
  | clear =>
    cases taken
    exact { Stores.drain sound with }

theorem queues_of_sound (sound : Sound session) : Queues session where
  order := sound.order
  size := sound.size
  peek := sound.peek
  pop := sound.pop.1.trans sound.peek.symm

theorem truthful_iff_room (sound : Sound session) (taken : step session call = some next) :
    Truthful session call ↔ Room session call := by
  cases call with
  | push data =>
    obtain ⟨answer, pushed, _⟩ := Option.map_eq_some_iff.mp taken
    have sized : data.length = session.ring.elementSize := by
      by_contra other
      unfold LockFreeRingBuffer.push at pushed
      rw [if_pos other] at pushed
      cases pushed
    exact Stores.push_truthful sound sized
  | pushBatch items =>
    simp only [step] at taken
    split at taken
    · next sized => exact Stores.batch_truthful sound sized
    · cases taken
  | pop => exact Iff.rfl
  | peek => exact Iff.rfl
  | popBatch count => exact Iff.rfl
  | clear => exact Iff.rfl

theorem roundedCapacity_divides {capacity : Nat} (fits : capacity < 2 ^ 63) :
    roundedCapacity capacity ∣ u64Size := by
  have short : bitLength (capacity - 1) ≤ 64 := by
    unfold bitLength
    split
    · exact Nat.zero_le _
    · next filled =>
      have digits : ((capacity : Int) - 1).natAbs.log2 < 63 :=
        (Nat.log2_lt (Int.natAbs_ne_zero.mpr filled)).mpr (by omega)
      omega
  show 2 ^ _ ∣ 2 ^ 64
  exact pow_dvd_pow 2 short

theorem sound_init_of_fits {capacity elementSize : Nat} {ring : LockFreeRingBuffer}
    (small : capacity < 2 ^ 63) (made : init capacity elementSize = some ring) :
    Sound { ring := ring, accepted := [], popped := [] } := by
  unfold LockFreeRingBuffer.init at made
  split at made
  · cases made
    exact {
      divides := roundedCapacity_divides small
      head := congrArg castI64 Int.natCast_zero.symm
      tail := congrArg castI64 Int.natCast_zero.symm
      order := List.prefix_rfl
      free := Nat.two_pow_pos _
      reach := by
        show min 0 _ * _ ≤ _
        rw [Nat.zero_min, Nat.zero_mul]
        exact Nat.zero_le _
      items := fun position item _ found => by cases found }
  · cases made

theorem sound_init {capacity elementSize : Nat} {ring : LockFreeRingBuffer}
    (sized : 1 ≤ elementSize) (made : init capacity elementSize = some ring) :
    Sound { ring := ring, accepted := [], popped := [] } := by
  refine sound_init_of_fits ?_ made
  unfold LockFreeRingBuffer.init at made
  split at made
  · next fits =>
    have wide : capacity ≤ capacity * elementSize := Nat.le_mul_of_pos_right _ sized
    have word : ((capacity * elementSize : Nat) : Int) ≤ i64Max := by
      rw [Nat.cast_mul]
      exact fits
    unfold i64Max at word
    omega
  · cases made

theorem queues_along_runs {capacity elementSize : Nat} {ring : LockFreeRingBuffer}
    (sized : 1 ≤ elementSize) (made : init capacity elementSize = some ring)
    (calls : List BufferCall) :
    Always step Queues { ring := ring, accepted := [], popped := [] } calls :=
  (always_of_preserved (fun _ _ _ => sound_step) (sound_init sized made) calls).imp
    fun _ => queues_of_sound

/-- Along a run of a new buffer of any capacity the buffer is a queue that refuses a push exactly
when `is_full` says so if and only if every push and every batch leaves a slot free. -/
theorem bounded_queue_iff_room {capacity elementSize : Nat} {ring : LockFreeRingBuffer}
    (sized : 1 ≤ elementSize) (made : init capacity elementSize = some ring)
    (calls : List BufferCall) :
    (Always step Queues { ring := ring, accepted := [], popped := [] } calls ∧
      Guarded step Truthful { ring := ring, accepted := [], popped := [] } calls) ↔
        Guarded step Room { ring := ring, accepted := [], popped := [] } calls := by
  have agree : Guarded step Truthful { ring := ring, accepted := [], popped := [] } calls ↔
      Guarded step Room { ring := ring, accepted := [], popped := [] } calls := by
    apply guarded_congr _ _ (sound_init sized made) calls
    · exact fun _ _ _ => sound_step
    · exact fun _ _ _ => truthful_iff_room
  constructor
  · exact fun both => agree.mp both.2
  · exact fun room => ⟨queues_along_runs sized made calls, agree.mpr room⟩

/-- A new buffer of three slots of two bytes, of which the array holds as many as were asked
for. -/
def three : LockFreeRingBuffer where
  capacity := 4
  elementSize := 2
  head := .store 0
  tail := .store 0
  buffer := List.replicate 6 0
  state := .empty
  stats := { totalWrites := 0, totalReads := 0, droppedItems := 0, highWaterMark := 0 }

/-- Pushes, pops and a batch that go around the slots. -/
def around : List BufferCall :=
  [.push [1, 1], .push [2, 2], .pop, .push [3, 3], .pop, .pushBatch [[4, 4], [5, 5]], .peek,
    .popBatch 2, .push [6, 6], .clear]

/-- The run around the slots of a new buffer for three items is that of a queue. -/
theorem bounded_queue_iff_room_around :
    (Always step Queues { ring := three, accepted := [], popped := [] } around ∧
      Guarded step Truthful { ring := three, accepted := [], popped := [] } around) ∧
        exec step { ring := three, accepted := [], popped := [] } around ≠ none :=
  ⟨(bounded_queue_iff_room (by decide) (by decide : init 3 2 = some three) around).mpr
    (by decide +kernel), by decide +kernel⟩

/-- A new buffer for two items of a byte refuses the second push, and is not full. -/
theorem refused_before_full :
    ¬∀ (capacity elementSize : Nat) (ring : LockFreeRingBuffer) (calls : List BufferCall),
      1 ≤ capacity → 1 ≤ elementSize → init capacity elementSize = some ring →
        Always step Queues { ring := ring, accepted := [], popped := [] } calls ∧
          Guarded step Truthful { ring := ring, accepted := [], popped := [] } calls := by
  intro claim
  rcases made : init 2 1 with _ | ring
  · cases made
  · have truthful := (claim 2 1 ring [.push [1], .push [2]] (by decide) (by decide) made).2
    cases made
    have second := ((truthful _ rfl).2 _ rfl).1
    exact absurd (second.mp rfl) (by decide)

end Runs

end TradingBot.Ipc.RingQueue
