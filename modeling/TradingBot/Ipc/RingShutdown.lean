import TradingBot.Ipc.RingQueue

/-!
# Shutdown of the ring buffer

A shutdown is kept in the state of the buffer, which the other operations write as well: a pop from
an empty buffer and a clearing make it empty, a refused push full, and no push looks at it. What is
in the buffer stays a queue all the same.
-/

open MachineInt Run

namespace TradingBot.Ipc.RingShutdown

open LockFreeRingBuffer RingQueue

/-- One call on a ring buffer, with items of any size. -/
inductive LifeCall where
  | push (data : List UInt8)
  | pop
  | pushBatch (items : List (List UInt8))
  | popBatch (count : Nat)
  | clear
  /-- The next item of an iteration. -/
  | iterNext
  | shutdown

/-- A session after `push_batch`, which ends at the first item that is refused or that raises an
error for its size. -/
def pushItems (session : Session) : List (List UInt8) → Session
  | [] => session
  | item :: rest =>
    match session.ring.push item with
    | none => session
    | some (true, ring) =>
      pushItems { session with ring := ring, accepted := session.accepted ++ [item] } rest
    | some (false, ring) => { session with ring := ring }

/-- A session after a call; an item of another size is an error that changes nothing. -/
def after (session : Session) : LifeCall → Session
  | .push data => pushItems session [data]
  | .pop =>
    { session with
      ring := session.ring.pop.2
      popped := session.popped ++ session.ring.pop.1.toList }
  | .pushBatch items => pushItems session items
  | .popBatch count =>
    { session with
      ring := (session.ring.popBatch count).2
      popped := session.popped ++ (session.ring.popBatch count).1 }
  | .clear =>
    { session with
      ring := session.ring.clear.2
      popped := session.popped ++ session.ring.drain.1 }
  | .iterNext =>
    { session with
      ring := session.ring.iterNext.2
      popped := session.popped ++ session.ring.iterNext.1.toList }
  | .shutdown => { session with ring := session.ring.shutdown }

/-- A call as a step of a run. -/
def lifeStep (session : Session) (call : LifeCall) : Option Session := some (after session call)

/-- A buffer is shut down for good: it says so, has accepted no other items, and the items that were
accepted are drained in order. -/
structure ShutDown (accepted : List (List UInt8)) (session : Session) : Prop where
  closed : session.ring.isShutdown = true
  refuses : session.accepted = accepted
  order : session.popped <+: accepted
  drains : session.ring.pop.1 = accepted[session.popped.length]?

/-- A call pushes no item of the right size, pops no more than there is, and does not clear. -/
def Harmless (session : Session) : LifeCall → Prop
  | .push data => data.length ≠ session.ring.elementSize
  | .pop => 0 < session.ring.size
  | .pushBatch items => ∀ item ∈ items.head?, item.length ≠ session.ring.elementSize
  | .popBatch count => count ≤ session.ring.size
  | .clear => False
  | .iterNext => 0 < session.ring.size
  | .shutdown => True

instance (session : Session) : (call : LifeCall) → Decidable (Harmless session call)
  | .push data => inferInstanceAs (Decidable (data.length ≠ session.ring.elementSize))
  | .pop | .iterNext => inferInstanceAs (Decidable (0 < session.ring.size))
  | .pushBatch items =>
    inferInstanceAs (Decidable (∀ item ∈ items.head?, item.length ≠ session.ring.elementSize))
  | .popBatch count => inferInstanceAs (Decidable (count ≤ session.ring.size))
  | .clear => .isFalse id
  | .shutdown => .isTrue trivial

/-! ## Calls on a sound buffer -/

section Calls

variable {session : Session} {accepted : List (List UInt8)}

variable {ring : LockFreeRingBuffer}

theorem push_sized {data : List UInt8} (other : data.length ≠ ring.elementSize) :
    ring.push data = none := if_pos other

theorem state_push_refused {after : LockFreeRingBuffer} {data : List UInt8}
    (refused : ring.push data = some (false, after)) : after.state = .full := by
  unfold LockFreeRingBuffer.push at refused
  split at refused
  · cases refused
  · split at refused
    · cases refused
      rfl
    · cases refused

theorem pushItems_eq {items : List (List UInt8)} {written : Nat}
    (pushed : session.ring.pushBatch items = some (written, ring)) : pushItems session items =
      { session with ring := ring, accepted := session.accepted ++ items.take written } := by
  induction items generalizing session written with
  | nil =>
    cases pushed
    unfold pushItems
    rw [List.take_nil, List.append_nil]
  | cons item rest ih =>
    obtain ⟨⟨taken, middle⟩, answered, later⟩ := Option.bind_eq_some_iff.mp pushed
    unfold pushItems
    rw [answered]
    cases taken with
    | true =>
      obtain ⟨result, rested, same⟩ := Option.map_eq_some_iff.mp later
      cases same
      simp only
      rw [@ih { session with ring := middle, accepted := session.accepted ++ [item] } _ rested,
        List.take_succ_cons]
      simp only [List.append_assoc, List.singleton_append]
    | false =>
      cases later
      rw [List.take_zero, List.append_nil]

theorem accepted_pushItems (session : Session) (items : List (List UInt8)) :
    session.accepted <+: (pushItems session items).accepted := by
  induction items generalizing session with
  | nil => exact List.prefix_rfl
  | cons item rest ih =>
    unfold pushItems
    split
    · exact List.prefix_rfl
    · next ring _ =>
      have more := ih { session with ring := ring, accepted := session.accepted ++ [item] }
      exact (List.prefix_append _ _).trans more
    · exact List.prefix_rfl

/-- Pushing a list of items keeps the ring sound. -/
theorem sound_pushItems (sound : Sound session) (items : List (List UInt8)) :
    Sound (pushItems session items) := by
  induction items generalizing session with
  | nil => exact sound
  | cons item rest ih =>
    unfold pushItems
    by_cases sized : item.length = session.ring.elementSize
    · by_cases room : session.accepted.length - session.popped.length + 1 < session.ring.capacity
      · obtain ⟨ring, pushed, stored, _⟩ := Stores.push sound room sized
        rw [pushed]
        exact ih stored
      · obtain ⟨ring, refused, stored⟩ := Stores.push_refused sound room sized
        rw [refused]
        exact stored
    · rw [push_sized sized]
      exact sound

/-- Every call of the life cycle keeps the ring sound. -/
theorem sound_after (sound : Sound session) (call : LifeCall) : Sound (after session call) := by
  cases call with
  | push data => exact sound_pushItems sound [data]
  | pop => exact (Stores.pop sound).2
  | pushBatch items => exact sound_pushItems sound items
  | popBatch count => exact Stores.popBatch sound count
  | clear => exact { Stores.drain sound with }
  | iterNext => exact (Stores.pop sound).2
  | shutdown => exact { sound with }

theorem shutDown_iff (sound : Sound session) :
    ShutDown accepted session ↔ session.ring.state = .shutdown ∧ session.accepted = accepted := by
  constructor
  · exact fun shut => ⟨of_decide_eq_true shut.closed, shut.refuses⟩
  · rintro ⟨closed, rfl⟩
    exact {
      closed := decide_eq_true closed
      refuses := rfl
      order := sound.order
      drains := sound.pop.1 }

theorem shutDown_pushItems (sound : Sound session) (shut : ShutDown accepted session)
    (items : List (List UInt8)) :
    ShutDown accepted (pushItems session items) ↔
      ∀ item ∈ items.head?, item.length ≠ session.ring.elementSize := by
  rw [shutDown_iff (sound_pushItems sound items)]
  cases items with
  | nil => exact iff_of_true ((shutDown_iff sound).mp shut) nofun
  | cons item rest =>
    rw [List.head?_cons]
    by_cases sized : item.length = session.ring.elementSize
    · refine iff_of_false ?_ fun other => other item rfl sized
      rintro ⟨closed, same⟩
      by_cases room : session.accepted.length - session.popped.length + 1 < session.ring.capacity
      · obtain ⟨ring, pushed, _⟩ := Stores.push sound room sized
        unfold pushItems at same
        rw [pushed] at same
        have longer := (accepted_pushItems
          { session with ring := ring, accepted := session.accepted ++ [item] } rest).length_le
        simp only at same
        rw [same, ← shut.refuses, List.length_append, List.length_singleton] at longer
        omega
      · obtain ⟨ring, refused, _⟩ := Stores.push_refused sound room sized
        unfold pushItems at closed
        rw [refused] at closed
        have full : ring.state = .shutdown := closed
        rw [state_push_refused refused] at full
        cases full
    · unfold pushItems
      rw [push_sized sized]
      refine iff_of_true ((shutDown_iff sound).mp shut) fun other same => ?_
      cases same
      exact sized

theorem state_pop {popped : List (List UInt8)} (stores : Stores ring accepted popped) :
    ring.pop.2.state = if 0 < ring.size then ring.state else .empty := by
  have ordered := stores.ordered
  unfold LockFreeRingBuffer.pop
  by_cases none : ring.head.load = ring.tail.load
  · have size : ring.size = 0 := by
      have same := stores.head_eq_tail.mp none
      rw [stores.size]
      omega
    rw [if_pos none, size]
    rfl
  · have size : 0 < ring.size := by
      have apart := mt stores.head_eq_tail.mpr none
      rw [stores.size]
      omega
    rw [if_neg none, if_pos size]

theorem state_popBatch {popped : List (List UInt8)} (stores : Stores ring accepted popped)
    (count : Nat) :
    (ring.popBatch count).2.state = if count ≤ ring.size then ring.state else .empty := by
  induction count generalizing ring popped with
  | zero => exact (if_pos (Nat.zero_le _)).symm
  | succ count ih =>
    have after := stores.pop.2
    have state := state_pop stores
    have shown := stores.pop.1
    have ordered := stores.ordered
    unfold LockFreeRingBuffer.popBatch
    rcases answer : ring.pop with ⟨first, left⟩
    rw [answer] at after state shown
    cases first with
    | none =>
      have ended := List.getElem?_eq_none_iff.mp shown.symm
      have size : ring.size = 0 := by
        rw [stores.size]
        omega
      rw [size] at state ⊢
      rw [if_neg (Nat.lt_irrefl 0)] at state
      rw [if_neg (Nat.not_succ_le_zero count)]
      exact state
    | some item =>
      have inside := (List.getElem?_eq_some_iff.mp shown.symm).1
      have size : ring.size = left.size + 1 := by
        rw [stores.size, Stores.size after]
        simp only [Option.toList_some, List.length_append, List.length_singleton]
        omega
      have later : (left.popBatch count).2.state =
          if count ≤ left.size then left.state else .empty := ih after
      simp only at state ⊢
      rw [later, state, if_pos (by omega : 0 < ring.size), size]
      by_cases enough : count ≤ left.size
      · rw [if_pos enough, if_pos (by omega)]
      · rw [if_neg enough, if_neg (by omega)]

theorem shutDown_after (sound : Sound session) (shut : ShutDown accepted session)
    (call : LifeCall) : ShutDown accepted (after session call) ↔ Harmless session call := by
  have closed := (shutDown_iff sound).mp shut
  have single {condition : Prop} [Decidable condition] :
      ((if condition then session.ring.state else .empty) = BufferState.shutdown ∧
        session.accepted = accepted) ↔ condition := by
    rw [closed.1, and_iff_left closed.2]
    split
    · next holds => exact iff_of_true rfl holds
    · next fails => exact iff_of_false nofun fails
  cases call with
  | push data =>
    refine (shutDown_pushItems sound shut [data]).trans ?_
    rw [List.head?_cons]
    exact ⟨fun other => other data rfl, fun other item same => by cases same; exact other⟩
  | pop =>
    rw [shutDown_iff (sound_after sound .pop)]
    show session.ring.pop.2.state = _ ∧ _ ↔ _
    rw [state_pop sound]
    exact single
  | pushBatch items => exact shutDown_pushItems sound shut items
  | popBatch count =>
    rw [shutDown_iff (sound_after sound (.popBatch count))]
    show (session.ring.popBatch count).2.state = _ ∧ _ ↔ _
    rw [state_popBatch sound]
    exact single
  | clear =>
    rw [shutDown_iff (sound_after sound .clear)]
    refine iff_of_false (fun both => ?_) not_false
    have empty : BufferState.empty = .shutdown := both.1
    cases empty
  | iterNext =>
    rw [shutDown_iff (sound_after sound .iterNext)]
    show session.ring.pop.2.state = _ ∧ _ ↔ _
    rw [state_pop sound]
    exact single
  | shutdown =>
    rw [shutDown_iff (sound_after sound .shutdown)]
    exact iff_of_true ⟨rfl, closed.2⟩ trivial

end Calls

/-! ## Runs -/

/-- The session of a new buffer after some calls. -/
def reached (ring : LockFreeRingBuffer) (calls : List LifeCall) : Session :=
  calls.foldl after { ring := ring, accepted := [], popped := [] }

theorem sound_reached {capacity elementSize : Nat} {ring : LockFreeRingBuffer}
    (small : capacity < 2 ^ 63) (made : init capacity elementSize = some ring)
    (calls : List LifeCall) : Sound (reached ring calls) := by
  have new := sound_init_of_fits small made
  unfold reached
  generalize ({ ring := ring, accepted := [], popped := [] } : Session) = start at new ⊢
  induction calls generalizing start with
  | nil => exact new
  | cons call rest ih => exact ih (after start call) (sound_after new call)

/-- From every state of a buffer on, a shutdown is final along a run of calls if and only if every
call is harmless: it pushes no item of the right size, pops no more than there is, and does not
clear. -/
theorem shutdown_final_iff {capacity elementSize : Nat} {ring : LockFreeRingBuffer}
    (small : capacity < 2 ^ 63) (made : init capacity elementSize = some ring)
    (before calls : List LifeCall) :
    Always lifeStep (ShutDown (reached ring before).accepted)
        (after (reached ring before) .shutdown) calls ↔
      Guarded lifeStep Harmless (after (reached ring before) .shutdown) calls := by
  have sound := sound_after (sound_reached small made before) .shutdown
  refine @always_iff_guarded _ _ lifeStep Sound _ _ ?_ ?_ _ sound ?_ calls
  · intro session call next kept taken
    cases taken
    exact sound_after kept call
  · intro session call next kept shut taken
    cases taken
    exact shutDown_after kept shut call
  · exact (shutDown_iff sound).mpr ⟨rfl, rfl⟩

/-- The items of a buffer that was shut down are popped. -/
theorem shutdown_final_iff_popped :
    Always lifeStep (ShutDown [[1, 1], [2, 2]])
      (after (reached three [.push [1, 1], .push [2, 2]]) .shutdown) [.pop, .popBatch 1] :=
  (shutdown_final_iff (by decide) (by decide : init 3 2 = some three)
    [.push [1, 1], .push [2, 2]] [.pop, .popBatch 1]).mpr (by decide +kernel)

/-- A push after the shutdown is accepted. -/
theorem accepted_after_shutdown :
    ¬∀ (capacity elementSize : Nat) (ring : LockFreeRingBuffer) (before calls : List LifeCall),
      capacity < 2 ^ 63 → init capacity elementSize = some ring →
        Always lifeStep (ShutDown (reached ring before).accepted)
          (after (reached ring before) .shutdown) calls := by
  intro claim
  have always := claim 3 2 three [] [.push [1, 1]] (by decide) (by decide)
  have refuses := (always.2 _ rfl).refuses
  exact absurd refuses (by decide +kernel)

end TradingBot.Ipc.RingShutdown
