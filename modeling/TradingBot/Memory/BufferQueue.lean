import TradingBot.Foundation.Run
import TradingBot.Memory.ZeroCopyBuffer

/-!
# The buffer as a queue

What is read since the last reset is the front of what was written since then, and the statistics
tell the rest. The positions never go back, so the room that a read frees is not used again before a
reset: a write is refused for want of room exactly when it should be, unless the bytes would fit
behind the unread ones only around the end.
-/

open Bytes MachineInt Run

namespace TradingBot.Memory

namespace BufferQueue

open ZeroCopyBuffer

/-- One call on a buffer. -/
inductive BufferCall where
  | write (data : List UInt8)
  | read (maxBytes : Nat)
  | reset

/-- A buffer with the bytes written and the bytes returned since the last reset. -/
structure Session where
  buffer : ZeroCopyBuffer
  written : List UInt8
  returned : List UInt8

/-- A session of a new buffer. -/
def Session.start (config : SharedBufferConfig) : Session := ⟨.new config, [], []⟩

/-- The number of bytes written and not read. -/
def Session.unread (session : Session) : Nat := session.written.length - session.returned.length

/-- The bytes that an answered write adds. -/
def accepted (answer : Except IoError Nat) (data : List UInt8) : List UInt8 :=
  if answer.isOk then data else []

/-- A session after a call; there is none where the program stops. -/
def step (session : Session) : BufferCall → Option Session
  | .write data => (session.buffer.write data).map fun answer =>
      { session with
        buffer := answer.2
        written := session.written ++ accepted answer.1 data }
  | .read maxBytes => (session.buffer.read maxBytes).map fun answer =>
      { session with buffer := answer.2, returned := session.returned ++ answer.1 }
  | .reset => some ⟨session.buffer.reset, [], []⟩

/-- The bytes returned are the front of those written, and the statistics tell the others. -/
structure Queues (session : Session) : Prop where
  order : session.returned <+: session.written
  stats : ∃ stats, session.buffer.getStats = some stats ∧ stats.usedBytes = session.unread ∧
    stats.usedBytes + stats.freeBytes = stats.totalSize

/-- A write is refused exactly if the unread bytes leave no room for it, and then it changes
nothing. -/
def Answered (session : Session) (data : List UInt8) : Prop :=
  ∀ answer, session.buffer.write data = some answer →
    (answer.1.isOk = false ↔
      session.buffer.config.bufferSize < session.unread + data.length) ∧
    (answer.1.isOk = false → answer.2 = session.buffer)

/-- A call leaves a queue, and a write is answered as it should be. -/
def Good (session : Session) (call : BufferCall) (next : Session) : Prop :=
  Queues next ∧ match call with
    | .write data => Answered session data
    | .read _ | .reset => True

/-- The data of a write fit behind the last write, or do not fit beside the unread bytes. -/
def InBounds (session : Session) : BufferCall → Prop
  | .write data =>
    session.buffer.header.writePos + data.length ≤ session.buffer.config.bufferSize ∨
      session.buffer.config.bufferSize <
        session.buffer.header.writePos - session.buffer.header.readPos + data.length
  | .read _ | .reset => True

instance (session : Session) : DecidablePred (InBounds session)
  | .write _ => inferInstanceAs (Decidable (_ ∨ _))
  | .read _ => inferInstanceAs (Decidable True)
  | .reset => inferInstanceAs (Decidable True)

/-- The storage starts with the bytes written, and the positions stand at the ends of the bytes
written and of the bytes returned. -/
structure Laid (session : Session) : Prop where
  valid : session.buffer.header.validate = true
  whole : session.buffer.data.length = session.buffer.config.bufferSize
  fits : session.buffer.header.writePos ≤ session.buffer.config.bufferSize
  behind : session.buffer.header.readPos ≤ session.buffer.header.writePos
  stored : session.buffer.data.take session.buffer.header.writePos = session.written
  taken : session.written.take session.buffer.header.readPos = session.returned

section Calls

variable {session next : Session} {data : List UInt8} {call : BufferCall}

theorem Laid.length_written (laid : Laid session) :
    session.written.length = session.buffer.header.writePos := by
  have inside : session.buffer.header.writePos ≤ session.buffer.data.length :=
    laid.fits.trans laid.whole.ge
  rw [← laid.stored, List.length_take]
  omega

theorem Laid.length_returned (laid : Laid session) :
    session.returned.length = session.buffer.header.readPos := by
  have long := laid.length_written
  have behind := laid.behind
  rw [← laid.taken, List.length_take]
  omega

theorem Laid.unread_eq (laid : Laid session) :
    session.unread = session.buffer.header.writePos - session.buffer.header.readPos := by
  unfold Session.unread
  rw [laid.length_written, laid.length_returned]

theorem Laid.queues (laid : Laid session) : Queues session := by
  have behind := laid.behind
  have fits := laid.fits
  have used : session.buffer.header.writePos - session.buffer.header.readPos ≤
      session.buffer.config.bufferSize := by omega
  refine ⟨laid.taken ▸ List.take_prefix _ _, _, getStats_eq behind fits, laid.unread_eq.symm, ?_⟩
  exact Nat.add_sub_of_le used

theorem laid_start (config : SharedBufferConfig) : Laid (.start config) where
  valid := rfl
  whole := List.length_replicate
  fits := Nat.zero_le _
  behind := le_refl _
  stored := rfl
  taken := rfl

theorem laid_written (laid : Laid session)
    (fits : session.buffer.header.writePos + data.length ≤ session.buffer.config.bufferSize) :
    Laid { session with
      buffer := { session.buffer with
        data := overwrite session.buffer.data session.buffer.header.writePos data
        header := advance session.buffer.header data.length }
      written := session.written ++ data } where
  valid := laid.valid
  whole := by
    have inside : session.buffer.header.writePos + data.length ≤ session.buffer.data.length :=
      fits.trans laid.whole.ge
    exact (overwrite_length inside).trans laid.whole
  fits := fits
  behind := laid.behind.trans (Nat.le_add_right _ _)
  stored := by
    have front : (session.buffer.data.take session.buffer.header.writePos ++ data).length =
        session.buffer.header.writePos + data.length := by
      rw [List.length_append, laid.stored, laid.length_written]
    show (overwrite _ _ _).take (session.buffer.header.writePos + data.length) = _
    unfold overwrite
    rw [← front, List.take_left, laid.stored]
  taken := by
    show (session.written ++ data).take session.buffer.header.readPos = _
    have behind : session.buffer.header.readPos ≤ session.written.length :=
      laid.length_written ▸ laid.behind
    rw [List.take_append_of_le_length behind, laid.taken]

theorem laid_read (laid : Laid session) (maxBytes : Nat)
    (taken : step session (.read maxBytes) = some next) : Laid next := by
  have answered := read_eq maxBytes laid.whole laid.behind laid.fits
  simp only [step, answered, Option.map_some] at taken
  cases taken
  have behind := laid.behind
  refine ⟨laid.valid, laid.whole, laid.fits, ?_, laid.stored, ?_⟩
  · show _ + min _ _ ≤ session.buffer.header.writePos
    omega
  · -- The bytes written stand at the front of the storage, the unread ones last.
    have unread : (session.buffer.data.drop session.buffer.header.readPos).take
          (min maxBytes (session.buffer.header.writePos - session.buffer.header.readPos)) =
        (session.written.drop session.buffer.header.readPos).take
          (min maxBytes (session.buffer.header.writePos - session.buffer.header.readPos)) := by
      rw [← laid.stored, List.drop_take, List.take_take, min_assoc, min_self]
    show session.written.take (_ + _) = session.returned ++ _
    rw [unread, List.take_add, laid.taken]

theorem laid_reset (laid : Laid session) : Laid ⟨session.buffer.reset, [], []⟩ where
  valid := laid.valid
  whole := laid.whole
  fits := Nat.zero_le _
  behind := le_refl _
  stored := rfl
  taken := rfl

theorem write_iff (laid : Laid session) (data : List UInt8) :
    ∃ next, step session (.write data) = some next ∧ Laid next ∧
      (Answered session data ↔ InBounds session (.write data)) := by
  unfold Answered InBounds
  rw [laid.unread_eq]
  by_cases fits : session.buffer.header.writePos + data.length ≤ session.buffer.config.bufferSize
  · have answer := write_fits laid.valid laid.whole fits
    refine ⟨_, ?_, laid_written laid fits, ?_⟩
    · simp only [step, answer, Option.map_some]
      rfl
    · rw [answer]
      refine iff_of_true (fun other same => ?_) (.inl fits)
      cases same
      have room : ¬ session.buffer.config.bufferSize <
          session.buffer.header.writePos - session.buffer.header.readPos + data.length := by omega
      exact ⟨iff_of_false (fun failed => by cases failed) room, fun failed => by cases failed⟩
  · have full := not_le.mp fits
    have answer := write_refused laid.valid laid.fits full
    refine ⟨session, ?_, laid, ?_⟩
    · simp only [step, answer, Option.map_some, accepted]
      simp [Except.isOk, Except.toBool]
    · rw [answer]
      constructor
      · intro answered
        exact .inr ((answered _ rfl).1.mp rfl)
      · intro bound other same
        cases same
        exact ⟨iff_of_true rfl (bound.resolve_left fits), fun _ => rfl⟩

theorem call_iff (laid : Laid session) (call : BufferCall) :
    ∃ next, step session call = some next ∧ Laid next ∧
      (Good session call next ↔ InBounds session call) := by
  cases call with
  | write data =>
    obtain ⟨next, taken, kept, answered⟩ := write_iff laid data
    exact ⟨next, taken, kept, (and_iff_right kept.queues).trans answered⟩
  | read maxBytes =>
    have answer := read_eq maxBytes laid.whole laid.behind laid.fits
    have taken : ∃ next, step session (.read maxBytes) = some next := by
      simp only [step, answer, Option.map_some]
      exact ⟨_, rfl⟩
    obtain ⟨next, taken⟩ := taken
    have kept := laid_read laid maxBytes taken
    exact ⟨next, taken, kept, and_iff_right kept.queues⟩
  | reset =>
    have kept := laid_reset laid
    exact ⟨_, rfl, kept, and_iff_right kept.queues⟩

/-- Along any calls on a new buffer, each call returns and leaves a bounded queue of bytes, and each
write is refused exactly if the unread bytes leave no room for it, precisely as long as every write
is in bounds. -/
theorem queue_iff (config : SharedBufferConfig) (calls : List BufferCall) :
    Performs step Good (.start config) calls ↔ Offered step InBounds (.start config) calls := by
  refine @performs_iff _ _ step (fun session _ => Laid session) Good InBounds ?_ ?_ (.start config)
    calls (laid_start config)
  · intro session call rest laid
    obtain ⟨next, taken, -, exact_⟩ := call_iff laid call
    constructor
    · rintro ⟨other, again, good⟩
      cases taken.symm.trans again
      exact exact_.mp good
    · exact fun bound => ⟨next, taken, exact_.mpr bound⟩
  · intro session call rest next laid taken _
    obtain ⟨other, again, kept, -⟩ := call_iff laid call
    cases taken.symm.trans again
    exact kept

end Calls

/-- A buffer of four bytes is filled, drained, and given a byte more. -/
def drainedBuffer : List BufferCall := [.write [1, 2, 3, 4], .read 4, .write [5]]

/-- A drained buffer refuses a byte, though nothing is unread. -/
theorem drained_buffer_refuses : ¬ Performs step Good (.start ⟨4⟩) drainedBuffer := by
  intro performs
  obtain ⟨next, taken, -, answered⟩ := @Performs.last _ _ step Good (.start ⟨4⟩)
    ⟨⟨⟨_, _, _, 4, 4, _, _⟩, _, _⟩, _, _⟩ [.write [1, 2, 3, 4], .read 4] (.write [5]) performs rfl
  have refused := ((answered _ rfl).1.mp rfl)
  revert refused
  decide

end BufferQueue

end TradingBot.Memory
