import Mathlib.Data.Fin.VecNotation
import Mathlib.Data.Fintype.Basic
import TradingBot.Foundation.RingWindow
import TradingBot.Foundation.Run
import TradingBot.Ipc.SharedMemory

/-!
# The stream through a segment

The elements that reads return are the beginning of those that writes accept as long as neither side
runs into the other or over the end of the region: a byte is read after it was copied, copied after
the one in its place was read, and no write and no element to read reaches around the end. The code
ensures none of these.
-/

open Bytes MachineInt RingWindow Run

namespace TradingBot.Ipc.SharedMemory

variable {layout : Layout}

/-! ## What was copied and what was taken -/

/-- The position of a write that has loaded it. -/
def WriteStage.writePos? : WriteStage → Option Nat
  | .store _ writePos => some writePos
  | .timestamp _ writePos => some writePos
  | .ready _ writePos => some writePos
  | .copy _ writePos _ => some writePos
  | _ => none

/-- A write has published its position. -/
def WriteStage.published : WriteStage → Bool
  | .timestamp .. => true
  | .ready .. => true
  | .copy .. => true
  | _ => false

/-- The bytes a write has copied. -/
def WriteStage.done : WriteStage → Nat
  | .copy _ _ done => done
  | _ => 0

/-- The bytes a read has copied. -/
def ReadStage.bytes : ReadStage → List UInt8
  | .copy _ _ bytes => bytes
  | _ => []

namespace Session

variable (session : Session layout)

/-- The data of the write in progress. -/
def pending : List (Record layout.element) := (session.writer.map WriteCall.data).getD []

/-- The bytes of the writes that returned `Ok` or are in progress. -/
def stream : List UInt8 := bytesOf (session.accepted ++ session.pending)

/-- How many bytes of the stream were copied into the region. -/
def copied : Nat :=
  session.accepted.length * layout.element + (session.writer.map (·.stage.done)).getD 0

/-- The bytes that were copied out of the region. -/
def taken : List UInt8 :=
  bytesOf session.received ++ (session.reader.map (·.stage.bytes)).getD []

/-- The elements that reads returned are the beginning of those of the writes that returned `Ok` or
are in progress, and no access was outside. -/
def Lossless : Prop :=
  session.received <+: session.accepted ++ session.pending ∧ session.segment.outside = false

instance : Decidable session.Lossless := inferInstanceAs (Decidable (_ ∧ _))

/-- A step of a write that stays apart: its position stays within its type, and a byte is copied in
once the one in its place was taken, by a write that does not reach around the end. -/
def WriteOrderly (byteSize : Nat) : WriteStage → Prop
  | .store _ writePos => writePos + byteSize < u64Size
  | .copy _ writePos done => done < byteSize →
    layout.start writePos + byteSize ≤ layout.segment ∧
      writePos + done < session.taken.length + layout.capacity
  | _ => True

/-- A step of a read that stays apart: a byte is copied out once it was copied in, for an element
that does not reach around the end. -/
def ReadOrderly : ReadStage → Prop
  | .copy readPos elements bytes => bytes.length < elements * layout.element →
    session.taken.length < session.copied ∧
      layout.start readPos + bytes.length / layout.element * layout.element + layout.element ≤
        layout.segment
  | _ => True

/-- A step that keeps the threads apart and off the end of the region. -/
def Orderly : SegmentEvent layout → Prop
  | .stepWriter => ∀ call ∈ session.writer, session.WriteOrderly call.byteSize call.stage
  | .stepReader => ∀ call ∈ session.reader, session.ReadOrderly call.stage
  | .write .. => True
  | .read _ => True

instance (byteSize : Nat) : DecidablePred (session.WriteOrderly byteSize)
  | .store .. => inferInstanceAs (Decidable (_ < _))
  | .copy .. => inferInstanceAs (Decidable (_ → _ ∧ _))
  | .magic | .version | .sequence | .load _ | .timestamp .. | .ready .. =>
    inferInstanceAs (Decidable True)

instance : DecidablePred session.ReadOrderly
  | .copy .. => inferInstanceAs (Decidable (_ → _ ∧ _))
  | .magic | .version | .loadRead | .loadWrite _ => inferInstanceAs (Decidable True)

instance : DecidablePred session.Orderly
  | .stepWriter => inferInstanceAs (Decidable (∀ call ∈ session.writer, _))
  | .stepReader => inferInstanceAs (Decidable (∀ call ∈ session.reader, _))
  | .write .. | .read _ => inferInstanceAs (Decidable True)

end Session

/-! ## Offsets in the region -/

theorem start_add {position more : Nat} (before : layout.start position + more < layout.segment) :
    layout.start (position + more) = layout.start position + more := by
  have inside : position % layout.capacity + more < layout.capacity := by
    have order := layout.headerInside
    unfold Layout.start at before
    unfold Layout.capacity at before ⊢
    omega
  unfold Layout.start
  rw [Nat.add_assoc, ← Nat.mod_add_mod, Nat.mod_eq_of_lt inside]

theorem writeOffsets_eq {writePos byteSize done : Nat}
    (fits : layout.start writePos + byteSize ≤ layout.segment) (more : done < byteSize) :
    writeOffsets layout writePos byteSize done = (done, layout.start (writePos + done)) := by
  unfold writeOffsets
  rw [start_add (by omega)]
  exact if_pos fits

theorem readOffset_eq {readPos done : Nat}
    (fits : layout.start readPos + done / layout.element * layout.element + layout.element ≤
      layout.segment) :
    readOffset layout readPos done = some (layout.start (readPos + done)) := by
  have parts : done / layout.element * layout.element + done % layout.element = done :=
    Nat.div_add_mod' done layout.element
  have small : done % layout.element < layout.element := Nat.mod_lt _ layout.elementPositive
  unfold readOffset
  rw [start_add (by omega)]
  refine (if_pos fits).trans (congrArg some ?_)
  omega

theorem start_lt (position : Nat) : layout.start position < layout.segment := by
  have order := layout.headerInside
  have small : position % layout.capacity < layout.capacity :=
    Nat.mod_lt _ (by unfold Layout.capacity; omega)
  unfold Layout.start
  unfold Layout.capacity at small ⊢
  omega

/-! ## What every orderly run keeps -/

/-- The writer's positions: those that were published are those of the stream, and the write in
progress starts where the accepted ones end. -/
structure WriterSound (session : Session layout) : Prop where
  fits : session.segment.header.writePos < u64Size
  published : session.segment.header.writePos = session.accepted.length * layout.element +
    (session.writer.map fun call => if call.stage.published then call.byteSize else 0).getD 0
  starts : ∀ call ∈ session.writer, ∀ writePos ∈ call.stage.writePos?,
    writePos = session.accepted.length * layout.element
  within : ∀ call ∈ session.writer, call.stage.done ≤ call.byteSize

/-- A read in progress starts where the received elements end, and copies its elements and no
more. -/
def ReadSound (readPos : Nat) (element : Nat) : ReadStage → Prop
  | .loadWrite loaded => loaded = readPos
  | .copy loaded elements bytes => loaded = readPos ∧ bytes.length ≤ elements * element
  | _ => True

/-- What every orderly run keeps. -/
structure Sound (session : Session layout) : Prop where
  valid : session.segment.header.magic = AtomicHeader.new.magic
  inside : session.segment.outside = false
  writer : WriterSound session
  readPos : session.segment.header.readPos = session.received.length * layout.element
  reader : ∀ call ∈ session.reader,
    ReadSound session.segment.header.readPos layout.element call.stage
  window : Window layout.start session.segment.region session.taken session.stream session.copied

section Steps

variable {session next : Session layout}

theorem lossless_of_sound (sound : Sound session) : session.Lossless := by
  refine ⟨?_, sound.inside⟩
  apply prefix_of_bytesOf layout.elementPositive
  exact (List.prefix_append _ _).trans sound.window.begins

theorem sound_start (layout : Layout) : Sound (Session.start layout) where
  valid := rfl
  inside := rfl
  writer := {
    fits := by
      show 0 < u64Size
      decide
    published := by
      show 0 = 0 * layout.element + 0
      omega
    starts := nofun
    within := nofun }
  readPos := by
    show 0 = 0 * layout.element
    omega
  reader := nofun
  window := by
    have copied : (Session.start layout).copied = 0 := Nat.zero_mul layout.element
    rw [copied]
    exact window_empty _ _

/-! ### The writer -/

section Writer

variable {call : WriteCall layout}

section

variable (sound : Sound session)
include sound

theorem Sound.writerStarts (idle : session.writer = none) (data : List (Record layout.element))
    (now : Nat) :
    Sound { session with writer := some { data := data, now := now, stage := .magic } } := by
  have stream : session.stream = bytesOf session.accepted := by
    unfold Session.stream Session.pending
    rw [idle]
    exact congrArg bytesOf (List.append_nil _)
  have position := sound.writer.published
  rw [idle] at position
  have copied : session.copied = session.accepted.length * layout.element + 0 := by
    unfold Session.copied
    rw [idle]
    rfl
  have window := sound.window.extend (bytesOf data)
  rw [stream, ← bytesOf_append, copied] at window
  exact { sound with
    writer := {
      fits := sound.writer.fits
      published := position
      starts := fun other same => by
        cases same
        nofun
      within := fun other same => by
        cases same
        exact Nat.zero_le _ }
    window := window }

/-- A write that goes on with a segment and a stage that fit the stream. -/
theorem Sound.writerGoes (writing : session.writer = some call) {segment : Segment}
    {stage : WriteStage} (magic : segment.header.magic = session.segment.header.magic)
    (readPos : segment.header.readPos = session.segment.header.readPos)
    (inside : segment.outside = false) (fits : segment.header.writePos < u64Size)
    (published : segment.header.writePos =
      session.accepted.length * layout.element + if stage.published then call.byteSize else 0)
    (starts : ∀ writePos ∈ stage.writePos?, writePos = session.accepted.length * layout.element)
    (within : stage.done ≤ call.byteSize)
    (window : Window layout.start segment.region session.taken session.stream
      (session.accepted.length * layout.element + stage.done)) :
    Sound { session with segment := segment, writer := some { call with stage := stage } } := by
  have pending : session.pending = call.data := by
    unfold Session.pending
    rw [writing]
    rfl
  have stream : session.stream = bytesOf (session.accepted ++ call.data) := by
    unfold Session.stream
    rw [pending]
  rw [stream] at window
  exact {
    valid := magic.trans sound.valid
    inside := inside
    writer := {
      fits := fits
      published := published
      starts := fun other same => by
        cases same
        exact starts
      within := fun other same => by
        cases same
        exact within }
    readPos := readPos.trans sound.readPos
    reader := by
      show ∀ call ∈ session.reader, ReadSound segment.header.readPos layout.element call.stage
      rw [readPos]
      exact sound.reader
    window := window }

/-- A write that goes on without a copy and without a change of its position. -/
theorem Sound.writerTurns (writing : session.writer = some call) {segment : Segment}
    {stage : WriteStage} (magic : segment.header.magic = session.segment.header.magic)
    (readPos : segment.header.readPos = session.segment.header.readPos)
    (inside : segment.outside = session.segment.outside)
    (region : segment.region = session.segment.region)
    (writePos : segment.header.writePos = session.segment.header.writePos)
    (published : stage.published = call.stage.published)
    (starts : ∀ writePos ∈ stage.writePos?, writePos = session.accepted.length * layout.element)
    (done : stage.done = call.stage.done) :
    Sound { session with segment := segment, writer := some { call with stage := stage } } := by
  have copied : session.copied = session.accepted.length * layout.element + stage.done := by
    unfold Session.copied
    rw [writing, done]
    rfl
  have position := sound.writer.published
  rw [writing] at position
  apply sound.writerGoes writing magic readPos (inside.trans sound.inside)
  · rw [writePos]
    exact sound.writer.fits
  · rw [writePos, published]
    exact position
  · exact starts
  · rw [done]
    exact sound.writer.within call writing
  · rw [region, ← copied]
    exact sound.window

theorem Sound.writerFails (writing : session.writer = some call)
    (unpublished : call.stage.published = false) (none_ : call.stage.done = 0) :
    Sound { session with writer := none } := by
  have copied : session.copied = session.accepted.length * layout.element := by
    unfold Session.copied
    rw [writing]
    show _ + call.stage.done = _
    rw [none_, Nat.add_zero]
  have position := sound.writer.published
  rw [writing] at position
  simp only [Option.map_some, Option.getD_some, unpublished, Bool.false_eq_true, if_false]
    at position
  have stream : session.stream = bytesOf session.accepted ++ bytesOf session.pending :=
    bytesOf_append _ _
  have window := sound.window
  rw [stream, copied] at window
  have kept := window.giveUp (by rw [length_bytesOf])
  exact { sound with
    writer := {
      fits := sound.writer.fits
      published := position
      starts := nofun
      within := nofun }
    window := by
      have same : Session.stream { session with writer := none } = bytesOf session.accepted :=
        congrArg bytesOf (List.append_nil _)
      rw [same]
      exact kept }

theorem Sound.writerReturns (writing : session.writer = some call)
    (published : call.stage.published = true) (all : call.stage.done = call.byteSize) :
    Sound { session with writer := none, accepted := session.accepted ++ call.data } := by
  have pending : session.pending = call.data := by
    unfold Session.pending
    rw [writing]
    rfl
  have copied : session.copied =
      (session.accepted ++ call.data).length * layout.element := by
    unfold Session.copied
    rw [writing]
    show _ + call.stage.done = _
    rw [all, List.length_append, Nat.add_mul]
    rfl
  have position := sound.writer.published
  rw [writing] at position
  simp only [Option.map_some, Option.getD_some, published, if_true] at position
  have window := sound.window
  rw [copied] at window
  have stream : session.stream = bytesOf (session.accepted ++ call.data ++ []) := by
    unfold Session.stream
    rw [pending, List.append_nil]
  rw [stream] at window
  exact { sound with
    writer := {
      fits := sound.writer.fits
      published := by
        show session.segment.header.writePos =
          (session.accepted ++ call.data).length * layout.element + 0
        rw [position, List.length_append, Nat.add_mul]
        rfl
      starts := nofun
      within := nofun }
    window := window }

theorem Sound.copies (writing : session.writer = some call) {sequence writePos done : Nat}
    (stage : call.stage = .copy sequence writePos done) (more : done < call.byteSize)
    (fits : layout.start writePos + call.byteSize ≤ layout.segment)
    (room : writePos + done < session.taken.length + layout.capacity) : Sound { session with
      segment := session.segment.copyIn layout (bytesOf call.data)
        (writeOffsets layout writePos call.byteSize done)
      writer := some { call with stage := .copy sequence writePos (done + 1) } } := by
  have starts : writePos = session.accepted.length * layout.element :=
    sound.writer.starts call writing writePos (by rw [stage]; rfl)
  have copied : session.copied = writePos + done := by
    unfold Session.copied
    rw [writing, starts]
    show _ + call.stage.done = _
    rw [stage]
    rfl
  have pending : session.pending = call.data := by
    unfold Session.pending
    rw [writing]
    rfl
  have inside : done < (bytesOf call.data).length := by
    rw [length_bytesOf]
    exact more
  obtain ⟨byte, found⟩ : ∃ byte, (bytesOf call.data)[done]? = some byte :=
    ⟨_, List.getElem?_eq_getElem inside⟩
  have behind : session.stream[writePos + done]? = some byte := by
    unfold Session.stream
    rw [pending, bytesOf_append, List.getElem?_append_right (by rw [length_bytesOf]; omega),
      length_bytesOf, starts, Nat.add_sub_cancel_left]
    exact found
  have copy : session.segment.copyIn layout (bytesOf call.data)
      (writeOffsets layout writePos call.byteSize done) =
        { session.segment with
          region := Function.update session.segment.region
            (layout.start (writePos + done)) byte } := by
    rw [writeOffsets_eq fits more]
    unfold Segment.copyIn
    simp only [found, if_pos (start_lt (writePos + done))]
  have window := sound.window
  rw [copied] at window
  have position := sound.writer.published
  rw [writing] at position
  simp only [Option.map_some, Option.getD_some, stage, WriteStage.published, if_true] at position
  rw [copy]
  apply sound.writerGoes writing
  case magic => rfl
  case readPos => rfl
  case inside => exact sound.inside
  case fits => exact sound.writer.fits
  case published => exact position
  case starts =>
    rintro _ ⟨⟩
    exact starts
  case within => exact more
  case window =>
    rw [← starts]
    exact window.copy (separates_mod layout.header layout.capacity) behind room

theorem Sound.stores (writing : session.writer = some call) {sequence writePos : Nat}
    (stage : call.stage = .store sequence writePos) (fits : writePos + call.byteSize < u64Size) :
    Sound { session with
      segment := { session.segment with
        header := { session.segment.header with
          writePos := (writePos + call.byteSize) % u64Size } }
      writer := some { call with stage := .timestamp sequence writePos } } := by
  have start : writePos = session.accepted.length * layout.element :=
    sound.writer.starts call writing writePos (by rw [stage]; rfl)
  have copied : session.copied = session.accepted.length * layout.element := by
    unfold Session.copied
    rw [writing]
    show _ + call.stage.done = _
    rw [stage]
    rfl
  rw [Nat.mod_eq_of_lt fits]
  apply sound.writerGoes writing
  case magic => rfl
  case readPos => rfl
  case inside => exact sound.inside
  case fits => exact fits
  case published =>
    rw [start]
    rfl
  case starts =>
    rintro _ ⟨⟩
    exact start
  case within => exact Nat.zero_le _
  case window =>
    show Window _ _ _ _ (session.accepted.length * layout.element + 0)
    rw [Nat.add_zero, ← copied]
    exact sound.window

/-- An orderly step of the writer keeps the segment sound. -/
theorem sound_wrote (writing : session.writer = some call)
    (orderly : session.WriteOrderly call.byteSize call.stage) : Sound (session.wrote call) := by
  have position := sound.writer.published
  rw [writing] at position
  simp only [Option.map_some, Option.getD_some] at position
  have starts := sound.writer.starts call writing
  unfold Session.wrote nextWrite
  cases stage : call.stage with
  | magic =>
    dsimp only
    split_ifs
    · exact sound.writerTurns writing rfl rfl rfl rfl rfl (by rw [stage]; rfl) nofun
        (by rw [stage]; rfl)
    · exact sound.writerFails writing (by rw [stage]; rfl) (by rw [stage]; rfl)
  | version =>
    dsimp only
    split_ifs
    · exact sound.writerFails writing (by rw [stage]; rfl) (by rw [stage]; rfl)
    · exact sound.writerTurns writing rfl rfl rfl rfl rfl (by rw [stage]; rfl) nofun
        (by rw [stage]; rfl)
    · exact sound.writerFails writing (by rw [stage]; rfl) (by rw [stage]; rfl)
  | sequence =>
    exact sound.writerTurns writing rfl rfl rfl rfl rfl (by rw [stage]; rfl) nofun
      (by rw [stage]; rfl)
  | load sequence =>
    rw [stage] at position
    refine sound.writerTurns writing rfl rfl rfl rfl rfl (by rw [stage]; rfl) ?_
      (by rw [stage]; rfl)
    rintro _ ⟨⟩
    exact position
  | store sequence writePos =>
    rw [stage] at orderly
    exact sound.stores writing stage orderly
  | timestamp sequence writePos =>
    rw [stage] at starts
    refine sound.writerTurns writing rfl rfl rfl rfl rfl (by rw [stage]; rfl) ?_
      (by rw [stage]; rfl)
    exact starts
  | ready sequence writePos =>
    rw [stage] at starts
    refine sound.writerTurns writing rfl rfl rfl rfl rfl (by rw [stage]; rfl) ?_
      (by rw [stage]; rfl)
    exact starts
  | copy sequence writePos done =>
    have within := sound.writer.within call writing
    rw [stage] at within orderly
    dsimp only
    split_ifs with more
    · obtain ⟨fits, room⟩ := orderly more
      exact sound.copies writing stage more fits room
    · have all : done = call.byteSize := Nat.le_antisymm within (not_lt.mp more)
      exact sound.writerReturns writing (by rw [stage]; rfl) (by rw [stage]; exact all)

end

end Writer

/-! ### The reader -/

section Reader

variable {call : ReadCall}

theorem Sound.readerStarts (sound : Sound session) (idle : session.reader = none) (count : Nat) :
    Sound { session with reader := some { count := count, stage := .magic } } := by
  have taken : session.taken = bytesOf session.received ++ [] := by
    unfold Session.taken
    rw [idle]
    rfl
  have window := sound.window
  rw [taken] at window
  exact { sound with
    writer := { sound.writer with }
    reader := fun other same => by
      cases same
      trivial
    window := window }

theorem Sound.readerTurns (sound : Sound session) (reading : session.reader = some call)
    {stage : ReadStage}
    (fits : ReadSound session.segment.header.readPos layout.element stage)
    (bytes : stage.bytes = call.stage.bytes) :
    Sound { session with reader := some { call with stage := stage } } := by
  have taken : session.taken = bytesOf session.received ++ stage.bytes := by
    unfold Session.taken
    rw [reading, bytes]
    rfl
  have window := sound.window
  rw [taken] at window
  exact { sound with
    writer := { sound.writer with }
    reader := fun other same => by
      cases same
      exact fits
    window := window }

theorem Sound.readerReturns (sound : Sound session) (reading : session.reader = some call)
    (none_ : call.stage.bytes = []) : Sound { session with reader := none } := by
  have taken : session.taken = bytesOf session.received ++ [] := by
    unfold Session.taken
    rw [reading, ← none_]
    rfl
  have window := sound.window
  rw [taken] at window
  exact { sound with
    writer := { sound.writer with }
    reader := nofun
    window := window }

theorem Sound.copied_le (sound : Sound session) :
    session.copied ≤ session.segment.header.writePos := by
  rw [sound.writer.published]
  unfold Session.copied
  apply Nat.add_le_add_left
  cases writing : session.writer with
  | none => exact Nat.le_refl 0
  | some call =>
    have within := sound.writer.within call writing
    show call.stage.done ≤ if call.stage.published then call.byteSize else 0
    cases stage : call.stage with
    | copy sequence writePos done =>
      rw [stage] at within
      exact within
    | _ => exact Nat.zero_le _

theorem taken_eq {readPos elements : Nat} {bytes : List UInt8}
    (reading : session.reader = some call) (stage : call.stage = .copy readPos elements bytes) :
    session.taken = bytesOf session.received ++ bytes := by
  unfold Session.taken
  rw [reading]
  show _ ++ call.stage.bytes = _
  rw [stage]
  rfl

/-- The copy of a byte by a read that stays apart. -/
theorem Sound.takes (sound : Sound session) (reading : session.reader = some call)
    {readPos elements : Nat} {bytes : List UInt8}
    (stage : call.stage = .copy readPos elements bytes)
    (more : bytes.length < elements * layout.element)
    (behind : session.taken.length < session.copied)
    (fits : layout.start readPos + bytes.length / layout.element * layout.element +
      layout.element ≤ layout.segment) :
    ∃ byte, session.segment.byteAt layout (readOffset layout readPos bytes.length) = some byte ∧
      Sound { session with
        reader := some { call with stage := .copy readPos elements (bytes ++ [byte]) } } := by
  have start := sound.reader call reading
  rw [stage] at start
  obtain ⟨loaded, _⟩ : readPos = session.segment.header.readPos ∧ _ := start
  have taken := taken_eq reading stage
  have position : session.taken.length = readPos + bytes.length := by
    rw [taken, List.length_append, length_bytesOf, loaded, sound.readPos]
  have found : session.segment.byteAt layout (readOffset layout readPos bytes.length) =
      some (session.segment.region (layout.start session.taken.length)) := by
    rw [readOffset_eq fits, position]
    unfold Segment.byteAt
    rw [Option.filter_some, if_pos (decide_eq_true (start_lt _)), Option.map_some]
  refine ⟨_, found, ?_⟩
  have window := sound.window.take behind
  rw [taken, List.append_assoc] at window
  exact { sound with
    writer := { sound.writer with }
    reader := fun other same => by
      cases same
      refine ⟨loaded, ?_⟩
      rw [List.length_append]
      exact more
    window := by
      rw [taken]
      exact window }

theorem Sound.readerPublishes (sound : Sound session) (reading : session.reader = some call)
    {readPos elements : Nat} {bytes : List UInt8}
    (stage : call.stage = .copy readPos elements bytes)
    (all : bytes.length = elements * layout.element) :
    Sound { session with
      segment := { session.segment with
        header := { session.segment.header with
          readPos := (session.segment.header.readPos + elements * layout.element) % u64Size } }
      reader := none
      received := session.received ++ recordsOf layout.element elements bytes } := by
  have taken := taken_eq reading stage
  have after : session.segment.header.readPos + elements * layout.element =
      (session.received ++ recordsOf layout.element elements bytes).length * layout.element := by
    rw [sound.readPos, List.length_append, length_recordsOf, Nat.add_mul]
  have received : session.taken =
      bytesOf (session.received ++ recordsOf layout.element elements bytes) ++ [] := by
    rw [taken, bytesOf_append, bytesOf_recordsOf all, List.append_nil]
  have small : session.segment.header.readPos + elements * layout.element < u64Size := by
    have reached := sound.window.reached
    rw [received, List.append_nil, length_bytesOf, ← after] at reached
    exact Nat.lt_of_le_of_lt (Nat.le_trans reached sound.copied_le) sound.writer.fits
  have window := sound.window
  rw [received] at window
  exact { sound with
    writer := { sound.writer with }
    readPos := by
      show _ % u64Size = _
      rw [Nat.mod_eq_of_lt small]
      exact after
    reader := nofun
    window := window }

/-- An orderly step of the reader keeps the segment sound. -/
theorem sound_hasRead (sound : Sound session) (reading : session.reader = some call)
    (orderly : session.ReadOrderly call.stage) : Sound (session.hasRead call) := by
  have start := sound.reader call reading
  unfold Session.hasRead nextRead
  cases stage : call.stage with
  | magic =>
    dsimp only
    split_ifs
    · exact sound.readerTurns reading trivial (by rw [stage]; rfl)
    · exact sound.readerReturns reading (by rw [stage]; rfl)
  | version =>
    dsimp only
    split_ifs
    · exact sound.readerTurns reading trivial (by rw [stage]; rfl)
    · exact sound.readerReturns reading (by rw [stage]; rfl)
  | loadRead => exact sound.readerTurns reading rfl (by rw [stage]; rfl)
  | loadWrite readPos =>
    rw [stage] at start
    dsimp only
    split_ifs
    · show Sound { session with reader := none, received := session.received ++ [] }
      rw [List.append_nil]
      exact sound.readerReturns reading (by rw [stage]; rfl)
    · exact sound.readerTurns reading ⟨start, Nat.zero_le _⟩ (by rw [stage]; rfl)
  | copy readPos elements bytes =>
    rw [stage] at start orderly
    dsimp only
    split_ifs with more
    · obtain ⟨behind, fits⟩ := orderly more
      obtain ⟨byte, found, kept⟩ := sound.takes reading stage more behind fits
      rw [found]
      exact kept
    · exact sound.readerPublishes reading stage (Nat.le_antisymm start.2 (not_lt.mp more))

end Reader

/-! ## Runs -/

/-- Every orderly step keeps the segment sound. -/
theorem sound_step {event : SegmentEvent layout} (sound : Sound session)
    (orderly : session.Orderly event) (stepped : session.step event = some next) : Sound next := by
  cases event with
  | write data now =>
    unfold Session.step at stepped
    cases writing : session.writer with
    | some call =>
      rw [writing] at stepped
      cases stepped
    | none =>
      rw [writing] at stepped
      cases stepped
      exact sound.writerStarts writing data now
  | stepWriter =>
    obtain ⟨call, writing, rfl⟩ := Option.map_eq_some_iff.mp stepped
    exact sound_wrote sound writing (orderly call writing)
  | read count =>
    unfold Session.step at stepped
    cases reading : session.reader with
    | some call =>
      rw [reading] at stepped
      cases stepped
    | none =>
      rw [reading] at stepped
      cases stepped
      exact sound.readerStarts reading count
  | stepReader =>
    obtain ⟨call, reading, rfl⟩ := Option.map_eq_some_iff.mp stepped
    exact sound_hasRead sound reading (orderly call reading)

/-- Along every run whose steps keep the threads apart and off the end of the region, the elements
that reads return are the beginning of those that writes accept, and no access is outside. -/
theorem lossless_of_orderly (layout : Layout) (events : List (SegmentEvent layout))
    (orderly : Guarded Session.step Session.Orderly (Session.start layout) events) :
    Always Session.step Session.Lossless (Session.start layout) events :=
  (always_guarded (fun _ _ _ sound met stepped => sound_step sound met stepped)
    (sound_start layout) events orderly).imp fun _ sound => lossless_of_sound sound

end Steps

/-- A region of eight bytes with a header of two and elements of two. -/
def smallLayout : Layout where
  segment := 8
  header := 2
  element := 2
  headerPositive := by decide
  headerInside := by decide
  elementPositive := by decide
  elementNarrow := by decide
  elementFits := by decide

/-- Steps of the writer. -/
def writerSteps (steps : Nat) : List (SegmentEvent smallLayout) := List.replicate steps .stepWriter

/-- Steps of the reader. -/
def readerSteps (steps : Nat) : List (SegmentEvent smallLayout) := List.replicate steps .stepReader

/-- An element is written, and it is read while the next one is written, which is read then. -/
def overlapping : List (SegmentEvent smallLayout) :=
  [.write [![7, 9]] 0] ++ writerSteps 10 ++ [.write [![8, 6]] 1, .read 1] ++
    (List.replicate 7 [.stepWriter, .stepReader]).flatten ++ writerSteps 3 ++ [.read 1] ++
      readerSteps 7

/-- Both elements come out of calls that overlap. -/
theorem lossless_of_orderly_overlapping :
    Always Session.step Session.Lossless (Session.start smallLayout) overlapping ∧
      (exec Session.step (Session.start smallLayout) overlapping).map
        (fun session => bytesOf session.received) = some [7, 9, 8, 6] :=
  ⟨lossless_of_orderly smallLayout _ (by decide +kernel), by decide +kernel⟩

/-- An element that is read between the store of the write position and the copy of its bytes is
read as zeros. -/
theorem read_before_copy :
    ¬∀ (layout : Layout) (events : List (SegmentEvent layout)),
      Always Session.step Session.Lossless (Session.start layout) events := by
  intro claim
  exact absurd (claim smallLayout ([.write [![7, 9]] 0] ++ writerSteps 5 ++ [.read 1] ++
    readerSteps 7)) (by decide +kernel)

end TradingBot.Ipc.SharedMemory
