import TradingBot.Foundation.Bytes
import TradingBot.Foundation.MachineInt

/-!
# The shared memory segment

`shared_memory.rs`: elements of one size in a region of bytes, between a write and a read position
that only grow. A write publishes its position before it copies its bytes, and neither side looks
whether the other has caught up. One writer thread and one reader thread call the segment of the
owner, and each call is the sequence of its atomic loads and stores and the copies of its bytes.
-/

open Bytes MachineInt

namespace TradingBot.Ipc.SharedMemory

/-- The sizes of a segment: the region `MAX_SEGMENT_SIZE`, the header in front of the data and the
elements. -/
structure Layout where
  segment : Nat
  header : Nat
  element : Nat
  headerPositive : 0 < header
  headerInside : header < segment
  elementPositive : 0 < element
  elementNarrow : element ≤ 64
  elementFits : element ≤ segment - header

namespace Layout

variable (layout : Layout)

/-- The bytes of the region behind the header. -/
def capacity : Nat := layout.segment - layout.header

/-- The offset in the region at which the byte of a position starts. -/
def start (position : Nat) : Nat := layout.header + position % layout.capacity

end Layout

/-- `SharedMemoryHeader::MAGIC`. -/
def headerMagic : Nat := 0x5A414944

/-- `SharedMemoryHeader::VERSION`. -/
def headerVersion : Nat := 1

/-- `AtomicHeader`: atomic version of the header for lock-free access. -/
structure AtomicHeader where
  /-- The magic number and the version, in the two halves. -/
  magic : Nat
  writePos : Nat
  readPos : Nat
  sequence : Nat
  lastWriteTs : Nat
  dataReady : Nat

namespace AtomicHeader

def new : AtomicHeader where
  magic := headerMagic * 2 ^ 32 + headerVersion
  writePos := 0
  readPos := 0
  sequence := 0
  lastWriteTs := 0
  dataReady := 0

def getMagic (header : AtomicHeader) : Nat := header.magic / 2 ^ 32 % 2 ^ 32

def getVersion (header : AtomicHeader) : Nat := header.magic % 2 ^ 32

end AtomicHeader

/-- `SharedMemorySegment` of the owner: the header, the bytes of the region, and whether an access
was outside the region or the data, or stopped the program as it was about to be. -/
structure Segment where
  header : AtomicHeader
  region : Nat → UInt8
  outside : Bool

/-- `create`: a segment with zeroed data. -/
def Segment.create : Segment where
  header := .new
  region := fun _ => 0
  outside := false

/-! ## Writes -/

/-- Where a call of `write` stands. -/
inductive WriteStage where
  /-- Before the load of the magic number. -/
  | magic
  /-- Before the load of the version. -/
  | version
  /-- Before the `fetch_add` of the sequence number. -/
  | sequence
  /-- Before the load of the write position. -/
  | load (sequence : Nat)
  /-- Before the store of the write position. -/
  | store (sequence writePos : Nat)
  /-- Before the store of the time stamp. -/
  | timestamp (sequence writePos : Nat)
  /-- Before the store of the flag. -/
  | ready (sequence writePos : Nat)
  /-- After the copy of some bytes. -/
  | copy (sequence writePos done : Nat)

/-- A call of `write` with its data, the reading of the clock it makes and where it stands. -/
structure WriteCall (layout : Layout) where
  data : List (Record layout.element)
  now : Nat
  stage : WriteStage

/-- Why `write` fails. -/
inductive WriteError where
  | invalidHeader
  /-- Data exceeds maximum segment size. -/
  | tooLarge

/-- A call after a step: it goes on, or it returned. -/
inductive Progress (ρ κ : Type) where
  /-- The call goes on. -/
  | going (call : κ)
  /-- The call returned. -/
  | returned (result : ρ)

variable {layout : Layout}

/-- The bytes of a call. -/
def WriteCall.byteSize (call : WriteCall layout) : Nat := call.data.length * layout.element

/-- The offset in the data and the offset in the region of the copy of a byte. A write that reaches
the end of the region goes on at its first byte, with the data behind as many elements as bytes were
copied. -/
def writeOffsets (layout : Layout) (writePos byteSize done : Nat) : Nat × Nat :=
  let start := layout.start writePos
  if start + byteSize ≤ layout.segment then (done, start + done)
  else
    let firstPart := layout.segment - start
    if done < firstPart then (done, start + done)
    else (firstPart * layout.element + (done - firstPart), done - firstPart)

/-- A segment after the copy of a byte of data. -/
def Segment.copyIn (segment : Segment) (layout : Layout) (bytes : List UInt8)
    (offsets : Nat × Nat) : Segment :=
  match bytes[offsets.1]? with
  | some byte =>
    if offsets.2 < layout.segment then
      { segment with region := Function.update segment.region offsets.2 byte }
    else { segment with outside := true }
  | none => { segment with outside := true }

/-- The next step of a call of `write`. -/
def nextWrite (segment : Segment) (call : WriteCall layout) :
    Segment × Progress (Except WriteError Nat) (WriteCall layout) :=
  let header := segment.header
  let go (segment : Segment) (stage : WriteStage) :
      Segment × Progress (Except WriteError Nat) (WriteCall layout) :=
    (segment, .going { call with stage := stage })
  match call.stage with
  | .magic =>
    if header.getMagic = headerMagic then go segment .version
    else (segment, .returned (.error .invalidHeader))
  | .version =>
    if header.getVersion = headerVersion then
      if layout.segment - layout.header < call.byteSize then
        (segment, .returned (.error .tooLarge))
      else go segment .sequence
    else (segment, .returned (.error .invalidHeader))
  | .sequence =>
    go { segment with header := { header with sequence := (header.sequence + 1) % u64Size } }
      (.load header.sequence)
  | .load sequence => go segment (.store sequence header.writePos)
  | .store sequence writePos =>
    go { segment with
        header := { header with writePos := (writePos + call.byteSize) % u64Size } }
      (.timestamp sequence writePos)
  | .timestamp sequence writePos =>
    go { segment with header := { header with lastWriteTs := call.now } } (.ready sequence writePos)
  | .ready sequence writePos =>
    go { segment with header := { header with dataReady := 1 } } (.copy sequence writePos 0)
  | .copy sequence writePos done =>
    if done < call.byteSize then
      go (segment.copyIn layout (bytesOf call.data)
          (writeOffsets layout writePos call.byteSize done))
        (.copy sequence writePos (done + 1))
    else (segment, .returned (.ok sequence))

/-! ## Reads -/

/-- Where a call of `read` stands. -/
inductive ReadStage where
  /-- Before the load of the magic number. -/
  | magic
  /-- Before the load of the version. -/
  | version
  /-- Before the load of the read position. -/
  | loadRead
  /-- Before the load of the write position. -/
  | loadWrite (readPos : Nat)
  /-- After the copy of some bytes of the elements to read. -/
  | copy (readPos elements : Nat) (bytes : List UInt8)

/-- A call of `read` with the number of elements asked for and where it stands. -/
structure ReadCall where
  count : Nat
  stage : ReadStage

/-- Why `read` fails. -/
inductive ReadError where
  | invalidHeader

/-- The offset in the region of the copy of a byte of the elements to read. An element that reaches
the end of the region goes on at its first byte, and one behind the end stops the program. -/
def readOffset (layout : Layout) (readPos done : Nat) : Option Nat :=
  let position := layout.start readPos + done / layout.element * layout.element
  if position + layout.element ≤ layout.segment then some (position + done % layout.element)
  else if layout.segment < position then none
  else
    let firstPart := layout.segment - position
    if done % layout.element < firstPart then some (position + done % layout.element)
    else some (done % layout.element - firstPart)

/-- The byte of the region at an offset; there is none outside. -/
def Segment.byteAt (segment : Segment) (layout : Layout) (offset : Option Nat) : Option UInt8 :=
  (offset.filter (· < layout.segment)).map segment.region

/-- The number of elements a read takes. -/
def elementsToRead (layout : Layout) (count readPos writePos : Nat) : Nat :=
  if writePos ≤ readPos then 0 else min count ((writePos - readPos) / layout.element)

/-- The next step of a call of `read`. -/
def nextRead (layout : Layout) (segment : Segment) (call : ReadCall) :
    Segment × Progress (Except ReadError (List (Record layout.element))) ReadCall :=
  let header := segment.header
  let go (segment : Segment) (stage : ReadStage) :
      Segment × Progress (Except ReadError (List (Record layout.element))) ReadCall :=
    (segment, .going { call with stage := stage })
  match call.stage with
  | .magic =>
    if header.getMagic = headerMagic then go segment .version
    else (segment, .returned (.error .invalidHeader))
  | .version =>
    if header.getVersion = headerVersion then go segment .loadRead
    else (segment, .returned (.error .invalidHeader))
  | .loadRead => go segment (.loadWrite header.readPos)
  | .loadWrite readPos =>
    let elements := elementsToRead layout call.count readPos header.writePos
    if elements = 0 then (segment, .returned (.ok []))
    else go segment (.copy readPos elements [])
  | .copy readPos elements bytes =>
    if bytes.length < elements * layout.element then
      match segment.byteAt layout (readOffset layout readPos bytes.length) with
      | some byte => go segment (.copy readPos elements (bytes ++ [byte]))
      -- The program stops, so that the element is never read.
      | none => go { segment with outside := true } (.copy readPos elements bytes)
    else
      ({ segment with
          header := { header with
            readPos := (header.readPos + elements * layout.element) % u64Size } },
        .returned (.ok (recordsOf layout.element elements bytes)))

/-! ## Both threads -/

/-- A segment with the current call of each thread, the elements whose write returned `Ok` and the
elements that reads returned. -/
structure Session (layout : Layout) where
  segment : Segment
  writer : Option (WriteCall layout)
  reader : Option ReadCall
  accepted : List (Record layout.element)
  received : List (Record layout.element)

/-- A session of a new segment. -/
def Session.start (layout : Layout) : Session layout where
  segment := .create
  writer := none
  reader := none
  accepted := []
  received := []

/-- What can happen next. -/
inductive SegmentEvent (layout : Layout) where
  /-- The writer calls `write`. -/
  | write (data : List (Record layout.element)) (now : Nat)
  /-- The writer takes its next step. -/
  | stepWriter
  /-- The reader calls `read`. -/
  | read (count : Nat)
  /-- The reader takes its next step. -/
  | stepReader

namespace Session

variable (session : Session layout)

/-- A session after a step of a write. -/
def wrote (call : WriteCall layout) : Session layout :=
  match nextWrite session.segment call with
  | (segment, .going call) => { session with segment := segment, writer := some call }
  | (segment, .returned (.ok _)) =>
    { session with
      segment := segment
      writer := none
      accepted := session.accepted ++ call.data }
  | (segment, .returned (.error _)) => { session with segment := segment, writer := none }

/-- A session after a step of a read. -/
def hasRead (call : ReadCall) : Session layout :=
  match nextRead layout session.segment call with
  | (segment, .going call) => { session with segment := segment, reader := some call }
  | (segment, .returned (.ok elements)) =>
    { session with
      segment := segment
      reader := none
      received := session.received ++ elements }
  | (segment, .returned (.error _)) => { session with segment := segment, reader := none }

/-- A session after the next event; a thread makes one call after another. -/
def step : SegmentEvent layout → Option (Session layout)
  | .write data now =>
    match session.writer with
    | none => some { session with writer := some { data := data, now := now, stage := .magic } }
    | some _ => none
  | .stepWriter => session.writer.map session.wrote
  | .read count =>
    match session.reader with
    | none => some { session with reader := some { count := count, stage := .magic } }
    | some _ => none
  | .stepReader => session.reader.map session.hasRead

end Session

end TradingBot.Ipc.SharedMemory
