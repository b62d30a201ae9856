import TradingBot.Compression.Lz4Stream
import TradingBot.Foundation.MachineInt
import TradingBot.Foundation.Run

/-!
# The writer of a compressed log

`WalWriter` of `lz4_stream.rs` hands no byte to a segment: its flush opens the file and writes
nothing, and its rotation flushes the compressor to nowhere. A payload is kept as long as it fits in
what is left of the input buffer and no rotation comes before it while something is in there.
-/

open MachineInt Run

namespace TradingBot.Compression

def Lz4StreamCompressor.needsFlush (compressor : Lz4StreamCompressor) : Bool :=
  lz4BlockSize ≤ compressor.inputPos

/-- `WalWriter`. -/
structure WalWriter where
  segmentPath : String
  currentSize : Nat
  maxSegmentSize : Nat
  compressor : Lz4StreamCompressor
  segmentIndex : Nat
  baseDir : String

/-- A writer with the bytes that a call handed to the output of its segment. -/
structure Written where
  writer : WalWriter
  handed : List UInt8

namespace WalWriter

def new (baseDir : String) (maxSegmentSize : Nat) : WalWriter where
  segmentPath := ""
  currentSize := 0
  maxSegmentSize := maxSegmentSize
  compressor := .new
  segmentIndex := 0
  baseDir := baseDir

/-- The index of a segment with eight digits at least. -/
def paddedIndex (index : Nat) : String :=
  "".pushn '0' (8 - (toString index).length) ++ toString index

/-- `flush`: the file of the segment is opened, if the system opens it, and nothing is written. -/
def flush (writer : WalWriter) (opens : String → Bool) : Option Written :=
  if opens writer.segmentPath then some { writer := writer, handed := [] } else none

/-- `rotate_segment`: what the compressor flushes goes to a sink, and not to the segment. -/
def rotateSegment (writer : WalWriter) : Option WalWriter :=
  let (_sunk, compressor) := writer.compressor.flush
  (u64 (writer.segmentIndex + 1)).map fun index =>
    { writer with
      compressor := compressor
      segmentIndex := index
      segmentPath := writer.baseDir ++ "/wal_" ++ paddedIndex index ++ ".lz4"
      currentSize := 0 }

/-- The writer behind the check of the segment size in `write`. -/
def rotateIfFull (writer : WalWriter) (data : List UInt8) : Option WalWriter :=
  (u64 (writer.currentSize + data.length)).bind fun size =>
    if writer.maxSegmentSize < size then writer.rotateSegment else some writer

/-- `write`; the number of bytes that the compressor accepts is not looked at. -/
def write (writer : WalWriter) (opens : String → Bool) (data : List UInt8) : Option Written :=
  (writer.rotateIfFull data).bind fun ready =>
    let (_accepted, compressor) := ready.compressor.write data
    let filled := { ready with compressor := compressor }
    (if compressor.needsFlush then filled.flush opens
      else some { writer := filled, handed := [] }).bind fun flushed =>
        (u64 (flushed.writer.currentSize + data.length)).map fun size =>
          { flushed with writer := { flushed.writer with currentSize := size } }

end WalWriter

/-! ## Bytes that are kept -/

/-- One call on a writer, with whether the system opens a file. -/
inductive WalCall where
  | write (opens : String → Bool) (data : List UInt8)
  | flush (opens : String → Bool)

/-- A writer with the bytes of the payloads that it accepted, and those that it handed to the output
of a segment. -/
structure WalSession where
  writer : WalWriter
  accepted : List UInt8
  handed : List UInt8

namespace WalSession

/-- A session of a new writer. -/
def start (baseDir : String) (maxSegmentSize : Nat) : WalSession where
  writer := .new baseDir maxSegmentSize
  accepted := []
  handed := []

/-- A session after a call; a payload is accepted with success, and a flush that fails changes
nothing. -/
def step (session : WalSession) : WalCall → Option WalSession
  | .write opens data => (session.writer.write opens data).map fun written => {
      writer := written.writer
      accepted := session.accepted ++ data
      handed := session.handed ++ written.handed }
  | .flush opens =>
    match session.writer.flush opens with
    | none => some session
    | some written => some {
        writer := written.writer
        accepted := session.accepted
        handed := session.handed ++ written.handed }

/-- Every byte that was accepted was handed to a segment, or is still in the input buffer, in
order. -/
def Kept (session : WalSession) : Prop :=
  session.accepted =
    session.handed ++ session.writer.compressor.inputBuffer.take
      session.writer.compressor.inputPos

/-- A payload brings the segment beyond its size. -/
def Rotates (session : WalSession) (data : List UInt8) : Prop :=
  session.writer.maxSegmentSize < session.writer.currentSize + data.length

instance (session : WalSession) (data : List UInt8) : Decidable (session.Rotates data) :=
  inferInstanceAs (Decidable (_ < _))

/-- A payload fits: it does not rotate the segment while bytes are in the input buffer, and it is
no longer than what is left of that. -/
def Fits (session : WalSession) : WalCall → Prop
  | .write _ data =>
    (session.Rotates data → session.writer.compressor.inputPos = 0) ∧
      session.writer.compressor.inputPos + data.length ≤ lz4BlockSize
  | .flush _ => True

instance (session : WalSession) : DecidablePred session.Fits
  | .write _ _ => inferInstanceAs (Decidable ((_ → _) ∧ _ ≤ _))
  | .flush _ => inferInstanceAs (Decidable True)

/-- Nothing is handed to a segment, and the buffer ends at its position, within its capacity. -/
structure Buffered (session : WalSession) : Prop where
  handed : session.handed = []
  position : session.writer.compressor.inputPos = session.writer.compressor.inputBuffer.length
  capacity : session.writer.compressor.inputPos ≤ lz4BlockSize

section Kept

variable {session next : WalSession} {call : WalCall} {writer ready : WalWriter} {written : Written}
  {data : List UInt8} {opens : String → Bool}

theorem rotateIfFull_compressor (ready_ : writer.rotateIfFull data = some ready) :
    ready.compressor =
      if writer.maxSegmentSize < writer.currentSize + data.length then
        writer.compressor.flush.2
      else writer.compressor := by
  obtain ⟨size, computed, rotated⟩ := Option.bind_eq_some_iff.mp ready_
  obtain ⟨-, rfl⟩ := u64_eq_some.mp computed
  by_cases full : writer.maxSegmentSize < writer.currentSize + data.length
  · rw [if_pos full] at rotated ⊢
    obtain ⟨index, -, rfl⟩ := Option.map_eq_some_iff.mp rotated
    rfl
  · rw [if_neg full] at rotated ⊢
    rw [Option.some.inj rotated]

theorem write_eq (wrote : writer.write opens data = some written) :
    ∃ ready, writer.rotateIfFull data = some ready ∧ written.handed = [] ∧
      written.writer.compressor = (ready.compressor.write data).2 := by
  obtain ⟨ready, rotated, later⟩ := Option.bind_eq_some_iff.mp wrote
  obtain ⟨flushed, filled, sized⟩ := Option.bind_eq_some_iff.mp later
  obtain ⟨size, -, rfl⟩ := Option.map_eq_some_iff.mp sized
  refine ⟨ready, rotated, ?_⟩
  split at filled
  · unfold WalWriter.flush at filled
    split at filled
    · cases filled
      exact ⟨rfl, rfl⟩
    · cases filled
  · cases filled
    exact ⟨rfl, rfl⟩

theorem flush_empty {compressor : Lz4StreamCompressor}
    (position : compressor.inputPos = compressor.inputBuffer.length) :
    compressor.flush.2 = { inputBuffer := [], inputPos := 0 } := by
  unfold Lz4StreamCompressor.flush
  by_cases none_ : compressor.inputPos = 0
  · rw [if_pos none_]
    have empty : compressor.inputBuffer = [] := List.length_eq_zero_iff.mp (by omega)
    cases compressor
    simp_all
  · rw [if_neg none_]

theorem ready_buffered (buffered : Buffered session)
    (rotated : session.writer.rotateIfFull data = some ready) :
    ready.compressor.inputPos = ready.compressor.inputBuffer.length ∧
      ready.compressor.inputPos ≤ lz4BlockSize := by
  rw [rotateIfFull_compressor rotated]
  split
  · rw [flush_empty buffered.position]
    exact ⟨rfl, Nat.zero_le _⟩
  · exact ⟨buffered.position, buffered.capacity⟩

theorem flush_same (taken : step session (.flush opens) = some next) : next = session := by
  unfold step WalWriter.flush at taken
  by_cases opened : opens session.writer.segmentPath = true
  · simp only [if_pos opened, List.append_nil, Option.some.injEq] at taken
    exact taken.symm
  · simp only [if_neg opened, Option.some.injEq] at taken
    exact taken.symm

theorem buffered_step (buffered : Buffered session) (taken : step session call = some next) :
    Buffered next := by
  cases call with
  | flush opens =>
    rw [flush_same taken]
    exact buffered
  | write opens data =>
    obtain ⟨written, wrote, rfl⟩ := Option.map_eq_some_iff.mp taken
    obtain ⟨ready, rotated, handed, filled⟩ := write_eq wrote
    obtain ⟨position, capacity⟩ := ready_buffered buffered rotated
    refine ⟨?_, ?_, ?_⟩
    · rw [handed, buffered.handed]
      rfl
    · simp only [filled, Lz4StreamCompressor.write, List.length_append, List.length_take]
      omega
    · simp only [filled, Lz4StreamCompressor.write]
      omega

theorem kept_iff (buffered : Buffered session) :
    Kept session ↔ session.accepted = session.writer.compressor.inputBuffer := by
  unfold Kept
  rw [buffered.handed, buffered.position, List.take_length, List.nil_append]

theorem append_take_iff (before data : List UInt8) (count : Nat) :
    before ++ data = before ++ data.take count ↔ data.length ≤ count := by
  rw [List.append_cancel_left_eq]
  constructor
  · intro same
    have lengths := congrArg List.length same
    rw [List.length_take] at lengths
    omega
  · intro whole
    exact (List.take_of_length_le whole).symm

/-- One call keeps the records exactly when they fit. -/
theorem kept_step_iff (buffered : Buffered session) (kept : Kept session)
    (taken : step session call = some next) : Kept next ↔ Fits session call := by
  have after := buffered_step buffered taken
  rw [kept_iff after]
  rw [kept_iff buffered] at kept
  have position := buffered.position
  have capacity := buffered.capacity
  cases call with
  | flush opens =>
    rw [flush_same taken]
    exact ⟨fun _ => trivial, fun _ => kept⟩
  | write opens data =>
    obtain ⟨written, wrote, rfl⟩ := Option.map_eq_some_iff.mp taken
    obtain ⟨ready, rotated, -, filled⟩ := write_eq wrote
    have compressor : ready.compressor = if session.Rotates data then
        session.writer.compressor.flush.2 else session.writer.compressor :=
      rotateIfFull_compressor rotated
    simp only [filled, Lz4StreamCompressor.write, Fits, kept]
    by_cases rotates : session.Rotates data
    · rw [if_pos rotates, flush_empty position] at compressor
      rw [compressor]
      simp only [List.nil_append, Nat.sub_zero]
      constructor
      · intro same
        have lengths := congrArg List.length same
        rw [List.length_append, List.length_take] at lengths
        omega
      · rintro ⟨empty, fits⟩
        have none_ : session.writer.compressor.inputBuffer = [] :=
          List.length_eq_zero_iff.mp (by rw [← position]; exact empty rotates)
        rw [none_, List.nil_append, List.take_of_length_le (by omega)]
    · rw [if_neg rotates] at compressor
      rw [compressor, append_take_iff]
      constructor
      · intro whole
        exact ⟨fun again => absurd again rotates, by omega⟩
      · rintro ⟨-, fits⟩
        omega

end Kept

/-- Every byte of the payloads of a run is kept exactly if each payload fits. -/
theorem kept_iff_fits (baseDir : String) (maxSegmentSize : Nat) (calls : List WalCall) :
    Always step Kept (start baseDir maxSegmentSize) calls ↔
      Guarded step Fits (start baseDir maxSegmentSize) calls := by
  have buffered : Buffered (start baseDir maxSegmentSize) := ⟨rfl, rfl, Nat.zero_le _⟩
  exact always_iff_guarded (fun session call next kept => buffered_step kept)
    (fun session call next kept holds => kept_step_iff kept holds) buffered rfl calls

/-- Two payloads that a segment of four bytes does not hold together. -/
def twoPayloads : List WalCall :=
  [.write (fun _ => true) [1, 2, 3], .write (fun _ => true) [4, 5]]

/-- The first payload is dropped as the second one rotates the segment, and both were accepted. -/
theorem drops_payload :
    ((exec step (start "wal" 4) twoPayloads).map fun session => (session.accepted,
      session.handed, session.writer.compressor.inputBuffer)) = some ([1, 2, 3, 4, 5], [], [4, 5]) ∧
      ¬ Always step Kept (start "wal" 4) twoPayloads := by
  have dropped : ((exec step (start "wal" 4) twoPayloads).map fun session => (session.accepted,
      session.handed, session.writer.compressor.inputBuffer)) =
        some ([1, 2, 3, 4, 5], [], [4, 5]) := by decide
  refine ⟨dropped, not_always_of_view dropped ?_⟩
  intro final shown kept
  unfold Kept at kept
  have accepted := congrArg Prod.fst shown
  have handed := congrArg (fun seen => seen.2.1) shown
  have buffer := congrArg (fun seen => seen.2.2) shown
  simp only at accepted handed buffer
  rw [accepted, handed, buffer] at kept
  have lengths := congrArg List.length kept
  simp only [List.nil_append, List.length_take, List.length_cons, List.length_nil] at lengths
  omega

end WalSession

end TradingBot.Compression
