import TradingBot.Foundation.Run
import TradingBot.Compression.Lz4Stream

/-!
# Blocks written and read

What is flushed is read back block by block. A reader may meet any bytes: it stays inside its
output as long as no block was of another size than its header said, and it takes less than a
header for the end of the stream.
-/

open Bytes Run

namespace TradingBot.Compression.BlockStream

/-! ## Writing -/

/-- One call on a compressor. -/
inductive WriteCall where
  | write (data : List UInt8)
  | flush

/-- A compressor with the bytes it has produced and accepted, and those accepted up to the last
flush. -/
structure WriteSession where
  compressor : Lz4StreamCompressor
  produced : List UInt8
  accepted : List UInt8
  flushed : List UInt8

/-- A session of a new compressor. -/
def WriteSession.start : WriteSession where
  compressor := .new
  produced := []
  accepted := []
  flushed := []

/-- A session after a call. -/
def writeStep (session : WriteSession) : WriteCall → WriteSession
  | .write data =>
    let (count, compressor) := session.compressor.write data
    { session with compressor := compressor, accepted := session.accepted ++ data.take count }
  | .flush =>
    let (bytes, compressor) := session.compressor.flush
    { compressor := compressor
      produced := session.produced ++ bytes
      accepted := session.accepted
      flushed := session.accepted }

/-- The session after some calls. -/
def written (calls : List WriteCall) : WriteSession := calls.foldl writeStep .start

/-! ## Reading -/

/-- The bytes read block by block, up to a number of blocks, until no block is left. -/
def readBlocks : Nat → Lz4StreamDecompressor → List UInt8 → Option (List UInt8)
  | 0, _, _ => none
  | blocks + 1, decompressor, reader =>
    match decompressor.readBlock reader 0 with
    | (.ok false, _, _) => some []
    | (.ok true, filled, rest) =>
      filled.readAll.bind fun (data, emptied) =>
        (readBlocks blocks emptied rest).map fun later => data ++ later
    | (.error _, _, _) => none

/-- The bytes of a stream; there are fewer blocks than bytes. -/
def readStream (reader : List UInt8) : Option (List UInt8) :=
  readBlocks (reader.length + 1) .new reader

/-- One call on a decompressor. -/
inductive ReadCall where
  /-- `read_block`, with the number of bytes that a reader that comes up short leaves unread. -/
  | readBlock (unread : Nat)
  /-- `read` into a buffer of a size. -/
  | read (size : Nat)
  | readAll

/-- A decompressor with its reader, and whether a block was of another size than its header
said. -/
structure ReadSession where
  decompressor : Lz4StreamDecompressor
  reader : List UInt8
  mismatched : Bool

/-- A session of a new decompressor on some bytes. -/
def ReadSession.start (reader : List UInt8) : ReadSession where
  decompressor := .new
  reader := reader
  mismatched := false

/-- Whether an answer tells of a block of another size than its header said. -/
def isMismatch : Except ReadError Bool → Bool
  | .error (.sizeMismatch _ _) => true
  | _ => false

/-- A session after a call; an access outside the output stops the program. -/
def readStep (session : ReadSession) : ReadCall → Option ReadSession
  | .readBlock unread =>
    let (answer, decompressor, rest) := session.decompressor.readBlock session.reader unread
    some {
      decompressor := decompressor
      reader := rest
      mismatched := session.mismatched || isMismatch answer }
  | .read size => (session.decompressor.read size).map fun (_, decompressor) =>
      { session with decompressor := decompressor }
  | .readAll => session.decompressor.readAll.map fun (_, decompressor) =>
      { session with decompressor := decompressor }

/-- Unless a block was of another size than its header said, no call makes an access outside the
output. -/
def Inside (session : ReadSession) : Prop :=
  session.mismatched = false → ∀ call, (readStep session call).isSome = true

/-! ## One block -/

section Blocks

variable {decompressor : Lz4StreamDecompressor} {chunk rest : List UInt8}

/-- A chunk behind its header. -/
def frame (chunk : List UInt8) : List UInt8 :=
  toLE 4 lz4Magic ++ toLE 4 chunk.length ++ toLE 4 chunk.length ++ chunk

theorem readExact_append (taken rest : List UInt8) (unread : Nat) :
    readExact (taken ++ rest) taken.length unread = (some taken, rest) := by
  unfold readExact
  rw [if_pos (by rw [List.length_append]; exact Nat.le_add_right _ _), List.take_left,
    List.drop_left]

theorem readBlock_frame (fits : chunk.length ≤ lz4BlockSize) :
    decompressor.readBlock (frame chunk ++ rest) 0 =
      (.ok true, { outputBuffer := chunk, outputPos := 0, outputEnd := chunk.length }, rest) := by
  have small : chunk.length < 256 ^ 4 := lt_of_le_of_lt fits (by decide)
  let header := toLE 4 lz4Magic ++ toLE 4 chunk.length ++ toLE 4 chunk.length
  have whole : readExact (frame chunk ++ rest) 12 0 = (some header, chunk ++ rest) := by
    have split_ : frame chunk ++ rest = header ++ (chunk ++ rest) := List.append_assoc _ _ _
    have size : header.length = 12 := by simp [header]
    rw [split_, ← size]
    exact readExact_append header (chunk ++ rest) 0
  have magic : ofLE (header.take 4) = lz4Magic := by
    have first : header.take 4 = toLE 4 lz4Magic := by simp [header]
    rw [first]
    exact ofLE_toLE_of_fits (by decide)
  have uncompressed : ofLE ((header.drop 4).take 4) = chunk.length := by
    have second : (header.drop 4).take 4 = toLE 4 chunk.length := by simp [header]
    rw [second]
    exact ofLE_toLE_of_fits small
  have compressed : ofLE ((header.drop 8).take 4) = chunk.length := by
    have third : header.drop 8 = toLE 4 chunk.length := List.drop_left' (by simp)
    rw [third, List.take_of_length_le (Nat.le_of_eq (toLE_length 4 _))]
    exact ofLE_toLE_of_fits small
  unfold Lz4StreamDecompressor.readBlock
  simp only [whole, magic, uncompressed, compressed, readExact_append]
  rw [if_neg (not_not_intro rfl)]
  unfold Lz4StreamDecompressor.decompressBlock
  rw [if_neg (not_not_intro rfl)]

theorem readAll_filled (chunk : List UInt8) :
    ∃ emptied, Lz4StreamDecompressor.readAll
      { outputBuffer := chunk, outputPos := 0, outputEnd := chunk.length } =
        some (chunk, emptied) := by
  unfold Lz4StreamDecompressor.readAll
  dsimp only
  by_cases empty : chunk.length ≤ 0
  · rw [if_pos empty, List.length_eq_zero_iff.mp (Nat.le_zero.mp empty)]
    exact ⟨_, rfl⟩
  · rw [if_neg empty, slice_inside (Nat.zero_le _) (Nat.le_refl _)]
    refine ⟨{ outputBuffer := chunk, outputPos := chunk.length, outputEnd := chunk.length }, ?_⟩
    rw [Option.map_some, List.drop_zero, Nat.sub_zero, List.take_length]

theorem readBlock_false (decompressor : Lz4StreamDecompressor) (reader : List UInt8)
    (unread : Nat) :
    (decompressor.readBlock reader unread).1 = .ok false ↔ reader.length < 12 := by
  unfold Lz4StreamDecompressor.readBlock readExact
  by_cases whole : 12 ≤ reader.length
  · rw [if_pos whole]
    refine iff_of_false ?_ (not_lt.mpr whole)
    dsimp only
    split
    · exact nofun
    · split
      · exact nofun
      · split
        · exact nofun
        · exact nofun
  · rw [if_neg whole]
    exact iff_of_true rfl (not_le.mp whole)

theorem readBlocks_frames (chunks : List (List UInt8))
    (fits : ∀ chunk ∈ chunks, chunk.length ≤ lz4BlockSize) (decompressor : Lz4StreamDecompressor)
    {blocks : Nat} (enough : chunks.length < blocks) :
    readBlocks blocks decompressor (chunks.map frame).flatten = some chunks.flatten := by
  induction chunks generalizing decompressor blocks with
  | nil =>
    obtain ⟨more, rfl⟩ := Nat.exists_eq_succ_of_ne_zero (Nat.ne_of_gt enough)
    rfl
  | cons chunk rest ih =>
    obtain ⟨more, rfl⟩ := Nat.exists_eq_succ_of_ne_zero (Nat.ne_of_gt (Nat.zero_lt_of_lt enough))
    obtain ⟨emptied, all⟩ := readAll_filled chunk
    rw [List.map_cons, List.flatten_cons, Nat.succ_eq_add_one, readBlocks,
      readBlock_frame (fits chunk List.mem_cons_self)]
    dsimp only
    rw [all, Option.bind_some,
      ih (fun other member => fits other (List.mem_cons_of_mem _ member)) emptied
        (Nat.lt_of_succ_lt_succ enough)]
    rfl

end Blocks

/-! ## One call -/

section Calls

/-- What a compressor has produced are the frames of what was flushed, and it holds what was
accepted since. -/
structure Framed (session : WriteSession) : Prop where
  chunks : ∃ chunks : List (List UInt8), session.produced = (chunks.map frame).flatten ∧
    session.flushed = chunks.flatten ∧ ∀ chunk ∈ chunks, chunk.length ≤ lz4BlockSize
  held : session.accepted = session.flushed ++ session.compressor.inputBuffer
  position : session.compressor.inputPos = session.compressor.inputBuffer.length
  room : session.compressor.inputPos ≤ lz4BlockSize

theorem framed_write {session : WriteSession} (framed : Framed session) (data : List UInt8) :
    Framed (writeStep session (.write data)) := by
  obtain ⟨blocks, held, position, room⟩ := framed
  let count := min data.length (lz4BlockSize - session.compressor.inputPos)
  have taken : (data.take count).length = count := by
    rw [List.length_take]
    exact Nat.min_eq_left (Nat.min_le_left _ _)
  refine ⟨blocks, ?_, ?_, ?_⟩
  · show session.accepted ++ data.take count =
      session.flushed ++ (session.compressor.inputBuffer ++ data.take count)
    rw [held, List.append_assoc]
  · show session.compressor.inputPos + count =
      (session.compressor.inputBuffer ++ data.take count).length
    rw [List.length_append, taken, position]
  · show session.compressor.inputPos + count ≤ lz4BlockSize
    have below : count ≤ lz4BlockSize - session.compressor.inputPos := Nat.min_le_right _ _
    omega

theorem flush_nothing {compressor : Lz4StreamCompressor} (nothing : compressor.inputPos = 0) :
    compressor.flush = ([], compressor) :=
  if_pos nothing

theorem flush_frame {compressor : Lz4StreamCompressor} (some_ : compressor.inputPos ≠ 0)
    (position : compressor.inputPos = compressor.inputBuffer.length) :
    compressor.flush = (frame compressor.inputBuffer, .new) := by
  have all : compressor.inputBuffer.take compressor.inputPos = compressor.inputBuffer := by
    rw [position, List.take_length]
  unfold Lz4StreamCompressor.flush Lz4StreamCompressor.compressBlock
  rw [if_neg some_, all, position]
  rfl

theorem framed_flush {session : WriteSession} (framed : Framed session) :
    Framed (writeStep session .flush) := by
  obtain ⟨⟨chunks, produced, flushed, fits⟩, held, position, room⟩ := framed
  by_cases nothing : session.compressor.inputPos = 0
  · have quiet := flush_nothing nothing
    have empty : session.compressor.inputBuffer = [] :=
      List.length_eq_zero_iff.mp (position ▸ nothing)
    refine ⟨⟨chunks, ?_, ?_, fits⟩, ?_, ?_, ?_⟩
    · show session.produced ++ session.compressor.flush.1 = _
      rw [quiet, List.append_nil, produced]
    · show session.accepted = _
      rw [held, empty, List.append_nil, flushed]
    · show session.accepted = session.accepted ++ session.compressor.flush.2.inputBuffer
      rw [quiet, empty, List.append_nil]
    · show session.compressor.flush.2.inputPos = session.compressor.flush.2.inputBuffer.length
      rw [quiet, position]
    · show session.compressor.flush.2.inputPos ≤ _
      rw [quiet]
      exact room
  · have full := flush_frame nothing position
    refine ⟨⟨chunks ++ [session.compressor.inputBuffer], ?_, ?_, ?_⟩, ?_, ?_, ?_⟩
    · show session.produced ++ session.compressor.flush.1 = _
      rw [List.map_append, List.flatten_append, produced, full]
      exact congrArg (_ ++ ·) (List.append_nil _).symm
    · show session.accepted = _
      rw [held, flushed, List.flatten_append]
      exact congrArg (_ ++ ·) (List.append_nil _).symm
    · intro chunk member
      rcases List.mem_append.mp member with old | new
      · exact fits chunk old
      · rw [List.mem_singleton.mp new, ← position]
        exact room
    · show session.accepted = session.accepted ++ session.compressor.flush.2.inputBuffer
      rw [full]
      exact (List.append_nil _).symm
    · show session.compressor.flush.2.inputPos = session.compressor.flush.2.inputBuffer.length
      rw [full]
      rfl
    · show session.compressor.flush.2.inputPos ≤ _
      rw [full]
      exact Nat.zero_le _

theorem framed_writeStep {session : WriteSession} (framed : Framed session) (call : WriteCall) :
    Framed (writeStep session call) := by
  cases call with
  | write data => exact framed_write framed data
  | flush => exact framed_flush framed

theorem readStream_framed {session : WriteSession} (framed : Framed session) :
    readStream session.produced = some session.flushed := by
  obtain ⟨chunks, produced, flushed, fits⟩ := framed.chunks
  have counted : chunks.length ≤ (chunks.map frame).flatten.length := by
    clear produced flushed fits
    induction chunks with
    | nil => exact Nat.le_refl 0
    | cons chunk rest ih =>
      have header : 12 ≤ (frame chunk).length := by
        simp [frame]
        omega
      rw [List.map_cons, List.flatten_cons, List.length_append, List.length_cons]
      omega
  unfold readStream
  rw [produced, flushed]
  exact readBlocks_frames chunks fits _ (Nat.lt_succ_of_le counted)

variable {decompressor : Lz4StreamDecompressor}

/-- The output that is announced is there. -/
def Announced (decompressor : Lz4StreamDecompressor) : Prop :=
  decompressor.outputEnd ≤ decompressor.outputBuffer.length

theorem announced_readBlock (announced : Announced decompressor) (reader : List UInt8)
    (unread : Nat) (matched : isMismatch (decompressor.readBlock reader unread).1 = false) :
    Announced (decompressor.readBlock reader unread).2.1 := by
  revert matched
  unfold Lz4StreamDecompressor.readBlock
  cases readExact reader 12 unread with
  | mk header rest =>
    cases header with
    | none => exact fun _ => announced
    | some header =>
      dsimp only
      split
      · exact fun _ => announced
      · cases readExact rest (ofLE ((header.drop 8).take 4)) unread with
        | mk input rest =>
          cases input with
          | none => exact fun _ => announced
          | some input =>
            dsimp only
            unfold Lz4StreamDecompressor.decompressBlock
            dsimp only
            by_cases size : input.length ≠ ofLE ((header.drop 4).take 4)
            · rw [if_pos size]
              exact nofun
            · rw [if_neg size]
              exact fun _ => Nat.le_of_eq (not_not.mp size).symm

theorem announced_read (announced : Announced decompressor) (size : Nat) :
    ∃ data emptied, decompressor.read size = some (data, emptied) ∧ Announced emptied := by
  unfold Lz4StreamDecompressor.read
  by_cases over_ : decompressor.outputEnd ≤ decompressor.outputPos
  · rw [if_pos over_]
    exact ⟨_, _, rfl, announced⟩
  · have below : min size (decompressor.outputEnd - decompressor.outputPos) ≤
        decompressor.outputEnd - decompressor.outputPos := Nat.min_le_right _ _
    have inside : decompressor.outputEnd ≤ decompressor.outputBuffer.length := announced
    rw [if_neg over_]
    dsimp only
    rw [slice_inside (Nat.le_add_right _ _) (by omega)]
    exact ⟨_, _, rfl, announced⟩

theorem announced_readAll (announced : Announced decompressor) :
    ∃ data emptied, decompressor.readAll = some (data, emptied) ∧ Announced emptied := by
  unfold Lz4StreamDecompressor.readAll
  by_cases over_ : decompressor.outputEnd ≤ decompressor.outputPos
  · rw [if_pos over_]
    exact ⟨_, _, rfl, announced⟩
  · have inside : decompressor.outputEnd ≤ decompressor.outputBuffer.length := announced
    rw [if_neg over_, slice_inside (Nat.le_of_not_le over_) inside]
    exact ⟨_, _, rfl, announced⟩

/-- The output that is announced is there, unless a block was of another size than its header
said. -/
def Sound (session : ReadSession) : Prop :=
  session.mismatched = false → Announced session.decompressor

/-- Each step of a reader keeps it sound. -/
theorem sound_readStep {session next : ReadSession} {call : ReadCall} (sound : Sound session)
    (stepped : readStep session call = some next) : Sound next := by
  cases call with
  | readBlock unread =>
    cases stepped
    intro matched
    have both : session.mismatched = false ∧ isMismatch
        (session.decompressor.readBlock session.reader unread).1 = false :=
      Bool.or_eq_false_iff.mp matched
    exact announced_readBlock (sound both.1) session.reader unread both.2
  | read size =>
    obtain ⟨read, taken, same⟩ := Option.map_eq_some_iff.mp stepped
    cases same
    intro matched
    obtain ⟨data, emptied, answer, announced⟩ := announced_read (sound matched) size
    rw [answer] at taken
    cases taken
    exact announced
  | readAll =>
    obtain ⟨read, taken, same⟩ := Option.map_eq_some_iff.mp stepped
    cases same
    intro matched
    obtain ⟨data, emptied, answer, announced⟩ := announced_readAll (sound matched)
    rw [answer] at taken
    cases taken
    exact announced

theorem inside_of_sound {session : ReadSession} (sound : Sound session) : Inside session := by
  intro matched call
  cases call with
  | readBlock unread => rfl
  | read size =>
    obtain ⟨data, emptied, answer, _⟩ := announced_read (sound matched) size
    show ((session.decompressor.read size).map _).isSome = true
    rw [answer]
    rfl
  | readAll =>
    obtain ⟨data, emptied, answer, _⟩ := announced_readAll (sound matched)
    show (session.decompressor.readAll.map _).isSome = true
    rw [answer]
    rfl

end Calls

/-! ## Runs -/

/-- What any run of writes and flushes has produced is read back as the bytes accepted up to its
last flush; whatever the bytes and the calls of a reader, none makes an access outside the output
before a block was of another size than its header said; and a reader takes less than a header, and
nothing else, for the end of the stream. -/
theorem block_stream :
    (∀ calls, readStream (written calls).produced = some (written calls).flushed) ∧
    (∀ reader calls, Always readStep Inside (ReadSession.start reader) calls) ∧
    ∀ (decompressor : Lz4StreamDecompressor) (reader : List UInt8) (unread : Nat),
      (decompressor.readBlock reader unread).1 = .ok false ↔ reader.length < 12 := by
  refine ⟨fun calls => ?_, fun reader calls => ?_, readBlock_false⟩
  · apply readStream_framed
    have started : Framed .start := ⟨⟨[], rfl, rfl, nofun⟩, rfl, rfl, Nat.zero_le _⟩
    unfold written
    exact List.foldlRecOn calls writeStep started fun session framed call _ =>
      framed_writeStep framed call
  · apply (always_of_preserved (fun _ _ _ sound stepped => sound_readStep sound stepped) _ _).imp
    · exact fun _ sound => inside_of_sound sound
    · exact fun _ => Nat.zero_le _

/-- A block of three bytes, and one of a byte whose header says two. -/
def mismatchedBlock : List UInt8 :=
  frame [1, 2, 3] ++ toLE 4 lz4Magic ++ toLE 4 2 ++ toLE 4 1 ++ [9]

/-- A byte that is not flushed is not read back, a byte that is no header ends the stream, and a
block of another size than its header says has the output of the one before it read beyond its
end. -/
theorem stream_limits :
    readStream (written [.write [1]]).produced ≠ some (written [.write [1]]).accepted ∧
      (Lz4StreamDecompressor.new.readBlock [1] 0).1 = .ok false ∧
      (exec readStep (ReadSession.start mismatchedBlock)
        [.readBlock 0, .readBlock 0, .readAll]).isNone = true :=
  ⟨by decide +kernel, rfl, by decide +kernel⟩

end TradingBot.Compression.BlockStream
