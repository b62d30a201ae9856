import TradingBot.Foundation.Bytes
import TradingBot.Foundation.MachineInt

/-!
# Zero-copy buffer

`zero_copy_buffers.rs`: a buffer of fixed size with a header that keeps the positions of the next
write and the next read, one call at a time. A slice out of range and a difference below zero stop
the program, and the call has no result.
-/

open Bytes MachineInt

namespace TradingBot.Memory

/-- `SharedBufferConfig`, less the settings that no call reads. -/
structure SharedBufferConfig where
  bufferSize : Nat

/-- `SharedMemoryHeader`. -/
structure SharedMemoryHeader where
  magic : Nat
  version : Nat
  bufferSize : Nat
  /-- Where the next write starts. -/
  writePos : Nat
  /-- Where the next read starts. -/
  readPos : Nat
  writerActive : Bool
  sequence : Nat

namespace SharedMemoryHeader

/-- `MAGIC`. -/
def headerMagic : Nat := 0x5A494400

/-- `VERSION`. -/
def headerVersion : Nat := 1

def new (bufferSize : Nat) : SharedMemoryHeader where
  magic := headerMagic
  version := headerVersion
  bufferSize := bufferSize
  writePos := 0
  readPos := 0
  writerActive := false
  sequence := 0

def validate (header : SharedMemoryHeader) : Bool :=
  header.magic = headerMagic && header.version = headerVersion

end SharedMemoryHeader

/-- The kinds of the errors of a write. -/
inductive ErrorKind where
  | invalidData
  | wouldBlock

/-- `std::io::Error`. -/
structure IoError where
  kind : ErrorKind
  message : String

/-- `BufferStats`. -/
structure BufferStats where
  totalSize : Nat
  usedBytes : Nat
  freeBytes : Nat
  writePosition : Nat
  readPosition : Nat
  sequence : Nat
  isValid : Bool

/-- `ZeroCopyBuffer`. -/
structure ZeroCopyBuffer where
  header : SharedMemoryHeader
  data : List UInt8
  config : SharedBufferConfig

namespace ZeroCopyBuffer

def new (config : SharedBufferConfig) : ZeroCopyBuffer where
  header := .new config.bufferSize
  data := List.replicate config.bufferSize 0
  config := config

/-- The header after so many bytes are written. -/
def advance (header : SharedMemoryHeader) (count : Nat) : SharedMemoryHeader :=
  { header with
    writePos := header.writePos + count
    sequence := castU64 (header.sequence + 1)
    writerActive := false }

def write (buffer : ZeroCopyBuffer) (data : List UInt8) :
    Option (Except IoError Nat × ZeroCopyBuffer) := do
  if !buffer.header.validate then
    return (.error ⟨.invalidData, "Invalid shared memory header"⟩, buffer)
  let writePos := buffer.header.writePos
  let available ← uSub buffer.config.bufferSize writePos
  if available < data.length then
    return (.error ⟨.wouldBlock, "Buffer full"⟩, buffer)
  let _ ← slice buffer.data writePos (writePos + data.length)
  return (.ok (writePos + data.length), { buffer with
    data := overwrite buffer.data writePos data
    header := advance buffer.header data.length })

def read (buffer : ZeroCopyBuffer) (maxBytes : Nat) : Option (List UInt8 × ZeroCopyBuffer) := do
  let readPos := buffer.header.readPos
  let available ← uSub buffer.header.writePos readPos
  if available = 0 then
    return ([], buffer)
  let toRead := min maxBytes available
  let data ← slice buffer.data readPos (readPos + toRead)
  return (data, { buffer with header := { buffer.header with readPos := readPos + toRead } })

def getStats (buffer : ZeroCopyBuffer) : Option BufferStats := do
  let available ← uSub buffer.header.writePos buffer.header.readPos
  let free ← uSub buffer.config.bufferSize available
  return {
    totalSize := buffer.config.bufferSize
    usedBytes := available
    freeBytes := free
    writePosition := buffer.header.writePos
    readPosition := buffer.header.readPos
    sequence := buffer.header.sequence
    isValid := buffer.header.validate }

def reset (buffer : ZeroCopyBuffer) : ZeroCopyBuffer :=
  { buffer with header := { buffer.header with writePos := 0, readPos := 0, sequence := 0 } }

/-! ## What a call does -/

section Calls

variable {buffer : ZeroCopyBuffer} {data : List UInt8}

theorem write_fits (valid : buffer.header.validate = true)
    (whole : buffer.data.length = buffer.config.bufferSize)
    (fits : buffer.header.writePos + data.length ≤ buffer.config.bufferSize) :
    buffer.write data = some (.ok (buffer.header.writePos + data.length), { buffer with
      data := overwrite buffer.data buffer.header.writePos data
      header := advance buffer.header data.length }) := by
  have inside : buffer.header.writePos ≤ buffer.config.bufferSize := by omega
  have room : ¬ buffer.config.bufferSize - buffer.header.writePos < data.length := by omega
  have sliced := @slice_inside buffer.data buffer.header.writePos
    (buffer.header.writePos + data.length) (by omega) (by omega)
  unfold write
  simp [valid, uSub, inside, room, sliced]

theorem write_refused (valid : buffer.header.validate = true)
    (inside : buffer.header.writePos ≤ buffer.config.bufferSize)
    (full : buffer.config.bufferSize < buffer.header.writePos + data.length) :
    buffer.write data = some (.error ⟨.wouldBlock, "Buffer full"⟩, buffer) := by
  have room : buffer.config.bufferSize - buffer.header.writePos < data.length := by omega
  unfold write
  simp [valid, uSub, inside, room]

theorem read_eq (maxBytes : Nat) (whole : buffer.data.length = buffer.config.bufferSize)
    (behind : buffer.header.readPos ≤ buffer.header.writePos)
    (inside : buffer.header.writePos ≤ buffer.config.bufferSize) :
    buffer.read maxBytes = some
      ((buffer.data.drop buffer.header.readPos).take
          (min maxBytes (buffer.header.writePos - buffer.header.readPos)),
        { buffer with header := { buffer.header with
          readPos := buffer.header.readPos +
            min maxBytes (buffer.header.writePos - buffer.header.readPos) } }) := by
  have sliced := @slice_inside buffer.data buffer.header.readPos
    (buffer.header.readPos + min maxBytes (buffer.header.writePos - buffer.header.readPos))
    (by omega) (by omega)
  unfold read
  by_cases drained : buffer.header.writePos - buffer.header.readPos = 0
  · simp [uSub, behind, drained]
  · simp [uSub, behind, drained, sliced]

theorem getStats_eq (behind : buffer.header.readPos ≤ buffer.header.writePos)
    (inside : buffer.header.writePos ≤ buffer.config.bufferSize) :
    buffer.getStats = some {
      totalSize := buffer.config.bufferSize
      usedBytes := buffer.header.writePos - buffer.header.readPos
      freeBytes := buffer.config.bufferSize -
        (buffer.header.writePos - buffer.header.readPos)
      writePosition := buffer.header.writePos
      readPosition := buffer.header.readPos
      sequence := buffer.header.sequence
      isValid := buffer.header.validate } := by
  have used : buffer.header.writePos - buffer.header.readPos ≤ buffer.config.bufferSize := by
    omega
  unfold getStats
  simp [uSub, behind, used]

end Calls

end ZeroCopyBuffer

end TradingBot.Memory
