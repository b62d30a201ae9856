import TradingBot.Foundation.Bytes

/-!
# Block streams

`lz4_stream.rs` with its identity codec: blocks behind a header of a magic number and two sizes. A
vector has the capacity it was made with, the reader is a byte string, the scratch buffers are
values, and a reader that comes up short leaves bytes unread as the argument says.
-/

open Bytes

namespace TradingBot.Compression

def lz4BlockSize : Nat := 64 * 1024

/-- The magic number of a header. -/
def lz4Magic : Nat := 0x4C5A3400

/-- `Lz4StreamCompressor`. -/
structure Lz4StreamCompressor where
  inputBuffer : List UInt8
  inputPos : Nat

namespace Lz4StreamCompressor

def new : Lz4StreamCompressor where
  inputBuffer := []
  inputPos := 0

/-- `write`, with the number of bytes accepted. -/
def write (compressor : Lz4StreamCompressor) (data : List UInt8) : Nat × Lz4StreamCompressor :=
  let remaining := lz4BlockSize - compressor.inputPos
  let toCopy := min data.length remaining
  (toCopy, {
    inputBuffer := compressor.inputBuffer ++ data.take toCopy
    inputPos := compressor.inputPos + toCopy })

def compressBlock (input : List UInt8) : List UInt8 := input

/-- `flush`, with the bytes written. -/
def flush (compressor : Lz4StreamCompressor) : List UInt8 × Lz4StreamCompressor :=
  if compressor.inputPos = 0 then ([], compressor)
  else
    let compressed := compressBlock (compressor.inputBuffer.take compressor.inputPos)
    (toLE 4 lz4Magic ++ toLE 4 compressor.inputPos ++ toLE 4 compressed.length ++ compressed,
      { inputBuffer := [], inputPos := 0 })

end Lz4StreamCompressor

/-- What reading a block can fail with. -/
inductive ReadError where
  /-- The magic number is another one. -/
  | invalidMagic (magic : Nat)
  /-- The reader ends within the block. -/
  | unexpectedEof
  /-- The block has another size than its header says. -/
  | sizeMismatch (expected got : Nat)

/-- `Lz4StreamDecompressor`. -/
structure Lz4StreamDecompressor where
  outputBuffer : List UInt8
  outputPos : Nat
  outputEnd : Nat

/-- `read_exact` of a byte string: the bytes and the rest; a string that is too short is refused
and leaves its last `unread` bytes at most. -/
def readExact (reader : List UInt8) (count unread : Nat) :
    Option (List UInt8) × List UInt8 :=
  if count ≤ reader.length then (some (reader.take count), reader.drop count)
  else (none, reader.drop (reader.length - unread))

namespace Lz4StreamDecompressor

def new : Lz4StreamDecompressor where
  outputBuffer := []
  outputPos := 0
  outputEnd := 0

/-- `decompress_block`; the output is replaced before its size is looked at. -/
def decompressBlock (decompressor : Lz4StreamDecompressor) (input : List UInt8)
    (expectedSize : Nat) : Except ReadError Unit × Lz4StreamDecompressor :=
  let replaced := { decompressor with outputBuffer := input }
  if input.length ≠ expectedSize then (.error (.sizeMismatch expectedSize input.length), replaced)
  else (.ok (), replaced)

/-- `read_block`, with the rest of the reader. -/
def readBlock (decompressor : Lz4StreamDecompressor) (reader : List UInt8) (unread : Nat) :
    Except ReadError Bool × Lz4StreamDecompressor × List UInt8 :=
  match readExact reader 12 unread with
  | (none, rest) => (.ok false, decompressor, rest)
  | (some header, rest) =>
    let magic := ofLE (header.take 4)
    let uncompressedSize := ofLE ((header.drop 4).take 4)
    let compressedSize := ofLE ((header.drop 8).take 4)
    if magic ≠ lz4Magic then (.error (.invalidMagic magic), decompressor, rest)
    else
      match readExact rest compressedSize unread with
      | (none, rest) => (.error .unexpectedEof, decompressor, rest)
      | (some input, rest) =>
        match decompressor.decompressBlock input uncompressedSize with
        | (.error error, replaced) => (.error error, replaced, rest)
        | (.ok (), replaced) =>
          (.ok true, { replaced with outputPos := 0, outputEnd := uncompressedSize }, rest)

/-- `read` into a buffer of a size; an access outside the output stops the program. -/
def read (decompressor : Lz4StreamDecompressor) (size : Nat) :
    Option (List UInt8 × Lz4StreamDecompressor) :=
  if decompressor.outputEnd ≤ decompressor.outputPos then some ([], decompressor)
  else
    let toCopy := min size (decompressor.outputEnd - decompressor.outputPos)
    (slice decompressor.outputBuffer decompressor.outputPos
      (decompressor.outputPos + toCopy)).map fun data =>
        (data, { decompressor with outputPos := decompressor.outputPos + toCopy })

/-- `read_all`; an access outside the output stops the program. -/
def readAll (decompressor : Lz4StreamDecompressor) :
    Option (List UInt8 × Lz4StreamDecompressor) :=
  if decompressor.outputEnd ≤ decompressor.outputPos then some ([], decompressor)
  else
    (slice decompressor.outputBuffer decompressor.outputPos decompressor.outputEnd).map fun data =>
      (data, { decompressor with outputPos := decompressor.outputEnd })

end Lz4StreamDecompressor

end TradingBot.Compression
