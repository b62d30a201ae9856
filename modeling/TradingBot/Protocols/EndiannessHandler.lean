import TradingBot.Foundation.Bytes

/-!
# Endianness handler

`endianness_handler.py`: numbers are packed in network order, and the protocol handler writes them
to a buffer and reads them at an offset, a string behind its length. `struct` packs a scalar as its
big-endian bytes; a float is its pattern of 64 bits. A slice of a buffer is cut off at its end. The
values are of the annotated types, and offsets are not negative.
-/

open Bytes

namespace TradingBot.Protocols

/-- The keys of `FORMAT_MAP` and `SIZE_MAP` that the protocol handler uses. -/
inductive Dtype where
  | uint8
  | uint16
  | uint32
  | uint64
  | int64
  | float64

namespace Dtype

/-- The text of a key. -/
def text : Dtype → String
  | uint8 => "uint8"
  | uint16 => "uint16"
  | uint32 => "uint32"
  | uint64 => "uint64"
  | int64 => "int64"
  | float64 => "float64"

/-- `SIZE_MAP`. -/
def size : Dtype → Nat
  | uint8 => 1
  | uint16 => 2
  | uint32 => 4
  | uint64 | int64 | float64 => 8

/-- The values of a data type: integers, and floats by their patterns. -/
abbrev Scalar : Dtype → Type
  | uint8 | uint16 | uint32 | uint64 | int64 => Int
  | float64 => UInt64

end Dtype

/-- The errors of the handler. -/
inductive ProtocolError where
  | valueError (message : String)
  | unicodeDecodeError
  deriving DecidableEq, Repr

/-- What the handler takes from `struct`: the text of the error for an integer out of range. -/
abbrev StructError := Dtype → Int → String

namespace EndiannessHandler

variable (structError : StructError)

/-- The error of `pack` for an integer out of range. -/
def packError (dtype : Dtype) (value : Int) : ProtocolError :=
  .valueError s!"Failed to pack value {value} as {dtype.text}: {structError dtype value}"

/-- The bytes of an unsigned integer that fits its data type. -/
def packUnsigned (dtype : Dtype) (value : Int) : Except ProtocolError (List UInt8) :=
  if 0 ≤ value ∧ value < (256 ^ dtype.size : Nat) then .ok (toBE dtype.size value.toNat)
  else .error (packError structError dtype value)

def pack : (dtype : Dtype) → dtype.Scalar → Except ProtocolError (List UInt8)
  | .uint8, value => packUnsigned structError .uint8 value
  | .uint16, value => packUnsigned structError .uint16 value
  | .uint32, value => packUnsigned structError .uint32 value
  | .uint64, value => packUnsigned structError .uint64 value
  | .int64, value =>
    if -(2 ^ 63) ≤ value ∧ value < 2 ^ 63 then .ok (toSignedBE 8 value)
    else .error (packError structError .int64 value)
  | .float64, pattern => .ok (toBE 8 pattern.toNat)

/-- `struct.unpack` of the bytes of one scalar. -/
def unpackScalar (data : List UInt8) : (dtype : Dtype) → dtype.Scalar
  | .uint8 | .uint16 | .uint32 | .uint64 => (ofBE data : Int)
  | .int64 => ofSignedBE data
  | .float64 => UInt64.ofNat (ofBE data)

def unpack (data : List UInt8) (dtype : Dtype) : Except ProtocolError dtype.Scalar :=
  if data.length ≠ dtype.size then
    .error (.valueError s!"Expected {dtype.size} bytes for {dtype.text}, got {data.length}")
  else .ok (unpackScalar data dtype)

end EndiannessHandler

/-- `BinaryProtocolHandler`. -/
structure BinaryProtocolHandler where
  buffer : List UInt8

namespace BinaryProtocolHandler

open EndiannessHandler

/-- A new handler. -/
def new : BinaryProtocolHandler := ⟨[]⟩

/-! ## Writing -/

section Writing

variable (structError : StructError)

/-- Writes a number of a data type. -/
def writeNumber (handler : BinaryProtocolHandler) (dtype : Dtype) (value : dtype.Scalar) :
    Except ProtocolError BinaryProtocolHandler :=
  (pack structError dtype value).map fun packed => ⟨handler.buffer ++ packed⟩

def writeUint8 (handler : BinaryProtocolHandler) (value : Int) :
    Except ProtocolError BinaryProtocolHandler :=
  handler.writeNumber structError .uint8 value

def writeUint16 (handler : BinaryProtocolHandler) (value : Int) :
    Except ProtocolError BinaryProtocolHandler :=
  handler.writeNumber structError .uint16 value

def writeUint32 (handler : BinaryProtocolHandler) (value : Int) :
    Except ProtocolError BinaryProtocolHandler :=
  handler.writeNumber structError .uint32 value

def writeUint64 (handler : BinaryProtocolHandler) (value : Int) :
    Except ProtocolError BinaryProtocolHandler :=
  handler.writeNumber structError .uint64 value

def writeInt64 (handler : BinaryProtocolHandler) (value : Int) :
    Except ProtocolError BinaryProtocolHandler :=
  handler.writeNumber structError .int64 value

def writeFloat64 (handler : BinaryProtocolHandler) (value : UInt64) :
    Except ProtocolError BinaryProtocolHandler :=
  handler.writeNumber structError .float64 value

/-- `encode('utf-8')`. -/
def encodeUtf8 (value : String) : List UInt8 := value.toUTF8.data.toList

def writeString (handler : BinaryProtocolHandler) (value : String) :
    Except ProtocolError BinaryProtocolHandler :=
  let encoded := encodeUtf8 value
  (handler.writeUint32 structError encoded.length).map fun prefixed =>
    ⟨prefixed.buffer ++ encoded⟩

end Writing

/-! ## Reading -/

/-- `buffer[start:stop]`. -/
def slice (handler : BinaryProtocolHandler) (start stop : Nat) : List UInt8 :=
  (handler.buffer.drop start).take (stop - start)

/-- Reads a number of a data type, with the offset behind it. -/
def readNumber (handler : BinaryProtocolHandler) (offset : Nat) (dtype : Dtype) :
    Except ProtocolError (dtype.Scalar × Nat) :=
  (unpack (handler.slice offset (offset + dtype.size)) dtype).map fun value =>
    (value, offset + dtype.size)

def readUint8 (handler : BinaryProtocolHandler) (offset : Nat) : Except ProtocolError (Int × Nat) :=
  handler.readNumber offset .uint8

def readUint16 (handler : BinaryProtocolHandler) (offset : Nat) :
    Except ProtocolError (Int × Nat) :=
  handler.readNumber offset .uint16

def readUint32 (handler : BinaryProtocolHandler) (offset : Nat) :
    Except ProtocolError (Int × Nat) :=
  handler.readNumber offset .uint32

def readUint64 (handler : BinaryProtocolHandler) (offset : Nat) :
    Except ProtocolError (Int × Nat) :=
  handler.readNumber offset .uint64

def readInt64 (handler : BinaryProtocolHandler) (offset : Nat) : Except ProtocolError (Int × Nat) :=
  handler.readNumber offset .int64

def readFloat64 (handler : BinaryProtocolHandler) (offset : Nat) :
    Except ProtocolError (UInt64 × Nat) :=
  handler.readNumber offset .float64

/-- `decode('utf-8')`. -/
def decodeUtf8 (bytes : List UInt8) : Except ProtocolError String :=
  match String.fromUTF8? ⟨bytes.toArray⟩ with
  | some value => .ok value
  | none => .error .unicodeDecodeError

def readString (handler : BinaryProtocolHandler) (offset : Nat) :
    Except ProtocolError (String × Nat) :=
  match handler.readUint32 offset with
  | .error error => .error error
  | .ok (length, offset) =>
    (decodeUtf8 (handler.slice offset (offset + length.toNat))).map fun value =>
      (value, offset + length.toNat)

end BinaryProtocolHandler

end TradingBot.Protocols
