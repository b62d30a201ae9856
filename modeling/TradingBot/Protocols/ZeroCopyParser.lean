import Mathlib.Data.Rat.Floor
import TradingBot.Foundation.Bytes
import TradingBot.Foundation.MachineInt
import TradingBot.Foundation.Substring

/-!
# Zero-copy tick parser

`ZeroCopyTickParser` and `BatchTickParser` of `backend/protocols/zero_copy_parser.rs`: a trade
message is searched for the names of its fields, the number after a name is read, and the fields
are written in a fixed layout. An `f64` is read as a rational number; its conversions to integers
truncate and saturate. The time a message takes is an argument.
-/

open MachineInt

namespace TradingBot.Protocols

/-- `ParseError`. -/
inductive ParseError where
  | invalidUtf8
  | fieldNotFound (field : String)
  | numberParseError
  | bufferOverflow
  | invalidJson
  | nullPointer

/-- `Side`. -/
inductive Side where
  | unknown
  | buy
  | sell

/-- The byte of a side. -/
def Side.byte : Side → UInt8
  | .unknown => 0
  | .buy => 1
  | .sell => 2

/-- `TickFields`. -/
structure TickFields where
  timestampNs : Int
  price : Nat
  quantity : Nat
  side : Side
  tradeId : Nat

/-- `ZeroCopyTickParser`: the statistics, since a call clears the buffers. -/
structure ZeroCopyTickParser where
  parseCount : Nat
  totalParseTimeNs : Nat
  minParseTimeNs : Nat
  maxParseTimeNs : Nat

/-- The characters of a text in UTF-8, if it is one. -/
def fromUtf8 (bytes : List UInt8) : Option (List Char) :=
  (String.fromUTF8? ⟨bytes.toArray⟩).map String.toList

/-- The number that decimal digits stand for. -/
def digitsValue (digits : List Char) : Nat := Nat.ofDigitChars 10 digits 0

/-- A decimal number without sign: digits on one side of the point at least. -/
def parseUnsigned (text : List Char) : Option ℚ :=
  let whole := text.takeWhile Char.isDigit
  match text.dropWhile Char.isDigit with
  | [] => if whole = [] then none else some (digitsValue whole)
  | '.' :: fraction =>
    if fraction.all Char.isDigit ∧ ¬(whole = [] ∧ fraction = []) then
      some (digitsValue (whole ++ fraction) / 10 ^ fraction.length)
    else none
  | _ => none

/-- `parse::<f64>` of digits, points and signs. -/
def parseF64 : List Char → Option ℚ
  | '-' :: rest => (parseUnsigned rest).map fun value => -value
  | '+' :: rest => parseUnsigned rest
  | text => parseUnsigned text

/-- The conversion of an `f64` to an `i64`. -/
def asI64 (value : ℚ) : Int :=
  max i64Min (min i64Max (if 0 ≤ value then ⌊value⌋ else ⌈value⌉))

/-- The conversion of an `f64` to a `u64`. -/
def asU64 (value : ℚ) : Nat := min (u64Size - 1) ⌊value⌋.toNat

/-- A character of a number. -/
def isNumberChar (letter : Char) : Bool :=
  letter.isDigit || letter == '.' || letter == '-' || letter == '+'

/-- The text by which `extract_number_field` searches for a key. -/
def searchKey (key : String) : List Char := '"' :: (key.toList ++ ['"', ':'])

/-- `extract_number_field`; the characters of a number leave nothing to trim. -/
def extractNumberField (json : List Char) (key : String) : Except ParseError ℚ :=
  match Substring.after (searchKey key) json with
  | some remaining =>
    match parseF64 (remaining.takeWhile isNumberChar) with
    | some value => .ok value
    | none => .error .numberParseError
  | none => .error (.fieldNotFound key)

def containsField (json pattern : List Char) : Bool := (Substring.after pattern json).isSome

/-- The part of `extract_tick_fields` after the decoding of the text. -/
def readTickFields (json : List Char) : Except ParseError TickFields := do
  let price ← extractNumberField json "p"
  let quantity ← extractNumberField json "q"
  let timestamp ← extractNumberField json "T"
  let side := if containsField json "\"m\":true".toList then Side.buy else Side.sell
  let tradeId ← extractNumberField json "t"
  return {
    timestampNs := asI64 (timestamp * 1000000)
    price := asU64 (price * 10 ^ 8)
    quantity := asU64 (quantity * 10 ^ 8)
    side := side
    tradeId := asU64 tradeId }

def extractTickFields (jsonBuffer : List UInt8) : Except ParseError TickFields :=
  match fromUtf8 jsonBuffer with
  | some json => readTickFields json
  | none => .error .invalidUtf8

def buildFlatbuffer (tick : TickFields) : List UInt8 :=
  List.replicate 8 0 ++ Bytes.toSignedLE 8 tick.timestampNs ++ Bytes.toLE 8 tick.price ++
    Bytes.toLE 8 tick.quantity ++ [tick.side.byte, 2, tick.side.byte, 0] ++
      Bytes.toLE 8 tick.tradeId

namespace ZeroCopyTickParser

def new : ZeroCopyTickParser := ⟨0, 0, u64Size - 1, 0⟩

/-- `parse_tick` of a message that takes so long. -/
def parseTick (parser : ZeroCopyTickParser) (jsonMessage : List UInt8) (elapsed : Nat) :
    Except ParseError (List UInt8) × ZeroCopyTickParser :=
  match extractTickFields jsonMessage with
  | .error error => (.error error, parser)
  | .ok tickData =>
    (.ok (buildFlatbuffer tickData), {
      parseCount := parser.parseCount + 1
      totalParseTimeNs := parser.totalParseTimeNs + elapsed
      minParseTimeNs := min parser.minParseTimeNs elapsed
      maxParseTimeNs := max parser.maxParseTimeNs elapsed })

end ZeroCopyTickParser

/-- `BatchTickParser`. -/
structure BatchTickParser where
  parser : ZeroCopyTickParser
  maxBatchSize : Nat

namespace BatchTickParser

def new (maxBatchSize : Nat) : BatchTickParser := ⟨.new, maxBatchSize⟩

/-- The loop of `parse_batch` over messages and the time each takes, with what it has written. -/
def parseAll (parser : ZeroCopyTickParser) (batchBuffer : List UInt8) :
    List (List UInt8 × Nat) → Except ParseError (List UInt8) × ZeroCopyTickParser
  | [] => (.ok batchBuffer, parser)
  | (message, elapsed) :: rest =>
    match parser.parseTick message elapsed with
    | (.error error, parser) => (.error error, parser)
    | (.ok tickBytes, parser) => parseAll parser (batchBuffer ++ tickBytes) rest

def parseBatch (batch : BatchTickParser) (messages : List (List UInt8 × Nat)) :
    Except ParseError (List UInt8) × BatchTickParser :=
  if batch.maxBatchSize < messages.length then (.error .bufferOverflow, batch)
  else
    let parsed := parseAll batch.parser [] messages
    (parsed.1, { batch with parser := parsed.2 })

end BatchTickParser

end TradingBot.Protocols
