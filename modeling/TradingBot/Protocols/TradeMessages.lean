import Mathlib.Data.List.TakeWhile
import TradingBot.Foundation.Text
import TradingBot.Protocols.ZeroCopyParser

/-!
# Trade messages and what the parser makes of them

A trade message is a flat JSON object with ten keys in any order. The first occurrence of a quoted
key and a colon is the key itself, whatever the strings of the message hold. The exchange writes
the price and the quantity as strings, at whose quotation mark the number ends before it begins,
so that no such message is parsed; and a message with bare numbers has its side the wrong way
round.
-/

namespace TradingBot.Protocols

/-! ## Messages -/

/-- The keys of a trade message. -/
inductive TradeKey where
  | eventType
  | eventTime
  | symbol
  | tradeId
  | price
  | quantity
  | buyerOrderId
  | sellerOrderId
  | tradeTime
  | buyerIsMaker
  deriving DecidableEq, Repr

namespace TradeKey

/-- The name of a key. -/
def letter : TradeKey → Char
  | eventType => 'e'
  | eventTime => 'E'
  | symbol => 's'
  | tradeId => 't'
  | price => 'p'
  | quantity => 'q'
  | buyerOrderId => 'b'
  | sellerOrderId => 'a'
  | tradeTime => 'T'
  | buyerIsMaker => 'm'

/-- All keys, in the order of the exchange. -/
def all : List TradeKey :=
  [eventType, eventTime, symbol, tradeId, price, quantity, buyerOrderId, sellerOrderId, tradeTime,
    buyerIsMaker]

theorem letter_injective : Function.Injective letter := by
  intro first second same
  cases first <;> cases second <;> first | rfl | exact absurd same (by decide)

theorem letter_apart (key : TradeKey) : key.letter ≠ '"' ∧ key.letter ≠ '\\' ∧
    key.letter ≠ ':' ∧ key.letter ≠ ',' ∧ key.letter ≠ '}' := by
  cases key <;> decide

end TradeKey

/-- A character of a JSON string as it is written. -/
inductive StringPart where
  /-- A character that stands for itself. -/
  | plain (letter : Char) (proper : letter ≠ '"' ∧ letter ≠ '\\' ∧ ' ' ≤ letter)
  | escape (letter : Char) (proper : letter ∈ ['"', '\\', '/', 'b', 'f', 'n', 'r', 't'])
  /-- A code point as four hexadecimal digits. -/
  | unicode (first second third fourth : Fin 16)

/-- The text of a part of a string. -/
def StringPart.text : StringPart → List Char
  | plain letter _ => [letter]
  | escape letter _ => ['\\', letter]
  | unicode first second third fourth =>
    ['\\', 'u', Nat.digitChar first, Nat.digitChar second, Nat.digitChar third,
      Nat.digitChar fourth]

/-- The text of the inside of a string. -/
def contentText (parts : List StringPart) : List Char := parts.flatMap StringPart.text

/-- The text of a string, in its quotation marks. -/
def stringText (parts : List StringPart) : List Char := '"' :: (contentText parts ++ ['"'])

/-- Decimal digits as they are written. -/
def digitsText (digits : List (Fin 10)) : List Char :=
  digits.map fun (digit : Fin 10) => Nat.digitChar digit

/-- A decimal digit as a part of a string. -/
def digitPart (digit : Fin 10) : StringPart :=
  .plain (Nat.digitChar digit) ((by decide : ∀ digit : Fin 10, Nat.digitChar digit ≠ '"' ∧
    Nat.digitChar digit ≠ '\\' ∧ ' ' ≤ Nat.digitChar digit) digit)

/-- A non-negative decimal number with at most 8 digits after the point. -/
structure Decimal where
  whole : List (Fin 10)
  fraction : List (Fin 10)
  /-- There is a digit before the point. -/
  begun : whole ≠ []
  short : fraction.length ≤ 8

namespace Decimal

/-- A decimal number as it is written. -/
def parts (number : Decimal) : List StringPart :=
  number.whole.map digitPart ++
    if number.fraction = [] then []
    else .plain '.' (by decide) :: number.fraction.map digitPart

/-- A decimal number times `10 ^ 8`. -/
def scaled (number : Decimal) : Nat :=
  digitsValue (digitsText number.whole ++ digitsText number.fraction) *
    10 ^ (8 - number.fraction.length)

end Decimal

/-- The text of an integer. -/
def intText : Int → List Char
  | .ofNat number => Nat.toDigits 10 number
  | .negSucc number => '-' :: Nat.toDigits 10 (number + 1)

/-- The text of a truth value. -/
def flagText : Bool → List Char
  | true => "true".toList
  | false => "false".toList

/-- A trade message: its keys in any order, with values of their kinds. -/
structure TradeMessage where
  order : List TradeKey
  /-- Every key is there once. -/
  complete : order.Perm TradeKey.all
  eventType : List StringPart
  eventTime : Int
  symbol : List StringPart
  tradeId : Nat
  price : Decimal
  quantity : Decimal
  buyerOrderId : Int
  sellerOrderId : Int
  tradeTime : Nat
  buyerIsMaker : Bool
  /-- The price and the quantity are written as strings, as the exchange does. -/
  quoted : Bool

namespace TradeMessage

/-- The text of a decimal number of a message. -/
def decimalText (message : TradeMessage) (number : Decimal) : List Char :=
  if message.quoted then stringText number.parts else contentText number.parts

/-- The text of the value of a key. -/
def valueText (message : TradeMessage) : TradeKey → List Char
  | .eventType => stringText message.eventType
  | .eventTime => intText message.eventTime
  | .symbol => stringText message.symbol
  | .tradeId => Nat.toDigits 10 message.tradeId
  | .price => message.decimalText message.price
  | .quantity => message.decimalText message.quantity
  | .buyerOrderId => intText message.buyerOrderId
  | .sellerOrderId => intText message.sellerOrderId
  | .tradeTime => Nat.toDigits 10 message.tradeTime
  | .buyerIsMaker => flagText message.buyerIsMaker

/-- The text of a key with its value. -/
def fieldText (message : TradeMessage) (key : TradeKey) : List Char :=
  '"' :: key.letter :: '"' :: ':' :: message.valueText key

/-- The text of the keys from one on, to the closing brace. -/
def fieldsText (message : TradeMessage) : List TradeKey → List Char
  | [] => ['}']
  | [key] => message.fieldText key ++ ['}']
  | key :: rest => message.fieldText key ++ ',' :: message.fieldsText rest

/-- The text of a message. -/
def text (message : TradeMessage) : List Char := '{' :: message.fieldsText message.order

/-- The bytes of a message. -/
def bytes (message : TradeMessage) : List UInt8 := Text.asBytes (String.ofList message.text)

end TradeMessage

/-! ## The search for a key -/

section Search

variable {key : TradeKey} {value : List Char}

/-- The text of a key with the beginning of its value. -/
def pattern (key : TradeKey) (value : List Char) : List Char :=
  '"' :: key.letter :: '"' :: ':' :: value

theorem searchKey_letter (key : TradeKey) :
    searchKey (String.ofList [key.letter]) = pattern key [] := by
  cases key <;> decide

/-- A search passes over what does not open the pattern. -/
theorem after_other {head : Char} (other : head ≠ '"') (rest : List Char) :
    Substring.after (pattern key value) (head :: rest) =
      Substring.after (pattern key value) rest :=
  Substring.after_cons fun begins => other (List.cons_prefix_cons.mp begins).1.symm

theorem after_quote {rest : List Char} (other : ¬key.letter :: '"' :: ':' :: value <+: rest) :
    Substring.after (pattern key value) ('"' :: rest) =
      Substring.after (pattern key value) rest :=
  Substring.after_cons fun begins => other (List.cons_prefix_cons.mp begins).2

theorem text_cons (part : StringPart) :
    ∃ head tail, part.text = head :: tail ∧ head ≠ '"' ∧ (tail = [] ∨ head = '\\') := by
  cases part with
  | plain letter proper => exact ⟨letter, [], rfl, proper.1, .inl rfl⟩
  | escape letter proper => exact ⟨'\\', [letter], rfl, by decide, .inr rfl⟩
  | unicode first second third fourth => exact ⟨'\\', _, rfl, by decide, .inr rfl⟩

theorem content_not_end (parts : List StringPart) {next : Char} (apart : next ≠ ':')
    (rest : List Char) : ¬ '"' :: ':' :: value <+: contentText parts ++ '"' :: next :: rest := by
  intro begins
  cases parts with
  | nil =>
    have second := (List.cons_prefix_cons.mp begins).2
    exact apart (List.cons_prefix_cons.mp second).1.symm
  | cons part others =>
    obtain ⟨head, tail, text, other, -⟩ := text_cons part
    rw [contentText, List.flatMap_cons, text] at begins
    exact other (List.cons_prefix_cons.mp begins).1.symm

theorem content_not_name (parts : List StringPart) {next : Char} (apart : next ≠ ':')
    (rest : List Char) :
    ¬key.letter :: '"' :: ':' :: value <+: contentText parts ++ '"' :: next :: rest := by
  intro begins
  have proper := key.letter_apart
  cases parts with
  | nil => exact proper.1 (List.cons_prefix_cons.mp begins).1
  | cons part others =>
    obtain ⟨head, tail, text, -, single⟩ := text_cons part
    rw [contentText, List.flatMap_cons, text] at begins
    obtain ⟨same, later⟩ := List.cons_prefix_cons.mp begins
    cases single with
    | inl nothing =>
      rw [nothing] at later
      exact content_not_end others apart rest later
    | inr backslash => exact proper.2.1 (same.trans backslash)

/-- What follows a value. -/
def closes (next : Char) : Prop := next = ',' ∨ next = '}'

theorem closes_apart {next : Char} (closing : closes next) (key : TradeKey) :
    next ≠ ':' ∧ next ≠ '"' ∧ key.letter ≠ next := by
  have proper := key.letter_apart
  cases closing with
  | inl comma => rw [comma]; exact ⟨by decide, by decide, proper.2.2.2.1⟩
  | inr brace => rw [brace]; exact ⟨by decide, by decide, proper.2.2.2.2⟩

theorem after_content (parts : List StringPart) {next : Char} (closing : closes next)
    (rest : List Char) :
    Substring.after (pattern key value) (contentText parts ++ '"' :: next :: rest) =
      Substring.after (pattern key value) (next :: rest) := by
  have apart := closes_apart closing key
  induction parts with
  | nil => exact after_quote fun begins => apart.2.2 (List.cons_prefix_cons.mp begins).1
  | cons part others ih =>
    rw [contentText, List.flatMap_cons, List.append_assoc]
    rw [contentText] at ih
    cases part with
    | plain letter proper => exact (after_other proper.1 _).trans ih
    | escape letter proper =>
      refine (after_other (by decide) _).trans (Eq.trans ?_ ih)
      by_cases quote : letter = '"'
      · rw [quote]
        exact after_quote (content_not_name others apart.1 rest)
      · exact after_other quote _
    | unicode first second third fourth =>
      have digits : ∀ digit : Fin 16, Nat.digitChar digit ≠ '"' := by decide
      refine (Substring.after_append ?_ _).trans ih
      simp [StringPart.text, (digits _).symm]

theorem after_string (parts : List StringPart) {next : Char} (closing : closes next)
    (rest : List Char) :
    Substring.after (pattern key value) (stringText parts ++ next :: rest) =
      Substring.after (pattern key value) (next :: rest) := by
  have apart := (closes_apart closing key).1
  rw [stringText, List.cons_append, List.append_assoc]
  exact (after_quote (content_not_name parts apart rest)).trans (after_content parts closing rest)

theorem quote_notMem_toDigits (number : Nat) : '"' ∉ Nat.toDigits 10 number := by
  intro member
  exact absurd (Nat.isDigit_of_mem_toDigits (by decide) (by decide) member) (by decide)

theorem quote_notMem_intText (number : Int) : '"' ∉ intText number := by
  cases number with
  | ofNat number => exact quote_notMem_toDigits number
  | negSucc number =>
    exact List.not_mem_cons_of_ne_of_not_mem (by decide) (quote_notMem_toDigits (number + 1))

theorem quote_notMem_flagText (flag : Bool) : '"' ∉ flagText flag := by
  cases flag <;> decide

theorem quote_notMem_decimal (number : Decimal) : '"' ∉ contentText number.parts := by
  have digits : ∀ digit : Fin 10, '"' ≠ Nat.digitChar digit := by decide
  unfold contentText Decimal.parts
  split <;> simp [List.mem_flatMap, StringPart.text, digitPart, digits]

theorem after_valueText (message : TradeMessage) (other : TradeKey) {next : Char}
    (closing : closes next) (rest : List Char) :
    Substring.after (pattern key value) (message.valueText other ++ next :: rest) =
      Substring.after (pattern key value) (next :: rest) := by
  have decimal : ∀ number, Substring.after (pattern key value)
      (message.decimalText number ++ next :: rest) =
        Substring.after (pattern key value) (next :: rest) := by
    intro number
    unfold TradeMessage.decimalText
    split
    · exact after_string number.parts closing rest
    · exact Substring.after_append (quote_notMem_decimal number) _
  cases other with
  | eventType => exact after_string _ closing rest
  | eventTime => exact Substring.after_append (quote_notMem_intText _) _
  | symbol => exact after_string _ closing rest
  | tradeId => exact Substring.after_append (quote_notMem_toDigits _) _
  | price => exact decimal message.price
  | quantity => exact decimal message.quantity
  | buyerOrderId => exact Substring.after_append (quote_notMem_intText _) _
  | sellerOrderId => exact Substring.after_append (quote_notMem_intText _) _
  | tradeTime => exact Substring.after_append (quote_notMem_toDigits _) _
  | buyerIsMaker => exact Substring.after_append (quote_notMem_flagText _) _

theorem after_fieldText (message : TradeMessage) (other : TradeKey) {next : Char}
    (closing : closes next) (rest : List Char)
    (apart : other = key → ¬value <+: message.valueText other ++ next :: rest) :
    Substring.after (pattern key value) (message.fieldText other ++ next :: rest) =
      Substring.after (pattern key value) (next :: rest) := by
  have proper := key.letter_apart
  unfold TradeMessage.fieldText
  simp only [List.cons_append]
  rw [after_quote, after_other other.letter_apart.1, after_quote, after_other (by decide)]
  · exact after_valueText message other closing rest
  · exact fun begins => proper.2.2.1 (List.cons_prefix_cons.mp begins).1
  · intro begins
    obtain ⟨same, later⟩ := List.cons_prefix_cons.mp begins
    have inside := (List.cons_prefix_cons.mp (List.cons_prefix_cons.mp later).2).2
    exact apart (TradeKey.letter_injective same).symm inside

theorem after_fieldText_here (message : TradeMessage) {left : List Char} (rest : List Char)
    (begins : message.valueText key = value ++ left) :
    Substring.after (pattern key value) (message.fieldText key ++ rest) = some (left ++ rest) := by
  have whole : message.fieldText key ++ rest = pattern key value ++ (left ++ rest) := by
    unfold TradeMessage.fieldText pattern
    rw [begins]
    simp
  rw [whole]
  exact Substring.after_here (List.cons_ne_nil _ _) _

theorem fieldsText_cons (message : TradeMessage) (first : TradeKey) (rest : List TradeKey) :
    ∃ next tail, message.fieldsText (first :: rest) =
        message.fieldText first ++ next :: tail ∧ closes next ∧
      Substring.after (pattern key value) (next :: tail) =
        Substring.after (pattern key value) (message.fieldsText rest) := by
  cases rest with
  | nil => exact ⟨'}', [], rfl, .inr rfl, rfl⟩
  | cons second others =>
    exact ⟨',', message.fieldsText (second :: others), rfl, .inl rfl,
      after_other (by decide) _⟩

theorem after_fieldsText (message : TradeMessage) {left : List Char}
    (begins : message.valueText key = value ++ left) {order : List TradeKey}
    (member : key ∈ order) :
    ∃ next tail, closes next ∧ Substring.after (pattern key value) (message.fieldsText order) =
      some (left ++ next :: tail) := by
  induction order with
  | nil => exact absurd member List.not_mem_nil
  | cons first rest ih =>
    obtain ⟨next, tail, text, closing, onward⟩ := @fieldsText_cons key value message first rest
    rw [text]
    by_cases here : first = key
    · rw [here]
      exact ⟨next, tail, closing, after_fieldText_here message _ begins⟩
    · have later := (List.mem_cons.mp member).resolve_left (Ne.symm here)
      rw [after_fieldText message first closing tail fun same => absurd same here, onward]
      exact ih later

theorem after_fieldsText_none (message : TradeMessage)
    (otherwise_ : ∀ rest, ¬value <+: message.valueText key ++ rest) (order : List TradeKey) :
    Substring.after (pattern key value) (message.fieldsText order) = none := by
  induction order with
  | nil =>
    refine (after_other (by decide) _).trans ?_
    rfl
  | cons first rest ih =>
    obtain ⟨next, tail, text, closing, onward⟩ := @fieldsText_cons key value message first rest
    rw [text, after_fieldText message first closing tail fun same => same ▸ otherwise_ _, onward]
    exact ih

end Search

/-! ## What the parser reads -/

theorem takeWhile_value {text : List Char} (numeric : ∀ letter ∈ text, isNumberChar letter = true)
    {next : Char} (closing : closes next) (rest : List Char) :
    (text ++ next :: rest).takeWhile isNumberChar = text := by
  have other : isNumberChar next = false := by
    cases closing with
    | inl comma => rw [comma]; decide
    | inr brace => rw [brace]; decide
  rw [List.takeWhile_append_of_pos numeric, List.takeWhile_cons_of_neg (by rw [other]; decide),
    List.append_nil]

theorem isDigit_of_mem_digitsText {digits : List (Fin 10)} {letter : Char}
    (member : letter ∈ digitsText digits) : letter.isDigit = true := by
  obtain ⟨digit, -, same⟩ := List.mem_map.mp member
  rw [← same]
  exact (by decide : ∀ digit : Fin 10, (Nat.digitChar digit).isDigit = true) digit

theorem contentText_parts (number : Decimal) :
    contentText number.parts = digitsText number.whole ++
      if number.fraction = [] then [] else '.' :: digitsText number.fraction := by
  have digits : ∀ digits : List (Fin 10),
      (digits.map digitPart).flatMap StringPart.text = digitsText digits := by
    intro digits
    induction digits with
    | nil => rfl
    | cons digit rest ih =>
      rw [List.map_cons, List.flatMap_cons, ih]
      rfl
  unfold contentText Decimal.parts
  rw [List.flatMap_append, digits]
  split
  · rfl
  · rw [List.flatMap_cons, digits]
    rfl

/-- The value of a decimal number. -/
def Decimal.value (number : Decimal) : ℚ :=
  digitsValue (digitsText number.whole ++ digitsText number.fraction) /
    10 ^ number.fraction.length

theorem parseF64_unsigned {text : List Char} {first : Char} (digit : first.isDigit = true) :
    parseF64 (first :: text) = parseUnsigned (first :: text) := by
  unfold parseF64
  split
  · next rest same => exact absurd ((List.cons.inj same).1 ▸ digit) (by decide)
  · next rest same => exact absurd ((List.cons.inj same).1 ▸ digit) (by decide)
  · rfl

theorem parseF64_decimal (number : Decimal) :
    parseF64 (contentText number.parts) = some number.value := by
  have wholeDigits : ∀ letter ∈ digitsText number.whole, letter.isDigit = true :=
    fun _ member => isDigit_of_mem_digitsText member
  have unsigned : parseUnsigned (contentText number.parts) = some number.value := by
    have begun : digitsText number.whole ≠ [] := mt List.map_eq_nil_iff.mp number.begun
    rw [contentText_parts]
    unfold parseUnsigned Decimal.value
    split
    · next bare =>
      have empty : digitsText [] = [] := rfl
      rw [List.append_nil, List.takeWhile_eq_self_iff.mpr wholeDigits,
        List.dropWhile_eq_nil_iff.mpr wholeDigits, bare, empty]
      simp only [if_neg begun, List.append_nil, List.length_nil, pow_zero, div_one]
    · next some_ =>
      have stop : Char.isDigit '.' = false := by decide
      rw [List.takeWhile_append_of_pos wholeDigits, List.dropWhile_append_of_pos wholeDigits,
        List.takeWhile_cons_of_neg (by rw [stop]; decide), List.append_nil,
        List.dropWhile_cons_of_neg (by rw [stop]; decide)]
      have all : (digitsText number.fraction).all Char.isDigit = true :=
        List.all_eq_true.mpr fun _ member => isDigit_of_mem_digitsText member
      simp only [all, begun, false_and, not_false_eq_true, and_self, if_true]
      have length : (digitsText number.fraction).length = number.fraction.length :=
        List.length_map _
      rw [length]
  cases first : number.whole with
  | nil => exact absurd first number.begun
  | cons digit rest =>
    have begins : contentText number.parts = Nat.digitChar digit :: (digitsText rest ++
        if number.fraction = [] then [] else '.' :: digitsText number.fraction) := by
      rw [contentText_parts, first]
      rfl
    rw [← unsigned, begins]
    exact parseF64_unsigned (wholeDigits _ (by rw [first]; exact List.mem_cons_self))

theorem value_scaled (number : Decimal) : number.value * 10 ^ 8 = (number.scaled : ℚ) := by
  have split : (10 : ℚ) ^ 8 = 10 ^ number.fraction.length * 10 ^ (8 - number.fraction.length) := by
    rw [← pow_add, Nat.add_sub_cancel' number.short]
  unfold Decimal.value Decimal.scaled
  rw [split]
  push_cast
  field_simp

theorem asU64_natCast (number : Nat) : asU64 number = min (MachineInt.u64Size - 1) number := by
  unfold asU64
  rw [Int.floor_natCast, Int.toNat_natCast]

theorem parseF64_toDigits (number : Nat) :
    parseF64 (Nat.toDigits 10 number) = some (number : ℚ) := by
  have digits : ∀ letter ∈ Nat.toDigits 10 number, letter.isDigit = true := fun letter member =>
    Nat.isDigit_of_mem_toDigits (by decide) (by decide) member
  have unsigned : parseUnsigned (Nat.toDigits 10 number) = some (number : ℚ) := by
    unfold parseUnsigned
    rw [List.takeWhile_eq_self_iff.mpr digits, List.dropWhile_eq_nil_iff.mpr digits]
    simp only [if_neg Nat.toDigits_ne_nil, digitsValue, Nat.ofDigitChars_ten_toDigits]
  unfold parseF64
  split
  · next rest text => exact absurd (digits '-' (text ▸ List.mem_cons_self)) (by decide)
  · next rest text => exact absurd (digits '+' (text ▸ List.mem_cons_self)) (by decide)
  · exact unsigned

section Reading

variable (message : TradeMessage) (key : TradeKey)

theorem fromUtf8_bytes : fromUtf8 message.bytes = some message.text := by
  unfold fromUtf8 TradeMessage.bytes Text.asBytes
  rw [Array.toArray_toList]
  show (String.fromUTF8? (String.ofList message.text).toUTF8).map String.toList = _
  unfold String.fromUTF8?
  have valid : (String.ofList message.text).toUTF8.IsValidUTF8 :=
    (String.ofList message.text).isValidUTF8
  rw [dif_pos valid, Option.map_some]
  exact congrArg some String.toList_ofList

theorem extractNumberField_key : ∃ next tail, closes next ∧
    extractNumberField message.text (String.ofList [key.letter]) =
      match parseF64 ((message.valueText key ++ next :: tail).takeWhile isNumberChar) with
      | some value => .ok value
      | none => .error .numberParseError := by
  have member : key ∈ message.order := message.complete.mem_iff.mpr (by cases key <;> decide)
  obtain ⟨next, tail, closing, found⟩ := @after_fieldsText key [] message
    (message.valueText key) rfl message.order member
  refine ⟨next, tail, closing, ?_⟩
  have searched : Substring.after (searchKey (String.ofList [key.letter])) message.text =
      some (message.valueText key ++ next :: tail) := by
    rw [TradeMessage.text, searchKey_letter, after_other (by decide), found]
  cases parsed : parseF64 ((message.valueText key ++ next :: tail).takeWhile isNumberChar) with
  | none => simp only [extractNumberField, searched, parsed]
  | some value => simp only [extractNumberField, searched, parsed]

theorem extractNumberField_string {parts : List StringPart}
    (string : message.valueText key = stringText parts) :
    extractNumberField message.text (String.ofList [key.letter]) =
      .error .numberParseError := by
  obtain ⟨next, tail, -, read⟩ := extractNumberField_key message key
  rw [read, string, stringText]
  rfl

theorem extractNumberField_numeric {number : ℚ}
    (numeric : ∀ letter ∈ message.valueText key, isNumberChar letter = true)
    (parsed : parseF64 (message.valueText key) = some number) :
    extractNumberField message.text (String.ofList [key.letter]) = .ok number := by
  obtain ⟨next, tail, closing, read⟩ := extractNumberField_key message key
  rw [read, takeWhile_value numeric closing, parsed]

theorem extractNumberField_decimal {number : Decimal}
    (bare : message.valueText key = contentText number.parts) :
    extractNumberField message.text (String.ofList [key.letter]) = .ok number.value := by
  refine extractNumberField_numeric message key (fun letter member => ?_)
    (bare ▸ parseF64_decimal number)
  rw [bare, contentText_parts, List.mem_append] at member
  have digit : ∀ digits, letter ∈ digitsText digits → isNumberChar letter = true := by
    intro digits inside
    unfold isNumberChar
    rw [isDigit_of_mem_digitsText inside]
    rfl
  cases member with
  | inl whole => exact digit _ whole
  | inr later =>
    split at later
    · exact absurd later List.not_mem_nil
    · cases List.mem_cons.mp later with
      | inl point => rw [point]; decide
      | inr fraction => exact digit _ fraction

theorem extractNumberField_natural {number : Nat}
    (natural : message.valueText key = Nat.toDigits 10 number) :
    extractNumberField message.text (String.ofList [key.letter]) = .ok (number : ℚ) := by
  refine extractNumberField_numeric message key (fun letter member => ?_)
    (natural ▸ parseF64_toDigits number)
  rw [natural] at member
  unfold isNumberChar
  rw [Nat.isDigit_of_mem_toDigits (by decide) (by decide) member]
  rfl

theorem containsField_buyerIsMaker :
    containsField message.text "\"m\":true".toList = message.buyerIsMaker := by
  have text : "\"m\":true".toList = pattern .buyerIsMaker "true".toList := by decide
  have brace : Substring.after (pattern .buyerIsMaker "true".toList) message.text =
      Substring.after (pattern .buyerIsMaker "true".toList)
        (message.fieldsText message.order) := after_other (by decide) _
  have member : TradeKey.buyerIsMaker ∈ message.order :=
    message.complete.mem_iff.mpr (by decide)
  unfold containsField
  rw [text, brace]
  cases flag : message.buyerIsMaker with
  | false =>
    rw [after_fieldsText_none message fun rest begins => ?_]
    · rfl
    · have shown : message.valueText .buyerIsMaker = flagText false :=
        congrArg flagText flag
      rw [shown] at begins
      exact absurd (List.cons_prefix_cons.mp begins).1 (by decide)
  | true =>
    obtain ⟨next, tail, -, found⟩ := @after_fieldsText .buyerIsMaker "true".toList message []
      (congrArg flagText flag) message.order member
    rw [found]
    rfl

theorem extractTickFields_quoted (quoted : message.quoted = true) :
    extractTickFields message.bytes = .error .numberParseError := by
  have price : message.valueText .price = stringText message.price.parts := if_pos quoted
  have refused : extractNumberField message.text "p" = .error .numberParseError :=
    extractNumberField_string message .price price
  unfold extractTickFields
  rw [fromUtf8_bytes]
  simp only [readTickFields, refused]
  rfl

theorem extractTickFields_bare (bare : message.quoted = false) :
    extractTickFields message.bytes = .ok {
      timestampNs := asI64 (message.tradeTime * 1000000)
      price := min (MachineInt.u64Size - 1) message.price.scaled
      quantity := min (MachineInt.u64Size - 1) message.quantity.scaled
      side := if message.buyerIsMaker then .buy else .sell
      tradeId := min (MachineInt.u64Size - 1) message.tradeId } := by
  have decimal : ∀ number, message.decimalText number = contentText number.parts :=
    fun number => if_neg (by rw [bare]; exact Bool.false_ne_true)
  have price : extractNumberField message.text "p" = .ok message.price.value :=
    extractNumberField_decimal message .price (decimal message.price)
  have quantity : extractNumberField message.text "q" = .ok message.quantity.value :=
    extractNumberField_decimal message .quantity (decimal message.quantity)
  have tradeTime : extractNumberField message.text "T" = .ok (message.tradeTime : ℚ) :=
    extractNumberField_natural message .tradeTime rfl
  have tradeId : extractNumberField message.text "t" = .ok (message.tradeId : ℚ) :=
    extractNumberField_natural message .tradeId rfl
  unfold extractTickFields
  rw [fromUtf8_bytes]
  simp only [readTickFields, price, quantity, tradeTime, tradeId, containsField_buyerIsMaker]
  rw [← asU64_natCast, ← asU64_natCast, ← asU64_natCast, ← value_scaled, ← value_scaled]
  rfl

end Reading

/-! ## Exact decoding -/

section Decoding

/-- The bytes of a tick say what a message says: the seller is the aggressor if the buyer is the
maker. -/
structure Encodes (message : TradeMessage) (bytes : List UInt8) : Prop where
  timestamp : Bytes.ofSignedLE ((bytes.drop 8).take 8) = message.tradeTime * 10 ^ 6
  price : Bytes.ofLE ((bytes.drop 16).take 8) = message.price.scaled
  quantity : Bytes.ofLE ((bytes.drop 24).take 8) = message.quantity.scaled
  aggressor : bytes[34]? = some (if message.buyerIsMaker then Side.sell else Side.buy).byte
  tradeId : Bytes.ofLE ((bytes.drop 36).take 8) = message.tradeId

/-- `parse_tick` decodes a message exactly. -/
def Decoded (parser : ZeroCopyTickParser) (message : TradeMessage) (elapsed : Nat) : Prop :=
  ∃ bytes, (parser.parseTick message.bytes elapsed).1 = .ok bytes ∧ Encodes message bytes

theorem buildFlatbuffer_aggressor (tick : TickFields) :
    (buildFlatbuffer tick)[34]? = some tick.side.byte := by
  unfold buildFlatbuffer
  rw [List.getElem?_append_left (by simp), List.getElem?_append_right (by simp)]
  simp

theorem parseTick_side (parser : ZeroCopyTickParser) (message : TradeMessage) (elapsed : Nat)
    {bytes : List UInt8} (parsed : (parser.parseTick message.bytes elapsed).1 = .ok bytes) :
    bytes[34]? = some (if message.buyerIsMaker then Side.buy else Side.sell).byte := by
  unfold ZeroCopyTickParser.parseTick at parsed
  cases quoted : message.quoted with
  | true =>
    rw [extractTickFields_quoted message quoted] at parsed
    cases parsed
  | false =>
    rw [extractTickFields_bare message quoted] at parsed
    rw [← Except.ok.inj parsed]
    exact buildFlatbuffer_aggressor _

theorem parseTick_quoted (parser : ZeroCopyTickParser) (message : TradeMessage) (elapsed : Nat)
    (quoted : message.quoted = true) :
    parser.parseTick message.bytes elapsed = (.error .numberParseError, parser) := by
  unfold ZeroCopyTickParser.parseTick
  rw [extractTickFields_quoted message quoted]

theorem not_decoded (parser : ZeroCopyTickParser) (message : TradeMessage) (elapsed : Nat) :
    ¬Decoded parser message elapsed := by
  intro decoded
  obtain ⟨bytes, parsed, encodes⟩ := decoded
  have side := parseTick_side parser message elapsed parsed
  rw [encodes.aggressor] at side
  have same := Option.some.inj side
  cases flag : message.buyerIsMaker <;> rw [flag] at same <;> exact absurd same (by decide)

/-- A batch of messages is decoded exactly: each of them is, and the result is their bytes one
after another. -/
structure BatchDecoded (batch : BatchTickParser) (messages : List (TradeMessage × Nat)) : Prop where
  each : ∀ message ∈ messages, ∀ parser, Decoded parser message.1 message.2
  whole : ∃ ticks : List (List UInt8),
    List.Forall₂ (fun message tick =>
      (batch.parser.parseTick message.1.bytes message.2).1 = .ok tick) messages ticks ∧
    (batch.parseBatch (messages.map fun message => (message.1.bytes, message.2))).1 =
      .ok ticks.flatten

/-- No message is decoded exactly, and a batch only if it is empty. -/
theorem decoded_iff_empty (parser : ZeroCopyTickParser) (batch : BatchTickParser) :
    (∀ message elapsed, ¬Decoded parser message elapsed) ∧
      ∀ messages, BatchDecoded batch messages ↔ messages = [] := by
  refine ⟨not_decoded parser, fun messages => ⟨fun decoded => ?_, fun empty => ?_⟩⟩
  · apply List.eq_nil_iff_forall_not_mem.mpr
    intro message member
    exact not_decoded parser message.1 message.2 (decoded.each message member parser)
  · rw [empty]
    exact ⟨fun message member => absurd member List.not_mem_nil, [], .nil, rfl⟩

/-- The trade of the repository's own test. -/
def sample : TradeMessage where
  order := TradeKey.all
  complete := .refl _
  eventType := [.plain 't' (by decide), .plain 'r' (by decide), .plain 'a' (by decide),
    .plain 'd' (by decide), .plain 'e' (by decide)]
  eventTime := 1234567890
  symbol := [.plain 'B' (by decide), .plain 'T' (by decide), .plain 'C' (by decide),
    .plain 'U' (by decide), .plain 'S' (by decide), .plain 'D' (by decide), .plain 'T' (by decide)]
  tradeId := 100
  price := ⟨[5, 0, 0, 0, 0], [5, 0], by decide, by decide⟩
  quantity := ⟨[0], [0, 0, 1], by decide, by decide⟩
  buyerOrderId := 100
  sellerOrderId := 101
  tradeTime := 1234567890123
  buyerIsMaker := true
  quoted := true

example : String.ofList sample.text =
    "\x7b\"e\":\"trade\",\"E\":1234567890,\"s\":\"BTCUSDT\",\"t\":100,\"p\":\"50000.50\"" ++
      ",\"q\":\"0.001\",\"b\":100,\"a\":101,\"T\":1234567890123,\"m\":true\x7d" := by decide +kernel

/-- The trade of the repository's own test is refused. -/
theorem sample_refused : ¬Decoded .new sample 0 := by
  intro decoded
  obtain ⟨bytes, parsed, -⟩ := decoded
  rw [parseTick_quoted .new sample 0 rfl] at parsed
  cases parsed

end Decoding

end TradingBot.Protocols
