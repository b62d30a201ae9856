import TradingBot.Persistence.StateSerializer

/-!
# Round trips of trading states

The dictionary of a state gives the state back, and the bytes of a state are in the documented
form, with a header that unpacks to its version, flag, timestamp and length. The reader takes 17
bytes for that header, one fewer than the format has, and raises on everything that begins with
the magic bytes and is long enough for them.
-/

open PackedFormat

namespace TradingBot.Persistence.StateRoundTrip

open StateSerializer

variable {φ : Type}

/-! ## The documented form -/

/-- Bytes begin with the header, the payload and the checksum of the documented form. -/
def Documented (encoding : Encoding φ) (data : List UInt8) : Prop :=
  ∃ header timestamp payload rest flags,
    header = magicBytes ++ Bytes.toLE 1 formatVersion ++ Bytes.toLE 1 flags ++ timestamp ++
      Bytes.toLE 4 payload.length ∧
    timestamp.length = 8 ∧ flags < 256 ∧ payload.length < 2 ^ 32 ∧
    data = header ++ payload ++
      Bytes.toLE 4 (encoding.crc32 (header ++ payload) % 2 ^ 32) ++ rest

/-- The header of a state with a payload of a given length. -/
def header (timestamp : UInt64) (length : Nat) : List UInt8 :=
  magicBytes ++ Bytes.toLE 1 formatVersion ++ Bytes.toLE 1 1 ++ Bytes.toLE 8 timestamp.toNat ++
    Bytes.toLE 4 length

theorem header_length (timestamp : UInt64) (length : Nat) :
    (header timestamp length).length = calcsize headerFormat := by
  simp [header, magicBytes, calcsize, headerFormat, Field.size]

theorem pack_header (timestamp : UInt64) (length : Nat) :
    pack headerFormat [.bytes magicBytes, .unsigned formatVersion, .unsigned 1,
        .double timestamp, .unsigned length] =
      if length < 2 ^ 32 then .ok (header timestamp length)
      else .error "format requires 0 <= number <= 4294967295" := by
  have magic : packField (.bytes 4) (.bytes magicBytes) = .ok magicBytes := rfl
  have version : packField (.unsigned 1) (.unsigned formatVersion) =
    .ok (Bytes.toLE 1 formatVersion) := rfl
  have flag : packField (.unsigned 1) (.unsigned 1) = .ok (Bytes.toLE 1 1) := rfl
  have time : packField .double (.double timestamp) = .ok (Bytes.toLE 8 timestamp.toNat) := rfl
  by_cases fits : length < 2 ^ 32
  · have last : packField (.unsigned 4) (.unsigned length) = .ok (Bytes.toLE 4 length) :=
      if_pos (show length < 256 ^ 4 by omega)
    simp only [if_pos fits, headerFormat, pack, magic, version, flag, time, last, bind,
      Except.bind, header, List.append_nil, List.append_assoc]
  · have last : packField (.unsigned 4) (.unsigned length) =
        .error "format requires 0 <= number <= 4294967295" :=
      if_neg (show ¬ length < 256 ^ 4 by omega)
    simp only [if_neg fits, headerFormat, pack, magic, version, flag, time, last, bind,
      Except.bind]

variable {encoding : Encoding φ} {state : TradingState φ} {data : List UInt8}

section

variable (serialized : serializeBinary encoding state = .ok data)
include serialized

/-- What the bytes of a state are made of. -/
theorem serializeBinary_cases :
    ∃ timestamp payload, asDouble encoding state.timestamp = .ok timestamp ∧
      payload = encoding.compress (encoding.dumps state.toDict) ∧ payload.length < 2 ^ 32 ∧
      data = header timestamp payload.length ++ payload ++
        Bytes.toLE 4 (encoding.crc32 (header timestamp payload.length ++ payload) % 2 ^ 32) := by
  unfold serializeBinary at serialized
  cases read : asDouble encoding state.timestamp with
  | error error => simp [read, bind, Except.bind] at serialized
  | ok timestamp =>
    simp only [read, bind, Except.bind, pack_header] at serialized
    by_cases fits : (encoding.compress (encoding.dumps state.toDict)).length < 2 ^ 32
    · rw [if_pos fits] at serialized
      have small : ∀ number, number % 2 ^ 32 < 256 ^ 4 := fun number =>
        Nat.mod_lt number (by decide)
      simp only [footerFormat, pack, packField, small, if_true, bind, Except.bind,
        Except.ok.injEq] at serialized
      refine ⟨timestamp, _, rfl, rfl, fits, ?_⟩
      rw [← serialized, List.append_nil]
    · rw [if_neg fits] at serialized
      cases serialized

theorem serializeBinary_documented : Documented encoding data := by
  obtain ⟨timestamp, payload, _, _, fits, rfl⟩ := serializeBinary_cases serialized
  exact ⟨header timestamp payload.length, Bytes.toLE 8 timestamp.toNat, payload, [], 1, rfl,
    Bytes.toLE_length 8 timestamp.toNat, by decide, fits, (List.append_nil _).symm⟩

theorem unpack_serialized : ∃ timestamp, asDouble encoding state.timestamp = .ok timestamp ∧
      unpack headerFormat (data.take 18) = .ok [.bytes magicBytes, .unsigned formatVersion,
        .unsigned 1, .double timestamp,
        .unsigned (encoding.compress (encoding.dumps state.toDict)).length] := by
  obtain ⟨timestamp, payload, read, rfl, fits, rfl⟩ := serializeBinary_cases serialized
  refine ⟨timestamp, read, ?_⟩
  generalize encoding.compress (encoding.dumps state.toDict) = payload at fits
  have taken : (header timestamp payload.length ++ payload ++ Bytes.toLE 4
      (encoding.crc32 (header timestamp payload.length ++ payload) % 2 ^ 32)).take 18 =
        header timestamp payload.length := by
    rw [List.append_assoc]
    exact List.take_left' (header_length timestamp payload.length)
  obtain ⟨bytes, packed, _, unpacked⟩ := @unpack_pack headerFormat
    [.bytes magicBytes, .unsigned formatVersion, .unsigned 1, .double timestamp,
      .unsigned payload.length]
    (.cons rfl (.cons (show formatVersion < 256 ^ 1 by decide)
      (.cons (show 1 < 256 ^ 1 by decide) (.cons trivial
        (.cons (show payload.length < 256 ^ 4 by omega) .nil)))))
  rw [pack_header, if_pos fits, Except.ok.injEq] at packed
  subst packed
  rw [taken, unpack, if_pos (header_length timestamp payload.length), unpacked]

end

/-! ## Reading -/

theorem deserializeBinary_raises (encoding : Encoding φ) (long : 21 ≤ data.length)
    (magic : data.take 4 = magicBytes) :
    deserializeBinary encoding data = .error "unpack requires a buffer of 18 bytes" := by
  have short : (data.take 17).length ≠ calcsize headerFormat := by
    rw [List.length_take, show calcsize headerFormat = 18 from rfl]
    omega
  unfold deserializeBinary
  rw [if_neg (by omega), if_neg (not_not.mpr magic), unpack_error short]
  rfl

theorem deserializeBinary_none (encoding : Encoding φ)
    (other : data.length < 21 ∨ data.take 4 ≠ magicBytes) :
    deserializeBinary encoding data = .ok none := by
  unfold deserializeBinary
  split
  · rfl
  · rename_i long
    exact if_pos (other.resolve_left long)

theorem serializeBinary_begins (serialized : serializeBinary encoding state = .ok data) :
    21 ≤ data.length ∧ data.take 4 = magicBytes := by
  obtain ⟨timestamp, payload, _, _, _, rfl⟩ := serializeBinary_cases serialized
  constructor
  · simp only [List.length_append, header_length, show calcsize headerFormat = 18 from rfl,
      Bytes.toLE_length]
    omega
  · rfl

/-- A state is serialized, and its bytes are read as the state. -/
def RoundTrips (encoding : Encoding φ) (state : TradingState φ) : Prop :=
  ∃ data, serializeBinary encoding state = .ok data ∧
    deserializeBinary encoding data = .ok (some state)

/-- Reading bytes does not raise, and gives a state only for the documented form. -/
def Decodes (encoding : Encoding φ) (data : List UInt8) : Prop :=
  ∃ result, deserializeBinary encoding data = .ok result ∧
    (result.isSome → Documented encoding data)

theorem not_roundTrips (encoding : Encoding φ) (state : TradingState φ) :
    ¬ RoundTrips encoding state := by
  rintro ⟨data, serialized, deserialized⟩
  obtain ⟨long, magic⟩ := serializeBinary_begins serialized
  rw [deserializeBinary_raises encoding long magic] at deserialized
  cases deserialized

/-- No state makes the round trip, and bytes are read without an exception exactly if they are
shorter than 21 bytes or do not begin with the magic bytes. -/
theorem never_roundTrips_decodes_iff (encoding : Encoding φ) :
    (∀ state, ¬ RoundTrips encoding state) ∧
      ∀ data, Decodes encoding data ↔ data.length < 21 ∨ data.take 4 ≠ magicBytes := by
  refine ⟨not_roundTrips encoding, fun data => ⟨?_, fun other => ?_⟩⟩
  · rintro ⟨result, read, _⟩
    by_contra within
    obtain ⟨long, magic⟩ := not_or.mp within
    rw [deserializeBinary_raises encoding (not_lt.mp long) (not_not.mp magic)] at read
    cases read
  · exact ⟨none, deserializeBinary_none encoding other, fun some => nomatch some⟩

/-- A state without positions and orders. -/
def flat : TradingState UInt64 where
  timestamp := .int 1700000000
  positions := .empty
  orders := .empty
  balances := .object []
  totalEquity := .int 0
  realizedPnl := .int 0
  sessionStart := .int 1700000000
  tradeCount := .int 0

/-- Whatever the compression and the JSON text, the state without positions does not come back,
and 21 bytes with the magic bytes in front raise. -/
theorem flat_not_restored :
    (¬ ∃ encoding : Encoding UInt64, RoundTrips encoding flat) ∧
      ¬ ∃ encoding : Encoding UInt64, Decodes encoding (magicBytes ++ List.replicate 17 0) := by
  constructor
  · rintro ⟨encoding, roundTrips⟩
    exact not_roundTrips encoding flat roundTrips
  · rintro ⟨encoding, result, read, _⟩
    rw [deserializeBinary_raises encoding (by decide) (by decide)] at read
    cases read

end TradingBot.Persistence.StateRoundTrip
