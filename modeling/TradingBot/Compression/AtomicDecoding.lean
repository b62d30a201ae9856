import TradingBot.Compression.DeltaEncoder

/-!
# Whether decoding fails safely

`decode_update` is to return on any bytes, and an error is to leave the decoder as it was. Its loops
write each level to the tables as soon as it is read, so an error that comes later finds them
changed unless the levels before it were already there.
-/

open Bytes MachineInt

namespace TradingBot.AtomicDecoding

open DeltaOfDeltaEncoder

/-! ## What the bytes hold -/

/-- The whole levels at the front of a side's bytes, as many as its count says; and the bytes after
them, or nothing where a level is cut short or is none. -/
def leading : Nat → List UInt8 → List DeltaLevel × Option (List UInt8)
  | 0, bytes => ([], some bytes)
  | count + 1, bytes =>
    match DeltaLevel.decode (bytes.take DeltaLevel.size) with
    | none => ([], none)
    | some delta =>
      (delta :: (leading count (bytes.drop DeltaLevel.size)).1,
        (leading count (bytes.drop DeltaLevel.size)).2)

/-- The levels of a side whose count is there. -/
def leadingSide : List UInt8 → Option (List DeltaLevel × Option (List UInt8))
  | [] => none
  | count :: bytes => some (leading count.toNat bytes)

/-- The price and the quantity a received level stands for. -/
def values (slot : LevelSlot) (delta : DeltaLevel) : Int × Int :=
  match delta.updateType with
  | .snapshot | .add => (delta.priceDelta, delta.quantityDelta)
  | .modify | .remove => (slot.price + delta.priceDelta, slot.quantity + delta.quantityDelta)

/-- A level sent in full, or one whose sums with the last values are 64-bit integers. -/
def SumsFit (slot : LevelSlot) (delta : DeltaLevel) : Prop :=
  match delta.updateType with
  | .snapshot | .add => True
  | .modify | .remove =>
    (i64Min ≤ slot.price + delta.priceDelta ∧ slot.price + delta.priceDelta ≤ i64Max) ∧
      i64Min ≤ slot.quantity + delta.quantityDelta ∧
        slot.quantity + delta.quantityDelta ≤ i64Max

/-- Every level from an index on has an index that is tracked, and its sums fit. -/
def Receivable (table : LevelTable) : Nat → List DeltaLevel → Prop
  | _, [] => True
  | index, delta :: rest =>
    (∃ inside : index < maxLevels, SumsFit (table ⟨index, inside⟩) delta) ∧
      Receivable table (index + 1) rest

/-- A received level is the one that the slot held before: the same positive level, or no level
where there was none. -/
def Held (before start : LevelSlot) (delta : DeltaLevel) : Prop :=
  if 0 < (values start delta).2 then
    before = ⟨(values start delta).1, (values start delta).2, true⟩
  else before.active = false ∧ before.price = start.price ∧ before.quantity = start.quantity

/-- Every level received is the one held before, and every other slot is as it was before. -/
def AllHeld (before start : LevelTable) (deltas : List DeltaLevel) : Prop :=
  ∀ index : Fin maxLevels, match deltas[index.val]? with
    | some delta => Held (before index) (start index) delta
    | none => before index = start index

/-- The decoder that the levels are received into: a snapshot clears it. -/
def started (decoder : DeltaOfDeltaEncoder) (data : List UInt8) : DeltaOfDeltaEncoder :=
  if word data 9 1 % 2 = 1 then decoder.reset else decoder

/-- The levels received and the reset of a snapshot leave the decoder as it was. -/
structure Unmoved (decoder start : DeltaOfDeltaEncoder) (bids asks : List DeltaLevel) :
    Prop where
  /-- The bids were there before. -/
  bids : AllHeld decoder.bids start.bids bids
  /-- The asks were there before. -/
  asks : AllHeld decoder.asks start.asks asks
  /-- No encoded update was dropped. -/
  deltaBuffer : decoder.deltaBuffer = start.deltaBuffer
  /-- No statistics were dropped. -/
  stats : decoder.stats = start.stats

/-- Bytes too short for a header; or levels that can all be received, with the counts of both
sides there, and no level lost where a side is cut short. -/
def SafeInput (decoder : DeltaOfDeltaEncoder) (data : List UInt8) : Prop :=
  data.length < 11 ∨
    ∃ bids rest, leadingSide (data.drop 10) = some (bids, rest) ∧
      Receivable (started decoder data).bids 0 bids ∧
      ((rest = none ∧ Unmoved decoder (started decoder data) bids []) ∨
        ∃ tail asks last, rest = some tail ∧ leadingSide tail = some (asks, last) ∧
          Receivable (started decoder data).asks 0 asks ∧
          (last = none → Unmoved decoder (started decoder data) bids asks))

/-- `decode_update` returns, and an error leaves the decoder as it was. -/
def TotalAndAtomic (decoder : DeltaOfDeltaEncoder) (data : List UInt8) : Prop :=
  ∃ result next, decoder.decodeUpdate data = some (result, next) ∧
    ∀ error, result = .error error → next = decoder

/-! ## One level -/

/-- The slot after a level is received. -/
def slotAfter (slot : LevelSlot) (delta : DeltaLevel) : LevelSlot :=
  if 0 < (values slot delta).2 then ⟨(values slot delta).1, (values slot delta).2, true⟩
  else { slot with active := false }

variable {slot before start : LevelSlot} {delta : DeltaLevel} {table : LevelTable}
  {deltas : List DeltaLevel} {index : Nat}

theorem receive_fits (fits : SumsFit slot delta) :
    ∃ level, receive slot delta = some (level, slotAfter slot delta) := by
  unfold SumsFit at fits
  unfold receive slotAfter values
  cases type : delta.updateType <;> simp only [type] at fits ⊢
  case add | snapshot =>
    simp only [Option.bind_eq_bind, Option.bind_some]
    split
    · exact ⟨_, rfl⟩
    · exact ⟨_, rfl⟩
  case modify | remove =>
    rw [i64_eq_some.mpr ⟨fits.1, rfl⟩, i64_eq_some.mpr ⟨fits.2, rfl⟩]
    simp only [Option.bind_eq_bind, Option.bind_some]
    split
    · exact ⟨_, rfl⟩
    · exact ⟨_, rfl⟩

theorem receive_overflows (overflows : ¬SumsFit slot delta) : receive slot delta = none := by
  unfold SumsFit at overflows
  unfold receive
  cases type : delta.updateType <;> simp only [type, not_true_eq_false] at overflows ⊢
  case modify | remove =>
    by_cases price : i64Min ≤ slot.price + delta.priceDelta ∧
        slot.price + delta.priceDelta ≤ i64Max
    · have quantity : i64 (slot.quantity + delta.quantityDelta) = none :=
        if_neg fun fits => overflows ⟨price, fits⟩
      rw [i64_eq_some.mpr ⟨price, rfl⟩, quantity]
      rfl
    · rw [show i64 (slot.price + delta.priceDelta) = none from if_neg price]
      rfl

theorem slotAfter_eq_iff : before = slotAfter start delta ↔ Held before start delta := by
  unfold slotAfter Held
  split
  · exact Iff.rfl
  · constructor
    · intro same
      rw [same]
      exact ⟨rfl, rfl, rfl⟩
    · rintro ⟨inactive, price, quantity⟩
      obtain ⟨_, _, _⟩ := before
      simp only at inactive price quantity
      rw [inactive, price, quantity]

theorem decode_short {bytes : List UInt8} (short : bytes.length < DeltaLevel.size) :
    DeltaLevel.decode (bytes.take DeltaLevel.size) = none := by
  have cut : (bytes.take DeltaLevel.size).length < 9 := by
    rw [List.length_take]
    exact lt_of_le_of_lt (Nat.min_le_right _ _) short
  unfold DeltaLevel.decode
  split
  · rename_i whole
    rw [whole] at cut
    exact absurd cut (Nat.lt_irrefl 9)
  · rfl

/-! ## One side -/

/-- The table after levels are received from an index on. -/
def tableAfter : Nat → List DeltaLevel → LevelTable → LevelTable
  | _, [], table => table
  | index, delta :: rest, table => tableAfter (index + 1) rest
    (if inside : index < maxLevels then
      Function.update table ⟨index, inside⟩ (slotAfter (table ⟨index, inside⟩) delta)
    else table)

theorem tableAfter_at (i : Fin maxLevels) :
    tableAfter index deltas table i = if i.val < index then table i else
      match deltas[i.val - index]? with
      | some delta => slotAfter (table i) delta
      | none => table i := by
  induction deltas generalizing index table with
  | nil => simp [tableAfter]
  | cons delta rest ih =>
    rw [tableAfter, ih]
    by_cases inside : index < maxLevels
    · rw [dif_pos inside]
      by_cases here : i.val = index
      · have place : (⟨index, inside⟩ : Fin maxLevels) = i := Fin.ext here.symm
        rw [place, Function.update_self, if_pos (by omega), if_neg (by omega),
          show i.val - index = 0 by omega]
        rfl
      · have elsewhere : i ≠ ⟨index, inside⟩ := fun same => here (congrArg Fin.val same)
        rw [Function.update_of_ne elsewhere]
        by_cases before : i.val < index
        · rw [if_pos before, if_pos (by omega)]
        · rw [if_neg before, if_neg (by omega),
            show i.val - index = (i.val - (index + 1)) + 1 by omega, List.getElem?_cons_succ]
    · have before : i.val < index := lt_of_lt_of_le i.isLt (Nat.le_of_not_lt inside)
      rw [dif_neg inside, if_pos (Nat.lt_succ_of_lt before), if_pos before]

theorem tableAfter_eq_iff {before start : LevelTable} :
    tableAfter 0 deltas start = before ↔ AllHeld before start deltas := by
  rw [funext_iff]
  refine forall_congr' fun i => ?_
  rw [tableAfter_at, if_neg (Nat.not_lt_zero _), Nat.sub_zero]
  cases deltas[i.val]? with
  | none => exact eq_comm
  | some delta => exact eq_comm.trans slotAfter_eq_iff

theorem receivable_congr {other : LevelTable} (same : ∀ i, index ≤ i.val → other i = table i) :
    Receivable other index deltas ↔ Receivable table index deltas := by
  induction deltas generalizing index with
  | nil => exact Iff.rfl
  | cons delta rest ih =>
    refine and_congr (exists_congr fun inside => ?_) (ih fun i behind => same i (by omega))
    rw [same ⟨index, inside⟩ (Nat.le_refl index)]

theorem receivable_update (inside : index < maxLevels) {after : LevelSlot} :
    Receivable (Function.update table ⟨index, inside⟩ after) (index + 1) deltas ↔
      Receivable table (index + 1) deltas := by
  apply receivable_congr
  intro i behind
  apply Function.update_of_ne
  intro same
  rw [same] at behind
  exact absurd behind (Nat.not_succ_le_self index)

theorem decodeSide_received {count : Nat} {bytes : List UInt8} {levels : List (Int × Int)}
    (receivable : Receivable table index (leading count bytes).1) :
    ∃ result, decodeSide count index bytes table levels =
        some (result, tableAfter index (leading count bytes).1 table) ∧
      (((leading count bytes).2 = none ∧ ∃ error, result = .error error) ∨
        ∃ rest read, (leading count bytes).2 = some rest ∧ result = .ok (read, rest)) := by
  induction count generalizing index bytes table levels with
  | zero => exact ⟨_, rfl, .inr ⟨bytes, levels, rfl, rfl⟩⟩
  | succ count ih =>
    unfold leading at receivable ⊢
    unfold decodeSide
    by_cases short : bytes.length < DeltaLevel.size
    · rw [if_pos short, decode_short short]
      exact ⟨_, rfl, .inl ⟨rfl, _, rfl⟩⟩
    · rw [if_neg short]
      cases decoded : DeltaLevel.decode (bytes.take DeltaLevel.size) with
      | none => exact ⟨_, rfl, .inl ⟨rfl, _, rfl⟩⟩
      | some delta =>
        rw [decoded] at receivable
        obtain ⟨⟨inside, fits⟩, later⟩ := receivable
        obtain ⟨level, received⟩ := receive_fits fits
        simp only [dif_pos inside, received, Option.bind_eq_bind, Option.bind_some, tableAfter]
        exact ih ((receivable_update inside).mpr later)

theorem decodeSide_panics {count : Nat} {bytes : List UInt8} {levels : List (Int × Int)}
    (broken : ¬Receivable table index (leading count bytes).1) :
    decodeSide count index bytes table levels = none := by
  induction count generalizing index bytes table levels with
  | zero => exact absurd trivial broken
  | succ count ih =>
    unfold leading at broken
    unfold decodeSide
    by_cases short : bytes.length < DeltaLevel.size
    · rw [decode_short short] at broken
      exact absurd trivial broken
    · rw [if_neg short]
      cases decoded : DeltaLevel.decode (bytes.take DeltaLevel.size) with
      | none =>
        rw [decoded] at broken
        exact absurd trivial broken
      | some delta =>
        rw [decoded] at broken
        by_cases inside : index < maxLevels
        · simp only [dif_pos inside, Option.bind_eq_bind]
          by_cases fits : SumsFit (table ⟨index, inside⟩) delta
          · obtain ⟨level, received⟩ := receive_fits fits
            rw [received, Option.bind_some]
            apply ih
            rw [receivable_update inside]
            exact fun later => broken ⟨⟨inside, fits⟩, later⟩
          · rw [receive_overflows fits, Option.bind_none]
        · simp only [dif_neg inside]

theorem decodeCounted_received {bytes : List UInt8} {rest : Option (List UInt8)}
    (held : leadingSide bytes = some (deltas, rest)) (receivable : Receivable table 0 deltas) :
    ∃ result, decodeCounted bytes table = some (result, tableAfter 0 deltas table) ∧
      ((rest = none ∧ ∃ error, result = .error error) ∨
        ∃ tail read, rest = some tail ∧ result = .ok (read, tail)) := by
  cases bytes with
  | nil => cases held
  | cons count bytes =>
    simp only [leadingSide, Option.some.injEq, Prod.ext_iff] at held
    obtain ⟨levels, after⟩ := held
    subst levels after
    exact decodeSide_received receivable

theorem decodeCounted_panics {bytes : List UInt8}
    (broken : ∀ deltas rest, leadingSide bytes = some (deltas, rest) →
      ¬Receivable table 0 deltas) : decodeCounted bytes table = none := by
  cases bytes with
  | nil => rfl
  | cons count bytes => exact decodeSide_panics (broken _ _ rfl)

/-! ## The call -/

variable {decoder : DeltaOfDeltaEncoder} {data : List UInt8} {bids asks : List DeltaLevel}

/-- The decoder after levels are received into it. -/
def receivedInto (start : DeltaOfDeltaEncoder) (bids asks : List DeltaLevel) :
    DeltaOfDeltaEncoder :=
  { start with bids := tableAfter 0 bids start.bids, asks := tableAfter 0 asks start.asks }

theorem receivedInto_eq_iff :
    receivedInto (started decoder data) bids asks = decoder ↔
      Unmoved decoder (started decoder data) bids asks := by
  have current : (started decoder data).currentSequence = decoder.currentSequence := by
    unfold started
    split <;> rfl
  have last : (started decoder data).lastSequence = decoder.lastSequence := by
    unfold started
    split <;> rfl
  constructor
  · intro same
    exact {
      bids := tableAfter_eq_iff.mp (congrArg DeltaOfDeltaEncoder.bids same)
      asks := tableAfter_eq_iff.mp (congrArg DeltaOfDeltaEncoder.asks same)
      deltaBuffer := (congrArg DeltaOfDeltaEncoder.deltaBuffer same).symm
      stats := (congrArg DeltaOfDeltaEncoder.stats same).symm }
  · intro unmoved
    unfold receivedInto
    rw [tableAfter_eq_iff.mpr unmoved.bids, tableAfter_eq_iff.mpr unmoved.asks, current, last,
      ← unmoved.deltaBuffer, ← unmoved.stats]

theorem atomic_error {error : EncoderError} {next : DeltaOfDeltaEncoder}
    (returned : decoder.decodeUpdate data = some (.error error, next)) :
    TotalAndAtomic decoder data ↔ next = decoder := by
  constructor
  · rintro ⟨result, after, same, kept⟩
    rw [returned] at same
    cases same
    exact kept error rfl
  · exact fun same => ⟨_, next, returned, fun _ _ => same⟩

section

variable (long : ¬data.length < 11)
include long

theorem decodeUpdate_bidsCut (held : leadingSide (data.drop 10) = some (bids, none))
    (receivable : Receivable (started decoder data).bids 0 bids) :
    ∃ error, decoder.decodeUpdate data =
      some (.error error, receivedInto (started decoder data) bids []) := by
  obtain ⟨result, decoded, ⟨-, error, failed⟩ | ⟨_, _, absent, -⟩⟩ :=
    decodeCounted_received held receivable
  · refine ⟨error, ?_⟩
    rw [started] at decoded ⊢
    simp only [decodeUpdate, if_neg long, decoded, failed, Option.bind_eq_bind, Option.bind_some]
    rfl
  · cases absent

theorem decodeUpdate_bidsRead {tail : List UInt8}
    (held : leadingSide (data.drop 10) = some (bids, some tail))
    (receivable : Receivable (started decoder data).bids 0 bids) :
    ∃ read, decoder.decodeUpdate data =
      (decodeCounted tail (started decoder data).asks).map fun side =>
        (side.1.map fun asks => (read, asks.1),
          { started decoder data with
            bids := tableAfter 0 bids (started decoder data).bids, asks := side.2 }) := by
  obtain ⟨result, decoded, ⟨absent, -⟩ | ⟨_, read, same, whole⟩⟩ :=
    decodeCounted_received held receivable
  · cases absent
  · cases same
    refine ⟨read, ?_⟩
    rw [started] at decoded ⊢
    simp only [decodeUpdate, if_neg long, decoded, whole, Option.bind_eq_bind, Option.bind_some]
    cases decodeCounted tail (if word data 9 1 % 2 = 1 then decoder.reset else decoder).asks with
    | none => rfl
    | some side =>
      obtain ⟨asksResult, asksTable⟩ := side
      cases asksResult <;> rfl

theorem decodeUpdate_bidsPanic
    (broken : ∀ bids rest, leadingSide (data.drop 10) = some (bids, rest) →
      ¬Receivable (started decoder data).bids 0 bids) :
    decoder.decodeUpdate data = none := by
  have panics := decodeCounted_panics broken
  rw [started] at panics
  simp only [decodeUpdate, if_neg long, panics, Option.bind_eq_bind, Option.bind_none]

theorem safeInput_bidsCut (held : leadingSide (data.drop 10) = some (bids, none))
    (receivable : Receivable (started decoder data).bids 0 bids) :
    SafeInput decoder data ↔ Unmoved decoder (started decoder data) bids [] := by
  constructor
  · rintro (early | ⟨others, after, read, -, ⟨-, unmoved⟩ | ⟨_, _, _, absent, -⟩⟩)
    · exact absurd early long
    · cases held.symm.trans read
      exact unmoved
    · cases held.symm.trans read
      cases absent
  · exact fun unmoved => .inr ⟨bids, none, held, receivable, .inl ⟨rfl, unmoved⟩⟩

theorem safeInput_bidsRead {tail : List UInt8}
    (held : leadingSide (data.drop 10) = some (bids, some tail))
    (receivable : Receivable (started decoder data).bids 0 bids) :
    SafeInput decoder data ↔ ∃ asks last, leadingSide tail = some (asks, last) ∧
      Receivable (started decoder data).asks 0 asks ∧
      (last = none → Unmoved decoder (started decoder data) bids asks) := by
  constructor
  · rintro (early | ⟨others, after, read, -, ⟨absent, -⟩ | ⟨tail, asks, last, same, fate⟩⟩)
    · exact absurd early long
    · cases held.symm.trans read
      cases absent
    · cases held.symm.trans read
      cases same
      exact ⟨asks, last, fate⟩
  · rintro ⟨asks, last, fate⟩
    exact .inr ⟨bids, some tail, held, receivable, .inr ⟨tail, asks, last, rfl, fate⟩⟩

end

theorem not_totalAndAtomic (panics : decoder.decodeUpdate data = none) :
    ¬TotalAndAtomic decoder data := by
  rintro ⟨result, next, returned, -⟩
  rw [panics] at returned
  cases returned

theorem totalAndAtomic_bidsRead (long : ¬data.length < 11) {tail : List UInt8}
    (held : leadingSide (data.drop 10) = some (bids, some tail))
    (receivable : Receivable (started decoder data).bids 0 bids) :
    TotalAndAtomic decoder data ↔ ∃ asks last, leadingSide tail = some (asks, last) ∧
      Receivable (started decoder data).asks 0 asks ∧
      (last = none → Unmoved decoder (started decoder data) bids asks) := by
  obtain ⟨read, returned⟩ := decodeUpdate_bidsRead long held receivable
  by_cases asksRead : ∃ asks last, leadingSide tail = some (asks, last) ∧
      Receivable (started decoder data).asks 0 asks
  · obtain ⟨asks, last, asksHeld, asksReceivable⟩ := asksRead
    obtain ⟨result, decoded, fate⟩ := decodeCounted_received asksHeld asksReceivable
    rw [decoded, Option.map_some] at returned
    rcases fate with ⟨cut, error, failed⟩ | ⟨rest, levels, whole, succeeded⟩
    · subst failed
      rw [atomic_error returned]
      refine receivedInto_eq_iff.trans ⟨fun unmoved => ?_, ?_⟩
      · exact ⟨asks, last, asksHeld, asksReceivable, fun _ => unmoved⟩
      · rintro ⟨others, after, same, -, unmoved⟩
        cases asksHeld.symm.trans same
        exact unmoved cut
    · subst succeeded
      refine iff_of_true ⟨_, _, returned, fun _ failed => by cases failed⟩ ?_
      refine ⟨asks, last, asksHeld, asksReceivable, fun cut => ?_⟩
      rw [whole] at cut
      cases cut
  · rw [decodeCounted_panics fun asks last asksHeld asksReceivable =>
      asksRead ⟨asks, last, asksHeld, asksReceivable⟩, Option.map_none] at returned
    refine iff_of_false (not_totalAndAtomic returned) ?_
    rintro ⟨asks, last, asksHeld, asksReceivable, -⟩
    exact asksRead ⟨asks, last, asksHeld, asksReceivable⟩

/-- `decode_update` is total and atomic on exactly the safe inputs. -/
theorem totalAndAtomic_iff (decoder : DeltaOfDeltaEncoder) (data : List UInt8) :
    TotalAndAtomic decoder data ↔ SafeInput decoder data := by
  by_cases short : data.length < 11
  · have returned : decoder.decodeUpdate data =
        some (.error (.invalidData "Data too short"), decoder) := if_pos short
    exact iff_of_true ⟨_, _, returned, fun _ _ => rfl⟩ (.inl short)
  by_cases bidsRead : ∃ bids rest, leadingSide (data.drop 10) = some (bids, rest) ∧
      Receivable (started decoder data).bids 0 bids
  · obtain ⟨bids, rest, held, receivable⟩ := bidsRead
    cases rest with
    | none =>
      obtain ⟨error, returned⟩ := decodeUpdate_bidsCut short held receivable
      rw [atomic_error returned, receivedInto_eq_iff, safeInput_bidsCut short held receivable]
    | some tail =>
      rw [totalAndAtomic_bidsRead short held receivable,
        safeInput_bidsRead short held receivable]
  · have panics := decodeUpdate_bidsPanic short fun bids rest held receivable =>
      bidsRead ⟨bids, rest, held, receivable⟩
    refine iff_of_false (not_totalAndAtomic panics) ?_
    rintro (early | ⟨bids, rest, held, receivable, -⟩)
    · exact short early
    · exact bidsRead ⟨bids, rest, held, receivable⟩

/-- A header and an empty side of bids, with no byte for the count of the asks. -/
def withoutAsks : List UInt8 := List.replicate 11 0

/-- A bid of a hundred at a price of five, and a side of asks whose only level is missing. -/
def cutShort : List UInt8 :=
  List.replicate 10 0 ++ [1] ++ DeltaLevel.encode ⟨5, 100, 0, .add⟩ ++ [1]

/-- The count of the asks is read behind the end, and an error among the asks comes after the bids
were written. -/
theorem totalAndAtomic_fails :
    ¬TotalAndAtomic .new withoutAsks ∧ ¬TotalAndAtomic .new cutShort := by
  constructor
  · exact not_totalAndAtomic (by decide +kernel)
  · rintro ⟨result, next, returned, kept⟩
    have seen : (DeltaOfDeltaEncoder.new.decodeUpdate cutShort).map
        (fun call => (call.1.isOk, (call.2.bids ⟨0, by decide⟩).active)) = some (false, true) := by
      decide +kernel
    rw [returned, Option.map_some, Option.some_inj, Prod.mk.injEq] at seen
    cases result with
    | ok _ => cases seen.1
    | error error =>
      have active := seen.2
      rw [kept error rfl] at active
      cases active

end TradingBot.AtomicDecoding
