import TradingBot.Compression.DeltaSynchronisation

/-!
# What an update is sent as

An update is read back from its bytes level by level, with no decoder state in between: every level
is to be there with its values, or with its exact differences to the last values at its index. A
duplicate is skipped, a side is cut to the levels that are tracked, and what does not fit its field
is narrowed.
-/

open Bytes MachineInt

namespace TradingBot.ExactDeltas

open DeltaSynchronisation DeltaOfDeltaEncoder

/-! ## Reading the bytes -/

/-- As many levels as a count says, and the bytes after them. -/
def readLevels : Nat → List UInt8 → Option (List DeltaLevel × List UInt8)
  | 0, bytes => some ([], bytes)
  | count + 1, bytes => do
    let delta ← DeltaLevel.decode (bytes.take DeltaLevel.size)
    let (deltas, rest) ← readLevels count (bytes.drop DeltaLevel.size)
    some (delta :: deltas, rest)

/-- The levels of a side after their count, and the bytes after them. -/
def readSide : List UInt8 → Option (List DeltaLevel × List UInt8)
  | [] => none
  | count :: bytes => readLevels count.toNat bytes

/-- The levels of both sides that an update's bytes hold; no bytes hold no levels. -/
def emitted (bytes : List UInt8) : Option (List DeltaLevel × List DeltaLevel) :=
  if bytes = [] then some ([], [])
  else do
    let (bids, rest) ← readSide (bytes.drop 10)
    let (asks, _) ← readSide rest
    some (bids, asks)

/-! ## Exact levels -/

/-- What a level is to be sent as: its values in a snapshot, else the differences to the last
values at its index. -/
def exactDelta (isSnapshot : Bool) (slot : LevelSlot) (level : Int × Int) : Int × Int :=
  if isSnapshot then level else (level.1 - slot.price, level.2 - slot.quantity)

/-- What a level is to be sent as fits the fields it is sent in. -/
def DeltaFits (isSnapshot : Bool) (slot : LevelSlot) (level : Int × Int) : Prop :=
  (-32768 ≤ (exactDelta isSnapshot slot level).1 ∧
    (exactDelta isSnapshot slot level).1 ≤ 32767) ∧
  -2147483648 ≤ (exactDelta isSnapshot slot level).2 ∧
    (exactDelta isSnapshot slot level).2 ≤ 2147483647

/-- The last values at an index; none were ever recorded where no level is tracked. -/
def lastAt (table : LevelTable) (index : Nat) : LevelSlot :=
  if inside : index < maxLevels then table ⟨index, inside⟩ else ⟨0, 0, false⟩

/-- Every level of a side has a delta that is exactly what it is to be sent as. -/
def SentExactly (isSnapshot : Bool) (table : LevelTable) (levels : List (Int × Int))
    (deltas : List DeltaLevel) : Prop :=
  ∀ index level, levels[index]? = some level →
    ∃ delta : DeltaLevel, deltas[index]? = some delta ∧
      (delta.priceDelta, delta.quantityDelta) =
        exactDelta isSnapshot (lastAt table index) level

/-- The call returns bytes that hold every level it was given, with nothing wrapped, clamped or
dropped. The source has no path that returns an error. -/
def NoSilentLoss (encoder : DeltaOfDeltaEncoder) (update : LevelUpdate) : Prop :=
  ∃ bytes next bids asks, encoder.processUpdate update = some (bytes, next) ∧
    emitted bytes = some (bids, asks) ∧
    SentExactly update.isSnapshot encoder.bids update.bids bids ∧
    SentExactly update.isSnapshot encoder.asks update.asks asks

/-- The update is one that `process_update` skips: not a snapshot, with the sequence id of the last
update. -/
def Duplicate (encoder : DeltaOfDeltaEncoder) (update : LevelUpdate) : Prop :=
  update.isSnapshot = false ∧ update.sequenceId = encoder.lastSequence

/-- Every level of the update that is tracked fits. -/
structure Sendable (encoder : DeltaOfDeltaEncoder) (update : LevelUpdate) : Prop where
  bids : Each (fun index => DeltaFits update.isSnapshot (encoder.bids index)) 0
    (update.bids.take maxLevels)
  asks : Each (fun index => DeltaFits update.isSnapshot (encoder.asks index)) 0
    (update.asks.take maxLevels)

/-- The last values at an index are those of the level that was sent there. -/
def Recorded (table : LevelTable) (levels : List (Int × Int)) : Prop :=
  ∀ index level, levels[index]? = some level → lastAt table index = ⟨level.1, level.2, true⟩

/-- The call returns bytes that hold every level that is tracked, and records its values. -/
def SentAndRecorded (encoder : DeltaOfDeltaEncoder) (update : LevelUpdate) : Prop :=
  ∃ bytes next bids asks, encoder.processUpdate update = some (bytes, next) ∧
    emitted bytes = some (bids, asks) ∧
    SentExactly update.isSnapshot encoder.bids (update.bids.take maxLevels) bids ∧
    SentExactly update.isSnapshot encoder.asks (update.asks.take maxLevels) asks ∧
    Recorded next.bids (update.bids.take maxLevels) ∧
    Recorded next.asks (update.asks.take maxLevels)

variable {isSnapshot : Bool} {slot : LevelSlot} {level : Int × Int} {table final : LevelTable}
  {levels : List (Int × Int)} {bytes : List UInt8} {index : Nat}

/-! ## One level -/

theorem encodeLevelDelta_exact (fits : DeltaFits isSnapshot slot level) (index : Nat) :
    ∃ delta, encodeLevelDelta slot level.1 level.2 index isSnapshot = some delta ∧ delta.Fits ∧
      (delta.priceDelta, delta.quantityDelta) = exactDelta isSnapshot slot level := by
  obtain ⟨priceRange, quantityRange⟩ := fits
  cases isSnapshot with
  | true =>
    simp only [exactDelta, if_true] at priceRange quantityRange
    have price : Int.bmod level.1 65536 = level.1 := Int.bmod_eq_of_le (by omega) (by omega)
    have quantity : Int.bmod level.2 4294967296 = level.2 :=
      Int.bmod_eq_of_le (by omega) (by omega)
    simp only [encodeLevelDelta, if_true, price, quantity]
    exact ⟨_, rfl, ⟨priceRange, quantityRange⟩, rfl⟩
  | false =>
    simp only [exactDelta, Bool.false_eq_true, if_false] at priceRange quantityRange
    have priceFits : i64 (level.1 - slot.price) = some (level.1 - slot.price) :=
      i64_eq_some.mpr ⟨by unfold i64Min i64Max; omega, rfl⟩
    have quantityFits : i64 (level.2 - slot.quantity) = some (level.2 - slot.quantity) :=
      i64_eq_some.mpr ⟨by unfold i64Min i64Max; omega, rfl⟩
    have price : clampI16 (level.1 - slot.price) = level.1 - slot.price := by
      unfold clampI16
      omega
    have quantity : clampI32 (level.2 - slot.quantity) = level.2 - slot.quantity := by
      unfold clampI32
      omega
    simp only [encodeLevelDelta, Bool.false_eq_true, if_false, priceFits, quantityFits,
      Option.bind_eq_bind, Option.bind_some, price, quantity]
    exact ⟨_, rfl, ⟨priceRange, quantityRange⟩, rfl⟩

/-! ## One side -/

theorem readLevels_encoded {deltas : List DeltaLevel} (fits : ∀ delta ∈ deltas, delta.Fits)
    (rest : List UInt8) :
    readLevels deltas.length (deltas.flatMap DeltaLevel.encode ++ rest) = some (deltas, rest) := by
  induction deltas with
  | nil => rfl
  | cons delta deltas ih =>
    have here := fits delta List.mem_cons_self
    have later := ih fun other member => fits other (List.mem_cons_of_mem delta member)
    have front : (delta.encode ++ (deltas.flatMap DeltaLevel.encode ++ rest)).take
        DeltaLevel.size = delta.encode := List.take_left' (DeltaLevel.encode_length delta)
    have back : (delta.encode ++ (deltas.flatMap DeltaLevel.encode ++ rest)).drop
        DeltaLevel.size = deltas.flatMap DeltaLevel.encode ++ rest :=
      List.drop_left' (DeltaLevel.encode_length delta)
    rw [List.length_cons, List.flatMap_cons, List.append_assoc, readLevels, front, back,
      DeltaLevel.decode_encode here, later]
    rfl

theorem readSide_encoded {deltas : List DeltaLevel} (fits : ∀ delta ∈ deltas, delta.Fits)
    (counted : deltas.length ≤ maxLevels) (rest : List UInt8) :
    readSide ([UInt8.ofNat deltas.length] ++ deltas.flatMap DeltaLevel.encode ++ rest) =
      some (deltas, rest) := by
  have small : deltas.length < 256 := lt_of_le_of_lt counted (by decide)
  have count : (UInt8.ofNat deltas.length).toNat = deltas.length := by
    rw [UInt8.toNat_ofNat']
    exact Nat.mod_eq_of_lt small
  rw [List.append_assoc, List.singleton_append, readSide, count, readLevels_encoded fits]

/-- Levels that fit are sent exactly, from an index on, and recorded. The slots before the index
are kept, so a level that was recorded stays recorded. -/
theorem encodeSide_exact (room : index + levels.length ≤ maxLevels)
    (fits : Each (fun index => DeltaFits isSnapshot (table index)) index levels) :
    ∃ (deltas : List DeltaLevel) (final : LevelTable),
      encodeSide isSnapshot index levels table = some (deltas.flatMap DeltaLevel.encode, final) ∧
      deltas.length = levels.length ∧ (∀ delta ∈ deltas, delta.Fits) ∧
      (∀ i level, levels[i]? = some level →
        ∃ (inside : index + i < maxLevels) (delta : DeltaLevel), deltas[i]? = some delta ∧
          (delta.priceDelta, delta.quantityDelta) =
            exactDelta isSnapshot (table ⟨index + i, inside⟩) level ∧
          final ⟨index + i, inside⟩ = ⟨level.1, level.2, true⟩) ∧
      ∀ i, i.val < index → final i = table i := by
  induction levels generalizing index table with
  | nil => exact ⟨[], table, rfl, rfl, nofun, nofun, fun _ _ => rfl⟩
  | cons level levels ih =>
    have inside : index < maxLevels := by
      rw [List.length_cons] at room
      omega
    obtain ⟨delta, encoded, deltaFits, exact⟩ :=
      encodeLevelDelta_exact (fits.1 inside) index
    let after := Function.update table ⟨index, inside⟩ ⟨level.1, level.2, true⟩
    have untouched : ∀ i : Fin maxLevels, index + 1 ≤ i.val → after i = table i := by
      intro i behind
      apply Function.update_of_ne
      intro same
      rw [same] at behind
      exact absurd behind (Nat.not_succ_le_self index)
    have restFits : Each (fun index => DeltaFits isSnapshot (after index)) (index + 1) levels := by
      refine (each_congr ?_ (Nat.le_refl _)).mp fits.2
      intro i level behind
      rw [untouched i behind]
    have restRoom : index + 1 + levels.length ≤ maxLevels := by
      rw [List.length_cons] at room
      omega
    obtain ⟨deltas, final, sides, counted, allFit, sent, kept⟩ := ih restRoom restFits
    refine ⟨delta :: deltas, final, ?_, ?_, ?_, ?_, ?_⟩
    · simp only [encodeSide, dif_pos inside, encoded, Option.bind_eq_bind, Option.bind_some,
        List.flatMap_cons]
      rw [sides]
      rfl
    · rw [List.length_cons, List.length_cons, counted]
    · exact List.forall_mem_cons.mpr ⟨deltaFits, allFit⟩
    · intro i other found
      cases i with
      | zero =>
        cases found
        refine ⟨inside, delta, rfl, exact, ?_⟩
        calc
          final ⟨index, inside⟩ = after ⟨index, inside⟩ := kept _ (Nat.lt_succ_self index)
          _ = ⟨level.1, level.2, true⟩ := Function.update_self ..
      | succ i =>
        obtain ⟨within, later, place, same, recorded⟩ := sent i other found
        have shifted : index + (i + 1) = index + 1 + i := by omega
        have there : index + (i + 1) < maxLevels := shifted ▸ within
        have position : (⟨index + (i + 1), there⟩ : Fin maxLevels) = ⟨index + 1 + i, within⟩ :=
          Fin.ext shifted
        refine ⟨there, later, place, ?_, ?_⟩
        · rw [position, same, untouched ⟨index + 1 + i, within⟩ (by simp only; omega)]
        · rw [position, recorded]
    · intro i before
      rw [kept i (Nat.lt_succ_of_lt before)]
      apply Function.update_of_ne
      intro same
      rw [same] at before
      exact absurd before (Nat.lt_irrefl index)

theorem exactDelta_cleared {cleared before : LevelTable}
    (same : isSnapshot = true ∨ cleared = before) (i : Fin maxLevels) (level : Int × Int) :
    exactDelta isSnapshot (cleared i) level = exactDelta isSnapshot (before i) level := by
  cases same with
  | inl snapshot =>
    subst snapshot
    rfl
  | inr same => rw [same]

/-- A side that fits is sent and recorded level by level, whether or not a snapshot cleared its
table. -/
theorem encodeSide_sent {cleared before : LevelTable}
    (same : isSnapshot = true ∨ cleared = before)
    (fits : Each (fun index => DeltaFits isSnapshot (before index)) 0 (levels.take maxLevels)) :
    ∃ (deltas : List DeltaLevel) (final : LevelTable),
      encodeSide isSnapshot 0 (levels.take maxLevels) cleared =
        some (deltas.flatMap DeltaLevel.encode, final) ∧
      deltas.length = (levels.take maxLevels).length ∧ (∀ delta ∈ deltas, delta.Fits) ∧
      SentExactly isSnapshot before (levels.take maxLevels) deltas ∧
      Recorded final (levels.take maxLevels) := by
  have room : 0 + (levels.take maxLevels).length ≤ maxLevels := by
    rw [Nat.zero_add, List.length_take]
    exact Nat.min_le_left _ _
  have clearedFits : Each (fun index => DeltaFits isSnapshot (cleared index)) 0
      (levels.take maxLevels) := by
    refine (each_congr ?_ (Nat.le_refl 0)).mp fits
    intro i level _
    unfold DeltaFits
    rw [exactDelta_cleared same]
  obtain ⟨deltas, final, sides, counted, allFit, sent, -⟩ := encodeSide_exact room clearedFits
  refine ⟨deltas, final, sides, counted, allFit, ?_, ?_⟩
  · intro i level found
    obtain ⟨inside, delta, place, exact, -⟩ := sent i level found
    simp only [Nat.zero_add] at inside exact
    refine ⟨delta, place, ?_⟩
    rw [exact, lastAt, dif_pos inside, exactDelta_cleared same]
  · intro i level found
    obtain ⟨inside, delta, -, -, recorded⟩ := sent i level found
    simp only [Nat.zero_add] at inside recorded
    rw [lastAt, dif_pos inside, recorded]

/-! ## The call -/

theorem emitted_encoded {header : List UInt8} {bids asks : List DeltaLevel}
    (ten : header.length = 10) (bidFits : ∀ delta ∈ bids, delta.Fits)
    (askFits : ∀ delta ∈ asks, delta.Fits) (bidRoom : bids.length ≤ maxLevels)
    (askRoom : asks.length ≤ maxLevels) :
    emitted (header ++ ([UInt8.ofNat bids.length] ++ bids.flatMap DeltaLevel.encode ++
      ([UInt8.ofNat asks.length] ++ asks.flatMap DeltaLevel.encode ++ []))) =
      some (bids, asks) := by
  have written : header ++ ([UInt8.ofNat bids.length] ++ bids.flatMap DeltaLevel.encode ++
      ([UInt8.ofNat asks.length] ++ asks.flatMap DeltaLevel.encode ++ [])) ≠ [] := by
    intro empty
    have none_ := congrArg List.length (List.append_eq_nil_iff.mp empty).1
    rw [ten] at none_
    cases none_
  rw [emitted, if_neg written, List.drop_left' ten, readSide_encoded bidFits bidRoom]
  simp only [Option.bind_eq_bind, Option.bind_some]
  rw [readSide_encoded askFits askRoom]
  rfl

theorem encodeUpdate_exact {encoder : DeltaOfDeltaEncoder} {update : LevelUpdate}
    (sendable : Sendable encoder update) :
    ∃ bytes next bids asks, encoder.encodeUpdate update = some (bytes, next) ∧
      emitted bytes = some (bids, asks) ∧
      SentExactly update.isSnapshot encoder.bids (update.bids.take maxLevels) bids ∧
      SentExactly update.isSnapshot encoder.asks (update.asks.take maxLevels) asks ∧
      Recorded next.bids (update.bids.take maxLevels) ∧
      Recorded next.asks (update.asks.take maxLevels) := by
  have bidsSame : update.isSnapshot = true ∨
      (if update.isSnapshot then encoder.reset else encoder).bids = encoder.bids := by
    cases update.isSnapshot <;> simp
  have asksSame : update.isSnapshot = true ∨
      (if update.isSnapshot then encoder.reset else encoder).asks = encoder.asks := by
    cases update.isSnapshot <;> simp
  obtain ⟨bids, bidTable, bidSide, bidCount, bidFits, bidSent, bidRecorded⟩ :=
    encodeSide_sent bidsSame sendable.bids
  obtain ⟨asks, askTable, askSide, askCount, askFits, askSent, askRecorded⟩ :=
    encodeSide_sent asksSame sendable.asks
  have bidRoom : bids.length ≤ maxLevels := by
    rw [bidCount, List.length_take]
    exact Nat.min_le_left _ _
  have askRoom : asks.length ≤ maxLevels := by
    rw [askCount, List.length_take]
    exact Nat.min_le_left _ _
  simp only [encodeUpdate, bidSide, askSide, Option.bind_eq_bind, Option.bind_some]
  refine ⟨_, _, bids, asks, rfl, ?_, bidSent, askSent, bidRecorded, askRecorded⟩
  rw [← bidCount, ← askCount]
  have ten : (toLE 8 update.sequenceId.toNat ++ [if update.isSnapshot then (1 : UInt8) else 0,
      if update.isSnapshot then UpdateType.snapshot.toByte else 0]).length = 10 := by
    rw [List.length_append, toLE_length]
    rfl
  have read := emitted_encoded ten bidFits askFits bidRoom askRoom
  simp only [List.append_assoc, List.cons_append, List.nil_append, List.append_nil] at read ⊢
  exact read

/-- A duplicate is skipped and counted. Every other update whose tracked levels fit is sent and
recorded level by level. -/
theorem processUpdate_tracked (encoder : DeltaOfDeltaEncoder) (update : LevelUpdate) :
    (Duplicate encoder update → encoder.processUpdate update = some ([], { encoder with
      stats := { encoder.stats with
        outOfOrderUpdates := encoder.stats.outOfOrderUpdates + 1
        duplicateUpdates := encoder.stats.duplicateUpdates + 1 } })) ∧
    (¬Duplicate encoder update → Sendable encoder update → SentAndRecorded encoder update) := by
  constructor
  · rintro ⟨incremental, same⟩
    have skipped : update.sequenceId ≤ encoder.lastSequence ∧ update.isSnapshot = false :=
      ⟨same ▸ UInt64.le_refl _, incremental⟩
    simp only [processUpdate, if_pos skipped, if_pos same]
  · intro fresh sendable
    unfold SentAndRecorded processUpdate
    by_cases old : update.sequenceId ≤ encoder.lastSequence ∧ update.isSnapshot = false
    · have differs : update.sequenceId ≠ encoder.lastSequence := fun same => fresh ⟨old.2, same⟩
      simp only [if_pos old, if_neg differs]
      exact @encodeUpdate_exact { encoder with stats := { encoder.stats with
        outOfOrderUpdates := encoder.stats.outOfOrderUpdates + 1 } } update
        ⟨sendable.bids, sendable.asks⟩
    · simp only [if_neg old]
      exact encodeUpdate_exact sendable

/-- A second update with the sequence id of the last one. -/
def repeated : LevelUpdate := ⟨0, [(101, 7)], [], false⟩

/-- A snapshot one level deeper than what is tracked. -/
def deep : LevelUpdate := ⟨1, List.replicate 101 (100, 5), [], true⟩

theorem lost_of_fewer {encoder : DeltaOfDeltaEncoder} {update : LevelUpdate} {count : Nat}
    {level : Int × Int}
    (sent : ((encoder.processUpdate update).bind fun result => emitted result.1).map
      (fun sides => sides.1.length) = some count)
    (given : update.bids[count]? = some level) : ¬NoSilentLoss encoder update := by
  rintro ⟨bytes, next, bids, asks, returned, read, exact, -⟩
  obtain ⟨delta, there, -⟩ := exact count level given
  rw [returned, Option.bind_some, read, Option.map_some, Option.some_inj] at sent
  have inside := (List.getElem?_eq_some_iff.mp there).1
  exact absurd sent (Nat.ne_of_gt inside)

/-- The level of a repeated update and the last level of a deep snapshot are dropped without an
error. -/
theorem noSilentLoss_fails : ¬NoSilentLoss .new repeated ∧ ¬NoSilentLoss .new deep :=
  ⟨@lost_of_fewer .new repeated 0 (101, 7) (by decide +kernel) rfl,
    @lost_of_fewer .new deep 100 (100, 5) (by decide +kernel) rfl⟩

end TradingBot.ExactDeltas
