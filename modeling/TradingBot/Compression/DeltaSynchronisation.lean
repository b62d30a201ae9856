import TradingBot.Compression.DeltaEncoder
import TradingBot.Foundation.Run

/-!
# Encoder and decoder in step

Whether a decoder fed with the bytes of an encoder reads the levels of every update, over runs
of any length. The encoder stores a removed level's zero quantity and its price, the decoder
keeps the values from before the removal, so the two tables part there and the next difference
sent for that index is added to the wrong values.
-/

open Bytes MachineInt Run

namespace TradingBot.DeltaSynchronisation

/-- The levels of an update that a book shows: those with a positive quantity. -/
def positive (levels : List (Int × Int)) : List (Int × Int) :=
  levels.filter fun level => 0 < level.2

/-- An encoder and the decoder fed with its bytes. -/
structure Link where
  /-- The sending end. -/
  encoder : DeltaOfDeltaEncoder
  /-- The receiving end. -/
  decoder : DeltaOfDeltaEncoder
  /-- Whether every update so far was decoded to exactly its positive levels. -/
  agreed : Bool

/-- Two new ends. -/
def Link.new : Link where
  encoder := .new
  decoder := .new
  agreed := true

/-- Whether a decoded result is the positive levels of an update. -/
def matchesUpdate (update : LevelUpdate) :
    Except EncoderError (List (Int × Int) × List (Int × Int)) → Bool
  | .ok (bids, asks) => decide (bids = positive update.bids ∧ asks = positive update.asks)
  | .error _ => false

/-- One update through the link; a panic at either end is no agreement. -/
def transmit (link : Link) (update : LevelUpdate) : Link :=
  match link.encoder.processUpdate update with
  | none => { link with agreed := false }
  | some (bytes, encoder) =>
    match link.decoder.decodeUpdate bytes with
    | none => { link with encoder := encoder, agreed := false }
    | some (result, decoder) => {
        encoder := encoder
        decoder := decoder
        agreed := link.agreed && matchesUpdate update result }

/-- Every update can be transmitted. -/
def step (link : Link) (update : LevelUpdate) : Option Link := some (transmit link update)

/-- Every update so far was decoded to its positive levels. -/
def Agrees (link : Link) : Prop := link.agreed = true

/-- A condition on the levels of one side and the indices they stand at. -/
def Each (condition : Fin maxLevels → Int × Int → Prop) : Nat → List (Int × Int) → Prop
  | _, [] => True
  | index, level :: rest =>
    (∀ inside : index < maxLevels, condition ⟨index, inside⟩ level) ∧
      Each condition (index + 1) rest

/-- A level of 64-bit values, its quantity not negative, whose differences to the last values
at its index fit the fields they are sent in. -/
structure LevelFits (slot : LevelSlot) (level : Int × Int) : Prop where
  price : i64Min ≤ level.1 ∧ level.1 ≤ i64Max
  /-- The quantity is an `i64` that is not negative. -/
  quantity : 0 ≤ level.2 ∧ level.2 ≤ i64Max
  /-- The price difference is an `i16`. -/
  priceDelta : -32768 ≤ level.1 - slot.price ∧ level.1 - slot.price ≤ 32767
  /-- The quantity difference is an `i32`. -/
  quantityDelta : -2147483648 ≤ level.2 - slot.quantity ∧
    level.2 - slot.quantity ≤ 2147483647

/-- The last values an update meets: a snapshot clears them. -/
def tablesBefore (update : LevelUpdate) (table : LevelTable) : LevelTable :=
  if update.isSnapshot then .empty else table

/-- An update as the exchange promises it: a snapshot, or an update with a later sequence id
than the last one; at most a hundred levels a side, all of which fit. -/
structure Admissible (link : Link) (update : LevelUpdate) : Prop where
  /-- The sequence id increases. -/
  later : update.isSnapshot = false → link.encoder.lastSequence < update.sequenceId
  /-- The bids can be tracked. -/
  bidCount : update.bids.length ≤ maxLevels
  /-- The asks can be tracked. -/
  askCount : update.asks.length ≤ maxLevels
  bids : Each (fun index => LevelFits (tablesBefore update link.encoder.bids index)) 0 update.bids
  asks : Each (fun index => LevelFits (tablesBefore update link.encoder.asks index)) 0 update.asks

/-- The level does not follow a level of quantity zero at its index, or no positive quantity
was seen there since the snapshot and nothing is lost: its quantity is zero again, or the price
of the level before it was zero. -/
def Legible (sent held : LevelSlot) (level : Int × Int) : Prop :=
  sent.active = true → sent.quantity = 0 →
    held.quantity = 0 ∧ (level.2 = 0 ∨ sent.price = 0)

/-- No level of the update follows a removed one. -/
def NoneRevived (link : Link) (update : LevelUpdate) : Prop :=
  update.isSnapshot = true ∨
    Each (fun index => Legible (link.encoder.bids index) (link.decoder.bids index)) 0 update.bids ∧
    Each (fun index => Legible (link.encoder.asks index) (link.decoder.asks index)) 0 update.asks

instance decidableEach (condition : Fin maxLevels → Int × Int → Prop)
    [∀ index level, Decidable (condition index level)] :
    ∀ index levels, Decidable (Each condition index levels)
  | _, [] => .isTrue trivial
  | index, level :: rest =>
    haveI := decidableEach condition (index + 1) rest
    inferInstanceAs (Decidable ((∀ inside : index < maxLevels, condition ⟨index, inside⟩ level) ∧
      Each condition (index + 1) rest))

instance (slot : LevelSlot) (level : Int × Int) : Decidable (LevelFits slot level) :=
  decidable_of_iff ((i64Min ≤ level.1 ∧ level.1 ≤ i64Max) ∧ (0 ≤ level.2 ∧ level.2 ≤ i64Max) ∧
      (-32768 ≤ level.1 - slot.price ∧ level.1 - slot.price ≤ 32767) ∧
      -2147483648 ≤ level.2 - slot.quantity ∧ level.2 - slot.quantity ≤ 2147483647)
    ⟨fun fits => ⟨fits.1, fits.2.1, fits.2.2.1, fits.2.2.2⟩,
      fun fits => ⟨fits.price, fits.quantity, fits.priceDelta, fits.quantityDelta⟩⟩

instance (link : Link) (update : LevelUpdate) : Decidable (Admissible link update) :=
  decidable_of_iff ((update.isSnapshot = false → link.encoder.lastSequence < update.sequenceId) ∧
      update.bids.length ≤ maxLevels ∧ update.asks.length ≤ maxLevels ∧
      Each (fun index => LevelFits (tablesBefore update link.encoder.bids index)) 0 update.bids ∧
      Each (fun index => LevelFits (tablesBefore update link.encoder.asks index)) 0 update.asks)
    ⟨fun given => ⟨given.1, given.2.1, given.2.2.1, given.2.2.2.1, given.2.2.2.2⟩,
      fun given => ⟨given.later, given.bidCount, given.askCount, given.bids, given.asks⟩⟩

instance (sent held : LevelSlot) (level : Int × Int) : Decidable (Legible sent held level) :=
  inferInstanceAs (Decidable (sent.active = true → sent.quantity = 0 →
    held.quantity = 0 ∧ (level.2 = 0 ∨ sent.price = 0)))

instance (link : Link) (update : LevelUpdate) : Decidable (NoneRevived link update) :=
  inferInstanceAs (Decidable (update.isSnapshot = true ∨
    Each (fun index => Legible (link.encoder.bids index) (link.decoder.bids index)) 0 update.bids ∧
    Each (fun index => Legible (link.encoder.asks index) (link.decoder.asks index)) 0 update.asks))

/-! ## One level -/

/-- The last values of the two ends at one index, as every agreeing exchange leaves them. -/
structure Synced (sent held : LevelSlot) : Prop where
  /-- An index without a level has no last values. -/
  blank : sent.active = false → sent.price = 0 ∧ sent.quantity = 0
  /-- No quantity sent is negative. -/
  nonneg : 0 ≤ sent.quantity
  /-- No quantity held is negative. -/
  heldNonneg : 0 ≤ held.quantity
  /-- A positive level is held as it was sent. -/
  same : 0 < sent.quantity → held.price = sent.price ∧ held.quantity = sent.quantity
  /-- The decoder holds no price without a positive quantity. -/
  stale : held.quantity = 0 → held.price = 0

theorem synced_empty : Synced ⟨0, 0, false⟩ ⟨0, 0, false⟩ where
  blank _ := ⟨rfl, rfl⟩
  nonneg := le_rfl
  heldNonneg := le_rfl
  same _ := ⟨rfl, rfl⟩
  stale _ := rfl

/-- The delta of a level that fits. -/
def deltaOf (slot : LevelSlot) (level : Int × Int) (index : Nat) (isSnapshot : Bool) :
    DeltaLevel where
  priceDelta := level.1 - slot.price
  quantityDelta := level.2 - slot.quantity
  levelIndex := UInt8.ofNat index
  updateType := DeltaOfDeltaEncoder.levelType slot level.2 isSnapshot

theorem deltaOf_fits {slot : LevelSlot} {level : Int × Int} (fits : LevelFits slot level)
    (index : Nat) (isSnapshot : Bool) : (deltaOf slot level index isSnapshot).Fits where
  price := fits.priceDelta
  quantity := fits.quantityDelta

variable {isSnapshot : Bool} {sent : LevelSlot}

theorem encodeLevelDelta_fits {slot : LevelSlot} {level : Int × Int} (fits : LevelFits slot level)
    (cleared : isSnapshot = true → slot.price = 0 ∧ slot.quantity = 0) (index : Nat) :
    DeltaOfDeltaEncoder.encodeLevelDelta slot level.1 level.2 index isSnapshot =
      some (deltaOf slot level index isSnapshot) := by
  have price := fits.priceDelta
  have quantity := fits.quantityDelta
  cases isSnapshot with
  | true =>
    have zeroPrice := (cleared rfl).1
    have zeroQuantity := (cleared rfl).2
    have priceKept : Int.bmod level.1 65536 = level.1 - slot.price := by
      rw [zeroPrice, Int.sub_zero]
      exact Int.bmod_eq_of_le (by omega) (by omega)
    have quantityKept : Int.bmod level.2 4294967296 = level.2 - slot.quantity := by
      rw [zeroQuantity, Int.sub_zero]
      exact Int.bmod_eq_of_le (by omega) (by omega)
    simp only [DeltaOfDeltaEncoder.encodeLevelDelta, if_true, priceKept, quantityKept, deltaOf]
  | false =>
    have priceFits : i64 (level.1 - slot.price) = some (level.1 - slot.price) :=
      i64_eq_some.mpr ⟨by unfold i64Min i64Max; omega, rfl⟩
    have quantityFits : i64 (level.2 - slot.quantity) = some (level.2 - slot.quantity) :=
      i64_eq_some.mpr ⟨by unfold i64Min i64Max; omega, rfl⟩
    have priceKept : clampI16 (level.1 - slot.price) = level.1 - slot.price := by
      unfold clampI16
      omega
    have quantityKept : clampI32 (level.2 - slot.quantity) = level.2 - slot.quantity := by
      unfold clampI32
      omega
    simp only [DeltaOfDeltaEncoder.encodeLevelDelta, Bool.false_eq_true, if_false, priceFits,
      quantityFits, Option.bind_some, Option.bind_eq_bind, priceKept, quantityKept, deltaOf]

/-- What the decoder shows of a level read right. -/
def shown (level : Int × Int) : Option (Int × Int) := if 0 < level.2 then some level else none

/-- The last values the decoder holds after a level read right. -/
def heldAfter (held : LevelSlot) (level : Int × Int) : LevelSlot :=
  if 0 < level.2 then ⟨level.1, level.2, true⟩ else { held with active := false }

theorem receive_full {held : LevelSlot} {level : Int × Int} (inactive : sent.active = false)
    (synced : Synced sent held) (index : Nat) :
    DeltaOfDeltaEncoder.receive held (deltaOf sent level index isSnapshot) =
      some (shown level, heldAfter held level) := by
  have zero := synced.blank inactive
  have full : DeltaOfDeltaEncoder.levelType sent level.2 isSnapshot = .snapshot ∨
      DeltaOfDeltaEncoder.levelType sent level.2 isSnapshot = .add := by
    cases isSnapshot with
    | true => exact .inl rfl
    | false => exact .inr (by simp [DeltaOfDeltaEncoder.levelType, inactive])
  have values : DeltaOfDeltaEncoder.receive held (deltaOf sent level index isSnapshot) =
      if 0 < level.2 then some (some level, ⟨level.1, level.2, true⟩)
      else some (none, { held with active := false }) := by
    cases full with
    | inl type =>
      simp only [DeltaOfDeltaEncoder.receive, deltaOf, type, zero.1, zero.2, Int.sub_zero,
        Option.bind_eq_bind, Option.bind_some]
    | inr type =>
      simp only [DeltaOfDeltaEncoder.receive, deltaOf, type, zero.1, zero.2, Int.sub_zero,
        Option.bind_eq_bind, Option.bind_some]
  rw [values, shown, heldAfter]
  split <;> rfl

theorem receive_difference {held : LevelSlot} {level : Int × Int} (active : sent.active = true)
    (index : Nat) : DeltaOfDeltaEncoder.receive held (deltaOf sent level index false) =
      (i64 (held.price + (level.1 - sent.price))).bind fun price =>
        (i64 (held.quantity + (level.2 - sent.quantity))).bind fun quantity =>
          if 0 < quantity then some (some (price, quantity), ⟨price, quantity, true⟩)
          else some (none, { held with active := false }) := by
  have difference : DeltaOfDeltaEncoder.levelType sent level.2 false = .remove ∨
      DeltaOfDeltaEncoder.levelType sent level.2 false = .modify := by
    simp only [DeltaOfDeltaEncoder.levelType, active, Bool.not_true, Bool.false_eq_true, if_false]
    by_cases zero : level.2 = 0
    · exact .inl (if_pos zero)
    · exact .inr (if_neg zero)
  cases difference with
  | inl type => simp only [DeltaOfDeltaEncoder.receive, deltaOf, type, Option.bind_eq_bind]
  | inr type => simp only [DeltaOfDeltaEncoder.receive, deltaOf, type, Option.bind_eq_bind]

theorem receive_legible {held : LevelSlot} {level : Int × Int} (fits : LevelFits sent level)
    (synced : Synced sent held) (cleared : isSnapshot = true → sent.active = false)
    (legible : Legible sent held level) (index : Nat) :
    DeltaOfDeltaEncoder.receive held (deltaOf sent level index isSnapshot) =
      some (shown level, heldAfter held level) := by
  cases active : sent.active with
  | false => exact receive_full active synced index
  | true =>
    have incremental : isSnapshot = false := by
      cases isSnapshot with
      | false => rfl
      | true => exact absurd (active.symm.trans (cleared rfl)) (by decide)
    have nonneg := synced.nonneg
    have priceRange := fits.price
    have quantityRange := fits.quantity
    have low : i64Min ≤ 0 := by decide
    rw [incremental, receive_difference active]
    by_cases vanishes : sent.quantity = 0 ∧ level.2 = 0
    · obtain ⟨gone, zero⟩ := vanishes
      have kept := legible active gone
      have noPrice := synced.stale kept.1
      have sum : held.quantity + (level.2 - sent.quantity) = 0 := by omega
      have priceFits : i64 (held.price + (level.1 - sent.price)) =
          some (held.price + (level.1 - sent.price)) := by
        have small := fits.priceDelta
        exact i64_eq_some.mpr ⟨by unfold i64Min i64Max; omega, rfl⟩
      have sumFits : i64 (0 : Int) = some 0 := by decide
      have hidden : ¬(0 : Int) < level.2 := by omega
      rw [sum, priceFits, sumFits, shown, heldAfter, if_neg hidden, if_neg hidden]
      rfl
    · have lands : held.price + (level.1 - sent.price) = level.1 ∧
          held.quantity + (level.2 - sent.quantity) = level.2 := by
        by_cases gone : sent.quantity = 0
        · have kept := legible active gone
          have noPrice := synced.stale kept.1
          have noSentPrice := kept.2.resolve_left fun zero => vanishes ⟨gone, zero⟩
          exact ⟨by omega, by omega⟩
        · have same := synced.same (by omega)
          exact ⟨by omega, by omega⟩
      rw [lands.1, lands.2, i64_eq_some.mpr ⟨priceRange, rfl⟩,
        i64_eq_some.mpr ⟨⟨by omega, quantityRange.2⟩, rfl⟩, shown, heldAfter]
      simp only [Option.bind_some]
      split <;> rfl

theorem receive_illegible {held : LevelSlot} {level : Int × Int} (fits : LevelFits sent level)
    (synced : Synced sent held) (cleared : isSnapshot = true → sent.active = false)
    (illegible : ¬Legible sent held level) (index : Nat) {found : Option (Int × Int)}
    {slot : LevelSlot}
    (received : DeltaOfDeltaEncoder.receive held (deltaOf sent level index isSnapshot) =
      some (found, slot)) :
    ∃ wrong, found = some wrong ∧ (0 < level.2 → wrong ≠ level) := by
  have active : sent.active = true := by
    by_contra inactive
    exact illegible fun is => absurd is inactive
  have gone : sent.quantity = 0 := by
    by_contra present
    exact illegible fun _ zero => absurd zero present
  have lost : ¬(held.quantity = 0 ∧ (level.2 = 0 ∨ sent.price = 0)) := by
    intro kept
    exact illegible fun _ _ => kept
  have incremental : isSnapshot = false := by
    cases isSnapshot with
    | false => rfl
    | true => exact absurd (active.symm.trans (cleared rfl)) (by decide)
  have nonneg := synced.heldNonneg
  have quantityRange := fits.quantity
  rw [incremental, receive_difference active, Option.bind_eq_some_iff] at received
  obtain ⟨price, priceFits, received⟩ := received
  obtain ⟨quantity, quantityFits, received⟩ := Option.bind_eq_some_iff.mp received
  have priceSum := (i64_eq_some.mp priceFits).2
  have quantitySum := (i64_eq_some.mp quantityFits).2
  by_cases held0 : held.quantity = 0
  · have noPrice := synced.stale held0
    have some_ : level.2 ≠ 0 := fun zero => lost ⟨held0, .inl zero⟩
    have sentPrice : sent.price ≠ 0 := fun zero => lost ⟨held0, .inr zero⟩
    rw [if_pos (by omega)] at received
    cases received
    refine ⟨(price, quantity), rfl, fun _ same => ?_⟩
    have samePrice := congrArg Prod.fst same
    simp only at samePrice
    omega
  · rw [if_pos (by omega)] at received
    cases received
    refine ⟨(price, quantity), rfl, fun _ same => ?_⟩
    have sameQuantity := congrArg Prod.snd same
    simp only at sameQuantity
    omega

theorem synced_after {held : LevelSlot} {level : Int × Int} (nonneg : 0 ≤ level.2)
    (synced : Synced sent held) : Synced ⟨level.1, level.2, true⟩ (heldAfter held level) := by
  unfold heldAfter
  by_cases present : 0 < level.2
  · rw [if_pos present]
    exact {
      blank := fun inactive => by cases inactive
      nonneg := nonneg
      heldNonneg := nonneg
      same := fun _ => ⟨rfl, rfl⟩
      stale := fun zero => absurd zero (by simp only; omega) }
  · rw [if_neg present]
    exact {
      blank := fun inactive => by cases inactive
      nonneg := nonneg
      heldNonneg := synced.heldNonneg
      same := fun positive => absurd positive present
      stale := synced.stale }

/-! ## One side -/

theorem each_congr {first second : Fin maxLevels → Int × Int → Prop} {start : Nat}
    (agree : ∀ index level, start ≤ index.val → (first index level ↔ second index level)) :
    ∀ {index : Nat} {levels : List (Int × Int)}, start ≤ index →
      (Each first index levels ↔ Each second index levels)
  | _, [], _ => Iff.rfl
  | index, level :: rest, after => by
    have here : (∀ inside : index < maxLevels, first ⟨index, inside⟩ level) ↔
        ∀ inside : index < maxLevels, second ⟨index, inside⟩ level :=
      forall_congr' fun inside => agree ⟨index, inside⟩ level after
    exact and_congr here (each_congr agree (Nat.le_succ_of_le after))

/-- What the two ends and the levels of one side have in common before the levels from an
index on are exchanged. -/
structure Ready (isSnapshot : Bool) (index : Nat) (levels : List (Int × Int))
    (sent held : LevelTable) : Prop where
  /-- The levels can be tracked. -/
  room : index + levels.length ≤ maxLevels
  fits : Each (fun index => LevelFits (sent index)) index levels
  /-- The remaining indices are in step. -/
  synced : ∀ i, index ≤ i.val → Synced (sent i) (held i)
  /-- A snapshot has cleared them. -/
  cleared : isSnapshot = true → ∀ i, index ≤ i.val → (sent i).active = false

variable {isSnapshot : Bool} {index : Nat} {level : Int × Int} {rest : List (Int × Int)}
  {sent held : LevelTable}

/-- The index of a level that is ready is inside the bound. -/
theorem Ready.inside (ready : Ready isSnapshot index (level :: rest) sent held) :
    index < maxLevels := by
  have room := ready.room
  rw [List.length_cons] at room
  omega

theorem update_behind {table : LevelTable} {slot : LevelSlot} (inside : index < maxLevels)
    {i : Fin maxLevels} (behind : index + 1 ≤ i.val) :
    Function.update table ⟨index, inside⟩ slot i = table i := by
  apply Function.update_of_ne
  intro same
  rw [same] at behind
  exact absurd behind (Nat.not_succ_le_self index)

theorem Ready.tail (ready : Ready isSnapshot index (level :: rest) sent held)
    (sentSlot heldSlot : LevelSlot) :
    Ready isSnapshot (index + 1) rest (Function.update sent ⟨index, ready.inside⟩ sentSlot)
      (Function.update held ⟨index, ready.inside⟩ heldSlot) where
  room := by
    have room := ready.room
    rw [List.length_cons] at room
    omega
  fits := by
    refine (each_congr (fun i level behind => ?_) (Nat.le_refl _)).mp ready.fits.2
    rw [update_behind ready.inside behind]
  synced i behind := by
    rw [update_behind ready.inside behind, update_behind ready.inside behind]
    exact ready.synced i (Nat.le_of_succ_le behind)
  cleared snapshot i behind := by
    rw [update_behind ready.inside behind]
    exact ready.cleared snapshot i (Nat.le_of_succ_le behind)

/-- Encoding a side writes the delta of its first level, then the rest. -/
theorem encodeSide_cons (ready : Ready isSnapshot index (level :: rest) sent held) :
    DeltaOfDeltaEncoder.encodeSide isSnapshot index (level :: rest) sent =
      (DeltaOfDeltaEncoder.encodeSide isSnapshot (index + 1) rest
        (Function.update sent ⟨index, ready.inside⟩ ⟨level.1, level.2, true⟩)).map
        fun later => ((deltaOf (sent ⟨index, ready.inside⟩) level index isSnapshot).encode ++
          later.1, later.2) := by
  have fits := ready.fits.1 ready.inside
  have synced := ready.synced ⟨index, ready.inside⟩ (Nat.le_refl _)
  have delta := encodeLevelDelta_fits fits
    (fun snapshot => synced.blank (ready.cleared snapshot _ (Nat.le_refl _))) index
  rw [DeltaOfDeltaEncoder.encodeSide, dif_pos ready.inside, delta]
  cases DeltaOfDeltaEncoder.encodeSide isSnapshot (index + 1) rest _ <;> rfl

/-- One delta is decoded and received. -/
theorem decodeSide_cons {slot : LevelSlot} (fits : LevelFits slot level)
    (inside : index < maxLevels) (count : Nat) (more : List UInt8)
    (found : List (Int × Int)) :
    DeltaOfDeltaEncoder.decodeSide (count + 1) index
        ((deltaOf slot level index isSnapshot).encode ++ more) held found =
      (DeltaOfDeltaEncoder.receive (held ⟨index, inside⟩)
        (deltaOf slot level index isSnapshot)).bind fun received =>
          DeltaOfDeltaEncoder.decodeSide count (index + 1) more
            (Function.update held ⟨index, inside⟩ received.2) (found ++ received.1.toList) := by
  have length := (deltaOf slot level index isSnapshot).encode_length
  have enough : ¬((deltaOf slot level index isSnapshot).encode ++ more).length <
      DeltaLevel.size := by
    rw [List.length_append, length]
    omega
  have front : ((deltaOf slot level index isSnapshot).encode ++ more).take DeltaLevel.size =
      (deltaOf slot level index isSnapshot).encode := by
    rw [← length]
    exact List.take_left
  have behind : ((deltaOf slot level index isSnapshot).encode ++ more).drop DeltaLevel.size =
      more := by
    rw [← length]
    exact List.drop_left
  rw [DeltaOfDeltaEncoder.decodeSide, if_neg enough, front,
    DeltaLevel.decode_encode (deltaOf_fits fits index isSnapshot), behind]
  simp only [dif_pos inside]
  rfl

theorem encodeSide_total {levels : List (Int × Int)} :
    ∀ {index : Nat} {sent held : LevelTable}, Ready isSnapshot index levels sent held →
      ∃ encoded, DeltaOfDeltaEncoder.encodeSide isSnapshot index levels sent = some encoded := by
  induction levels with
  | nil => exact fun _ => ⟨_, rfl⟩
  | cons level rest ih =>
    intro index sent held ready
    have later := ih (ready.tail ⟨level.1, level.2, true⟩ ⟨0, 0, true⟩)
    rw [encodeSide_cons ready]
    exact ⟨_, congrArg (Option.map _) later.choose_spec⟩

theorem positive_cons (level : Int × Int) (rest : List (Int × Int)) :
    positive (level :: rest) = (shown level).toList ++ positive rest := by
  unfold positive shown
  by_cases present : 0 < level.2
  · rw [List.filter_cons_of_pos (by simpa using present), if_pos present]
    rfl
  · rw [List.filter_cons_of_neg (by simpa using present), if_neg present]
    rfl

/-- Legible levels of one side are decoded to the positive ones, and the two ends are in step
again. -/
theorem decodeSide_legible {levels : List (Int × Int)} :
    ∀ {index : Nat} {sent held : LevelTable} {bytes : List UInt8} {final : LevelTable},
      Ready isSnapshot index levels sent held →
      Each (fun index => Legible (sent index) (held index)) index levels →
      DeltaOfDeltaEncoder.encodeSide isSnapshot index levels sent = some (bytes, final) →
      ∀ (suffix : List UInt8) (found : List (Int × Int)), ∃ received,
        DeltaOfDeltaEncoder.decodeSide levels.length index (bytes ++ suffix) held found =
          some (.ok (found ++ positive levels, suffix), received) ∧
        (∀ i : Fin maxLevels, i.val < index → final i = sent i ∧ received i = held i) ∧
        ∀ i : Fin maxLevels, index ≤ i.val → Synced (final i) (received i) := by
  induction levels with
  | nil =>
    intro index sent held bytes final ready legible encoded suffix found
    cases encoded
    exact ⟨held, by simp [DeltaOfDeltaEncoder.decodeSide, positive], fun i _ => ⟨rfl, rfl⟩,
      ready.synced⟩
  | cons level rest ih =>
    intro index sent held bytes final ready legible encoded suffix found
    have inside := ready.inside
    have fits := ready.fits.1 inside
    have synced := ready.synced ⟨index, inside⟩ (Nat.le_refl _)
    have received := receive_legible fits synced
      (fun snapshot => ready.cleared snapshot _ (Nat.le_refl _)) (legible.1 inside) index
    rw [encodeSide_cons ready] at encoded
    obtain ⟨later, encodedLater, parts⟩ := Option.map_eq_some_iff.mp encoded
    cases parts
    have restLegible : Each (fun i => Legible
        (Function.update sent ⟨index, inside⟩ ⟨level.1, level.2, true⟩ i)
        (Function.update held ⟨index, inside⟩ (heldAfter (held ⟨index, inside⟩) level) i))
        (index + 1) rest := by
      refine (each_congr (fun i other behind => ?_) (Nat.le_refl _)).mp legible.2
      rw [update_behind inside behind, update_behind inside behind]
    have rest_ := ih (ready.tail _ _) restLegible encodedLater suffix
      (found ++ (shown level).toList)
    refine ⟨rest_.choose, ?_, ?_, ?_⟩
    · rw [List.length_cons, List.append_assoc, decodeSide_cons fits inside, received]
      simp only [Option.bind_some, positive_cons, ← List.append_assoc]
      exact rest_.choose_spec.1
    · intro i before
      have kept := rest_.choose_spec.2.1 i (Nat.lt_succ_of_lt before)
      have other : i ≠ ⟨index, inside⟩ := fun same => absurd before (by simp [same])
      rw [kept.1, kept.2, Function.update_of_ne other, Function.update_of_ne other]
      exact ⟨rfl, rfl⟩
    · intro i after
      by_cases here : i = ⟨index, inside⟩
      · have kept := rest_.choose_spec.2.1 i (by simp [here])
        rw [kept.1, kept.2, here, Function.update_self, Function.update_self]
        exact synced_after fits.quantity.1 synced
      · apply rest_.choose_spec.2.2 i
        have distinct : i.val ≠ index := fun same => here (Fin.ext same)
        omega

theorem decodeSide_keeps {count index : Nat} {bytes : List UInt8} {table final : LevelTable}
    {found levels : List (Int × Int)} {more : List UInt8}
    (decoded : DeltaOfDeltaEncoder.decodeSide count index bytes table found =
      some (.ok (levels, more), final)) : found <+: levels := by
  induction count generalizing index bytes table found with
  | zero =>
    cases decoded
    exact List.prefix_refl _
  | succ count ih =>
    unfold DeltaOfDeltaEncoder.decodeSide at decoded
    split at decoded
    · cases decoded
    · split at decoded
      · cases decoded
      · split at decoded
        · obtain ⟨received, _, later⟩ := Option.bind_eq_some_iff.mp decoded
          exact (List.prefix_append _ _).trans (ih later)
        · cases decoded

theorem receive_shows {slot : LevelSlot} {found : Option (Int × Int)}
    (ready : Ready isSnapshot index (level :: rest) sent held)
    (received : DeltaOfDeltaEncoder.receive (held ⟨index, ready.inside⟩)
      (deltaOf (sent ⟨index, ready.inside⟩) level index isSnapshot) = some (found, slot)) :
    (shown level).toList.length ≤ found.toList.length := by
  have fits := ready.fits.1 ready.inside
  have synced := ready.synced ⟨index, ready.inside⟩ (Nat.le_refl _)
  have cleared := fun snapshot => ready.cleared snapshot ⟨index, ready.inside⟩ (Nat.le_refl _)
  by_cases legible : Legible (sent ⟨index, ready.inside⟩) (held ⟨index, ready.inside⟩) level
  · rw [receive_legible fits synced cleared legible] at received
    cases received
    exact Nat.le_refl _
  · have wrong := receive_illegible fits synced cleared legible index received
    rw [wrong.choose_spec.1]
    unfold shown
    split
    · exact Nat.le_refl _
    · exact Nat.zero_le _

theorem decodeSide_shows {levels : List (Int × Int)} :
    ∀ {index : Nat} {sent held : LevelTable} {bytes : List UInt8} {final : LevelTable},
      Ready isSnapshot index levels sent held →
      DeltaOfDeltaEncoder.encodeSide isSnapshot index levels sent = some (bytes, final) →
      ∀ {suffix more : List UInt8} {found out : List (Int × Int)} {table : LevelTable},
        DeltaOfDeltaEncoder.decodeSide levels.length index (bytes ++ suffix) held found =
          some (.ok (out, more), table) →
        found.length + (positive levels).length ≤ out.length := by
  induction levels with
  | nil =>
    intro index sent held bytes final ready encoded suffix more found out table decoded
    cases encoded
    cases decoded
    exact Nat.le_refl _
  | cons level rest ih =>
    intro index sent held bytes final ready encoded suffix more found out table decoded
    rw [encodeSide_cons ready] at encoded
    obtain ⟨later, encodedLater, parts⟩ := Option.map_eq_some_iff.mp encoded
    cases parts
    rw [List.length_cons, List.append_assoc,
      decodeSide_cons (ready.fits.1 ready.inside) ready.inside] at decoded
    obtain ⟨received, receivedHere, decodedLater⟩ := Option.bind_eq_some_iff.mp decoded
    have here := receive_shows ready receivedHere
    have behind := ih (ready.tail _ _) encodedLater decodedLater
    rw [positive_cons, List.length_append]
    rw [List.length_append] at behind
    omega

theorem legible_of_decodeSide {levels : List (Int × Int)} :
    ∀ {index : Nat} {sent held : LevelTable} {bytes : List UInt8} {final : LevelTable},
      Ready isSnapshot index levels sent held →
      DeltaOfDeltaEncoder.encodeSide isSnapshot index levels sent = some (bytes, final) →
      ∀ {suffix more : List UInt8} {found : List (Int × Int)} {table : LevelTable},
        DeltaOfDeltaEncoder.decodeSide levels.length index (bytes ++ suffix) held found =
          some (.ok (found ++ positive levels, more), table) →
        Each (fun index => Legible (sent index) (held index)) index levels := by
  induction levels with
  | nil => exact fun _ _ _ _ _ _ _ => trivial
  | cons level rest ih =>
    intro index sent held bytes final ready encoded suffix more found table decoded
    have inside := ready.inside
    have fits := ready.fits.1 inside
    have synced := ready.synced ⟨index, inside⟩ (Nat.le_refl _)
    have cleared := fun snapshot => ready.cleared snapshot ⟨index, inside⟩ (Nat.le_refl _)
    rw [encodeSide_cons ready] at encoded
    obtain ⟨later, encodedLater, parts⟩ := Option.map_eq_some_iff.mp encoded
    cases parts
    rw [List.length_cons, List.append_assoc, decodeSide_cons fits inside] at decoded
    obtain ⟨received, receivedHere, decodedLater⟩ := Option.bind_eq_some_iff.mp decoded
    by_cases legible : Legible (sent ⟨index, inside⟩) (held ⟨index, inside⟩) level
    · rw [receive_legible fits synced cleared legible] at receivedHere
      cases receivedHere
      rw [positive_cons, ← List.append_assoc] at decodedLater
      have behind := ih (ready.tail _ _) encodedLater decodedLater
      refine ⟨fun _ => legible, ?_⟩
      refine (each_congr (fun i other after => ?_) (Nat.le_refl _)).mp behind
      rw [update_behind inside after, update_behind inside after]
    · -- The level shown in its place is wrong, or one level too many.
      exfalso
      obtain ⟨wrong, foundHere, differs⟩ :=
        receive_illegible fits synced cleared legible index receivedHere
      rw [foundHere] at decodedLater
      by_cases present : 0 < level.2
      · have kept := decodeSide_keeps decodedLater
        rw [positive_cons, shown, if_pos present, List.prefix_append_right_inj] at kept
        have same := (List.cons_prefix_cons.mp kept).1
        exact differs present same
      · have count := decodeSide_shows (ready.tail _ _) encodedLater decodedLater
        rw [positive_cons, shown, if_neg present] at count
        simp only [Option.toList, List.length_append, List.length_cons, List.length_nil] at count
        omega

/-! ## One update -/

theorem decodeCounted_side {levels : List (Int × Int)} (few : levels.length ≤ maxLevels)
    (bytes : List UInt8) (table : LevelTable) :
    DeltaOfDeltaEncoder.decodeCounted (UInt8.ofNat levels.length :: bytes) table =
      DeltaOfDeltaEncoder.decodeSide levels.length 0 bytes table [] := by
  have small : (UInt8.ofNat levels.length).toNat = levels.length := by
    unfold maxLevels at few
    rw [UInt8.toNat_ofNat']
    exact Nat.mod_eq_of_lt (by omega)
  rw [DeltaOfDeltaEncoder.decodeCounted, small]

/-- The tables of an encoder and its decoder are in step. -/
structure InStep (link : Link) : Prop where
  /-- The bids are in step. -/
  bids : ∀ i, Synced (link.encoder.bids i) (link.decoder.bids i)
  /-- The asks are in step. -/
  asks : ∀ i, Synced (link.encoder.asks i) (link.decoder.asks i)

theorem ready_side {update : LevelUpdate} {levels : List (Int × Int)} {sent held : LevelTable}
    (few : levels.length ≤ maxLevels)
    (fits : Each (fun index => LevelFits (tablesBefore update sent index)) 0 levels)
    (synced : ∀ i, Synced (sent i) (held i)) :
    Ready update.isSnapshot 0 levels (tablesBefore update sent) (tablesBefore update held) where
  room := by omega
  fits := fits
  synced i _ := by
    cases snapshot : update.isSnapshot with
    | true =>
      rw [tablesBefore, tablesBefore, if_pos snapshot, if_pos snapshot]
      exact synced_empty
    | false => simpa [tablesBefore, snapshot] using synced i
  cleared snapshot i _ := by simp [tablesBefore, snapshot, LevelTable.empty]

theorem each_legible_empty (held : LevelTable) :
    ∀ (index : Nat) (levels : List (Int × Int)),
      Each (fun i => Legible (LevelTable.empty i) (held i)) index levels
  | _, [] => trivial
  | index, _ :: rest =>
    ⟨fun _ active => Bool.noConfusion active, each_legible_empty held (index + 1) rest⟩

theorem noneRevived_iff (link : Link) (update : LevelUpdate) :
    NoneRevived link update ↔
      Each (fun index => Legible (tablesBefore update link.encoder.bids index)
        (tablesBefore update link.decoder.bids index)) 0 update.bids ∧
      Each (fun index => Legible (tablesBefore update link.encoder.asks index)
        (tablesBefore update link.decoder.asks index)) 0 update.asks := by
  unfold NoneRevived tablesBefore
  cases update.isSnapshot with
  | true =>
    simp only [if_true, true_or, true_iff]
    exact ⟨each_legible_empty _ _ _, each_legible_empty _ _ _⟩
  | false => simp only [Bool.false_eq_true, if_false, false_or]

/-- The bytes of an update whose sides have been encoded. -/
def packet (update : LevelUpdate) (bidBytes askBytes : List UInt8) : List UInt8 :=
  toLE 8 update.sequenceId.toNat ++
    [if update.isSnapshot then 1 else 0,
      if update.isSnapshot then UpdateType.snapshot.toByte else 0,
      UInt8.ofNat update.bids.length] ++
    bidBytes ++ [UInt8.ofNat update.asks.length] ++ askBytes

/-- An admissible update is sent as the packet of its encoded sides. -/
theorem processUpdate_packet {link : Link} {update : LevelUpdate}
    (admissible : Admissible link update) {bidBytes askBytes : List UInt8}
    {bidTable askTable : LevelTable}
    (bids : DeltaOfDeltaEncoder.encodeSide update.isSnapshot 0 update.bids
      (tablesBefore update link.encoder.bids) = some (bidBytes, bidTable))
    (asks : DeltaOfDeltaEncoder.encodeSide update.isSnapshot 0 update.asks
      (tablesBefore update link.encoder.asks) = some (askBytes, askTable)) :
    ∃ encoder, link.encoder.processUpdate update = some (packet update bidBytes askBytes, encoder) ∧
      encoder.bids = bidTable ∧ encoder.asks = askTable := by
  have timely : ¬(update.sequenceId ≤ link.encoder.lastSequence ∧ update.isSnapshot = false) := by
    intro late
    exact UInt64.not_le.mpr (admissible.later late.2) late.1
  have clearedBids : (if update.isSnapshot then link.encoder.reset else link.encoder).bids =
      tablesBefore update link.encoder.bids := by
    unfold tablesBefore
    split <;> rfl
  have clearedAsks : (if update.isSnapshot then link.encoder.reset else link.encoder).asks =
      tablesBefore update link.encoder.asks := by
    unfold tablesBefore
    split <;> rfl
  rw [DeltaOfDeltaEncoder.processUpdate, if_neg timely, DeltaOfDeltaEncoder.encodeUpdate,
    List.take_of_length_le admissible.bidCount, List.take_of_length_le admissible.askCount,
    clearedBids, clearedAsks, bids]
  simp only [Option.bind_eq_bind, Option.bind_some, asks]
  exact ⟨_, rfl, rfl, rfl⟩

/-- The decoder reads the bids of a packet and then the asks. -/
theorem decodeUpdate_packet (decoder : DeltaOfDeltaEncoder) {update : LevelUpdate}
    (few : update.bids.length ≤ maxLevels) (bidBytes askBytes : List UInt8) :
    ∃ cleared : DeltaOfDeltaEncoder,
      cleared.asks = tablesBefore update decoder.asks ∧
      decoder.decodeUpdate (packet update bidBytes askBytes) =
        (DeltaOfDeltaEncoder.decodeSide update.bids.length 0
          (bidBytes ++ UInt8.ofNat update.asks.length :: askBytes)
          (tablesBefore update decoder.bids) []).bind fun decoded =>
            match decoded.1 with
            | .error error => some (.error error, { cleared with bids := decoded.2 })
            | .ok (bids, rest) =>
              (DeltaOfDeltaEncoder.decodeCounted rest cleared.asks).bind fun later =>
                match later.1 with
                | .error error =>
                  some (.error error, { cleared with bids := decoded.2, asks := later.2 })
                | .ok (asks, _) =>
                  some (.ok (bids, asks), { cleared with bids := decoded.2, asks := later.2 }) := by
  have parts : packet update bidBytes askBytes = toLE 8 update.sequenceId.toNat ++
      (if update.isSnapshot then 1 else 0) ::
      (if update.isSnapshot then UpdateType.snapshot.toByte else 0) ::
      UInt8.ofNat update.bids.length ::
      (bidBytes ++ UInt8.ofNat update.asks.length :: askBytes) := by
    simp [packet]
  have enough : ¬(packet update bidBytes askBytes).length < 11 := by
    simp only [parts, List.length_append, List.length_cons, toLE_length]
    omega
  have behind : (packet update bidBytes askBytes).drop 10 =
      UInt8.ofNat update.bids.length ::
        (bidBytes ++ UInt8.ofNat update.asks.length :: askBytes) := by
    rw [parts]
    rfl
  have marker : word (packet update bidBytes askBytes) 9 1 % 2 = 1 ↔ update.isSnapshot = true := by
    have byte : word (packet update bidBytes askBytes) 9 1 =
        ofLE [if update.isSnapshot then UpdateType.snapshot.toByte else 0] := by
      rw [parts]
      rfl
    rw [byte]
    cases update.isSnapshot with
    | true => decide
    | false => decide
  have clearedBids : (if word (packet update bidBytes askBytes) 9 1 % 2 = 1 then decoder.reset
      else decoder).bids = tablesBefore update decoder.bids := by
    simp only [marker, tablesBefore]
    split <;> rfl
  have clearedAsks : (if word (packet update bidBytes askBytes) 9 1 % 2 = 1 then decoder.reset
      else decoder).asks = tablesBefore update decoder.asks := by
    simp only [marker, tablesBefore]
    split <;> rfl
  refine ⟨_, clearedAsks, ?_⟩
  rw [DeltaOfDeltaEncoder.decodeUpdate, if_neg enough, behind]
  simp only [clearedBids, decodeCounted_side few]
  rfl

theorem transmit_legible {link : Link} {update : LevelUpdate} (admissible : Admissible link update)
    (inStep : InStep link) (noneRevived : NoneRevived link update) :
    (transmit link update).agreed = link.agreed ∧ InStep (transmit link update) := by
  have legible := (noneRevived_iff link update).mp noneRevived
  have bidsReady := ready_side admissible.bidCount admissible.bids inStep.bids
  have asksReady := ready_side admissible.askCount admissible.asks inStep.asks
  obtain ⟨⟨bidBytes, bidTable⟩, bidsEncoded⟩ := encodeSide_total bidsReady
  obtain ⟨⟨askBytes, askTable⟩, asksEncoded⟩ := encodeSide_total asksReady
  obtain ⟨encoder, sent, sentBids, sentAsks⟩ :=
    processUpdate_packet admissible bidsEncoded asksEncoded
  obtain ⟨cleared, clearedAsks, decoded⟩ :=
    decodeUpdate_packet link.decoder admissible.bidCount bidBytes askBytes
  obtain ⟨bidsReceived, bidsDecoded, _, bidsSynced⟩ := decodeSide_legible bidsReady legible.1
    bidsEncoded (UInt8.ofNat update.asks.length :: askBytes) []
  obtain ⟨asksReceived, asksDecoded, _, asksSynced⟩ := decodeSide_legible asksReady legible.2
    asksEncoded [] []
  rw [List.append_nil] at asksDecoded
  rw [bidsDecoded, Option.bind_some] at decoded
  simp only [decodeCounted_side admissible.askCount, clearedAsks, asksDecoded,
    Option.bind_some, List.nil_append] at decoded
  have outcome : transmit link update = {
      encoder := encoder
      decoder := { cleared with bids := bidsReceived, asks := asksReceived }
      agreed := link.agreed } := by
    simp only [transmit, sent, decoded, matchesUpdate, and_self, decide_true, Bool.and_true]
  rw [outcome]
  refine ⟨rfl, ?_, ?_⟩
  · intro i
    rw [sentBids]
    exact bidsSynced i (Nat.zero_le _)
  · intro i
    rw [sentAsks]
    exact asksSynced i (Nat.zero_le _)

theorem decoded_of_agreed {link : Link} {update : LevelUpdate} {bytes : List UInt8}
    {encoder : DeltaOfDeltaEncoder}
    (sent : link.encoder.processUpdate update = some (bytes, encoder))
    (agreed : (transmit link update).agreed = true) :
    ∃ decoder, link.decoder.decodeUpdate bytes =
      some (.ok (positive update.bids, positive update.asks), decoder) := by
  simp only [transmit, sent] at agreed
  cases decoded : link.decoder.decodeUpdate bytes with
  | none => simp [decoded] at agreed
  | some outcome =>
    obtain ⟨result, decoder⟩ := outcome
    cases result with
    | error error => simp [decoded, matchesUpdate] at agreed
    | ok levels =>
      simp only [decoded, matchesUpdate, Bool.and_eq_true, decide_eq_true_eq] at agreed
      exact ⟨decoder, by rw [← agreed.2.1, ← agreed.2.2]⟩

theorem noneRevived_of_transmit {link : Link} {update : LevelUpdate}
    (admissible : Admissible link update) (inStep : InStep link)
    (agreed : (transmit link update).agreed = true) : NoneRevived link update := by
  have bidsReady := ready_side admissible.bidCount admissible.bids inStep.bids
  have asksReady := ready_side admissible.askCount admissible.asks inStep.asks
  obtain ⟨⟨bidBytes, bidTable⟩, bidsEncoded⟩ := encodeSide_total bidsReady
  obtain ⟨⟨askBytes, askTable⟩, asksEncoded⟩ := encodeSide_total asksReady
  obtain ⟨encoder, sent, _, _⟩ := processUpdate_packet admissible bidsEncoded asksEncoded
  obtain ⟨cleared, clearedAsks, packetDecoded⟩ :=
    decodeUpdate_packet link.decoder admissible.bidCount bidBytes askBytes
  obtain ⟨decoder, decoded⟩ := decoded_of_agreed sent agreed
  rw [packetDecoded] at decoded
  obtain ⟨⟨bidResult, bidsHeld⟩, bidsDecoded, later⟩ := Option.bind_eq_some_iff.mp decoded
  cases bidResult with
  | error error => cases later
  | ok read =>
    obtain ⟨⟨askResult, asksHeld⟩, asksDecoded, last⟩ := Option.bind_eq_some_iff.mp later
    cases askResult with
    | error error => cases last
    | ok readAsks =>
      simp only [Option.some.injEq, Prod.mk.injEq, Except.ok.injEq] at last
      have bidsRead := last.1.1
      have asksRead := last.1.2
      have bidsExact : DeltaOfDeltaEncoder.decodeSide update.bids.length 0
          (bidBytes ++ UInt8.ofNat update.asks.length :: askBytes)
          (tablesBefore update link.decoder.bids) [] =
            some (.ok ([] ++ positive update.bids, read.2), bidsHeld) := by
        rw [bidsDecoded, List.nil_append, ← bidsRead]
      have bidsLegible := legible_of_decodeSide bidsReady bidsEncoded bidsExact
      -- Legible bids are consumed exactly, so the asks are read from their own bytes.
      obtain ⟨_, bidsWhole, _, _⟩ := decodeSide_legible bidsReady bidsLegible bidsEncoded
        (UInt8.ofNat update.asks.length :: askBytes) []
      have remaining : read.2 = UInt8.ofNat update.asks.length :: askBytes := by
        have same := bidsExact.symm.trans bidsWhole
        simp only [Option.some.injEq, Prod.mk.injEq, Except.ok.injEq] at same
        exact same.1.2
      have asksExact : DeltaOfDeltaEncoder.decodeSide update.asks.length 0 (askBytes ++ [])
          (tablesBefore update link.decoder.asks) [] =
            some (.ok ([] ++ positive update.asks, readAsks.2), asksHeld) := by
        rw [List.append_nil, ← decodeCounted_side admissible.askCount, ← remaining,
          ← clearedAsks, asksDecoded, List.nil_append, ← asksRead]
      exact (noneRevived_iff link update).mpr
        ⟨bidsLegible, legible_of_decodeSide asksReady asksEncoded asksExact⟩

/-! ## Runs -/

theorem inStep_new : InStep Link.new where
  bids _ := synced_empty
  asks _ := synced_empty

/-- In every run of admissible updates through two new ends, every update is decoded to exactly
its positive levels if and only if no update revives a removed level. -/
theorem decoder_follows_encoder (updates : List LevelUpdate)
    (admissible : Guarded step Admissible Link.new updates) :
    Always step Agrees Link.new updates ↔ Guarded step NoneRevived Link.new updates := by
  refine @always_iff_guarded_of _ _ step InStep Agrees Admissible NoneRevived ?_ ?_ _ ?_ ?_ _
    admissible
  · intro link update next inStep _ given noneRevived stepped
    cases stepped
    exact (transmit_legible given inStep noneRevived).2
  · intro link update next inStep agrees given stepped
    cases stepped
    constructor
    · exact noneRevived_of_transmit given inStep
    · intro noneRevived
      have kept := (transmit_legible given inStep noneRevived).1
      exact kept.trans agrees
  · exact inStep_new
  · rfl

/-- A snapshot, a change, a removal and a second snapshot are decoded as they were sent. -/
theorem decoder_follows_encoder_snapshots : Always step Agrees Link.new [
    { sequenceId := 1, bids := [(30000, 100)], asks := [(30001, 150)], isSnapshot := true },
    { sequenceId := 2, bids := [(30001, 120)], asks := [(30001, 0)], isSnapshot := false },
    { sequenceId := 3, bids := [(30000, 90)], asks := [(30002, 60)], isSnapshot := true }] :=
  (decoder_follows_encoder _ (by decide +kernel)).mpr (by decide +kernel)

/-- A bid, its removal and a bid put back at its index. -/
def revival : List LevelUpdate := [
  { sequenceId := 1, bids := [(100, 5)], asks := [], isSnapshot := true },
  { sequenceId := 2, bids := [(100, 0)], asks := [], isSnapshot := false },
  { sequenceId := 3, bids := [(100, 7)], asks := [], isSnapshot := false }]

/-- The bid put back with quantity seven is decoded with quantity twelve. -/
theorem revived_level_decoded_wrong :
    Guarded step Admissible Link.new revival ∧ ¬Always step Agrees Link.new revival := by
  constructor
  · decide +kernel
  · intro always
    have third : (transmit (transmit (transmit Link.new revival[0]) revival[1]) revival[2]).agreed =
        true := ((always.2 _ rfl).2 _ rfl).2 _ rfl
    have wrong : (transmit (transmit (transmit Link.new revival[0]) revival[1]) revival[2]).agreed =
        false := by decide +kernel
    exact Bool.noConfusion (third.symm.trans wrong)

end TradingBot.DeltaSynchronisation
