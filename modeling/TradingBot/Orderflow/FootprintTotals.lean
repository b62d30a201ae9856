import TradingBot.Foundation.Interleaving
import TradingBot.Orderflow.FootprintBuilder

/-!
# Volumes at their prices

Every price of the range of a footprint is to have a level within half a tick, and the levels are
to hold the whole volume that was traded in the range. A reset moves the range and keeps the levels
with their prices, so this holds as long as the new range fits the levels.
-/

open Run

namespace TradingBot.Orderflow

/-! ## The nearest level -/

section Nearest

variable {first tick low high price : ℚ} {count : Nat}

section

variable (positive : 0 < tick)
include positive

theorem roundHalfAway_of_le (inside : low ≤ price) :
    roundHalfAway ((price - low) / tick) = round ((price - low) / tick) :=
  if_pos (div_nonneg (sub_nonneg.mpr inside) (le_of_lt positive))

theorem offset_cast (inside : low ≤ price) :
    (((roundHalfAway ((price - low) / tick)).toNat : Nat) : ℚ) =
      (round ((price - low) / tick) : ℤ) := by
  rw [roundHalfAway_of_le positive inside]
  have start : (0 : ℚ) ≤ (price - low) / tick :=
    div_nonneg (sub_nonneg.mpr inside) (le_of_lt positive)
  have natural : 0 ≤ round ((price - low) / tick) := by
    rw [round_eq]
    exact Int.floor_nonneg.mpr (by linarith)
  have same := Int.toNat_of_nonneg natural
  exact_mod_cast congrArg (fun value : ℤ => (value : ℚ)) same

theorem offset_near (inside : low ≤ price) :
    |low + ((roundHalfAway ((price - low) / tick)).toNat : ℚ) * tick - price| ≤ tick / 2 := by
  rw [offset_cast positive inside]
  have near := abs_sub_round ((price - low) / tick)
  have scaled : low + (round ((price - low) / tick) : ℚ) * tick - price =
      -(((price - low) / tick - round ((price - low) / tick)) * tick) := by
    field_simp
    ring
  rw [scaled, abs_neg, abs_mul, abs_of_pos positive]
  calc
    _ ≤ 1 / 2 * tick := mul_le_mul_of_nonneg_right near (le_of_lt positive)
    _ = tick / 2 := by ring

theorem offset_zero (inside : low ≤ price) (early : price - low < tick / 2) :
    (roundHalfAway ((price - low) / tick)).toNat = 0 := by
  rw [roundHalfAway_of_le positive inside]
  have zero : round ((price - low) / tick) = 0 := by
    rw [round_eq_zero_iff]
    have start : (0 : ℚ) ≤ (price - low) / tick :=
      div_nonneg (sub_nonneg.mpr inside) (le_of_lt positive)
    refine ⟨by linarith, ?_⟩
    rw [div_lt_iff₀ positive]
    linarith
  rw [zero]
  rfl

theorem offset_half : (roundHalfAway ((low + tick / 2 - low) / tick)).toNat = 1 := by
  have half : (low + tick / 2 - low) / tick = 2⁻¹ := by
    field_simp
    ring
  rw [half]
  unfold roundHalfAway
  rw [if_pos (by norm_num), round_two_inv]
  rfl

theorem offset_mono {other : ℚ} (inside : low ≤ price) (higher : price ≤ other) :
    (roundHalfAway ((price - low) / tick)).toNat ≤
      (roundHalfAway ((other - low) / tick)).toNat := by
  rw [roundHalfAway_of_le positive inside,
    roundHalfAway_of_le positive (le_trans inside higher), round_eq, round_eq]
  apply Int.toNat_le_toNat
  apply Int.floor_le_floor
  have scaled : (price - low) / tick ≤ (other - low) / tick :=
    div_le_div_of_nonneg_right (sub_le_sub_right higher low) (le_of_lt positive)
  linarith

end

/-- A range fits the levels of a footprint: it starts at the price of the first level and is not
longer than the levels, or it is shorter than half a tick and within half a tick of that price. -/
def RangeFits (first tick : ℚ) (count : Nat) (low high : ℚ) : Prop :=
  low = first ∧ (roundHalfAway ((high - low) / tick)).toNat < count ∨
    high - low < tick / 2 ∧ first - tick / 2 ≤ low ∧ high ≤ first + tick / 2

instance (first tick : ℚ) (count : Nat) (low high : ℚ) :
    Decidable (RangeFits first tick count low high) :=
  inferInstanceAs (Decidable (_ ∧ _ ∨ _ ∧ _ ∧ _))

theorem near_iff_fits (positive : 0 < tick) (some_ : 0 < count) (proper : low ≤ high) :
    (∀ price, low ≤ price → price ≤ high →
      (roundHalfAway ((price - low) / tick)).toNat < count ∧
      |first + ((roundHalfAway ((price - low) / tick)).toNat : ℚ) * tick - price| ≤ tick / 2) ↔
      RangeFits first tick count low high := by
  constructor
  · intro near
    obtain ⟨-, lowNear⟩ := near low le_rfl proper
    rw [offset_zero positive le_rfl (by linarith)] at lowNear
    obtain ⟨left, right⟩ := abs_le.mp lowNear
    rw [Nat.cast_zero, zero_mul, add_zero] at left right
    by_cases narrow : high - low < tick / 2
    · obtain ⟨-, highNear⟩ := near high proper le_rfl
      rw [offset_zero positive proper narrow, Nat.cast_zero, zero_mul, add_zero] at highNear
      obtain ⟨bound, -⟩ := abs_le.mp highNear
      exact .inr ⟨narrow, by linarith, by linarith⟩
    · refine .inl ⟨le_antisymm ?_ ?_, (near high proper le_rfl).1⟩
      · -- A price that is nearly half a tick above the lower end still belongs to the first level.
        by_contra above
        have gap : 0 < low - first := by linarith
        have inside : low ≤ low + (tick / 2 - (low - first) / 2) := by linarith
        obtain ⟨-, priceNear⟩ := near (low + (tick / 2 - (low - first) / 2)) inside (by linarith)
        rw [offset_zero positive inside (by linarith), Nat.cast_zero, zero_mul, add_zero]
          at priceNear
        obtain ⟨bound, -⟩ := abs_le.mp priceNear
        linarith
      · obtain ⟨-, halfNear⟩ := near (low + tick / 2) (by linarith) (by linarith)
        rw [offset_half positive, Nat.cast_one, one_mul] at halfNear
        obtain ⟨-, bound⟩ := abs_le.mp halfNear
        linarith
  · rintro (⟨same, within⟩ | ⟨narrow, below, above⟩) price inside under
    · subst same
      exact ⟨lt_of_le_of_lt (offset_mono positive inside under) within,
        offset_near positive inside⟩
    · rw [offset_zero positive inside (by linarith), Nat.cast_zero, zero_mul, add_zero]
      exact ⟨some_, abs_le.mpr ⟨by linarith, by linarith⟩⟩

theorem fits_countLevels (positive : 0 < tick) (proper : low ≤ high) :
    RangeFits low tick (FootprintMatrix.countLevels low high tick) low high := by
  refine .inl ⟨rfl, Nat.lt_succ_of_le ?_⟩
  rw [roundHalfAway_of_le positive proper]
  apply Int.toNat_le_toNat
  rw [round_eq]
  apply Int.lt_add_one_iff.mp
  apply Int.floor_lt.mpr
  have ceiled := Int.le_ceil ((high - low) / tick)
  push_cast
  linarith

end Nearest

/-! ## The levels -/

namespace FootprintLevel

variable (level : FootprintLevel) (volume : ℚ) (isBuyerMaker : Bool) (ts : Nat)

theorem bidVolume_update : (level.update volume isBuyerMaker ts).bidVolume =
    level.bidVolume + if isBuyerMaker = true then volume else 0 := by
  cases isBuyerMaker with
  | true => rfl
  | false => exact (add_zero level.bidVolume).symm

theorem askVolume_update : (level.update volume isBuyerMaker ts).askVolume =
    level.askVolume + if isBuyerMaker = false then volume else 0 := by
  cases isBuyerMaker with
  | true => exact (add_zero level.askVolume).symm
  | false => rfl

theorem delta_update : (level.update volume isBuyerMaker ts).delta =
    (level.update volume isBuyerMaker ts).askVolume -
      (level.update volume isBuyerMaker ts).bidVolume :=
  rfl

end FootprintLevel

namespace FootprintMatrix

variable {matrix : FootprintMatrix} {price volume : ℚ} {isBuyerMaker : Bool} {ts index : Nat}

/-- The price of the first level. -/
def firstPrice (matrix : FootprintMatrix) : ℚ := (matrix.levels.map FootprintLevel.price).headD 0

/-- The levels have prices a tick apart, and the range is not empty. -/
structure Shaped (matrix : FootprintMatrix) : Prop where
  positive : 0 < matrix.tickSize
  proper : matrix.minPrice ≤ matrix.maxPrice
  some_ : 0 < matrix.levelCount
  spaced : matrix.levels.map FootprintLevel.price = (List.range matrix.levelCount).map
    fun (i : Nat) => matrix.firstPrice + i * matrix.tickSize

/-- Every price of the range has a level within half a tick. -/
def Near (matrix : FootprintMatrix) : Prop :=
  ∀ price, matrix.minPrice ≤ price → price ≤ matrix.maxPrice →
    ∃ index level, matrix.priceToIndex price = some index ∧ matrix.levels[index]? = some level ∧
      |level.price - price| ≤ matrix.tickSize / 2

theorem level_price (shaped : matrix.Shaped) (inside : index < matrix.levelCount) :
    ∃ level, matrix.levels[index]? = some level ∧
      level.price = matrix.firstPrice + index * matrix.tickSize := by
  have bound : index < matrix.levels.length := by rw [matrix.counted]; exact inside
  refine ⟨matrix.levels[index], List.getElem?_eq_getElem bound, ?_⟩
  have label : (matrix.levels.map FootprintLevel.price)[index]? =
      some (matrix.firstPrice + index * matrix.tickSize) := by
    rw [shaped.spaced, List.getElem?_map, List.getElem?_range inside]
    rfl
  rw [List.getElem?_map, List.getElem?_eq_getElem bound] at label
  exact Option.some.inj label

theorem priceToIndex_inside (above : matrix.minPrice ≤ price) (below : price ≤ matrix.maxPrice) :
    matrix.priceToIndex price = some index ↔
      (roundHalfAway ((price - matrix.minPrice) / matrix.tickSize)).toNat = index ∧
        index < matrix.levelCount := by
  unfold priceToIndex
  rw [if_neg (not_or.mpr ⟨not_lt.mpr above, not_lt.mpr below⟩)]
  dsimp only
  split
  · next within =>
    constructor
    · intro same
      have here := Option.some.inj same
      exact ⟨here, here ▸ within⟩
    · exact fun same => congrArg some same.1
  · next beyond =>
    refine iff_of_false (by simp) ?_
    rintro ⟨rfl, within⟩
    exact beyond within

theorem inside_of_index (found : matrix.priceToIndex price = some index) :
    matrix.minPrice ≤ price ∧ price ≤ matrix.maxPrice ∧ index < matrix.levelCount := by
  have whole := found
  unfold priceToIndex at found
  split at found
  · cases found
  · next inside =>
    obtain ⟨above, below⟩ := not_or.mp inside
    have bounds := And.intro (not_lt.mp above) (not_lt.mp below)
    exact ⟨bounds.1, bounds.2, ((priceToIndex_inside bounds.1 bounds.2).mp whole).2⟩

theorem near_iff (shaped : matrix.Shaped) :
    matrix.Near ↔ RangeFits matrix.firstPrice matrix.tickSize matrix.levelCount matrix.minPrice
      matrix.maxPrice := by
  rw [← near_iff_fits shaped.positive shaped.some_ shaped.proper]
  unfold Near
  refine forall_congr' fun price => forall_congr' fun above => forall_congr' fun below => ?_
  constructor
  · rintro ⟨index, level, found, there, near⟩
    obtain ⟨rfl, within⟩ := (priceToIndex_inside above below).mp found
    obtain ⟨other, same, label⟩ := level_price shaped within
    cases there.symm.trans same
    rw [label] at near
    exact ⟨within, near⟩
  · rintro ⟨within, near⟩
    obtain ⟨level, there, label⟩ := level_price shaped within
    refine ⟨_, level, (priceToIndex_inside above below).mpr ⟨rfl, within⟩, there, ?_⟩
    rw [label]
    exact near

/-- A tick is outside the matrix or updates one level. -/
theorem updateTick_cases (matrix : FootprintMatrix) (price volume : ℚ) (isBuyerMaker : Bool)
    (ts : Nat) :
    matrix.priceToIndex price = none ∧
        matrix.updateTick price volume isBuyerMaker ts = matrix ∨
      ∃ before level after, matrix.levels = before ++ level :: after ∧
        matrix.priceToIndex price = some before.length ∧
        (matrix.updateTick price volume isBuyerMaker ts).levels =
          before ++ level.update volume isBuyerMaker ts :: after := by
  unfold updateTick
  cases found : matrix.priceToIndex price with
  | none => exact .inl ⟨rfl, rfl⟩
  | some index =>
    have inside : index < matrix.levels.length := by
      rw [matrix.counted]
      exact (inside_of_index found).2.2
    obtain ⟨before, level, after, whole, rfl, changed⟩ := List.exists_of_modify
      (fun level => level.update volume isBuyerMaker ts) inside
    exact .inr ⟨before, level, after, whole, rfl, changed⟩

theorem updateTick_frame (matrix : FootprintMatrix) (price volume : ℚ) (isBuyerMaker : Bool)
    (ts : Nat) :
    (matrix.updateTick price volume isBuyerMaker ts).levels.map FootprintLevel.price =
        matrix.levels.map FootprintLevel.price ∧
      (matrix.updateTick price volume isBuyerMaker ts).minPrice = matrix.minPrice ∧
      (matrix.updateTick price volume isBuyerMaker ts).maxPrice = matrix.maxPrice ∧
      (matrix.updateTick price volume isBuyerMaker ts).tickSize = matrix.tickSize ∧
      (matrix.updateTick price volume isBuyerMaker ts).levelCount = matrix.levelCount := by
  refine ⟨?_, ?_⟩
  · rcases matrix.updateTick_cases price volume isBuyerMaker ts with
      ⟨-, same⟩ | ⟨before, level, after, whole, -, changed⟩
    · rw [same]
    · have kept : (level.update volume isBuyerMaker ts).price = level.price := by
        unfold FootprintLevel.update FootprintLevel.trade
        cases isBuyerMaker <;> rfl
      rw [changed, whole, List.map_append, List.map_append, List.map_cons, List.map_cons, kept]
  · unfold updateTick
    split <;> exact ⟨rfl, rfl, rfl, rfl⟩

theorem Shaped.of_frame {after : FootprintMatrix} (shaped : matrix.Shaped)
    (prices : after.levels.map FootprintLevel.price = matrix.levels.map FootprintLevel.price)
    (proper : after.minPrice ≤ after.maxPrice) (tick : after.tickSize = matrix.tickSize)
    (count : after.levelCount = matrix.levelCount) : after.Shaped := by
  have first : after.firstPrice = matrix.firstPrice := by
    unfold firstPrice
    rw [prices]
  refine ⟨tick ▸ shaped.positive, proper, count ▸ shaped.some_, ?_⟩
  rw [prices, first, tick, count]
  exact shaped.spaced

theorem Shaped.updateTick (shaped : matrix.Shaped) (price volume : ℚ) (isBuyerMaker : Bool)
    (ts : Nat) : (matrix.updateTick price volume isBuyerMaker ts).Shaped := by
  obtain ⟨prices, low, high, tick, count⟩ :=
    matrix.updateTick_frame price volume isBuyerMaker ts
  exact shaped.of_frame prices (by rw [low, high]; exact shaped.proper) tick count

theorem prices_reset (matrix : FootprintMatrix) (low high : ℚ) :
    (matrix.reset low high).levels.map FootprintLevel.price =
      matrix.levels.map FootprintLevel.price := by
  unfold reset
  rw [List.map_map]
  rfl

theorem Shaped.reset (shaped : matrix.Shaped) {low high : ℚ} (proper : low ≤ high) :
    (matrix.reset low high).Shaped :=
  shaped.of_frame (matrix.prices_reset low high) proper rfl rfl

theorem firstPrice_reset (matrix : FootprintMatrix) (low high : ℚ) :
    (matrix.reset low high).firstPrice = matrix.firstPrice := by
  unfold firstPrice
  rw [prices_reset]

theorem near_updateTick (shaped : matrix.Shaped) :
    (matrix.updateTick price volume isBuyerMaker ts).Near ↔ matrix.Near := by
  obtain ⟨prices, low, high, tick, count⟩ :=
    matrix.updateTick_frame price volume isBuyerMaker ts
  have first : (matrix.updateTick price volume isBuyerMaker ts).firstPrice = matrix.firstPrice := by
    unfold firstPrice
    rw [prices]
  rw [near_iff shaped, near_iff (shaped.updateTick price volume isBuyerMaker ts), first, low, high,
    tick, count]

theorem shaped_new {low high tick : ℚ} (positive : 0 < tick) (proper : low ≤ high) :
    (FootprintMatrix.new low high tick).Shaped ∧
      (FootprintMatrix.new low high tick).firstPrice = low := by
  have labels : (FootprintMatrix.new low high tick).levels.map FootprintLevel.price =
      (List.range (countLevels low high tick)).map fun (i : Nat) => low + i * tick := by
    unfold FootprintMatrix.new makeLevels
    rw [List.map_map]
    rfl
  have first : (FootprintMatrix.new low high tick).firstPrice = low := by
    unfold firstPrice
    rw [labels]
    unfold countLevels
    rw [List.range_succ_eq_map, List.map_cons, List.headD_cons, Nat.cast_zero, zero_mul, add_zero]
  refine ⟨⟨positive, proper, Nat.succ_pos _, ?_⟩, first⟩
  rw [labels, first]
  rfl

end FootprintMatrix

/-! ## Runs -/

namespace FootprintTotals

/-- A tick as it is given to `update_tick`. -/
structure Tick where
  price : ℚ
  volume : ℚ
  isBuyerMaker : Bool
  ts : Nat

/-- One call on a footprint. -/
inductive FootprintCall where
  /-- `update_tick`. -/
  | tick (tick : Tick)
  | reset (newMin newMax : ℚ)

/-- A footprint with the ticks since its last reset. -/
structure Session where
  matrix : FootprintMatrix
  ticks : List Tick

/-- A tick is on a side, and its price is in a range. -/
def Tick.counts (minPrice maxPrice : ℚ) (isBuyerMaker : Bool) (tick : Tick) : Bool :=
  tick.isBuyerMaker = isBuyerMaker ∧ minPrice ≤ tick.price ∧ tick.price ≤ maxPrice

/-- The volume that was traded on a side in the range since the last reset. -/
def Session.traded (session : Session) (isBuyerMaker : Bool) : ℚ :=
  ((session.ticks.filter (Tick.counts session.matrix.minPrice session.matrix.maxPrice
    isBuyerMaker)).map Tick.volume).sum

/-- A session of a new footprint. -/
def Session.start (minPrice maxPrice tickSize : ℚ) : Session where
  matrix := .new minPrice maxPrice tickSize
  ticks := []

/-- A session after a call; a reset is to a range with its ends in order. -/
def step (session : Session) : FootprintCall → Option Session
  | .tick tick => some {
      matrix := session.matrix.updateTick tick.price tick.volume tick.isBuyerMaker tick.ts
      ticks := session.ticks ++ [tick] }
  | .reset newMin newMax =>
    if newMin ≤ newMax then some { matrix := session.matrix.reset newMin newMax, ticks := [] }
    else none

/-- Every price of the range has a level near it, the levels hold the volume that was traded on
each side, and each delta is the difference of its sides. -/
structure Attributed (session : Session) : Prop where
  near : session.matrix.Near
  bids : (session.matrix.levels.map FootprintLevel.bidVolume).sum = session.traded true
  asks : (session.matrix.levels.map FootprintLevel.askVolume).sum = session.traded false
  deltas : ∀ level ∈ session.matrix.levels, level.delta = level.askVolume - level.bidVolume

/-- A reset is to a range that fits the levels. -/
def ResetFits (session : Session) : FootprintCall → Prop
  | .tick _ => True
  | .reset newMin newMax => RangeFits session.matrix.firstPrice session.matrix.tickSize
      session.matrix.levelCount newMin newMax

instance (session : Session) : DecidablePred (ResetFits session) := fun call =>
  match call with
  | .tick _ => inferInstanceAs (Decidable True)
  | .reset _ _ => inferInstanceAs (Decidable (RangeFits _ _ _ _ _))

section Runs

variable {session next : Session} {call : FootprintCall}

theorem traded_tick (session : Session) (tick : Tick) {matrix : FootprintMatrix}
    (low : matrix.minPrice = session.matrix.minPrice)
    (high : matrix.maxPrice = session.matrix.maxPrice) (isBuyerMaker : Bool) :
    Session.traded { matrix := matrix, ticks := session.ticks ++ [tick] } isBuyerMaker =
      session.traded isBuyerMaker +
        if tick.counts session.matrix.minPrice session.matrix.maxPrice isBuyerMaker
        then tick.volume else 0 := by
  unfold Session.traded
  dsimp only
  rw [low, high, List.filter_append, List.map_append, List.sum_append, List.filter_singleton]
  cases tick.counts session.matrix.minPrice session.matrix.maxPrice isBuyerMaker with
  | true => rw [if_pos rfl]; exact congrArg _ (List.sum_singleton)
  | false => rfl

theorem counts_inside {low high : ℚ} {tick : Tick} (above : low ≤ tick.price)
    (below : tick.price ≤ high) (isBuyerMaker : Bool) :
    tick.counts low high isBuyerMaker = decide (tick.isBuyerMaker = isBuyerMaker) := by
  exact decide_eq_decide.mpr (and_iff_left ⟨above, below⟩)

theorem attributed_tick (shaped : session.matrix.Shaped) (attributed : Attributed session)
    (tick : Tick) :
    Attributed {
      matrix := session.matrix.updateTick tick.price tick.volume tick.isBuyerMaker tick.ts
      ticks := session.ticks ++ [tick] } := by
  obtain ⟨near, bids, asks, deltas⟩ := attributed
  obtain ⟨-, low, high, -, -⟩ := session.matrix.updateTick_frame tick.price tick.volume
    tick.isBuyerMaker tick.ts
  rcases session.matrix.updateTick_cases tick.price tick.volume tick.isBuyerMaker tick.ts with
    ⟨absent, same⟩ | ⟨before, level, after, whole, found, changed⟩
  · -- The price has no index, so it is out of the range.
    have outside : ∀ isBuyerMaker, tick.counts session.matrix.minPrice session.matrix.maxPrice
        isBuyerMaker = false := by
      intro isBuyerMaker
      refine decide_eq_false fun counted => ?_
      obtain ⟨index, -, found, -⟩ := near tick.price counted.2.1 counted.2.2
      cases absent.symm.trans found
    refine ⟨?_, ?_, ?_, ?_⟩
    · rw [same]
      exact near
    · rw [traded_tick session tick low high, outside, same]
      exact bids.trans (add_zero _).symm
    · rw [traded_tick session tick low high, outside, same]
      exact asks.trans (add_zero _).symm
    · rw [same]
      exact deltas
  · obtain ⟨above, below, -⟩ := FootprintMatrix.inside_of_index found
    refine ⟨(FootprintMatrix.near_updateTick shaped).mpr near, ?_, ?_, ?_⟩
    · rw [traded_tick session tick low high, counts_inside above below, changed, ← bids, whole]
      simp only [List.map_append, List.map_cons, List.sum_append, List.sum_cons,
        FootprintLevel.bidVolume_update, decide_eq_true_eq]
      ring
    · rw [traded_tick session tick low high, counts_inside above below, changed, ← asks, whole]
      simp only [List.map_append, List.map_cons, List.sum_append, List.sum_cons,
        FootprintLevel.askVolume_update, decide_eq_true_eq]
      ring
    · dsimp only
      rw [changed]
      intro other member
      rcases List.mem_append.mp member with early | here
      · exact deltas other (whole ▸ List.mem_append_left _ early)
      · rcases List.mem_cons.mp here with rfl | late
        · exact FootprintLevel.delta_update level tick.volume tick.isBuyerMaker tick.ts
        · exact deltas other (whole ▸ List.mem_append_right _ (List.mem_cons_of_mem _ late))

theorem attributed_blank {matrix : FootprintMatrix} (blank : ∀ level ∈ matrix.levels,
    level.bidVolume = 0 ∧ level.askVolume = 0 ∧ level.delta = 0) :
    Attributed { matrix := matrix, ticks := [] } ↔ matrix.Near := by
  refine ⟨Attributed.near, fun near => ⟨near, ?_, ?_, fun level member => ?_⟩⟩
  · exact List.sum_eq_zero (List.forall_mem_map.mpr fun level member => (blank level member).1)
  · exact List.sum_eq_zero (List.forall_mem_map.mpr fun level member => (blank level member).2.1)
  · obtain ⟨bid, ask, delta⟩ := blank level member
    rw [bid, ask, delta, sub_zero]

theorem attributed_reset (shaped : session.matrix.Shaped) {low high : ℚ} (proper : low ≤ high) :
    Attributed { matrix := session.matrix.reset low high, ticks := [] } ↔
      RangeFits session.matrix.firstPrice session.matrix.tickSize session.matrix.levelCount low
        high := by
  have fits := FootprintMatrix.near_iff (shaped.reset proper)
  rw [FootprintMatrix.firstPrice_reset] at fits
  refine Iff.trans (attributed_blank fun level member => ?_) fits
  obtain ⟨old, -, rfl⟩ := List.mem_map.mp member
  exact ⟨rfl, rfl, rfl⟩

/-- Every call keeps the shape of the matrix. -/
theorem shaped_step (shaped : session.matrix.Shaped) (taken : step session call = some next) :
    next.matrix.Shaped := by
  cases call with
  | tick tick =>
    cases taken
    exact shaped.updateTick tick.price tick.volume tick.isBuyerMaker tick.ts
  | reset low high =>
    unfold step at taken
    dsimp only at taken
    split at taken
    · next proper =>
      cases taken
      exact shaped.reset proper
    · cases taken

/-- One call keeps the volume attributed exactly when a reset fits. -/
theorem attributed_step (shaped : session.matrix.Shaped) (attributed : Attributed session)
    (taken : step session call = some next) : Attributed next ↔ ResetFits session call := by
  cases call with
  | tick tick =>
    cases taken
    exact iff_of_true (attributed_tick shaped attributed tick) trivial
  | reset low high =>
    unfold step at taken
    dsimp only at taken
    split at taken
    · next proper =>
      cases taken
      exact attributed_reset shaped proper
    · cases taken

/-- Along every run on a new footprint the volumes are attributed to their prices if and only if
each reset is to a range that fits the levels. -/
theorem attributed_iff_fits (minPrice maxPrice tickSize : ℚ) (positive : 0 < tickSize)
    (proper : minPrice ≤ maxPrice) (calls : List FootprintCall) :
    Always step Attributed (.start minPrice maxPrice tickSize) calls ↔
      Guarded step ResetFits (.start minPrice maxPrice tickSize) calls := by
  obtain ⟨shaped, first⟩ := FootprintMatrix.shaped_new positive proper
  have fits := fits_countLevels positive proper
  have start : Attributed (.start minPrice maxPrice tickSize) := by
    refine (attributed_blank fun level member => ?_).mpr
      ((FootprintMatrix.near_iff shaped).mpr (first.symm ▸ fits))
    obtain ⟨index, -, rfl⟩ := List.mem_map.mp member
    exact ⟨rfl, rfl, rfl⟩
  exact @always_iff_guarded _ _ step (fun session => session.matrix.Shaped) Attributed ResetFits
    (fun _ _ _ shaped taken => shaped_step shaped taken)
    (fun _ _ _ shaped attributed taken => attributed_step shaped attributed taken)
    (.start minPrice maxPrice tickSize) shaped start calls

/-- A candle of four ticks and its successor over the lower half of the same range. -/
def halved : List FootprintCall :=
  [.tick ⟨100, 2, true, 1⟩, .tick ⟨104, 3, false, 2⟩, .reset 100 102, .tick ⟨101, 1, false, 3⟩]

/-- A candle over the lower half of the same range keeps the volumes attributed. -/
theorem attributed_iff_fits_halved : Always step Attributed (.start 100 104 1) halved :=
  (attributed_iff_fits 100 104 1 (by norm_num) (by norm_num) halved).mpr (by decide +kernel)

/-- After a reset to a higher range a price is given the level of a lower one. -/
theorem moved_range_mislabels : ¬∀ (minPrice maxPrice tickSize : ℚ), 0 < tickSize →
    minPrice ≤ maxPrice → ∀ calls, Always step Attributed (.start minPrice maxPrice tickSize)
      calls := by
  intro claim
  refine @not_always_of_view _ _ step _ (fun session => ((session.matrix.minPrice,
    session.matrix.maxPrice, session.matrix.tickSize), session.matrix.priceToIndex 200,
      session.matrix.levels.map FootprintLevel.price)) ((200, 204, 1), some 0,
        [100, 101, 102, 103, 104]) Attributed (.start 100 104 1) [.reset 200 204]
          (by decide +kernel) ?_
    (claim 100 104 1 (by norm_num) (by norm_num) [.reset 200 204])
  intro final seen attributed
  simp only [Prod.mk.injEq] at seen
  obtain ⟨⟨low, high, tick⟩, index, prices⟩ := seen
  obtain ⟨place, level, found, there, near⟩ :=
    attributed.near 200 (by rw [low]) (by rw [high]; norm_num)
  cases index.symm.trans found
  have label : (final.matrix.levels.map FootprintLevel.price)[0]? = some level.price := by
    rw [List.getElem?_map, there]
    rfl
  rw [prices] at label
  rw [← Option.some.inj label, tick] at near
  norm_num at near

end Runs

end FootprintTotals

end TradingBot.Orderflow
