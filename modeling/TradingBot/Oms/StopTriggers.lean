import Mathlib.Algebra.Order.Group.MinMax
import TradingBot.Foundation.Run
import TradingBot.Oms.TrailingStop

/-!
# Stops that trigger themselves

A long stop is proposed at a distance below the higher of the price and the entry, so that in a dip
below the entry it can be proposed above the price; a short one mirrors it. A stop that was not hit
stays so exactly if the distance is larger than the dip. The initial stop is below the entry on
either side, where a short stop is hit.
-/

open MachineInt Run

namespace TradingBot.Oms.Trailing

/-! ## Prices and units -/

section Units

variable {price proposed : ℚ}

theorem cast_toUnits (proposed : ℚ) :
    (toUnits proposed : ℚ) =
      min ((u64Size - 1 : Nat) : ℚ) (max ((⌊proposed * 100000000⌋ : Int) : ℚ) 0) := by
  have floor : (((proposed * 100000000).floor.toNat : Nat) : ℚ) =
      max ((⌊proposed * 100000000⌋ : Int) : ℚ) 0 := by
    have whole : (((proposed * 100000000).floor.toNat : Nat) : Int) =
        max ⌊proposed * 100000000⌋ 0 := Int.ofNat_toNat _
    rw [← Int.cast_natCast, whole, Int.cast_max, Int.cast_zero]
  unfold toUnits
  rw [Nat.cast_min, floor]

theorem toUnits_lt_iff (positive : 0 < price) :
    (toUnits proposed : ℚ) < price * 100000000 ↔
      ((u64Size - 1 : Nat) : ℚ) < price * 100000000 ∨
        proposed * 100000000 < (⌈price * 100000000⌉ : Int) := by
  have units : 0 < price * 100000000 := by linarith
  rw [cast_toUnits, min_lt_iff, max_lt_iff, and_iff_left units, ← Int.lt_ceil, Int.floor_lt]

theorem lt_toUnits_iff {stop : Nat} (fits : stop < u64Size) (positive : 0 < price)
    (below : price * 100000000 < stop) :
    price * 100000000 < (toUnits proposed : ℚ) ↔
      ((⌊price * 100000000⌋ + 1 : Int) : ℚ) ≤ proposed * 100000000 := by
  have units : 0 < price * 100000000 := by linarith
  have range : price * 100000000 < ((u64Size - 1 : Nat) : ℚ) :=
    below.trans_le (Nat.cast_le.mpr (Nat.le_sub_one_of_lt fits))
  rw [cast_toUnits, lt_min_iff, lt_max_iff, and_iff_right range, or_iff_left (not_lt.mpr units.le),
    ← Int.floor_lt, ← Int.le_floor, Int.add_one_le_iff]

theorem toUnits_eq_zero : toUnits proposed = 0 ↔ proposed * 100000000 < 1 := by
  have wide : u64Size - 1 ≠ 0 := by decide
  have floor : (proposed * 100000000).floor.toNat = 0 ↔ ⌊proposed * 100000000⌋ < 1 := by
    show (⌊proposed * 100000000⌋ : Int).toNat = 0 ↔ _
    omega
  unfold toUnits
  rw [Nat.min_eq_zero_iff, or_iff_right wide, floor, Int.floor_lt, Int.cast_one]

end Units

/-! ## Calls of a stop -/

/-- A call of a stop with a positive price. -/
inductive StopCall where
  | update (price : {price : ℚ // 0 < price})
  | checkTrigger (price : {price : ℚ // 0 < price})

namespace ActiveTrailingStop

/-- A stop after a call. -/
def after (stop : ActiveTrailingStop) : StopCall → ActiveTrailingStop
  | .update price => (stop.update price).2
  | .checkTrigger price => (stop.checkTrigger price).2

/-- A step of a run of calls. -/
def step (stop : ActiveTrailingStop) (call : StopCall) : Option ActiveTrailingStop :=
  some (stop.after call)

/-- An update at a price at which the stop is not hit leaves it so. -/
def NotTriggering (stop : ActiveTrailingStop) : StopCall → Prop
  | .update price => stop.isHit price = false → (stop.update price).2.isHit price = false
  | .checkTrigger _ => True

/-- A call does not move the stop in the losing direction. -/
def NotLosing (stop : ActiveTrailingStop) (call : StopCall) : Prop :=
  if stop.isLong then stop.stopPrice ≤ (stop.after call).stopPrice
  else (stop.after call).stopPrice ≤ stop.stopPrice

/-- A distance is larger than what the price lies beyond the entry on the losing side, measured to
the next unit of the price. A long price beyond the type and a short stop of nothing do not
matter. -/
def Outreaches (stop : ActiveTrailingStop) (price distance : ℚ) : Prop :=
  if stop.isLong then
    ((u64Size - 1 : Nat) : ℚ) < price * 100000000 ∨
      (max price stop.entryPrice - distance) * 100000000 < (⌈price * 100000000⌉ : Int)
  else
    (min price stop.entryPrice + distance) * 100000000 < 1 ∨
      ((⌊price * 100000000⌋ + 1 : Int) : ℚ) ≤ (min price stop.entryPrice + distance) * 100000000

instance (stop : ActiveTrailingStop) (price distance : ℚ) :
    Decidable (stop.Outreaches price distance) :=
  inferInstanceAs (Decidable (if stop.isLong = true then _ ∨ _ else _ ∨ _))

/-- An update of a stop that is neither triggered nor hit comes with a distance that is large
enough, or with none. -/
def Clear (stop : ActiveTrailingStop) : StopCall → Prop
  | .update price => stop.triggered = true ∨ stop.isHit price = true ∨
      ∀ distance ∈ (stop.calculator.calculateDistance price).1, stop.Outreaches price distance
  | .checkTrigger _ => True

instance (stop : ActiveTrailingStop) : DecidablePred stop.Clear
  | .update _ => inferInstanceAs (Decidable (_ ∨ _ ∨ ∀ distance ∈ _, _))
  | .checkTrigger _ => inferInstanceAs (Decidable True)

/-! ## One update -/

section Update

variable {stop : ActiveTrailingStop} {price : ℚ}

theorem isHit_long (long : stop.isLong = true) :
    stop.isHit price = false ↔ (stop.stopPrice : ℚ) < price * 100000000 := by
  unfold isHit getStopPrice
  rw [if_pos long, decide_eq_false_iff_not, not_le, div_lt_iff₀ (by norm_num)]

theorem isHit_short (short : stop.isLong = false) :
    stop.isHit price = false ↔ price * 100000000 < (stop.stopPrice : ℚ) := by
  unfold isHit getStopPrice
  rw [short, if_neg Bool.false_ne_true, decide_eq_false_iff_not, not_le, lt_div_iff₀ (by norm_num)]

theorem isLong_update : (stop.update price).2.isLong = stop.isLong := by
  unfold update
  split
  · rfl
  · dsimp only
    split <;> rfl

theorem shouldUpdate_long (long : stop.isLong = true) {newStop : Nat} :
    stop.shouldUpdate newStop = true ↔ stop.stopPrice < newStop := by
  unfold shouldUpdate
  rw [if_pos long, decide_eq_true_iff]

theorem shouldUpdate_short (short : stop.isLong = false) {newStop : Nat} :
    stop.shouldUpdate newStop = true ↔ newStop < stop.stopPrice ∧ 0 < newStop := by
  unfold shouldUpdate
  rw [short, if_neg Bool.false_ne_true, decide_eq_true_iff]

theorem stopPrice_update (waiting : stop.triggered = false) :
    (stop.update price).2.stopPrice =
      if stop.shouldUpdate (unitsOf (stop.proposal price).1) then unitsOf (stop.proposal price).1
      else stop.stopPrice := by
  unfold update
  rw [if_neg (by rw [waiting]; decide)]
  dsimp only
  split <;> rfl

theorem proposal_long (long : stop.isLong = true) :
    (stop.proposal price).1 = (stop.calculator.calculateDistance price).1.map fun distance =>
      max price stop.entryPrice - distance := by
  unfold proposal TrailingStopCalculator.calculateLongStop
  rw [if_pos long]
  simp only [max_sub_sub_right]

theorem proposal_short (short : stop.isLong = false) :
    (stop.proposal price).1 = (stop.calculator.calculateDistance price).1.map fun distance =>
      min price stop.entryPrice + distance := by
  unfold proposal TrailingStopCalculator.calculateShortStop
  rw [if_neg (by rw [short]; decide)]
  simp only [min_add_add_right]

theorem isHit_update_long (long : stop.isLong = true) (waiting : stop.triggered = false)
    (before : stop.isHit price = false) :
    (stop.update price).2.isHit price = false ↔
      (unitsOf (stop.proposal price).1 : ℚ) < price * 100000000 := by
  have below := (isHit_long long).mp before
  rw [isHit_long (isLong_update.trans long), stopPrice_update waiting]
  by_cases moves : stop.stopPrice < unitsOf (stop.proposal price).1
  · rw [if_pos ((shouldUpdate_long long).mpr moves)]
  · rw [if_neg (mt (shouldUpdate_long long).mp moves)]
    have lower : (unitsOf (stop.proposal price).1 : ℚ) ≤ stop.stopPrice :=
      Nat.cast_le.mpr (not_lt.mp moves)
    exact iff_of_true below (lower.trans_lt below)

theorem isHit_update_short (short : stop.isLong = false) (waiting : stop.triggered = false)
    (before : stop.isHit price = false) :
    (stop.update price).2.isHit price = false ↔
      unitsOf (stop.proposal price).1 = 0 ∨
        price * 100000000 < (unitsOf (stop.proposal price).1 : ℚ) := by
  have above := (isHit_short short).mp before
  rw [isHit_short (isLong_update.trans short), stopPrice_update waiting]
  by_cases moves : unitsOf (stop.proposal price).1 < stop.stopPrice ∧
      0 < unitsOf (stop.proposal price).1
  · rw [if_pos ((shouldUpdate_short short).mpr moves), or_iff_right moves.2.ne']
  · rw [if_neg (mt (shouldUpdate_short short).mp moves)]
    refine iff_of_true above ?_
    rcases Nat.eq_zero_or_pos (unitsOf (stop.proposal price).1) with none | some_
    · exact .inl none
    · have higher : (stop.stopPrice : ℚ) ≤ unitsOf (stop.proposal price).1 :=
        Nat.cast_le.mpr (not_lt.mp fun lower => moves ⟨lower, some_⟩)
      exact .inr (above.trans_le higher)

theorem isHit_update (positive : 0 < price) (waiting : stop.triggered = false)
    (before : stop.isHit price = false) :
    (stop.update price).2.isHit price = false ↔
      ∀ distance ∈ (stop.calculator.calculateDistance price).1,
        stop.Outreaches price distance := by
  have units : 0 < price * 100000000 := by linarith
  cases long : stop.isLong with
  | true =>
    rw [isHit_update_long long waiting before, proposal_long long]
    cases (stop.calculator.calculateDistance price).1 with
    | none => exact iff_of_true (by simpa [unitsOf] using units) nofun
    | some distance =>
      unfold Outreaches
      simp only [long, if_true, Option.mem_some_iff, forall_eq', unitsOf, Option.map_some,
        Option.getD_some]
      exact toUnits_lt_iff positive
  | false =>
    have below := (isHit_short long).mp before
    rw [isHit_update_short long waiting before, proposal_short long]
    cases (stop.calculator.calculateDistance price).1 with
    | none => exact iff_of_true (.inl rfl) nofun
    | some distance =>
      unfold Outreaches
      simp only [long, Bool.false_eq_true, if_false, Option.mem_some_iff, forall_eq', unitsOf,
        Option.map_some, Option.getD_some]
      exact or_congr toUnits_eq_zero (lt_toUnits_iff stop.stopFits positive below)

theorem update_triggered (triggered : stop.triggered = true) : (stop.update price).2 = stop := by
  unfold update
  rw [if_pos triggered]

theorem notTriggering_iff (stop : ActiveTrailingStop) (call : StopCall) :
    stop.NotTriggering call ↔ stop.Clear call := by
  cases call with
  | checkTrigger price => exact Iff.rfl
  | update price =>
    show (stop.isHit price = false → _) ↔ (stop.triggered = true ∨ stop.isHit price = true ∨ _)
    cases triggered : stop.triggered with
    | true =>
      rw [update_triggered triggered]
      exact iff_of_true id (.inl rfl)
    | false =>
      cases before : stop.isHit price with
      | true => exact iff_of_true nofun (.inr (.inl rfl))
      | false =>
        rw [isHit_update price.property triggered before]
        simp

theorem notLosing (stop : ActiveTrailingStop) (call : StopCall) : stop.NotLosing call := by
  have direction : (stop.after call).stopPrice = stop.stopPrice ∨
      ∃ newStop, stop.shouldUpdate newStop = true ∧ (stop.after call).stopPrice = newStop := by
    cases call with
    | checkTrigger price =>
      left
      show (if _ then _ else _ : ActiveTrailingStop).stopPrice = _
      split <;> rfl
    | update price =>
      cases triggered : stop.triggered with
      | true => exact .inl (congrArg stopPrice (update_triggered triggered))
      | false =>
        show (stop.update price).2.stopPrice = _ ∨
          ∃ newStop, _ ∧ (stop.update price).2.stopPrice = _
        rw [stopPrice_update triggered]
        split
        · next moves => exact .inr ⟨_, moves, rfl⟩
        · exact .inl rfl
  unfold NotLosing
  rcases direction with same | ⟨newStop, moves, moved⟩
  · rw [same]
    split <;> exact le_refl _
  · rw [moved]
    cases long : stop.isLong with
    | true => exact ((shouldUpdate_long long).mp moves).le
    | false => exact ((shouldUpdate_short long).mp moves).1.le

theorem isHit_new (isLong : Bool) (entryPrice : {price : ℚ // 0 < price})
    (calculator : TrailingStopCalculator) :
    (new isLong entryPrice calculator).isHit entryPrice = false ↔ isLong = true := by
  have positive := entryPrice.property
  have initial : (toUnits (entryPrice.val * (95 / 100)) : ℚ) < entryPrice.val * 100000000 := by
    apply (toUnits_lt_iff positive).mpr
    right
    calc
      entryPrice.val * (95 / 100) * 100000000 < entryPrice.val * 100000000 := by linarith
      _ ≤ (⌈entryPrice.val * 100000000⌉ : Int) := Int.le_ceil _
  cases isLong with
  | true => exact iff_of_true ((isHit_long rfl).mpr initial) rfl
  | false =>
    refine iff_of_false (fun open_ => ?_) nofun
    have above := (@isHit_short (new false entryPrice calculator) entryPrice rfl).mp open_
    exact initial.not_gt above

end Update

end ActiveTrailingStop

/-! ## Runs -/

/-- What a trailing stop promises: a new one is not hit at its own entry price, and along a run of
calls no update triggers it by itself or moves it in the losing direction. -/
structure KeepsPromise (isLong : Bool) (entryPrice : {price : ℚ // 0 < price})
    (calculator : TrailingStopCalculator) (calls : List StopCall) : Prop where
  fresh : (ActiveTrailingStop.new isLong entryPrice calculator).isHit entryPrice = false
  quiet : Guarded ActiveTrailingStop.step ActiveTrailingStop.NotTriggering
    (.new isLong entryPrice calculator) calls
  gaining : Guarded ActiveTrailingStop.step ActiveTrailingStop.NotLosing
    (.new isLong entryPrice calculator) calls

/-- A trailing stop keeps its promise if and only if it is long and every update is clear: its
distance is larger than what the price lies below the entry. -/
theorem keepsPromise_iff (isLong : Bool) (entryPrice : {price : ℚ // 0 < price})
    (calculator : TrailingStopCalculator) (calls : List StopCall) :
    KeepsPromise isLong entryPrice calculator calls ↔
      isLong = true ∧ Guarded ActiveTrailingStop.step ActiveTrailingStop.Clear
        (.new isLong entryPrice calculator) calls := by
  have quiet_iff : Guarded ActiveTrailingStop.step ActiveTrailingStop.NotTriggering
      (.new isLong entryPrice calculator) calls ↔
        Guarded ActiveTrailingStop.step ActiveTrailingStop.Clear
          (.new isLong entryPrice calculator) calls :=
    @guarded_congr _ _ ActiveTrailingStop.step (fun _ => True) _ _ (fun _ _ _ _ _ => trivial)
      (fun stop call _ _ _ => stop.notTriggering_iff call) _ trivial calls
  have gaining : Guarded ActiveTrailingStop.step ActiveTrailingStop.NotLosing
      (.new isLong entryPrice calculator) calls :=
    @Always.guarded _ _ ActiveTrailingStop.step (fun _ => True) _
      (fun stop call _ => stop.notLosing call) _ calls
      (always_of_preserved (fun _ _ _ _ _ => trivial) trivial calls)
  constructor
  · intro promise
    exact ⟨(ActiveTrailingStop.isHit_new isLong entryPrice calculator).mp promise.fresh,
      quiet_iff.mp promise.quiet⟩
  · rintro ⟨long, clear⟩
    exact ⟨(ActiveTrailingStop.isHit_new isLong entryPrice calculator).mpr long,
      quiet_iff.mpr clear, gaining⟩

/-- A calculator with a fixed distance of two percent. -/
def twoPercent : TrailingStopCalculator :=
  .new { TrailingConfig.default with method := .fixedPercentage }

/-- A long stop at an entry of 100 is not hit at 97 before an update at that price, which moves it
to 98.06. -/
theorem dip_triggers :
    ¬∀ (isLong : Bool) (entryPrice : {price : ℚ // 0 < price})
      (calculator : TrailingStopCalculator) (calls : List StopCall),
      KeepsPromise isLong entryPrice calculator calls := by
  intro claim
  have quiet := (claim true ⟨100, by norm_num⟩ twoPercent [.update ⟨97, by norm_num⟩]).quiet
  have hit := (quiet _ rfl).1 (by decide +kernel)
  revert hit
  decide +kernel

end TradingBot.Oms.Trailing
