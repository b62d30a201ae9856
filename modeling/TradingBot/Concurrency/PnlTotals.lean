import TradingBot.Foundation.Interleaving
import TradingBot.Concurrency.AtomicCounters

/-!
# Totals of profit and loss

The realized amount is added to in one step, and the peak is raised in one. The total is stored
from two amounts that were read before, so a call that stores late stores what was true then; the
total is right in the end if the last store is of what the two amounts add up to.
-/

open Run MachineInt Interleaving

namespace TradingBot.Concurrency.PnlTotals

/-- A counter and the calls that were started on it. -/
abbrev PnlPool := Pool AtomicPnLCounter PnlCall

/-- A pool after a call started or took its next step. -/
def step (pool : PnlPool) (move : Move PnlUpdate) : Option PnlPool :=
  pool.step PnlCall.enter next move

/-- A new counter without calls. -/
def start (nowNs : Nat) : PnlPool := { shared := .new nowNs, calls := [] }

/-- No call is in progress. -/
def Quiescent (pool : PnlPool) : Prop := ∀ call ∈ pool.calls, call.stage = .returned

/-- The amount that an update adds to the realized one. -/
def addedBy : PnlUpdate → Int
  | .addRealizedPnl pnl _ => toScaled pnl
  | .updateUnrealizedPnl .. => 0

/-- Where no call is in progress, the realized amount is the sum of the amounts added and the peak
is not below the total. -/
def Summed (pool : PnlPool) : Prop :=
  Quiescent pool →
    pool.shared.realizedPnl = (pool.calls.map fun call => addedBy call.update).sum ∧
      pool.shared.totalPnl ≤ pool.shared.peakPnl

/-- Where no call is in progress, the total is the sum of the two amounts. -/
def Totalled (pool : PnlPool) : Prop :=
  Quiescent pool →
    pool.shared.totalPnl = pool.shared.realizedPnl + pool.shared.unrealizedPnl

/-- A call has its total yet to store. -/
def storesLater (call : PnlCall) : Bool :=
  match call.stage with
  | .write | .loadOther | .storeTotal _ => true
  | _ => false

/-- What a call that is about to store the total has read the two amounts to add up to. -/
def readSum (call : PnlCall) : Option Int :=
  match call.stage with
  | .storeTotal other => some (call.own + other)
  | _ => none

/-- A store of the total after which no other call has its own to store finds the two amounts
adding up to what the call read. -/
def Current (pool : PnlPool) : Move PnlUpdate → Prop
  | .start _ => True
  | .advance position => ∀ call ∈ pool.calls[position]?, ∀ read ∈ readSum call,
      pool.count storesLater = 1 →
        read = pool.shared.realizedPnl + pool.shared.unrealizedPnl

instance (pool : PnlPool) : DecidablePred (Current pool)
  | .start _ => inferInstanceAs (Decidable True)
  | .advance _ => inferInstanceAs (Decidable (∀ call ∈ _, ∀ read ∈ _, _ → _ = _))

instance (pool : PnlPool) : Decidable (Quiescent pool) :=
  inferInstanceAs (Decidable (∀ call ∈ _, _ = _))

/-! ## One step of a call -/

section Steps

variable {counter after : AtomicPnLCounter} {call moved : PnlCall}

/-- The total that a call has stored and is about to raise the peak to. -/
def raising (call : PnlCall) : Option Int :=
  match call.stage with
  | .countTrade currentPnl | .countOutcome currentPnl | .loadPeak currentPnl
  | .raisePeak currentPnl _ => some currentPnl
  | _ => none

/-- The amount that a call has added. -/
def added (call : PnlCall) : Int := if call.stage = .write then 0 else addedBy call.update

/-- A call that is about to raise the peak has read a lower one. -/
def Rising (call : PnlCall) : Prop :=
  ∀ currentPnl peak, call.stage = .raisePeak currentPnl peak → peak < currentPnl

/-- The amounts of a counter without the peak. -/
def amounts (counter : AtomicPnLCounter) : Int × Int × Int :=
  (counter.realizedPnl, counter.unrealizedPnl, counter.totalPnl)

/-- What a step does to the amounts. -/
inductive Effect (counter : AtomicPnLCounter) (call : PnlCall) (after : AtomicPnLCounter)
    (moved : PnlCall) : Prop where
  /-- The own amount is written. -/
  | writes (before : storesLater call = true) (later : storesLater moved = true)
    (quiet : raising call = none ∧ raising moved = none)
    (realized : after.realizedPnl + added call = counter.realizedPnl + added moved)
    (same : after.totalPnl = counter.totalPnl ∧ after.peakPnl = counter.peakPnl)
  | stores (before : storesLater call = true) (read : readSum call = some after.totalPnl)
    (later : storesLater moved = false) (risen : raising moved = some after.totalPnl)
    (same : after.realizedPnl = counter.realizedPnl ∧
      after.unrealizedPnl = counter.unrealizedPnl ∧ after.peakPnl = counter.peakPnl)
    (adds : added moved = added call)
  /-- Neither an amount nor the peak is written. -/
  | keeps (stores : storesLater moved = storesLater call) (risen : raising moved = raising call)
    (same : amounts after = amounts counter) (peak : after.peakPnl = counter.peakPnl)
    (adds : added moved = added call)
  /-- The peak is raised to the total stored, or was no lower. -/
  | raises (currentPnl : Int) (before : raising call = some currentPnl)
    (stores : storesLater call = false ∧ storesLater moved = false)
    (risen : raising moved = none) (same : amounts after = amounts counter)
    (peak : counter.peakPnl ≤ after.peakPnl ∧ currentPnl ≤ after.peakPnl)
    (adds : added moved = added call)

variable {currentPnl : Int} {stage : PnlStage}

theorem stageAfterPeak_some {peak : Int} (answer : stageAfterPeak currentPnl peak = some stage) :
    (∃ drawdown, stage = .loadMaxDrawdown drawdown) ∨ stage = .updateTimestamp := by
  unfold stageAfterPeak at answer
  obtain ⟨drawdown, _, same⟩ := Option.map_eq_some_iff.mp answer
  rw [← same]
  split
  · exact .inl ⟨drawdown, rfl⟩
  · exact .inr rfl

theorem stageAtPeak_some {peak : Int} (answer : stageAtPeak currentPnl peak = some stage) :
    peak < currentPnl ∧ stage = .raisePeak currentPnl peak ∨
      currentPnl ≤ peak ∧ stageAfterPeak currentPnl peak = some stage := by
  unfold stageAtPeak at answer
  split at answer
  · next lower => exact .inl ⟨lower, (Option.some.inj answer).symm⟩
  · next lower => exact .inr ⟨not_lt.mp lower, answer⟩

theorem effect_afterPeak {peak : Int} (before : raising call = some currentPnl)
    (stores : storesLater call = false) (written : call.stage ≠ .write)
    (answer : stageAfterPeak currentPnl peak = some stage) (same : amounts after = amounts counter)
    (higher : counter.peakPnl ≤ after.peakPnl ∧ currentPnl ≤ after.peakPnl) :
    Effect counter call after (call.goto stage) ∧ Rising (call.goto stage) := by
  rcases stageAfterPeak_some answer with ⟨drawdown, rfl⟩ | rfl
  · exact ⟨.raises currentPnl before ⟨stores, rfl⟩ rfl same higher (if_neg written).symm, nofun⟩
  · exact ⟨.raises currentPnl before ⟨stores, rfl⟩ rfl same higher (if_neg written).symm, nofun⟩

theorem effect_atPeak (before : raising call = some currentPnl) (stores : storesLater call = false)
    (written : call.stage ≠ .write) (answer : stageAtPeak currentPnl counter.peakPnl = some stage) :
    Effect counter call counter (call.goto stage) ∧ Rising (call.goto stage) := by
  rcases stageAtPeak_some answer with ⟨lower, rfl⟩ | ⟨higher, last⟩
  · refine ⟨.keeps stores.symm before.symm rfl rfl (if_neg written).symm, ?_⟩
    intro current peak same
    cases same
    exact lower
  · exact effect_afterPeak before stores written last rfl ⟨le_refl _, higher⟩

theorem effect_writeOwn (stage : call.stage = .write)
    (stepped : writeOwn counter call = some (after, moved)) :
    Effect counter call after moved ∧ Rising moved := by
  have unwritten : added call = 0 := if_pos stage
  have early : storesLater call = true := by
    unfold storesLater
    rw [stage]
  have quiet : raising call = none := by
    unfold raising
    rw [stage]
  unfold writeOwn at stepped
  cases update : call.update with
  | addRealizedPnl pnl nowNs =>
    rw [update] at stepped
    obtain ⟨newRealized, fits, same⟩ := Option.map_eq_some_iff.mp stepped
    have sum := (i64_eq_some.mp fits).2
    cases same
    refine ⟨.writes early rfl ⟨quiet, rfl⟩ ?_ ⟨rfl, rfl⟩, nofun⟩
    rw [unwritten]
    show newRealized + 0 = counter.realizedPnl + toScaled pnl
    omega
  | updateUnrealizedPnl pnl nowNs =>
    rw [update] at stepped
    cases stepped
    refine ⟨.writes early rfl ⟨quiet, rfl⟩ ?_ ⟨rfl, rfl⟩, nofun⟩
    rw [unwritten]
    rfl

theorem next_effect (rising : Rising call) (stepped : next counter call = some (after, moved)) :
    Effect counter call after moved ∧ Rising moved := by
  obtain ⟨update, own, stage⟩ := call
  cases stage with
  | write => exact effect_writeOwn rfl stepped
  | loadOther =>
    cases stepped
    exact ⟨.keeps rfl rfl rfl rfl rfl, nofun⟩
  | storeTotal other =>
    obtain ⟨total, fits, same⟩ := Option.map_eq_some_iff.mp stepped
    have sum := (i64_eq_some.mp fits).2
    cases same
    cases update with
    | addRealizedPnl pnl nowNs =>
      exact ⟨.stores rfl (congrArg some sum) rfl rfl ⟨rfl, rfl, rfl⟩ rfl, nofun⟩
    | updateUnrealizedPnl pnl nowNs =>
      exact ⟨.stores rfl (congrArg some sum) rfl rfl ⟨rfl, rfl, rfl⟩ rfl, nofun⟩
  | countTrade currentPnl =>
    cases stepped
    dsimp only
    split
    · exact ⟨.keeps rfl rfl rfl rfl rfl, nofun⟩
    · exact ⟨.keeps rfl rfl rfl rfl rfl, nofun⟩
  | countOutcome currentPnl =>
    cases stepped
    dsimp only
    split
    · exact ⟨.keeps rfl rfl rfl rfl rfl, nofun⟩
    · exact ⟨.keeps rfl rfl rfl rfl rfl, nofun⟩
  | loadPeak currentPnl =>
    obtain ⟨stage, answer, same⟩ := Option.map_eq_some_iff.mp stepped
    cases same
    exact effect_atPeak rfl rfl nofun answer
  | raisePeak currentPnl peak =>
    have lower := rising currentPnl peak rfl
    simp only [next] at stepped
    split at stepped
    · next expected =>
      obtain ⟨stage, answer, same⟩ := Option.map_eq_some_iff.mp stepped
      cases same
      exact effect_afterPeak rfl rfl nofun answer rfl
        ⟨le_of_lt (expected.trans_lt lower), le_refl _⟩
    · obtain ⟨stage, answer, same⟩ := Option.map_eq_some_iff.mp stepped
      cases same
      exact effect_atPeak rfl rfl nofun answer
  | loadMaxDrawdown drawdown =>
    cases stepped
    unfold stageAtDrawdown
    split
    · exact ⟨.keeps rfl rfl rfl rfl rfl, nofun⟩
    · exact ⟨.keeps rfl rfl rfl rfl rfl, nofun⟩
  | raiseMaxDrawdown drawdown maxDd =>
    simp only [next] at stepped
    split at stepped
    · cases stepped
      exact ⟨.keeps rfl rfl rfl rfl rfl, nofun⟩
    · cases stepped
      unfold stageAtDrawdown
      split
      · exact ⟨.keeps rfl rfl rfl rfl rfl, nofun⟩
      · exact ⟨.keeps rfl rfl rfl rfl rfl, nofun⟩
  | updateTimestamp =>
    cases stepped
    exact ⟨.keeps rfl rfl rfl rfl rfl, nofun⟩
  | returned => cases stepped

end Steps

/-! ## One step of a pool -/

section Pools

variable {pool after : PnlPool} {move : Move PnlUpdate} {position : Nat}

/-- The realized amount is what the calls have added, and the total is no higher than the peak or
is about to be raised to. -/
structure Settling (pool : PnlPool) : Prop where
  rising : ∀ call ∈ pool.calls, Rising call
  realized : pool.shared.realizedPnl = (pool.calls.map added).sum
  peak : pool.shared.totalPnl ≤ pool.shared.peakPnl ∨
    ∃ call ∈ pool.calls, raising call = some pool.shared.totalPnl

theorem peak_advance {counter : AtomicPnLCounter} {call moved : PnlCall}
    (peak : pool.shared.totalPnl ≤ pool.shared.peakPnl ∨
      ∃ call ∈ pool.calls, raising call = some pool.shared.totalPnl)
    (found : pool.calls[position]? = some call)
    (effect : Effect pool.shared call counter moved) :
    counter.totalPnl ≤ counter.peakPnl ∨
      ∃ call ∈ pool.calls.set position moved, raising call = some counter.totalPnl := by
  -- A call that raises and is not the one that moves is there afterwards.
  have others : ∀ other ∈ pool.calls, ∀ total, raising other = some total →
      raising call ≠ some total → ∃ call ∈ pool.calls.set position moved,
        raising call = some total := by
    intro other member total raises quiet
    by_cases same : other = moved
    · exact ⟨moved, mem_replacement found moved, same ▸ raises⟩
    · have differs : other ≠ call := fun same => quiet (same ▸ raises)
      exact ⟨other, (mem_replaced found differs same).mpr member, raises⟩
  cases effect with
  | writes before later quiet realized same =>
    rw [same.1, same.2]
    apply peak.imp_right
    intro ⟨other, member, raises⟩
    exact others other member _ raises (by rw [quiet.1]; exact nofun)
  | stores before read later risen same adds =>
    exact .inr ⟨moved, mem_replacement found moved, risen⟩
  | keeps stores risen same peak_ adds =>
    have total : counter.totalPnl = pool.shared.totalPnl := congrArg (fun sums => sums.2.2) same
    rw [total, peak_]
    apply peak.imp_right
    intro ⟨other, member, raises⟩
    by_cases mine : raising call = some pool.shared.totalPnl
    · exact ⟨moved, mem_replacement found moved, risen.trans mine⟩
    · exact others other member _ raises mine
  | raises currentPnl before stores risen same higher adds =>
    have total : counter.totalPnl = pool.shared.totalPnl := congrArg (fun sums => sums.2.2) same
    rw [total]
    rcases peak with lower | ⟨other, member, raises⟩
    · exact .inl (lower.trans higher.1)
    · by_cases mine : raising call = some pool.shared.totalPnl
      · have reached : currentPnl = pool.shared.totalPnl :=
          Option.some.inj (before.symm.trans mine)
        exact .inl (reached ▸ higher.2)
      · exact .inr (others other member _ raises mine)

theorem realized_effect {counter shared : AtomicPnLCounter} {call moved : PnlCall}
    (effect : Effect shared call counter moved) :
    counter.realizedPnl + added call = shared.realizedPnl + added moved := by
  cases effect with
  | writes before later quiet realized same => exact realized
  | stores before read later risen same adds => rw [same.1, adds]
  | keeps stores risen same peak adds =>
    have realized : counter.realizedPnl = shared.realizedPnl := congrArg Prod.fst same
    rw [realized, adds]
  | raises currentPnl before stores risen same peak adds =>
    have realized : counter.realizedPnl = shared.realizedPnl := congrArg Prod.fst same
    rw [realized, adds]

theorem settling_step (settling : Settling pool) (stepped : step pool move = some after) :
    Settling after := by
  cases move with
  | start update =>
    cases stepped
    refine ⟨?_, ?_, ?_⟩
    · intro call member
      rcases List.mem_append.mp member with old | new
      · exact settling.rising call old
      · rw [List.mem_singleton.mp new]
        exact nofun
    · have entered : added (PnlCall.enter update) = 0 := rfl
      rw [List.map_append, List.sum_append, List.map_singleton, List.sum_singleton, entered,
        add_zero]
      exact settling.realized
    · apply settling.peak.imp_right
      exact fun ⟨call, member, raises⟩ => ⟨call, List.mem_append_left _ member, raises⟩
  | advance position =>
    obtain ⟨call, found, counter, moved, taken, rfl⟩ := step_advance.mp stepped
    have rising := settling.rising call (List.mem_of_getElem? found)
    have effect := next_effect rising taken
    refine ⟨?_, ?_, peak_advance settling.peak found effect.1⟩
    · intro other member
      rcases List.mem_or_eq_of_mem_set member with old | new
      · exact settling.rising other old
      · exact new ▸ effect.2
    · have sum := sum_replaced added found moved
      have own := realized_effect effect.1
      have before := settling.realized
      show counter.realizedPnl = ((pool.calls.set position moved).map added).sum
      omega

/-- A call has its total yet to store, or the total is the sum of the two amounts. -/
def Stored (pool : PnlPool) : Prop :=
  0 < pool.count storesLater ∨
    pool.shared.totalPnl = pool.shared.realizedPnl + pool.shared.unrealizedPnl

/-- A move that is current keeps a total stored or still to store. -/
theorem stored_step (settling : Settling pool) (stored : Stored pool)
    (current : Current pool move) (stepped : step pool move = some after) : Stored after := by
  cases move with
  | start update =>
    cases stepped
    have counted := @count_start _ _ _ PnlCall.enter pool update storesLater
    have entered : (storesLater (PnlCall.enter update)).toNat = 1 := rfl
    refine .inl ?_
    rw [counted, entered]
    omega
  | advance position =>
    obtain ⟨call, found, counter, moved, taken, rfl⟩ := step_advance.mp stepped
    have rising := settling.rising call (List.mem_of_getElem? found)
    have counted := @count_advance _ _ pool position counter call storesLater found moved
    have unwritten : amounts counter = amounts pool.shared →
        (counter.totalPnl = counter.realizedPnl + counter.unrealizedPnl ↔
          pool.shared.totalPnl = pool.shared.realizedPnl + pool.shared.unrealizedPnl) := by
      intro same
      have realized : counter.realizedPnl = pool.shared.realizedPnl := congrArg Prod.fst same
      have unrealized : counter.unrealizedPnl = pool.shared.unrealizedPnl :=
        congrArg (fun sums => sums.2.1) same
      have total : counter.totalPnl = pool.shared.totalPnl := congrArg (fun sums => sums.2.2) same
      rw [realized, unrealized, total]
    cases (next_effect rising taken).1 with
    | writes before later quiet realized same =>
      have positive := count_pos found before
      rw [before, later] at counted
      refine .inl ?_
      omega
    | stores before read later risen same adds =>
      have positive := count_pos found before
      rw [before, later] at counted
      by_cases last : pool.count storesLater = 1
      · have sum := current call found counter.totalPnl read last
        refine .inr ?_
        show counter.totalPnl = counter.realizedPnl + counter.unrealizedPnl
        rw [sum, same.1, same.2.1]
      · refine .inl ?_
        have counted : Pool.count { shared := counter, calls := pool.calls.set position moved }
            storesLater + 1 = pool.count storesLater := counted
        omega
    | keeps stores risen same peak adds =>
      rw [stores] at counted
      refine stored.imp (fun positive => ?_) (unwritten same).mpr
      omega
    | raises currentPnl before stores risen same peak adds =>
      rw [stores.1, stores.2] at counted
      refine stored.imp (fun positive => ?_) (unwritten same).mpr
      omega

theorem summed_of_settling (settling : Settling pool) : Summed pool := by
  intro quiescent
  constructor
  · rw [settling.realized]
    apply congrArg List.sum
    apply List.map_congr_left
    intro call member
    exact if_neg (by rw [quiescent call member]; decide)
  · apply settling.peak.resolve_right
    intro ⟨call, member, raises⟩
    unfold raising at raises
    rw [quiescent call member] at raises
    cases raises

theorem totalled_of_stored (stored : Stored pool) : Totalled pool := by
  intro quiescent
  apply stored.resolve_left
  intro positive
  obtain ⟨call, member, later⟩ := List.countP_pos_iff.mp positive
  unfold storesLater at later
  rw [quiescent call member] at later
  cases later

end Pools

/-! ## Runs -/

theorem settling_start (nowNs : Nat) : Settling (start nowNs) ∧ Stored (start nowNs) :=
  ⟨⟨nofun, rfl, .inl (le_refl _)⟩, .inr rfl⟩

theorem summed_always (nowNs : Nat) (moves : List (Move PnlUpdate)) :
    Always step Summed (start nowNs) moves :=
  (always_of_preserved (fun _ _ _ settling stepped => settling_step settling stepped)
    (settling_start nowNs).1 moves).imp fun _ settling => summed_of_settling settling

/-- In every interleaving of any calls in which each store of the total after which no other call
has its own to store finds the two amounts adding up to what its call read, the total is the sum
of the amounts, the realized amount the sum of those added and the peak not below the total
wherever no call is in progress. -/
theorem totals_of_current (nowNs : Nat) (moves : List (Move PnlUpdate))
    (current : Guarded step Current (start nowNs) moves) :
    Always step (fun pool => Summed pool ∧ Totalled pool) (start nowNs) moves := by
  have kept := @always_guarded _ _ step (fun pool => Settling pool ∧ Stored pool) Current
    (fun pool move after both current stepped =>
      ⟨settling_step both.1 stepped, stored_step both.1 both.2 current stepped⟩)
    (start nowNs) (settling_start nowNs) moves current
  exact kept.imp fun pool both => ⟨summed_of_settling both.1, totalled_of_stored both.2⟩

/-- A run in which an addition and an update of the unrealized amount interleave, and the last to
store has read both amounts as they are. -/
def lastReadsBoth : List (Move PnlUpdate) :=
  [.start (.addRealizedPnl 2 5), .start (.updateUnrealizedPnl 3 6), .advance 0, .advance 1,
    .advance 1, .advance 1, .advance 0, .advance 0] ++
  List.replicate 3 (.advance 1) ++ List.replicate 4 (.advance 0)

/-- That run ends without a call in progress, and its total is right. -/
theorem totals_of_current_interleaved :
    Guarded step Current (start 0) lastReadsBoth ∧
      Always step (fun pool => Summed pool ∧ Totalled pool) (start 0) lastReadsBoth := by
  have current : Guarded step Current (start 0) lastReadsBoth := by decide +kernel
  exact ⟨current, totals_of_current 0 lastReadsBoth current⟩

/-- A run in which the unrealized amount is updated between an addition's load and its store. -/
def storesLate : List (Move PnlUpdate) :=
  [.start (.addRealizedPnl 2 5), .start (.updateUnrealizedPnl 3 6), .advance 0, .advance 0] ++
  List.replicate 6 (.advance 1) ++ List.replicate 7 (.advance 0)

/-- The total misses the unrealized amount after that run. -/
theorem total_stale : ¬ ∀ moves, Always step Totalled (start 0) moves := by
  intro law
  have ends : ∃ last ∈ exec step (start 0) storesLate, Quiescent last ∧
      last.shared.totalPnl ≠ last.shared.realizedPnl + last.shared.unrealizedPnl := by
    decide +kernel
  obtain ⟨last, ran, quiescent, differ⟩ := ends
  exact differ ((law storesLate).final ran quiescent)

end TradingBot.Concurrency.PnlTotals
