import TradingBot.Oms.StepLifeCycle

/-!
# Managed stops

`StepTrailingManager` of `step_trailing.rs` keeps the stops by position, and an index of the
positions by symbol. Along every run of its calls the index lists the positions of a symbol once
each, so that the stop of a position is what the calls make of that position alone.
-/

open Run

namespace TradingBot.Oms.StepTrailing


/-- A call on a manager. -/
inductive ManagerCall where
  | create (positionId : String) (setup : StepTrailingSetup)
  | update (symbol : String) (currentPrice : ℚ)
  | check (symbol : String) (currentPrice : ℚ)
  | remove (positionId : String)

/-- What a call returns. -/
inductive ManagerAnswer where
  | created (result : Except String Unit)
  | moved (updates : List (String × ℚ))
  | triggered (positions : List String)
  | removed (existed : Bool)

/-- What a call makes of the stop of one position alone. -/
def alone (positionId : String) (stop : Option StepTrailingStop) :
    ManagerCall → Option (Option StepTrailingStop)
  | .create other setup =>
    some (if other = positionId ∧ stop = none then some (.new setup) else stop)
  | .update symbol currentPrice =>
    stop.mapM fun stop =>
      if stop.symbol = symbol then (stop.update currentPrice).map Prod.snd else some stop
  | .check symbol currentPrice =>
    some (stop.map fun stop =>
      if stop.symbol = symbol then (stop.checkTrigger currentPrice).2 else stop)
  | .remove other => some (if other = positionId then none else stop)

namespace StepTrailingManager

/-- A call, where no update stops the program. -/
def perform (manager : StepTrailingManager) :
    ManagerCall → Option (ManagerAnswer × StepTrailingManager)
  | .create positionId setup =>
    let (result, after) := manager.createStop positionId setup
    some (.created result, after)
  | .update symbol currentPrice => do
    let (updates, after) ← manager.updateSymbol symbol currentPrice
    return (.moved updates, after)
  | .check symbol currentPrice =>
    let (positions, after) := manager.checkTriggers symbol currentPrice
    some (.triggered positions, after)
  | .remove positionId =>
    let (existed, after) := manager.removeStop positionId
    some (.removed existed, after)

/-- A manager after a call. -/
def step (manager : StepTrailingManager) (call : ManagerCall) : Option StepTrailingManager :=
  (manager.perform call).map Prod.snd

/-- A call answers for the stops of its symbol, once for each. -/
def Answers (manager : StepTrailingManager) : ManagerCall → ManagerAnswer → Prop
  | .create positionId _, .created result =>
    result = if (manager.stops.get positionId).isSome then
      .error "Position already has a trailing stop" else .ok ()
  | .update symbol currentPrice, .moved updates =>
    (updates.map Prod.fst).Nodup ∧ ∀ positionId price, (positionId, price) ∈ updates ↔
      ∃ stop, manager.stops.get positionId = some stop ∧ stop.symbol = symbol ∧
        (stop.update currentPrice).map Prod.fst = some (some price)
  | .check symbol currentPrice, .triggered positions =>
    positions.Nodup ∧ ∀ positionId, positionId ∈ positions ↔
      ∃ stop, manager.stops.get positionId = some stop ∧ stop.symbol = symbol ∧
        stop.isHit currentPrice = true
  | .remove positionId, .removed existed => existed = (manager.stops.get positionId).isSome
  | _, _ => False

/-- The index lists the positions of a symbol, once each. -/
structure Indexed (manager : StepTrailingManager) : Prop where
  listed : ∀ symbol positionId, positionId ∈ manager.positionsOf symbol ↔
    (manager.stops.get positionId).map (fun stop => stop.symbol) = some symbol
  nodup : ∀ symbol, (manager.positionsOf symbol).Nodup

variable {manager after : StepTrailingManager} {positions : List String} {currentPrice : ℚ}

/-! ## The loops over the positions of a symbol -/

/-- What one price does to a list of positions: their stops are updated, in their order. -/
theorem updatePositions_some {updates : List (String × ℚ)} (nodup : positions.Nodup)
    (ran : updatePositions currentPrice positions manager = some (updates, after)) :
    after.symbolIndex = manager.symbolIndex ∧ (updates.map Prod.fst).Sublist positions ∧
      (∀ positionId, (manager.stops.get positionId).mapM (fun stop =>
        if positionId ∈ positions then (stop.update currentPrice).map Prod.snd else some stop) =
          some (after.stops.get positionId)) ∧
      ∀ positionId price, (positionId, price) ∈ updates ↔ positionId ∈ positions ∧
        ∃ stop, manager.stops.get positionId = some stop ∧
          (stop.update currentPrice).map Prod.fst = some (some price) := by
  induction positions generalizing manager updates with
  | nil =>
    cases ran
    refine ⟨rfl, .slnil, fun positionId => ?_, by simp⟩
    cases after.stops.get positionId <;> simp
  | cons first rest ih =>
    obtain ⟨fresh, later⟩ := List.nodup_cons.mp nodup
    unfold updatePositions at ran
    cases found : manager.stops.get first with
    | none =>
      rw [found] at ran
      obtain ⟨index, sublist, stops, members⟩ := ih later ran
      refine ⟨index, sublist.cons first, fun positionId => ?_, fun positionId price => ?_⟩
      · by_cases same : positionId = first
        · have kept := stops positionId
          rw [same, found] at kept ⊢
          exact kept
        · simpa [same] using stops positionId
      · rw [members, List.mem_cons]
        refine and_congr_left fun held => ⟨.inr, fun listed => ?_⟩
        obtain ⟨stop, there, -⟩ := held
        refine listed.resolve_left fun same => ?_
        cases found.symm.trans (same ▸ there)
    | some stop =>
      rw [found] at ran
      obtain ⟨⟨newStop, moved⟩, updated, continued⟩ := Option.bind_eq_some_iff.mp ran
      obtain ⟨⟨more, last⟩, looped, same⟩ := Option.bind_eq_some_iff.mp continued
      cases same
      obtain ⟨index, sublist, stops, members⟩ := ih later looped
      simp only [Dict.get_put] at stops members
      refine ⟨index, ?_, fun positionId => ?_, fun positionId price => ?_⟩
      · cases newStop with
        | none => exact sublist.cons first
        | some price => exact sublist.cons_cons first
      · by_cases same : positionId = first
        · have kept : some moved = after.stops.get first := by simpa [fresh] using stops first
          rw [same, found, ← kept]
          simp [updated]
        · simpa [same] using stops positionId
      · rw [List.mem_append, members, List.mem_cons]
        by_cases same : positionId = first
        · cases newStop with
          | none => simp [same, fresh, found, updated]
          | some price => simp [same, fresh, found, updated, eq_comm]
        · cases newStop with
          | none => simp [same]
          | some price => simp [same]

theorem updatePositions_none (nodup : positions.Nodup)
    (stopped : updatePositions currentPrice positions manager = none) :
    ∃ positionId ∈ positions, ∃ stop, manager.stops.get positionId = some stop ∧
      stop.update currentPrice = none := by
  induction positions generalizing manager with
  | nil => cases stopped
  | cons first rest ih =>
    obtain ⟨fresh, later⟩ := List.nodup_cons.mp nodup
    unfold updatePositions at stopped
    cases found : manager.stops.get first with
    | none =>
      rw [found] at stopped
      obtain ⟨positionId, member, held⟩ := ih later stopped
      exact ⟨positionId, List.mem_cons_of_mem first member, held⟩
    | some stop =>
      rw [found] at stopped
      cases updated : stop.update currentPrice with
      | none => exact ⟨first, List.mem_cons_self, stop, found, updated⟩
      | some result =>
        have looped : updatePositions currentPrice rest
            { manager with stops := manager.stops.put first result.2 } = none := by
          cases ran : updatePositions currentPrice rest
              { manager with stops := manager.stops.put first result.2 } with
          | none => rfl
          | some last => simp [updated, ran] at stopped
        obtain ⟨positionId, member, other, there, fails⟩ := ih later looped
        have apart : positionId ≠ first := fun same => fresh (same ▸ member)
        rw [Dict.get_put, if_neg apart] at there
        exact ⟨positionId, List.mem_cons_of_mem first member, other, there, fails⟩

theorem checkPositions_checks (currentPrice : ℚ) (nodup : positions.Nodup)
    (manager : StepTrailingManager) :
    (checkPositions currentPrice positions manager).2.symbolIndex = manager.symbolIndex ∧
      (checkPositions currentPrice positions manager).1.Sublist positions ∧
      ∀ positionId, (checkPositions currentPrice positions manager).2.stops.get positionId =
        (manager.stops.get positionId).map fun stop =>
          if positionId ∈ positions then (stop.checkTrigger currentPrice).2 else stop := by
  induction positions generalizing manager with
  | nil => simp [checkPositions]
  | cons first rest ih =>
    obtain ⟨fresh, later⟩ := List.nodup_cons.mp nodup
    unfold checkPositions
    cases found : manager.stops.get first with
    | none =>
      obtain ⟨index, sublist, stops⟩ := ih later manager
      refine ⟨index, sublist.cons first, fun positionId => (stops positionId).trans ?_⟩
      by_cases same : positionId = first
      · rw [same, found]
        rfl
      · simp [same]
    | some stop =>
      obtain ⟨index, sublist, stops⟩ := ih later
        { manager with stops := manager.stops.put first (stop.checkTrigger currentPrice).2 }
      simp only [Dict.get_put] at stops
      refine ⟨index, ?_, fun positionId => (stops positionId).trans ?_⟩
      · cases hit : (stop.checkTrigger currentPrice).1
        · simpa [hit] using sublist.cons first
        · simpa [hit] using sublist.cons_cons first
      · by_cases same : positionId = first
        · simp [same, fresh, found]
        · simp [same]

/-! ## Calls -/

variable {stop : StepTrailingStop} {positionId : String}

theorem update_symbol {next : StepTrailingStop} {price : ℚ}
    (taken : (stop.update price).map Prod.snd = some next) : next.symbol = stop.symbol := by
  obtain ⟨-, rfl⟩ | ⟨-, -, rfl⟩ | ⟨-, -, computed, -, rfl⟩ := update_cases taken
  all_goals rfl

theorem checkTrigger_symbol (stop : StepTrailingStop) (price : ℚ) :
    (stop.checkTrigger price).2.symbol = stop.symbol := by
  unfold StepTrailingStop.checkTrigger
  simp only
  split
  all_goals rfl

section

variable (indexed : Indexed manager)
include indexed

theorem Indexed.kept (same : after.symbolIndex = manager.symbolIndex)
    (symbols : ∀ positionId, (after.stops.get positionId).map (fun stop => stop.symbol) =
      (manager.stops.get positionId).map (fun stop => stop.symbol)) :
    Indexed after := by
  have positions : ∀ symbol, after.positionsOf symbol = manager.positionsOf symbol := fun symbol =>
    congrArg (fun index => (index.get symbol).getD []) same
  constructor
  · intro symbol positionId
    rw [positions, symbols]
    exact indexed.listed symbol positionId
  · intro symbol
    rw [positions]
    exact indexed.nodup symbol

/-- A position is listed under its own symbol only. -/
theorem Indexed.listed_iff (there : manager.stops.get positionId = some stop) (symbol : String) :
    positionId ∈ manager.positionsOf symbol ↔ stop.symbol = symbol := by
  rw [indexed.listed, there]
  exact Option.some_inj

/-- What holds of a position that the index lists under a symbol. -/
theorem Indexed.listed_holds (symbol positionId : String) {holds : StepTrailingStop → Prop} :
    (positionId ∈ manager.positionsOf symbol ∧
      ∃ stop, manager.stops.get positionId = some stop ∧ holds stop) ↔
        ∃ stop, manager.stops.get positionId = some stop ∧ stop.symbol = symbol ∧ holds stop := by
  constructor
  · rintro ⟨member, stop, found, held⟩
    exact ⟨stop, found, (indexed.listed_iff found symbol).mp member, held⟩
  · rintro ⟨stop, found, here, held⟩
    exact ⟨(indexed.listed_iff found symbol).mpr here, stop, found, held⟩

theorem indexed_created (fresh : manager.stops.get positionId = none) (setup : StepTrailingSetup) :
    Indexed ⟨manager.stops.put positionId (.new setup), manager.symbolIndex.put setup.symbol
      (manager.positionsOf setup.symbol ++ [positionId])⟩ := by
  have unlisted : ∀ symbol, positionId ∉ manager.positionsOf symbol := by
    intro symbol member
    rw [indexed.listed, fresh] at member
    cases member
  constructor
  · intro symbol other
    show other ∈ ((manager.symbolIndex.put _ _).get symbol).getD [] ↔ _
    rw [Dict.getD_put, Dict.get_put]
    have before : other ∈ (manager.symbolIndex.get symbol).getD [] ↔ _ :=
      indexed.listed symbol other
    by_cases same : other = positionId
    · have missing : other ∉ (manager.symbolIndex.get symbol).getD [] := same ▸ unlisted symbol
      by_cases here : symbol = setup.symbol
      · simp [same, here, StepTrailingStop.new]
      · simp [same ▸ missing, same, here, Ne.symm here, StepTrailingStop.new]
    · rw [if_neg same]
      split
      next here =>
        rw [List.mem_append, List.mem_singleton, or_iff_left same, ← here]
        exact before
      next => exact before
  · intro symbol
    show (((manager.symbolIndex.put _ _).get symbol).getD []).Nodup
    rw [Dict.getD_put]
    split
    · exact (indexed.nodup _).append (List.nodup_singleton _)
        (List.disjoint_singleton.mpr (unlisted _))
    · exact indexed.nodup symbol

theorem indexed_removed (found : manager.stops.get positionId = some stop) :
    Indexed ⟨manager.stops.pop positionId, manager.symbolIndex.put stop.symbol
      ((manager.positionsOf stop.symbol).filter fun other => other ≠ positionId)⟩ := by
  constructor
  · intro symbol other
    show other ∈ ((manager.symbolIndex.put _ _).get symbol).getD [] ↔ _
    rw [Dict.getD_put, Dict.get_pop]
    have before : other ∈ (manager.symbolIndex.get symbol).getD [] ↔ _ :=
      indexed.listed symbol other
    split
    next here =>
      rw [List.mem_filter, decide_eq_true_iff, ← here]
      split
      next same => simp [same]
      next apart => exact (and_iff_left apart).trans before
    next away =>
      split
      next same =>
        rw [before, same, found]
        simp [Ne.symm away]
      next => exact before
  · intro symbol
    show (((manager.symbolIndex.put _ _).get symbol).getD []).Nodup
    rw [Dict.getD_put]
    split
    · exact (indexed.nodup stop.symbol).filter _
    · exact indexed.nodup symbol

theorem removeStop_found (found : manager.stops.get positionId = some stop) :
    manager.removeStop positionId = (true, ⟨manager.stops.pop positionId,
      manager.symbolIndex.put stop.symbol
        ((manager.positionsOf stop.symbol).filter fun other => other ≠ positionId)⟩) := by
  have member : positionId ∈ manager.positionsOf stop.symbol :=
    (indexed.listed_iff found stop.symbol).mpr rfl
  unfold positionsOf at member ⊢
  unfold removeStop
  rw [found]
  cases listed : manager.symbolIndex.get stop.symbol with
  | none =>
    rw [listed] at member
    cases member
  | some positions => simp [listed]

end

theorem symbols_kept {before later : Option StepTrailingStop}
    {change : StepTrailingStop → Option StepTrailingStop}
    (same : ∀ stop next, change stop = some next → next.symbol = stop.symbol)
    (changed : before.mapM change = some later) :
    later.map (fun stop => stop.symbol) = before.map fun stop => stop.symbol := by
  cases before with
  | none =>
    cases changed
    rfl
  | some stop =>
    obtain ⟨next, stepped, rfl⟩ := Option.map_eq_some_iff.mp changed
    exact congrArg some (same stop next stepped)

/-- A call leaves the index right, makes of each stop what it makes of it alone, and answers for the
stops of its symbol. -/
def Performed (manager : StepTrailingManager) (call : ManagerCall) (answer : ManagerAnswer)
    (after : StepTrailingManager) : Prop :=
  Indexed after ∧ (∀ positionId, alone positionId (manager.stops.get positionId) call =
    some (after.stops.get positionId)) ∧ Answers manager call answer

section

variable (indexed : Indexed manager)
include indexed

theorem create_performed (positionId : String) (setup : StepTrailingSetup) :
    Performed manager (.create positionId setup)
      (.created (manager.createStop positionId setup).1)
      (manager.createStop positionId setup).2 := by
  unfold createStop
  cases found : manager.stops.get positionId with
  | none =>
    refine ⟨indexed_created indexed found setup, fun other => ?_, by simp [Answers, found]⟩
    by_cases same : other = positionId
    · simp [alone, same, found, Dict.get_put]
    · simp [alone, same, Ne.symm same, Dict.get_put]
  | some stop =>
    refine ⟨indexed, fun other => ?_, by simp [Answers, found]⟩
    by_cases same : other = positionId
    · simp [alone, same, found]
    · simp [alone, Ne.symm same]

theorem update_performed {symbol : String} {updates : List (String × ℚ)}
    (ran : manager.updateSymbol symbol currentPrice = some (updates, after)) :
    Performed manager (.update symbol currentPrice) (.moved updates) after := by
  obtain ⟨index, sublist, stops, members⟩ := updatePositions_some (indexed.nodup symbol) ran
  refine ⟨indexed.kept index fun positionId => symbols_kept ?_ (stops positionId),
    fun positionId => ?_, sublist.nodup (indexed.nodup symbol), fun positionId price => ?_⟩
  · intro stop next stepped
    split at stepped
    · exact update_symbol stepped
    · cases stepped
      rfl
  · rw [← stops]
    cases found : manager.stops.get positionId with
    | none => rfl
    | some stop => simp only [alone, Option.mapM_some, indexed.listed_iff found]
  · rw [members]
    exact indexed.listed_holds symbol positionId

theorem check_performed (symbol : String) (currentPrice : ℚ) :
    Performed manager (.check symbol currentPrice)
      (.triggered (manager.checkTriggers symbol currentPrice).1)
      (manager.checkTriggers symbol currentPrice).2 := by
  unfold checkTriggers
  obtain ⟨index, sublist, stops⟩ :=
    checkPositions_checks currentPrice (indexed.nodup symbol) manager
  refine ⟨indexed.kept index fun positionId => ?_, fun positionId => ?_,
    sublist.nodup (indexed.nodup symbol), fun positionId => ?_⟩
  · rw [stops, Option.map_map]
    congr 1
    funext stop
    show (if _ then _ else _ : StepTrailingStop).symbol = _
    split
    · exact checkTrigger_symbol stop currentPrice
    · rfl
  · refine congrArg some (Eq.trans ?_ (stops positionId).symm)
    cases found : manager.stops.get positionId with
    | none => rfl
    | some stop => simp only [Option.map_some, indexed.listed_iff found]
  · rw [mem_checkPositions]
    exact indexed.listed_holds symbol positionId

theorem remove_performed (positionId : String) :
    Performed manager (.remove positionId) (.removed (manager.removeStop positionId).1)
      (manager.removeStop positionId).2 := by
  cases found : manager.stops.get positionId with
  | none =>
    have absent : manager.removeStop positionId = (false, manager) := by simp [removeStop, found]
    rw [absent]
    refine ⟨indexed, fun other => ?_, by simp [Answers, found]⟩
    by_cases same : other = positionId
    · simp [alone, same, found]
    · simp [alone, Ne.symm same]
  | some stop =>
    rw [removeStop_found indexed found]
    refine ⟨indexed_removed indexed found, fun other => ?_, by simp [Answers, found]⟩
    by_cases same : other = positionId
    · simp [alone, same, Dict.get_pop]
    · simp [alone, same, Ne.symm same, Dict.get_pop]

theorem perform_some {call : ManagerCall} {answer : ManagerAnswer}
    (taken : manager.perform call = some (answer, after)) :
    Performed manager call answer after := by
  cases call with
  | create positionId setup =>
    cases taken
    exact create_performed indexed positionId setup
  | update symbol currentPrice =>
    obtain ⟨result, ran, same⟩ := Option.bind_eq_some_iff.mp taken
    cases same
    exact update_performed indexed ran
  | check symbol currentPrice =>
    cases taken
    exact check_performed indexed symbol currentPrice
  | remove positionId =>
    cases taken
    exact remove_performed indexed positionId

theorem perform_none {call : ManagerCall} (stopped : manager.perform call = none) :
    ∃ positionId, alone positionId (manager.stops.get positionId) call = none := by
  cases call with
  | update symbol currentPrice =>
    have looped : manager.updateSymbol symbol currentPrice = none := by
      cases ran : manager.updateSymbol symbol currentPrice with
      | none => rfl
      | some result => simp [perform, ran] at stopped
    obtain ⟨positionId, member, stop, found, fails⟩ :=
      updatePositions_none (indexed.nodup symbol) looped
    refine ⟨positionId, ?_⟩
    simp [alone, found, (indexed.listed_iff found symbol).mp member, fails]
  | create => cases stopped
  | check => cases stopped
  | remove => cases stopped

end

/-- Along every run of calls the manager keeps for each position the stop that the calls make of
that position alone, stops the program only where a position alone would, and answers for exactly
the stops of the symbol that is asked for. -/
theorem exec_alone (calls : List ManagerCall) :
    (exec step new calls = none ↔ ∃ positionId, exec (alone positionId) none calls = none) ∧
    ∀ manager, exec step new calls = some manager →
      (∀ positionId, exec (alone positionId) none calls = some (manager.stops.get positionId)) ∧
      ∀ call answer after, manager.perform call = some (answer, after) →
        Answers manager call answer := by
  have start : Indexed new := by
    constructor
    · intro symbol positionId
      simp [new, positionsOf, Dict.get, Dict.empty]
    · exact fun _ => List.nodup_nil
  obtain ⟨runs, stops⟩ := @exec_components _ _ step _ _ Indexed
    (fun positionId manager => manager.stops.get positionId) alone
    (fun manager call after indexed stepped => by
      obtain ⟨⟨answer, last⟩, performed, rfl⟩ := Option.map_eq_some_iff.mp stepped
      obtain ⟨kept, alone, -⟩ := perform_some indexed performed
      exact ⟨kept, alone⟩)
    (fun manager call indexed stopped => perform_none indexed (Option.map_eq_none_iff.mp stopped))
    new start calls
  refine ⟨⟨stops, fun refused => ?_⟩, fun manager ran => ?_⟩
  · obtain ⟨positionId, stopped⟩ := refused
    cases ran : exec step new calls with
    | none => rfl
    | some manager => cases stopped.symm.trans ((runs manager ran).2 positionId)
  · obtain ⟨indexed, parts⟩ := runs manager ran
    exact ⟨parts, fun call answer after performed => (perform_some indexed performed).2.2⟩

end StepTrailingManager

end TradingBot.Oms.StepTrailing
