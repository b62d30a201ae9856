import TradingBot.Foundation.Interleaving

/-!
# Bracket orders

`bracket_order.rs`: an entry with a take profit and a stop loss. Any number of threads call the
bracket, and each call is the sequence of its atomic loads, stores and swaps. Each exit has its
own executed flag and both share one lock, which is free again before the call returns. An exit
therefore executes once, but nothing keeps the second exit from executing after the first.
-/

open Interleaving Run

namespace TradingBot.Brackets

/-- `BracketState`: the state of a bracket order. -/
inductive BracketState where
  | pendingEntry
  | entryFilled
  | tpActiveSlActive
  | tpCancelled
  | slCancelled
  | fullyFilled
  | fullyCancelled
  | error
  deriving DecidableEq, Repr

/-- The state transitions `transition_state` accepts. -/
def validTransition : BracketState → BracketState → Bool
  | .pendingEntry, .entryFilled => true
  | .entryFilled, .tpActiveSlActive => true
  | .tpActiveSlActive, .tpCancelled => true
  | .tpActiveSlActive, .slCancelled => true
  | .tpActiveSlActive, .fullyFilled => true
  | .tpActiveSlActive, .fullyCancelled => true
  | .tpCancelled, .fullyFilled => true
  | .slCancelled, .fullyFilled => true
  | .tpCancelled, .fullyCancelled => true
  | .slCancelled, .fullyCancelled => true
  | _, _ => false

/-- The two exits of a bracket. -/
inductive Exit where
  | stopLoss
  | takeProfit
  deriving DecidableEq, Repr

/-- The exit a bracket must not execute besides another. -/
def Exit.other : Exit → Exit
  | .stopLoss => .takeProfit
  | .takeProfit => .stopLoss

/-- `BracketOrder`: the atomics of a bracket order. -/
structure BracketOrder where
  state : BracketState
  entryOrderId : Nat
  tpOrderId : Nat
  slOrderId : Nat
  slExecuted : Bool
  tpExecuted : Bool
  executionLock : Bool

namespace BracketOrder

/-- `new`: a bracket whose entry is pending. -/
def new : BracketOrder where
  state := .pendingEntry
  entryOrderId := 0
  tpOrderId := 0
  slOrderId := 0
  slExecuted := false
  tpExecuted := false
  executionLock := false

/-- The executed flag of an exit. -/
def executed (bracket : BracketOrder) : Exit → Bool
  | .stopLoss => bracket.slExecuted
  | .takeProfit => bracket.tpExecuted

/-- A bracket after the executed flag of an exit is set. -/
def setExecuted (bracket : BracketOrder) : Exit → BracketOrder
  | .stopLoss => { bracket with slExecuted := true }
  | .takeProfit => { bracket with tpExecuted := true }

/-- A bracket after the execution lock is stored. -/
def setLock (bracket : BracketOrder) (held : Bool) : BracketOrder :=
  { bracket with executionLock := held }

end BracketOrder

/-! ## Calls and their atomic steps -/

/-- Where a call of `transition_state` stands. -/
inductive TransitionStep where
  /-- Before the load of the state. -/
  | load
  /-- Before the store of the new state. -/
  | store
  /-- Returned. -/
  | done (success : Bool)

/-- Where a call of `execute_stop_loss` or `execute_take_profit` stands. -/
inductive ExecuteStep where
  /-- Before the first load of the executed flag. -/
  | check
  /-- Before the swap of the lock. -/
  | lock
  /-- Before the second load of the executed flag. -/
  | recheck
  /-- Before the release of the lock, as the exit was executed. -/
  | abort
  /-- Before the store of the executed flag. -/
  | mark
  /-- Before the load of the other exit's order identifier, which is cancelled. -/
  | cancel
  /-- Before the release of the lock, as the exit is executed. -/
  | unlock
  /-- In the transition to a filled bracket. -/
  | fill (stage : TransitionStep)
  /-- Returned. -/
  | done (success : Bool)

/-- The child orders of a bracket. -/
inductive Child where
  | entry
  | takeProfit
  | stopLoss

/-- Where a call of `set_entry_order_id`, `set_tp_order_id` or `set_sl_order_id` stands. -/
inductive SetStep where
  /-- Before the store of the identifier. -/
  | store
  /-- Before the load of the other exit's identifier. -/
  | load
  /-- In the transition that follows. -/
  | transition (stage : TransitionStep)
  /-- Returned. -/
  | done

/-- A call on a bracket order and where it stands. -/
inductive BracketCall where
  /-- `execute_stop_loss` and `execute_take_profit`. -/
  | execute (exit : Exit) (stage : ExecuteStep)
  /-- `set_entry_order_id`, `set_tp_order_id` and `set_sl_order_id`. -/
  | setOrderId (child : Child) (id : Nat) (stage : SetStep)
  | transition (newState : BracketState) (stage : TransitionStep)

/-- What a thread can call. -/
inductive Operation where
  /-- `execute_stop_loss` and `execute_take_profit`. -/
  | execute (exit : Exit)
  /-- `set_entry_order_id`, `set_tp_order_id` and `set_sl_order_id`. -/
  | setOrderId (child : Child) (id : Nat)
  | transition (newState : BracketState)

/-- A call at its first step. -/
def enter : Operation → BracketCall
  | .execute exit => .execute exit .check
  | .setOrderId child id => .setOrderId child id .store
  | .transition newState => .transition newState .load

/-- The steps of `transition_state`: load and validate, then store. -/
def nextTransition (bracket : BracketOrder) (newState : BracketState) :
    TransitionStep → Option (BracketOrder × TransitionStep)
  | .load =>
    some (bracket, if validTransition bracket.state newState then .store else .done false)
  | .store => some ({ bracket with state := newState }, .done true)
  | .done _ => none

/-- The steps of an execution; it returns whether it executed the exit. -/
def nextExecute (bracket : BracketOrder) (exit : Exit) :
    ExecuteStep → Option (BracketOrder × ExecuteStep)
  | .check => some (bracket, if bracket.executed exit then .done false else .lock)
  | .lock =>
    some (bracket.setLock true, if bracket.executionLock then .done false else .recheck)
  | .recheck => some (bracket, if bracket.executed exit then .abort else .mark)
  | .abort => some (bracket.setLock false, .done false)
  | .mark => some (bracket.setExecuted exit, .cancel)
  -- The cancellation only loads the identifier: the spawned thread does nothing.
  | .cancel => some (bracket, .unlock)
  | .unlock => some (bracket.setLock false, .fill .load)
  | .fill stage => (nextTransition bracket .fullyFilled stage).map fun after =>
      match after.2 with
      | .done _ => (after.1, .done true)
      | later => (after.1, .fill later)
  | .done _ => none

/-- A bracket after the identifier of a child order is stored. -/
def setChildId (bracket : BracketOrder) (id : Nat) : Child → BracketOrder
  | .entry => { bracket with entryOrderId := id }
  | .takeProfit => { bracket with tpOrderId := id }
  | .stopLoss => { bracket with slOrderId := id }

/-- The state a call that sets an identifier goes on to. -/
def Child.target : Child → BracketState
  | .entry => .entryFilled
  | .takeProfit => .tpActiveSlActive
  | .stopLoss => .tpActiveSlActive

/-- The identifier that a call for an exit loads besides: the other exit's. -/
def Child.awaited (bracket : BracketOrder) : Child → Option Nat
  | .entry => none
  | .takeProfit => some bracket.slOrderId
  | .stopLoss => some bracket.tpOrderId

/-- The steps of a call that sets an identifier: the exits go on once both have theirs. -/
def nextSet (bracket : BracketOrder) (child : Child) (id : Nat) :
    SetStep → Option (BracketOrder × SetStep)
  | .store => some (setChildId bracket id child,
      if (child.awaited bracket).isSome then .load else .transition .load)
  | .load => some (bracket,
      if (child.awaited bracket).any (0 < ·) then .transition .load else .done)
  | .transition stage => (nextTransition bracket child.target stage).map fun after =>
      match after.2 with
      | .done _ => (after.1, .done)
      | later => (after.1, .transition later)
  | .done => none

/-- The next atomic step of a call. -/
def next (bracket : BracketOrder) : BracketCall → Option (BracketOrder × BracketCall)
  | .execute exit stage => (nextExecute bracket exit stage).map (Prod.map id (.execute exit))
  | .setOrderId child orderId stage =>
    (nextSet bracket child orderId stage).map (Prod.map id (.setOrderId child orderId))
  | .transition newState stage =>
    (nextTransition bracket newState stage).map (Prod.map id (.transition newState))

/-- A bracket order and all calls on it. -/
abbrev Threads := Pool BracketOrder BracketCall

/-- A bracket after the next move of its threads. -/
def step (threads : Threads) (move : Move Operation) : Option Threads :=
  threads.step enter next move

/-- A new bracket order without calls. -/
def Threads.new : Threads := { shared := .new, calls := [] }

/-- The call executed its exit: it returned true. -/
def returnedTrue : BracketCall → Bool
  | .execute _ (.done true) => true
  | _ => false

/-- At most one exit executes: the flags are not both set, and at most one call returned true. -/
def OneExit (threads : Threads) : Prop :=
  ¬(threads.shared.slExecuted = true ∧ threads.shared.tpExecuted = true) ∧
    threads.count returnedTrue ≤ 1

instance (threads : Threads) : Decidable (OneExit threads) :=
  inferInstanceAs (Decidable (_ ∧ _))

/-- A move that does not execute an exit after the other: where the next step of a call stores
the flag of its exit, the other flag is not set. -/
def Alone (threads : Threads) : Move Operation → Prop
  | .start _ => True
  | .advance position => ∀ exit, threads.calls[position]? = some (.execute exit .mark) →
      threads.shared.executed exit.other = false

/-! ## What the calls hold -/

/-- A call holds the lock. -/
def holdsLock : BracketCall → Bool
  | .execute _ .recheck | .execute _ .abort | .execute _ .mark | .execute _ .cancel
  | .execute _ .unlock => true
  | _ => false

/-- A call set the flag of an exit. -/
def marked (exit : Exit) : BracketCall → Bool
  | .execute other .cancel | .execute other .unlock | .execute other (.fill _)
  | .execute other (.done true) => other = exit
  | _ => false

/-- Along every run one call holds the lock while it is taken, one call has set the flag of each
exit that has one, and a call about to set a flag finds it down. -/
structure Sound (threads : Threads) : Prop where
  lock : threads.count holdsLock = threads.shared.executionLock.toNat
  flags : ∀ exit, threads.count (marked exit) = (threads.shared.executed exit).toNat
  unmarked : ∀ (position : Nat) (exit : Exit),
    threads.calls[position]? = some (.execute exit .mark) →
    threads.shared.executed exit = false

theorem executed_setExecuted (bracket : BracketOrder) (exit other : Exit) :
    (bracket.setExecuted exit).executed other =
      (decide (exit = other) || bracket.executed other) := by
  cases exit <;> cases other <;> simp [BracketOrder.setExecuted, BracketOrder.executed]

/-- What a step of a call does to the lock and the flags, for a call that holds the lock only
while it is taken and sets a flag only from below: it is what the call itself gains or loses. -/
structure Balanced (before after : BracketOrder) (call moved : BracketCall) : Prop where
  lock : (holdsLock moved).toNat + before.executionLock.toNat =
    (holdsLock call).toNat + after.executionLock.toNat
  flags : ∀ exit, (marked exit moved).toNat + (before.executed exit).toNat =
    (marked exit call).toNat + (after.executed exit).toNat
  unmarked : ∀ exit, moved = .execute exit .mark → after.executed exit = false
  -- Only the store of a flag changes one.
  kept : (∀ exit, call ≠ .execute exit .mark) →
    ∀ exit, after.executed exit = before.executed exit

theorem nextTransition_frame {bracket after : BracketOrder} {newState : BracketState}
    {stage later : TransitionStep}
    (stepped : nextTransition bracket newState stage = some (after, later)) :
    after.executionLock = bracket.executionLock ∧
      ∀ exit, after.executed exit = bracket.executed exit := by
  cases stage with
  | load =>
    cases stepped
    exact ⟨rfl, fun _ => rfl⟩
  | store =>
    cases stepped
    exact ⟨rfl, fun exit => by cases exit <;> rfl⟩
  | done success => cases stepped

theorem balanced_frame {before after : BracketOrder} {call moved : BracketCall}
    (lock : after.executionLock = before.executionLock)
    (flags : ∀ exit, after.executed exit = before.executed exit)
    (holds : holdsLock moved = holdsLock call)
    (marks : ∀ exit, marked exit moved = marked exit call)
    (down : ∀ exit, moved = .execute exit .mark → before.executed exit = false) :
    Balanced before after call moved where
  lock := by rw [lock, holds]
  flags := fun exit => by rw [flags, marks]
  unmarked := fun exit mark => (flags exit).trans (down exit mark)
  kept := fun _ => flags

theorem balanced_release {before : BracketOrder} {call moved : BracketCall}
    (taken : before.executionLock = true) (holds : holdsLock call = true)
    (releases : holdsLock moved = false)
    (marks : ∀ exit, marked exit moved = marked exit call)
    (unmarking : ∀ exit, moved ≠ .execute exit .mark) :
    Balanced before (before.setLock false) call moved where
  lock := by rw [taken, holds, releases]; rfl
  flags := fun exit => by
    rw [marks]
    cases exit <;> rfl
  unmarked := fun exit mark => absurd mark (unmarking exit)
  kept := fun _ exit => by cases exit <;> rfl

theorem balanced_execute {bracket after : BracketOrder} {exit : Exit} {stage later : ExecuteStep}
    (held : holdsLock (.execute exit stage) = true → bracket.executionLock = true)
    (down : stage = .mark → bracket.executed exit = false)
    (stepped : nextExecute bracket exit stage = some (after, later)) :
    Balanced bracket after (.execute exit stage) (.execute exit later) := by
  cases stage with
  | check =>
    cases stepped
    split
    · exact balanced_frame rfl (fun _ => rfl) rfl (fun _ => rfl) nofun
    · exact balanced_frame rfl (fun _ => rfl) rfl (fun _ => rfl) nofun
  | lock =>
    cases stepped
    cases taken : bracket.executionLock with
    | true =>
      exact balanced_frame taken.symm (fun exit => by cases exit <;> rfl) rfl (fun _ => rfl) nofun
    | false =>
      have free : bracket.executionLock.toNat = 0 := by rw [taken]; rfl
      exact {
        lock := by rw [free]; rfl
        flags := fun other => by cases other <;> rfl
        unmarked := nofun
        kept := fun _ other => by cases other <;> rfl }
  | recheck =>
    cases stepped
    cases executed : bracket.executed exit with
    | true => exact balanced_frame rfl (fun _ => rfl) rfl (fun _ => rfl) nofun
    | false =>
      refine balanced_frame rfl (fun _ => rfl) rfl (fun _ => rfl) fun other mark => ?_
      cases mark
      exact executed
  | abort =>
    cases stepped
    exact balanced_release (held rfl) rfl rfl (fun _ => rfl) nofun
  | mark =>
    cases stepped
    have unset := down rfl
    refine ⟨by cases exit <;> rfl, fun other => ?_, nofun, fun not => absurd rfl (not exit)⟩
    rw [executed_setExecuted]
    by_cases same : exit = other
    · subst same
      simp [marked, unset]
    · simp [marked, same]
  | cancel =>
    cases stepped
    exact balanced_frame rfl (fun _ => rfl) rfl (fun _ => rfl) nofun
  | unlock =>
    cases stepped
    exact balanced_release (held rfl) rfl rfl (fun _ => rfl) nofun
  | fill inner =>
    obtain ⟨moved, inside, same⟩ := Option.map_eq_some_iff.mp stepped
    have frame := nextTransition_frame inside
    split at same
    · cases same
      exact balanced_frame frame.1 frame.2 rfl (fun _ => rfl) nofun
    · cases same
      exact balanced_frame frame.1 frame.2 rfl (fun _ => rfl) nofun
  | done success => cases stepped

theorem nextSet_frame {bracket after : BracketOrder} {child : Child} {id : Nat}
    {stage later : SetStep} (stepped : nextSet bracket child id stage = some (after, later)) :
    after.executionLock = bracket.executionLock ∧
      ∀ exit, after.executed exit = bracket.executed exit := by
  cases stage with
  | store =>
    cases stepped
    exact ⟨by cases child <;> rfl, fun exit => by cases child <;> cases exit <;> rfl⟩
  | load =>
    cases stepped
    exact ⟨rfl, fun _ => rfl⟩
  | transition inner =>
    obtain ⟨moved, inside, same⟩ := Option.map_eq_some_iff.mp stepped
    have frame := nextTransition_frame inside
    split at same <;> exact Prod.mk.inj same |>.1 ▸ frame
  | done => cases stepped

theorem balanced_next {bracket after : BracketOrder} {call moved : BracketCall}
    (held : holdsLock call = true → bracket.executionLock = true)
    (down : ∀ exit, call = .execute exit .mark → bracket.executed exit = false)
    (stepped : next bracket call = some (after, moved)) : Balanced bracket after call moved := by
  cases call with
  | execute exit stage =>
    obtain ⟨result, inside, same⟩ := Option.map_eq_some_iff.mp stepped
    cases same
    exact balanced_execute held (fun mark => down exit (mark ▸ rfl)) inside
  | setOrderId child id stage =>
    obtain ⟨result, inside, same⟩ := Option.map_eq_some_iff.mp stepped
    cases same
    have frame := nextSet_frame inside
    exact balanced_frame frame.1 frame.2 rfl (fun _ => rfl) nofun
  | transition newState stage =>
    obtain ⟨result, inside, same⟩ := Option.map_eq_some_iff.mp stepped
    cases same
    have frame := nextTransition_frame inside
    exact balanced_frame frame.1 frame.2 rfl (fun _ => rfl) nofun

/-! ## Runs -/

section Runs

variable {threads after : Threads}

theorem lock_taken (sound : Sound threads) {position : Nat} {call : BracketCall}
    (found : threads.calls[position]? = some call) (holds : holdsLock call = true) :
    threads.shared.executionLock = true := by
  have positive := count_pos found holds
  rw [sound.lock] at positive
  cases taken : threads.shared.executionLock with
  | true => rfl
  | false =>
    rw [taken] at positive
    cases positive

/-- Every move keeps the locks sound. -/
theorem sound_step (sound : Sound threads) {move : Move Operation}
    (moved : step threads move = some after) : Sound after := by
  cases move with
  | start operation =>
    cases moved
    have fresh : holdsLock (enter operation) = false ∧
        ∀ exit, marked exit (enter operation) = false := by
      cases operation <;> exact ⟨rfl, fun _ => rfl⟩
    refine ⟨?_, fun exit => ?_, fun position exit there => ?_⟩
    · rw [count_start, fresh.1]
      exact sound.lock
    · rw [count_start, fresh.2]
      exact sound.flags exit
    · by_cases inside : position < threads.calls.length
      · exact sound.unmarked position exit ((List.getElem?_append_left inside).symm.trans there)
      · have last := (List.getElem?_append_right (Nat.le_of_not_lt inside)).symm.trans there
        have entered := List.mem_singleton.mp (List.mem_of_getElem? last)
        cases operation <;> cases entered
  | advance position =>
    obtain ⟨call, found, shared, changed, stepped, rfl⟩ := step_advance.mp moved
    have balanced := balanced_next (lock_taken sound found)
      (fun exit mark => sound.unmarked position exit (mark ▸ found)) stepped
    have inside := (List.getElem?_eq_some_iff.mp found).1
    refine ⟨?_, fun exit => ?_, fun place exit there => ?_⟩
    · have counted := @count_advance _ _ threads position shared call holdsLock found changed
      have gained := balanced.lock
      have before := sound.lock
      show _ = shared.executionLock.toNat
      omega
    · have counted := @count_advance _ _ threads position shared call (marked exit) found changed
      have gained := balanced.flags exit
      have before := sound.flags exit
      show _ = (shared.executed exit).toNat
      omega
    · show shared.executed exit = false
      by_cases here : position = place
      · have same : changed = .execute exit .mark := by
          have now := there
          rw [← here, List.getElem?_set_self inside] at now
          exact Option.some.inj now
        exact balanced.unmarked exit same
      · have other : threads.calls[place]? = some (.execute exit .mark) :=
          (List.getElem?_set_ne here).symm.trans there
        -- The other call holds the lock, so this one does not store a flag.
        have not : ∀ exit, call ≠ .execute exit .mark := by
          intro stored mark
          have once : threads.count holdsLock ≤ 1 := sound.lock ▸ Bool.toNat_le _
          have holds : holdsLock call = true := mark ▸ rfl
          exact here (position_unique once found other holds rfl)
        rw [balanced.kept not]
        exact sound.unmarked place exit other

theorem marked_of_returned {call : BracketCall} (returned : returnedTrue call = true) :
    marked .stopLoss call = true ∨ marked .takeProfit call = true := by
  cases call with
  | execute exit stage =>
    cases stage with
    | done success =>
      cases success with
      | true => cases exit <;> decide
      | false => cases returned
    | _ => cases returned
  | setOrderId child id stage => cases returned
  | transition newState stage => cases returned

theorem oneExit_iff (sound : Sound threads) :
    OneExit threads ↔ ¬(threads.shared.slExecuted = true ∧ threads.shared.tpExecuted = true) := by
  refine ⟨And.left, fun apart => ⟨apart, ?_⟩⟩
  have few : threads.count returnedTrue ≤
      threads.count (marked .stopLoss) + threads.count (marked .takeProfit) :=
    count_le_add fun _ => marked_of_returned
  have first : threads.count (marked .stopLoss) = threads.shared.slExecuted.toNat :=
    sound.flags .stopLoss
  have second : threads.count (marked .takeProfit) = threads.shared.tpExecuted.toNat :=
    sound.flags .takeProfit
  rw [first, second] at few
  revert apart few
  cases threads.shared.slExecuted <;> cases threads.shared.tpExecuted <;> simp
  omega

theorem apart_iff (bracket : BracketOrder) (exit : Exit) :
    ¬(bracket.slExecuted = true ∧ bracket.tpExecuted = true) ↔
      (bracket.executed exit = true → bracket.executed exit.other = false) := by
  cases exit <;> simp [BracketOrder.executed, Exit.other]

/-- One move keeps a single exit exactly when it is alone. -/
theorem oneExit_step (sound : Sound threads) (one : OneExit threads) {move : Move Operation}
    (moved : step threads move = some after) : OneExit after ↔ Alone threads move := by
  rw [oneExit_iff (sound_step sound moved)]
  cases move with
  | start operation =>
    cases moved
    exact ⟨fun _ => trivial, fun _ => one.1⟩
  | advance position =>
    obtain ⟨call, found, shared, changed, stepped, rfl⟩ := step_advance.mp moved
    by_cases mark : ∃ exit, call = .execute exit .mark
    · obtain ⟨exit, rfl⟩ := mark
      cases stepped
      have set : (threads.shared.setExecuted exit).executed exit = true := by
        rw [executed_setExecuted, decide_eq_true rfl, Bool.true_or]
      have other : (threads.shared.setExecuted exit).executed exit.other =
          threads.shared.executed exit.other := by
        rw [executed_setExecuted]
        cases exit <;> rfl
      refine (apart_iff _ exit).trans ?_
      show ((threads.shared.setExecuted exit).executed exit = true →
        (threads.shared.setExecuted exit).executed exit.other = false) ↔ _
      rw [set, other]
      constructor
      · intro alone stored there
        cases found.symm.trans there
        exact alone rfl
      · exact fun alone _ => alone exit found
    · have balanced := balanced_next (lock_taken sound found)
        (fun exit there => sound.unmarked position exit (there ▸ found)) stepped
      have kept := balanced.kept fun exit there => mark ⟨exit, there⟩
      refine ⟨fun _ exit there => ?_, fun _ => ?_⟩
      · exact absurd ⟨exit, Option.some.inj (found.symm.trans there)⟩ mark
      · have before := (apart_iff threads.shared .stopLoss).mp one.1
        apply (apart_iff shared .stopLoss).mpr
        rw [kept, kept]
        exact before

end Runs

/-- Along every interleaving of any number of calls on a bracket order, at most one exit executes
if and only if no call stores the flag of its exit while the flag of the other is set. -/
theorem one_exit_executes (moves : List (Move Operation)) :
    Always step OneExit Threads.new moves ↔ Guarded step Alone Threads.new moves := by
  apply @always_iff_guarded _ _ step Sound OneExit Alone
  · exact fun _ _ _ sound moved => sound_step sound moved
  · exact fun _ _ _ sound one moved => oneExit_step sound one moved
  · exact ⟨rfl, fun exit => by cases exit <;> rfl, nofun⟩
  · decide

/-- A bracket gets its three orders, the stop loss executes, and a take profit called after it
executes as well. -/
theorem both_exits_execute :
    ¬Always step OneExit Threads.new
      (.start (.setOrderId .entry 1) :: List.replicate 3 (.advance 0) ++
        .start (.setOrderId .takeProfit 2) :: List.replicate 2 (.advance 1) ++
        .start (.setOrderId .stopLoss 3) :: List.replicate 4 (.advance 2) ++
        .start (.execute .stopLoss) :: List.replicate 8 (.advance 3) ++
        .start (.execute .takeProfit) :: List.replicate 7 (.advance 4)) := by
  decide +kernel

end TradingBot.Brackets
