import Mathlib.Data.Fintype.Basic
import TradingBot.Foundation.Run
import TradingBot.Cqrs.EventStore

/-!
# Concurrent appends

Any number of appenders share one store. Each append draws its number and publishes its event
in two steps, between which any other appender may take any of its own. The number is drawn
outside the lock, so two appenders can publish in the other order; the retained window is the
newest numbers in order along every run whose publications take the oldest number drawn.
-/

open MachineInt

namespace TradingBot.ConcurrentAppend

/-- A store and the appends half done: an appender holds the event it has numbered. -/
structure System (τ : Type) where
  store : EventStore
  /-- The numbered event each appender has yet to publish. -/
  pending : τ → Option Event

/-- One atomic step of an appender. -/
inductive Action (τ : Type) where
  /-- `fetch_add` on the counter, for an event to be appended. -/
  | draw (appender : τ) (event : Event)
  /-- The critical section under the write lock. -/
  | publish (appender : τ)

variable {τ : Type} [DecidableEq τ]

/-- A fresh store and no append under way. -/
def System.new : System τ where
  store := EventStore.new
  pending := fun _ => none

/-- One atomic step; an appender draws only between appends and publishes only within one. -/
def step (system : System τ) : Action τ → Option (System τ)
  | .draw appender event =>
    match system.pending appender with
    | some _ => none
    | none =>
      let (sequence, drawn) := system.store.draw
      -- The append that draws zero has failed and is over.
      if sequence = 0 then some { system with store := drawn }
      else some {
        store := drawn
        pending := Function.update system.pending appender (some { event with sequence }) }
  | .publish appender =>
    match system.pending appender with
    | none => none
    | some event => some {
        store := system.store.publish event
        pending := Function.update system.pending appender none }

/-- No append is half done. -/
def Quiescent (system : System τ) : Prop := ∀ appender, system.pending appender = none

/-- The buffered events carry the newest sequence numbers, consecutive and increasing up to the
latest one, with none missing or duplicated, and the chain validates. -/
def Chained (store : EventStore) : Prop :=
  store.Retains store.latestSequence ∧ store.validateChain = .ok ()

/-- The step publishes the oldest number drawn and not yet published; a draw does not exhaust
the counter. -/
def InOrder (system : System τ) : Action τ → Prop
  | .draw _ _ => system.store.sequenceCounter + 1 < u64Size
  | .publish appender => ∀ other, ∀ held ∈ system.pending appender,
      ∀ later ∈ system.pending other, held.sequence ≤ later.sequence

omit [DecidableEq τ] in
instance [Fintype τ] (system : System τ) (action : Action τ) :
    Decidable (InOrder system action) :=
  match action with
  | .draw _ _ => inferInstanceAs (Decidable (system.store.sequenceCounter + 1 < u64Size))
  | .publish appender => inferInstanceAs (Decidable (∀ other, ∀ held ∈ system.pending appender,
      ∀ later ∈ system.pending other, held.sequence ≤ later.sequence))

/-- The first `published` numbers are published in order, and each later number drawn is held
by exactly one appender. -/
structure Ordered (published : Nat) (system : System τ) : Prop where
  /-- The buffer holds the newest published numbers. -/
  retains : system.store.Retains published
  /-- The next number to publish is drawn or is next to be drawn. -/
  drawn : published < system.store.sequenceCounter
  /-- The counter has not wrapped. -/
  fits : system.store.sequenceCounter < u64Size
  /-- A held number is drawn and not published. -/
  held : ∀ appender event, system.pending appender = some event →
    published < event.sequence ∧ event.sequence < system.store.sequenceCounter
  /-- A number drawn and not published is held. -/
  covered : ∀ sequence, published < sequence → sequence < system.store.sequenceCounter →
    ∃ appender event, system.pending appender = some event ∧ event.sequence = sequence
  /-- No two appenders hold one number. -/
  distinct : ∀ first second left right, system.pending first = some left →
    system.pending second = some right → left.sequence = right.sequence → first = second

omit [DecidableEq τ] in
theorem ordered_new : Ordered 0 (System.new : System τ) where
  retains := EventStore.retains_new
  drawn := Nat.zero_lt_one
  fits := show 1 < u64Size by decide
  held := by simp [System.new]
  covered := by
    intro sequence positive below
    change sequence < 1 at below
    omega
  distinct := by simp [System.new]

theorem ordered_draw {published : Nat} {system next : System τ} {appender : τ} {event : Event}
    (ordered : Ordered published system) (room : system.store.sequenceCounter + 1 < u64Size)
    (stepped : step system (.draw appender event) = some next) : Ordered published next := by
  have idle : system.pending appender = none := by
    cases pending : system.pending appender with
    | none => rfl
    | some _ => simp [step, pending] at stepped
  have nonzero : system.store.sequenceCounter ≠ 0 := by
    have := ordered.drawn
    omega
  simp only [step, idle, EventStore.draw, nonzero, ↓reduceIte, castU64_of_fits room,
    Option.some.injEq] at stepped
  subst stepped
  refine ⟨ordered.retains, ?_, room, ?_, ?_, ?_⟩
  · exact Nat.lt_succ_of_lt ordered.drawn
  · intro holder taken held
    by_cases same : holder = appender
    · subst same
      simp only [Function.update_self, Option.some.injEq] at held
      subst held
      exact ⟨ordered.drawn, Nat.lt_succ_self _⟩
    · simp only [Function.update_of_ne same] at held
      have bounds := ordered.held holder taken held
      exact ⟨bounds.1, Nat.lt_succ_of_lt bounds.2⟩
  · intro sequence above below
    by_cases drawn : sequence = system.store.sequenceCounter
    · exact ⟨appender, { event with sequence := system.store.sequenceCounter },
        Function.update_self .., drawn.symm⟩
    · change sequence < system.store.sequenceCounter + 1 at below
      obtain ⟨holder, taken, held, same⟩ := ordered.covered sequence above (by omega)
      have other : holder ≠ appender := fun clash => by simp [clash, idle] at held
      exact ⟨holder, taken, by simpa only [Function.update_of_ne other] using held, same⟩
  · intro first second left right leftHeld rightHeld same
    by_cases isFirst : first = appender <;> by_cases isSecond : second = appender
    · rw [isFirst, isSecond]
    · subst isFirst
      simp only [Function.update_self, Option.some.injEq, Function.update_of_ne isSecond]
        at leftHeld rightHeld
      have := (ordered.held second right rightHeld).2
      subst leftHeld
      simp only at same
      omega
    · subst isSecond
      simp only [Function.update_self, Option.some.injEq, Function.update_of_ne isFirst]
        at leftHeld rightHeld
      have := (ordered.held first left leftHeld).2
      subst rightHeld
      simp only at same
      omega
    · simp only [Function.update_of_ne isFirst, Function.update_of_ne isSecond]
        at leftHeld rightHeld
      exact ordered.distinct first second left right leftHeld rightHeld same

theorem ordered_publish {published : Nat} {system next : System τ} {appender : τ}
    (ordered : Ordered published system) (inOrder : InOrder system (.publish appender))
    (stepped : step system (.publish appender) = some next) : Ordered (published + 1) next := by
  cases pending : system.pending appender with
  | none => simp [step, pending] at stepped
  | some event =>
    simp only [step, pending, Option.some.injEq] at stepped
    subst stepped
    have bounds := ordered.held appender event pending
    have oldest : event.sequence = published + 1 := by
      obtain ⟨holder, taken, held, same⟩ := ordered.covered (published + 1) (by omega) (by omega)
      have := inOrder holder event pending taken held
      omega
    -- The other appenders hold what they held, and none of it is the published number.
    have others {holder : τ} {taken : Event}
        (held : Function.update system.pending appender none holder = some taken) :
        system.pending holder = some taken ∧ taken.sequence ≠ published + 1 := by
      by_cases same : holder = appender
      · simp [same] at held
      · rw [Function.update_of_ne same] at held
        refine ⟨held, fun clash => same ?_⟩
        exact ordered.distinct holder appender taken event held pending (by omega)
    refine ⟨EventStore.retains_publish ordered.retains oldest, ?_, ordered.fits, ?_, ?_, ?_⟩
    · show published + 1 < system.store.sequenceCounter
      omega
    · intro holder taken held
      obtain ⟨held, different⟩ := others held
      have := ordered.held holder taken held
      exact ⟨by omega, this.2⟩
    · intro sequence above below
      obtain ⟨holder, taken, held, same⟩ := ordered.covered sequence (by omega) below
      have other : holder ≠ appender := by
        rintro rfl
        rw [pending, Option.some.injEq] at held
        subst held
        omega
      exact ⟨holder, taken, by simpa only [Function.update_of_ne other] using held, same⟩
    · intro first second left right leftHeld rightHeld same
      exact ordered.distinct first second left right (others leftHeld).1 (others rightHeld).1 same

/-- A move in order keeps the published events ordered. -/
theorem ordered_step {system next : System τ} {action : Action τ}
    (ordered : ∃ published, Ordered published system) (inOrder : InOrder system action)
    (stepped : step system action = some next) : ∃ published, Ordered published next := by
  obtain ⟨published, ordered⟩ := ordered
  cases action with
  | draw appender event => exact ⟨published, ordered_draw ordered inOrder stepped⟩
  | publish appender => exact ⟨published + 1, ordered_publish ordered inOrder stepped⟩

omit [DecidableEq τ] in
theorem chained_of_ordered {published : Nat} {system : System τ}
    (ordered : Ordered published system) (quiescent : Quiescent system) :
    Chained system.store := by
  have drawn := ordered.drawn
  have fits := ordered.fits
  have all : system.store.sequenceCounter = published + 1 := by
    by_contra unpublished
    obtain ⟨appender, event, held, -⟩ := ordered.covered (published + 1) (by omega) (by omega)
    simp [quiescent appender] at held
  have latest : system.store.latestSequence = published := by
    unfold EventStore.latestSequence castU64
    rw [all, show published + 1 + (u64Size - 1) = published + u64Size by unfold u64Size; omega,
      Nat.add_mod_right, Nat.mod_eq_of_lt (by omega)]
  refine ⟨?_, EventStore.validateChain_retains ordered.retains (by omega)⟩
  rw [latest]
  exact ordered.retains

/-- Along every run of any number of appenders whose publications each take the oldest number
drawn, every state with no append half done holds the newest numbers as one valid chain. -/
theorem chained_in_order (actions : List (Action τ)) (final : System τ)
    (inOrder : Run.Guarded step InOrder System.new actions)
    (ran : Run.exec step System.new actions = some final) (quiescent : Quiescent final) :
    Chained final.store := by
  obtain ⟨published, ordered⟩ := Run.exec_guarded
    (fun _ _ _ => ordered_step) ⟨0, ordered_new⟩ inOrder ran
  exact chained_of_ordered ordered quiescent

/-- Two appenders that draw and publish in the same order leave a valid chain. -/
theorem chained_in_order_pair :
    ∃ final : System Bool, Run.exec step System.new
        [.draw false (.new "A" [] none 0), .draw true (.new "B" [] none 0),
          .publish false, .publish true] = some final ∧ Chained final.store :=
  ⟨_, rfl, chained_in_order
    [.draw false (.new "A" [] none 0), .draw true (.new "B" [] none 0), .publish false,
      .publish true] _ (by decide) rfl (by intro appender; cases appender <;> rfl)⟩

/-- Two appenders that publish in the other order leave the numbers 2, 1 in the buffer. -/
theorem chain_broken_by_overtaking :
    ¬∀ (actions : List (Action Bool)) (final : System Bool),
      Run.exec step System.new actions = some final → Quiescent final →
        Chained final.store := by
  intro law
  have chained := law
    [.draw false (.new "A" [] none 0), .draw true (.new "B" [] none 0),
      .publish true, .publish false] _ rfl (by intro appender; cases appender <;> rfl)
  exact absurd chained.2 (by decide)

end TradingBot.ConcurrentAppend
