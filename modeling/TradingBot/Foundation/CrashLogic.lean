import Mathlib.Logic.Basic

/-!
# Programs that may crash

A program over a state performs operations one by one. Before each, it may be stopped by a crash,
and each may fail with an error and leave the state as it was. What befalls the operations is a
list of faults that the program draws from, so that one list fixes one execution. The weakest
precondition of a program has two assertions: one for the states in which it returns, one for the
states in which a crash can leave it. Each construct has one rule.
-/

namespace CrashLogic

/-- What befalls an operation. -/
inductive Fault where
  /-- It is carried out. -/
  | proceeds
  /-- It fails with an error, and changes nothing. -/
  | fails (error : String)
  /-- The program is stopped before it. -/
  | crashes
  deriving DecidableEq, Repr

/-- What befalls the next operation; a list that is used up lets every operation proceed. -/
def drawn (faults : List Fault) : Fault := faults.headD .proceeds

/-- How a program ends. -/
inductive Outcome (σ α : Type*) where
  /-- It is stopped by a crash in a state. -/
  | crashed (state : σ)
  /-- It returns a value in a state, with the faults it has not drawn. -/
  | returned (value : α) (state : σ) (faults : List Fault)

/-- A program over a state. -/
def Program (σ α : Type*) := σ → List Fault → Outcome σ α

universe u v

variable {σ : Type u} {α β : Type v}

namespace Program

/-- Returns a value. -/
def done (value : α) : Program σ α := fun state faults => .returned value state faults

/-- One program and then, from where it returned, another. -/
def andThen (first : Program σ α) (next : α → Program σ β) : Program σ β := fun state faults =>
  match first state faults with
  | .crashed stopped => .crashed stopped
  | .returned value middle rest => next value middle rest

/-- Reads the state. -/
def read (view : σ → α) : Program σ α := fun state faults => .returned (view state) state faults

/-- Changes the part of the state that is not subject to faults. -/
def change (update : σ → σ) : Program σ Unit := fun state faults =>
  .returned () (update state) faults

/-- Performs an operation that a fault may befall, or that the state may refuse with an error. -/
def perform (effect : σ → Except String σ) : Program σ (Except String Unit) :=
  fun state faults =>
    match drawn faults with
    | .crashes => .crashed state
    | .fails error => .returned (.error error) state faults.tail
    | .proceeds =>
      match effect state with
      | .error refused => .returned (.error refused) state faults.tail
      | .ok next => .returned (.ok ()) next faults.tail

instance : Monad (Program σ) where
  pure := done
  bind := andThen

/-- Runs a program up to as many times as given, as long as the state asks for it. -/
def whileM (test : σ → Bool) (body : Program σ Unit) : Nat → Program σ Unit
  | 0 => pure ()
  | rounds + 1 => do
    if ← read test then
      body
      whileM test body rounds
    else pure ()

end Program

/-! ## Weakest preconditions -/

/-- From a state and a list of faults, a program returns only where `post` holds and crashes only
where `crash` holds. -/
def wp (program : Program σ α) (post : α → σ → List Fault → Prop) (crash : σ → Prop) (state : σ)
    (faults : List Fault) : Prop :=
  match program state faults with
  | .crashed stopped => crash stopped
  | .returned value final rest => post value final rest

section Rules

variable {post : α → σ → List Fault → Prop} {crash : σ → Prop} {state : σ} {faults : List Fault}

@[simp] theorem wp_pure (value : α) :
    wp (pure value : Program σ α) post crash state faults ↔ post value state faults := Iff.rfl

/-- A program meets what its first part makes the second meet. -/
@[simp] theorem wp_bind {next : β → Program σ α} {first : Program σ β} :
    wp (first >>= next) post crash state faults ↔
      wp first (fun value => wp (next value) post crash) crash state faults := by
  simp only [wp, bind, Program.andThen]
  cases first state faults <;> rfl

@[simp] theorem wp_read (view : σ → α) :
    wp (Program.read view) post crash state faults ↔ post (view state) state faults := Iff.rfl

/-- A change is made without a fault. -/
@[simp] theorem wp_change {done : Unit → σ → List Fault → Prop} (update : σ → σ) :
    wp (Program.change update) done crash state faults ↔ done () (update state) faults := Iff.rfl

/-- A branch meets what the taken side meets. -/
@[simp] theorem wp_ite (condition : Prop) [Decidable condition] (first second : Program σ α) :
    wp (if condition then first else second) post crash state faults ↔
      if condition then wp first post crash state faults
      else wp second post crash state faults := by
  split <;> rfl

/-- An operation can leave its state by a crash, fail there, or go through. -/
theorem wp_perform {done : Except String Unit → σ → List Fault → Prop}
    {effect : σ → Except String σ} :
    wp (Program.perform effect) done crash state faults ↔
      match drawn faults with
      | .crashes => crash state
      | .fails error => done (.error error) state faults.tail
      | .proceeds =>
        match effect state with
        | .error refused => done (.error refused) state faults.tail
        | .ok next => done (.ok ()) next faults.tail := by
  unfold wp Program.perform
  cases drawn faults with
  | crashes | fails error => rfl
  | proceeds =>
    cases effect state <;> rfl

/-- An effect is stopped, fails or is performed. -/
theorem wp_perform_of {done : Except String Unit → σ → List Fault → Prop}
    {effect : σ → Except String σ} (stopped : crash state)
    (failed : ∀ error rest, done (.error error) state rest)
    (performed : ∀ next rest, effect state = .ok next → done (.ok ()) next rest) :
    wp (Program.perform effect) done crash state faults := by
  rw [wp_perform]
  cases drawn faults with
  | crashes => exact stopped
  | fails error => exact failed error faults.tail
  | proceeds =>
    cases outcome : effect state with
    | error refused => exact failed refused faults.tail
    | ok next => exact performed next faults.tail outcome

/-- What a program meets can be weakened. -/
theorem wp_mono {program : Program σ α} {weaker : α → σ → List Fault → Prop} {looser : σ → Prop}
    (met : wp program post crash state faults)
    (returns : ∀ value final rest, post value final rest → weaker value final rest)
    (stops : ∀ stopped, crash stopped → looser stopped) :
    wp program weaker looser state faults := by
  unfold wp at met ⊢
  cases outcome : program state faults with
  | crashed stopped =>
    simp only [outcome] at met
    exact stops stopped met
  | returned value final rest =>
    simp only [outcome] at met
    exact returns value final rest met

theorem wp_true (program : Program σ α) (state : σ) (faults : List Fault) :
    wp program (fun _ _ _ => True) (fun _ => True) state faults := by
  unfold wp
  split <;> trivial

/-- The loop rule: an invariant that the body keeps, and that a crash inside the body leaves in
the crash assertion, holds after the loop. -/
theorem wp_whileM {test : σ → Bool} {body : Program σ Unit} {inv : σ → Prop}
    (kept : ∀ state faults, inv state → test state = true →
      wp body (fun _ final _ => inv final) crash state faults)
    (rounds : Nat) (start : inv state) :
    wp (Program.whileM test body rounds) (fun _ final _ => inv final) crash state faults := by
  induction rounds generalizing state faults with
  | zero => exact start
  | succ rounds ih =>
    unfold Program.whileM
    simp only [wp_bind, wp_read, wp_ite, wp_pure]
    split
    · rename_i asked
      exact wp_mono (kept state faults start asked) (fun _ _ _ again => ih again)
        (fun _ stopped => stopped)
    · exact start

theorem wp_outcome {program : Program σ α} (met : wp program post crash state faults) :
    (∃ stopped, program state faults = .crashed stopped ∧ crash stopped) ∨
      ∃ value final rest, program state faults = .returned value final rest ∧
        post value final rest := by
  unfold wp at met
  cases outcome : program state faults with
  | crashed stopped =>
    simp only [outcome] at met
    exact .inl ⟨stopped, rfl, met⟩
  | returned value final rest =>
    simp only [outcome] at met
    exact .inr ⟨value, final, rest, rfl, met⟩

end Rules

end CrashLogic
