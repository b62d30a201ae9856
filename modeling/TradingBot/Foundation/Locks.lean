import Mathlib.Data.List.Basic

/-!
# Locks of one thread

A thread acquires locks for a reading or a writing guard, and lets a guard go at the end of its
scope. Whether a guard that it holds blocks another one of the same lock is a relation between the
two modes; a thread that is blocked by itself is stuck. What makes a program end is computed along
the program, so that a rule for each way to build one is an equivalence.
-/

namespace Locks

/-- How a guard uses its lock. -/
inductive Mode where
  | read
  | write
  deriving DecidableEq, Repr

/-- Guards of one lock exclude each other if one of them writes. -/
def exclusive (held asked : Mode) : Bool := held = .write ∨ asked = .write

/-- The guards that a thread holds, the last one first, and what the locks protect. -/
structure Thread (ι σ : Type*) where
  held : List (ι × Mode)
  state : σ

/-- What a program comes to: an end, a failure of an operation, or nothing at all. -/
inductive Outcome (ι σ : Type*) (α : Type) where
  | done (value : α) (thread : Thread ι σ)
  | stopped
  | stuck

/-- A program of one thread. -/
def Locked (ι σ : Type*) (α : Type) := Thread ι σ → Outcome ι σ α

variable {ι σ : Type*} {α β : Type}

/-- A program followed by another one. -/
def andThen (first : Locked ι σ α) (second : α → Locked ι σ β) : Locked ι σ β := fun thread =>
  match first thread with
  | .done value next => second value next
  | .stopped => .stopped
  | .stuck => .stuck

instance : Monad (Locked ι σ) where
  pure value := fun thread => .done value thread
  bind := andThen

/-- A part of the state is read. -/
def view (read : σ → α) : Locked ι σ α := fun thread => .done (read thread.state) thread

/-- The state is changed. -/
def update (change : σ → σ) : Locked ι σ Unit := fun thread =>
  .done () { thread with state := change thread.state }

/-- A value and a state are computed; a computation without a result stops the thread. -/
def compute (step : σ → Option (α × σ)) : Locked ι σ α := fun thread =>
  match step thread.state with
  | none => .stopped
  | some (value, state) => .done value { thread with state := state }

/-- A program that never ends. -/
def endless : Locked ι σ α := fun _ => .stuck

/-- A thread is blocked by a guard that it holds itself. -/
def Blocked (conflicts : Mode → Mode → Bool) (lock : ι) (mode : Mode) (thread : Thread ι σ) :
    Prop :=
  ∃ guard ∈ thread.held, guard.1 = lock ∧ conflicts guard.2 mode = true

instance [DecidableEq ι] (conflicts : Mode → Mode → Bool) (lock : ι) (mode : Mode)
    (thread : Thread ι σ) : Decidable (Blocked conflicts lock mode thread) :=
  inferInstanceAs (Decidable (∃ guard ∈ thread.held, _))

/-- A program ends, with a value and a thread that have a property. -/
def Ends (program : Locked ι σ α) (post : α → Thread ι σ → Prop) (thread : Thread ι σ) : Prop :=
  match program thread with
  | .done value next => post value next
  | .stopped => False
  | .stuck => False

/-- A program that holds no guard at its start ends and holds none. -/
def Completes (program : Locked ι σ α) (state : σ) : Prop :=
  Ends program (fun _ next => next.held = []) { held := [], state := state }

/-- The value and the state that a program ends with, if it holds no guard at its start. -/
def result (program : Locked ι σ α) (state : σ) : Option (α × σ) :=
  match program { held := [], state := state } with
  | .done value next => some (value, next.state)
  | .stopped => none
  | .stuck => none

section Guards

variable [DecidableEq ι]

/-- A guard is acquired. -/
def acquire (conflicts : Mode → Mode → Bool) (lock : ι) (mode : Mode) : Locked ι σ Unit :=
  fun thread =>
    if Blocked conflicts lock mode thread then .stuck
    else .done () { thread with held := (lock, mode) :: thread.held }

/-- A guard is let go. -/
def release (lock : ι) (mode : Mode) : Locked ι σ Unit := fun thread =>
  .done () { thread with held := thread.held.erase (lock, mode) }

/-- A scope with a guard that is let go at its end. -/
def guarded (conflicts : Mode → Mode → Bool) (lock : ι) (mode : Mode) (body : Locked ι σ α) :
    Locked ι σ α := do
  acquire conflicts lock mode
  let value ← body
  release lock mode
  pure value

end Guards

section Rules

variable {conflicts : Mode → Mode → Bool} {lock : ι} {mode : Mode} {thread : Thread ι σ}
  {post : α → Thread ι σ → Prop} {held : List (ι × Mode)} {state : σ}

@[simp] theorem ends_pure (value : α) :
    Ends (pure value : Locked ι σ α) post thread ↔ post value thread := Iff.rfl

/-- A program ends as its second part does after the first. -/
@[simp] theorem ends_bind {first : Locked ι σ β} {second : β → Locked ι σ α} :
    Ends (first >>= second) post thread ↔
      Ends first (fun value => Ends (second value) post) thread := by
  show Ends (andThen first second) post thread ↔ _
  unfold Ends andThen
  cases first thread <;> rfl

@[simp] theorem ends_view {after : β → Thread ι σ → Prop} (read : σ → β) :
    Ends (view read) after thread ↔ after (read thread.state) thread := Iff.rfl

@[simp] theorem ends_update {after : Unit → Thread ι σ → Prop} (change : σ → σ) :
    Ends (update change) after thread ↔
      after () { thread with state := change thread.state } := Iff.rfl

@[simp] theorem ends_endless : ¬ Ends (endless : Locked ι σ α) post thread := id

@[simp] theorem ends_compute (step : σ → Option (α × σ)) :
    Ends (compute step) post thread ↔
      ∃ value state, step thread.state = some (value, state) ∧
        post value { thread with state := state } := by
  unfold Ends compute
  cases result : step thread.state with
  | none => simp
  | some pair => simp [Prod.ext_iff]

@[simp] theorem ends_ite (condition : Prop) [Decidable condition] (first second : Locked ι σ α) :
    Ends (if condition then first else second) post thread ↔
      if condition then Ends first post thread else Ends second post thread := by
  by_cases met : condition
  · rw [if_pos met, if_pos met]
  · rw [if_neg met, if_neg met]

theorem ends_mono {program : Locked ι σ α} {weaker : α → Thread ι σ → Prop}
    (ended : Ends program post thread)
    (weaken : ∀ value next, post value next → weaker value next) :
    Ends program weaker thread := by
  unfold Ends at ended ⊢
  cases result : program thread with
  | done value next =>
    rw [result] at ended
    exact weaken value next ended
  | stopped | stuck =>
    rw [result] at ended
    exact ended.elim

/-- A result is the end of a thread that held nothing. -/
theorem result_eq_some {program : Locked ι σ α} {value : α} {next : σ} :
    result program state = some (value, next) ↔
      Ends program (fun ended thread => ended = value ∧ thread.state = next)
        { held := [], state := state } := by
  unfold result Ends
  cases program { held := [], state := state } with
  | done => simp
  | stopped | stuck => simp

@[simp] theorem not_blocked_nil : ¬ Blocked conflicts lock mode { held := [], state := state } := by
  rintro ⟨guard, member, -⟩
  cases member

@[simp] theorem blocked_cons {guard : ι × Mode} :
    Blocked conflicts lock mode { held := guard :: held, state := state } ↔
      guard.1 = lock ∧ conflicts guard.2 mode = true ∨
        Blocked conflicts lock mode { held := held, state := state } := by
  unfold Blocked
  simp only [List.mem_cons, or_and_right, exists_or, exists_eq_left]

variable [DecidableEq ι]

@[simp] theorem ends_acquire {after : Unit → Thread ι σ → Prop} :
    Ends (acquire conflicts lock mode) after thread ↔
      ¬ Blocked conflicts lock mode thread ∧
        after () { thread with held := (lock, mode) :: thread.held } := by
  unfold Ends acquire
  by_cases blocked : Blocked conflicts lock mode thread
  · simp [blocked]
  · simp [blocked]

@[simp] theorem ends_guarded {body : Locked ι σ α} :
    Ends (guarded conflicts lock mode body) post thread ↔
      ¬ Blocked conflicts lock mode thread ∧
        Ends body (fun value next =>
          post value { next with held := next.held.erase (lock, mode) })
          { thread with held := (lock, mode) :: thread.held } := by
  unfold guarded
  rw [ends_bind, ends_acquire, ends_bind]
  exact Iff.rfl

end Rules

end Locks
