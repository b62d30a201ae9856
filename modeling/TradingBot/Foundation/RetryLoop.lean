import Mathlib.Logic.Basic

/-!
# Loops that try again

A loop makes an attempt in every round, which answers or does not, and something happens to the
state before the next one. What a loop answers is what the first attempt does that answers.
-/

namespace RetryLoop

variable {σ α : Type*} (attempt : Nat → σ → Option α × σ) (between : Nat → σ → σ)

/-- The loop from a round on, for a number of attempts. -/
def loop : Nat → Nat → σ → Option α
  | 0, _, _ => none
  | attempts + 1, round, state =>
    match attempt round state with
    | (some answer, _) => some answer
    | (none, next) => loop attempts (round + 1) (between round next)

/-- The state before a round, where no attempt before it answers. -/
def stateAt (state : σ) : Nat → σ
  | 0 => state
  | round + 1 => between round (attempt round (stateAt state round)).2

/-- What the attempt of a round answers. -/
def answerAt (state : σ) (round : Nat) : Option α :=
  (attempt round (stateAt attempt between state round)).1

variable {attempt between} {state : σ} {answer : α}

theorem loop_round (attempts round : Nat) :
    loop attempt between (attempts + 1) round (stateAt attempt between state round) =
      (answerAt attempt between state round).or
        (loop attempt between attempts (round + 1)
          (stateAt attempt between state (round + 1))) := by
  rw [loop, stateAt, answerAt]
  cases attempt round (stateAt attempt between state round) with
  | mk answered next => cases answered <;> rfl

/-- A loop answers from a round on what the first attempt does that answers. -/
theorem loop_from_iff (round : Nat) :
    (∃ attempts, loop attempt between attempts round (stateAt attempt between state round) =
        some answer) ↔
      ∃ last, round ≤ last ∧
        (∀ earlier, round ≤ earlier → earlier < last →
          answerAt attempt between state earlier = none) ∧
        answerAt attempt between state last = some answer := by
  constructor
  · rintro ⟨attempts, answered⟩
    induction attempts generalizing round with
    | zero => cases answered
    | succ attempts ih =>
      rw [loop_round attempts round] at answered
      cases here : answerAt attempt between state round with
      | some own =>
        rw [here] at answered
        exact ⟨round, Nat.le_refl round, fun earlier from_ below => absurd below (by omega),
          here.trans answered⟩
      | none =>
        rw [here] at answered
        obtain ⟨last, later, none_, some_⟩ := ih (round + 1) answered
        refine ⟨last, by omega, fun earlier from_ below => ?_, some_⟩
        obtain rfl | after := Nat.eq_or_lt_of_le from_
        · exact here
        · exact none_ earlier after below
  · rintro ⟨last, later, none_, some_⟩
    -- The rounds up to the one that answers, backwards from it.
    have search : ∀ left round, round + left = last →
        (∀ earlier, round ≤ earlier → earlier < last →
          answerAt attempt between state earlier = none) →
        loop attempt between (left + 1) round (stateAt attempt between state round) =
          some answer := by
      intro left
      induction left with
      | zero =>
        rintro round rfl -
        rw [loop_round 0 round, show answerAt attempt between state round = some answer from some_]
        rfl
      | succ left ih =>
        intro round sum none_
        rw [loop_round (left + 1) round, none_ round (Nat.le_refl round) (by omega)]
        exact ih (round + 1) (by omega) fun earlier from_ => none_ earlier (by omega)
    exact ⟨last - round + 1, search (last - round) round (by omega) none_⟩

theorem loop_iff :
    (∃ attempts, loop attempt between attempts 0 state = some answer) ↔
      ∃ last, (∀ earlier < last, answerAt attempt between state earlier = none) ∧
        answerAt attempt between state last = some answer := by
  refine (@loop_from_iff _ _ attempt between state answer 0).trans ?_
  simp

theorem none_or_first (attempt : Nat → σ → Option α × σ) (between : Nat → σ → σ) (state : σ)
    (bound : Nat) :
    (∀ earlier ≤ bound, answerAt attempt between state earlier = none) ∨
      ∃ last ≤ bound, (∀ earlier < last, answerAt attempt between state earlier = none) ∧
        ∃ answer, answerAt attempt between state last = some answer := by
  induction bound with
  | zero =>
    cases here : answerAt attempt between state 0 with
    | none => exact .inl fun earlier below => Nat.le_zero.mp below ▸ here
    | some answer =>
      exact .inr ⟨0, Nat.le_refl 0, fun _ below => absurd below (Nat.not_lt_zero _), answer, here⟩
  | succ bound ih =>
    obtain none_ | ⟨last, below, first⟩ := ih
    · cases here : answerAt attempt between state (bound + 1) with
      | none =>
        refine .inl fun earlier below => ?_
        obtain before | rfl := Nat.le_succ_iff.mp below
        · exact none_ earlier before
        · exact here
      | some answer =>
        exact .inr ⟨bound + 1, Nat.le_refl _, fun earlier below => none_ earlier (by omega), answer,
          here⟩
    · exact .inr ⟨last, Nat.le_succ_of_le below, first⟩

end RetryLoop
