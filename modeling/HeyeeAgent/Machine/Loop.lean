import Mathlib.Order.Basic

/-! # A loop that may break

The body of a loop is a function of the loop's variables that says whether the loop goes round again
or ends. Rounds bound an evaluation, and a loop with a measure that every round lowers ends within
any bound above it, in a state that the invariant and the way out describe.
-/

namespace Machine

variable {σ : Type*}

/-- What the body of a loop comes to. -/
inductive Turn (σ : Type*) where
  | again (state : σ)
  | done (state : σ)

/-- The state in which the loop ends; `none` if the rounds do not suffice. -/
def loop (body : σ → Turn σ) : ℕ → σ → Option σ
  | 0, _ => none
  | rounds + 1, s =>
    match body s with
    | .again next => loop body rounds next
    | .done last => some last

/-- One end for every bound above the measure, as the invariant describes it. -/
theorem loop_ends {body : σ → Turn σ} {I Post : σ → Prop} {measure : σ → ℕ}
    (goes_on : ∀ s next, I s → body s = .again next → I next ∧ measure next < measure s)
    (ends : ∀ s last, I s → body s = .done last → Post last) {s : σ} (initial : I s) :
    ∃ last, Post last ∧ ∀ rounds, measure s < rounds → loop body rounds s = some last := by
  induction left : measure s using Nat.strongRecOn generalizing s with
  | ind bound ih =>
    cases taken : body s with
    | done last =>
      refine ⟨last, ends s last initial taken, fun rounds enough => ?_⟩
      obtain ⟨rounds, rfl⟩ : ∃ more, rounds = more + 1 := ⟨rounds - 1, by omega⟩
      simp only [loop, taken]
    | again next =>
      obtain ⟨kept, less⟩ := goes_on s next initial taken
      obtain ⟨last, post, reached⟩ := ih (measure next) (left ▸ less) kept rfl
      refine ⟨last, post, fun rounds enough => ?_⟩
      obtain ⟨rounds, rfl⟩ : ∃ more, rounds = more + 1 := ⟨rounds - 1, by omega⟩
      simp only [loop, taken]
      exact reached rounds (by omega)

/-- What every turn keeps holds where the loop ends. -/
theorem loop_keeps {body : σ → Turn σ} {I : σ → Prop}
    (again : ∀ s next, I s → body s = .again next → I next)
    (done : ∀ s last, I s → body s = .done last → I last) {rounds : ℕ} {s last : σ} (initial : I s)
    (ended : loop body rounds s = some last) : I last := by
  induction rounds generalizing s with
  | zero => cases ended
  | succ rounds ih =>
    simp only [loop] at ended
    split at ended
    case h_1 next taken => exact ih (again s next initial taken) ended
    case h_2 final taken =>
      cases ended
      exact done s last initial taken

end Machine
