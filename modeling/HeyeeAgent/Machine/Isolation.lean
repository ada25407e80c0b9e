import Mathlib.Data.List.Basic

/-! # A service with several callers

A service answers one request after another, each in the name of one caller at most. Each caller has
a relation between states: their own requests respect it and are answered alike, and the requests of
others do not leave it. Then a caller gets the answers that they would get alone.
-/

namespace Machine

variable {σ ρ α κ : Type*} [DecidableEq κ]

/-- The requests with their answers. -/
def answers (serve : σ → ρ → σ × α) : σ → List ρ → List (ρ × α)
  | _, [] => []
  | s, r :: rs => (r, (serve s r).2) :: answers serve (serve s r).1 rs

/-- The state behind the requests. -/
def served (serve : σ → ρ → σ × α) : σ → List ρ → σ
  | s, [] => s
  | s, r :: rs => served serve (serve s r).1 rs

/-- The requests of one caller -/
def requestsOf (caller : ρ → Option κ) (k : κ) (rs : List ρ) : List ρ :=
  rs.filter fun r => caller r = some k

/-- The relation of each caller is respected by their requests, and kept by those of others. -/
structure Isolates (serve : σ → ρ → σ × α) (caller : ρ → Option κ) (alike : κ → σ → σ → Prop) :
    Prop where
  own : ∀ k s t r, caller r = some k → alike k s t →
    (serve s r).2 = (serve t r).2 ∧ alike k (serve s r).1 (serve t r).1
  others : ∀ k s t r, caller r ≠ some k → alike k s t → alike k (serve s r).1 t

variable {serve : σ → ρ → σ × α} {caller : ρ → Option κ} {alike : κ → σ → σ → Prop} {k : κ}
  {s t : σ} {r : ρ}

theorem requestsOf_cons_of_eq (own : caller r = some k) (rs : List ρ) :
    requestsOf caller k (r :: rs) = r :: requestsOf caller k rs :=
  List.filter_cons_of_pos (decide_eq_true own)

theorem requestsOf_cons_of_ne (other : caller r ≠ some k) (rs : List ρ) :
    requestsOf caller k (r :: rs) = requestsOf caller k rs :=
  List.filter_cons_of_neg (by simpa using other)

/-- A caller gets the answers that they get alone, from any state that is alike for them. -/
theorem Isolates.answers_eq (isolates : Isolates serve caller alike) (same : alike k s t)
    (rs : List ρ) :
    (answers serve s rs).filter (fun answer => caller answer.1 = some k) =
      answers serve t (requestsOf caller k rs) := by
  induction rs generalizing s t with
  | nil => rfl
  | cons r rs ih =>
    rw [answers]
    by_cases own : caller r = some k
    · obtain ⟨reply, same⟩ := isolates.own k s t r own same
      rw [requestsOf_cons_of_eq own, answers, List.filter_cons_of_pos (by simpa using own), reply,
        ih same]
    · rw [requestsOf_cons_of_ne own, List.filter_cons_of_neg (by simpa using own)]
      exact ih (isolates.others k s t r own same)

/-- The state behind all requests is alike for a caller to the one behind theirs. -/
theorem Isolates.served_alike (isolates : Isolates serve caller alike) (same : alike k s t)
    (rs : List ρ) : alike k (served serve s rs) (served serve t (requestsOf caller k rs)) := by
  induction rs generalizing s t with
  | nil => exact same
  | cons r rs ih =>
    rw [served]
    by_cases own : caller r = some k
    · rw [requestsOf_cons_of_eq own, served]
      exact ih (isolates.own k s t r own same).2
    · rw [requestsOf_cons_of_ne own]
      exact ih (isolates.others k s t r own same)

end Machine
