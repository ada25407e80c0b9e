import Mathlib.Data.List.Forall2

/-! # A pass that takes some elements

A loop over a list that adds at most one element for each one that it looks at. What it has added are
images of some elements of the list, in their order.
-/

namespace Machine

variable {σ α β : Type*}

/-- A step adds nothing, or one element that is related to the one it looks at. -/
def Selects (R : α → β → Prop) (out : σ → List β) (step : σ → α → σ) : Prop :=
  ∀ s x, out (step s x) = out s ∨ ∃ y, R x y ∧ out (step s x) = out s ++ [y]

variable {R : α → β → Prop} {out : σ → List β} {step : σ → α → σ}

/-- What the pass has added are images, and that of the first element is there if it was added. -/
theorem Selects.foldl (selects : Selects R out step) (elements : List α) (s : σ) :
    ∃ chosen added, chosen.Sublist elements ∧ List.Forall₂ R chosen added ∧
      out (elements.foldl step s) = out s ++ added ∧
      ∀ x ∈ elements.head?, out (step s x) ≠ out s → chosen.head? = some x := by
  induction elements generalizing s with
  | nil => exact ⟨[], [], .slnil, .nil, (List.append_nil _).symm, by simp⟩
  | cons x elements ih =>
    obtain ⟨chosen, added, part, images, taken, -⟩ := ih (step s x)
    rw [List.foldl_cons, taken]
    rcases selects s x with same | ⟨y, related, more⟩
    · refine ⟨chosen, added, part.cons x, images, by rw [same], ?_⟩
      rintro _ ⟨⟩ new
      exact absurd same new
    · refine ⟨x :: chosen, y :: added, part.cons_cons x, .cons related images, ?_, ?_⟩
      · rw [more, List.append_assoc]
        rfl
      · rintro _ ⟨⟩ -
        rfl

/-- The pass goes from the end, and what it has added is turned round. -/
theorem Selects.foldl_reverse (selects : Selects R out step) (elements : List α) {s : σ}
    (start : out s = []) :
    ∃ chosen, chosen.Sublist elements ∧
      List.Forall₂ R chosen (out (elements.reverse.foldl step s)).reverse ∧
      ∀ x ∈ elements.getLast?, out (step s x) ≠ [] → chosen.getLast? = some x := by
  obtain ⟨chosen, added, part, images, taken, first⟩ := selects.foldl elements.reverse s
  rw [start, List.nil_append] at taken
  rw [start, List.head?_reverse] at first
  rw [taken]
  refine ⟨chosen.reverse, ?_, List.rel_reverse images, fun x last new => ?_⟩
  · exact List.reverse_sublist.mp (by rwa [List.reverse_reverse])
  · rw [List.getLast?_reverse]
    exact first x last new

end Machine
