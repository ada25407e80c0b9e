import Mathlib.Data.List.Infix
import Mathlib.Data.List.Flatten

/-! # Deletions from a text

A text cut into pieces, some of which are left out. Why a piece may be left out can depend on the
pieces before it and behind it.
-/

namespace Deletions

structure Piece (α : Type*) where
  text : List α
  kept : Bool

variable {α : Type*} {text rest : List α} {pieces others past before after : List (Piece α)}

def source (pieces : List (Piece α)) : List α := pieces.flatMap Piece.text

def remains (pieces : List (Piece α)) : List α := (pieces.filter Piece.kept).flatMap Piece.text

@[simp] theorem source_nil : source ([] : List (Piece α)) = [] := rfl

@[simp] theorem source_cons (piece : Piece α) (pieces : List (Piece α)) :
    source (piece :: pieces) = piece.text ++ source pieces := rfl

@[simp] theorem source_append (pieces others : List (Piece α)) :
    source (pieces ++ others) = source pieces ++ source others := List.flatMap_append

@[simp] theorem remains_nil : remains ([] : List (Piece α)) = [] := rfl

@[simp] theorem remains_kept (text : List α) (pieces : List (Piece α)) :
    remains (⟨text, true⟩ :: pieces) = text ++ remains pieces := rfl

@[simp] theorem remains_removed (text : List α) (pieces : List (Piece α)) :
    remains (⟨text, false⟩ :: pieces) = remains pieces := rfl

theorem remains_sublist (pieces : List (Piece α)) : (remains pieces).Sublist (source pieces) := by
  induction pieces with
  | nil => exact .slnil
  | cons piece pieces ih =>
    obtain ⟨text, kept⟩ := piece
    cases kept with
    | true => exact ih.append_left text
    | false => exact ih.trans (List.sublist_append_right text (source pieces))

/-- The letters that are never left out remain as they are. -/
theorem filter_remains {p : α → Bool}
    (spared : ∀ text, ⟨text, false⟩ ∈ pieces → ∀ c ∈ text, p c = false) :
    (remains pieces).filter p = (source pieces).filter p := by
  induction pieces with
  | nil => rfl
  | cons piece pieces ih =>
    have rest := ih fun text member => spared text (List.mem_cons_of_mem piece member)
    obtain ⟨text, kept⟩ := piece
    rw [source_cons, List.filter_append, ← rest]
    cases kept with
    | true => rw [remains_kept, List.filter_append]
    | false =>
      have none_left : text.filter p = [] := by
        rw [List.filter_eq_nil_iff]
        intro c member
        simp [spared text List.mem_cons_self c member]
      rw [none_left, remains_removed, List.nil_append]

section Reasons

variable {reason : List (Piece α) → List α → List (Piece α) → Prop}

/-- There is a reason for every piece that is left out, with the pieces before it and behind it. -/
def Justified (reason : List (Piece α) → List α → List (Piece α) → Prop)
    (past pieces : List (Piece α)) : Prop :=
  ∀ before text after, pieces = before ++ ⟨text, false⟩ :: after → reason (past ++ before) text after

theorem justified_nil : Justified reason past [] := by
  intro before text after split
  exact absurd split.symm (List.append_ne_nil_of_right_ne_nil before (List.cons_ne_nil _ _))

theorem Justified.keep (later : Justified reason (past ++ [⟨text, true⟩]) pieces) :
    Justified reason past (⟨text, true⟩ :: pieces) := by
  intro before other after split
  cases before with
  | nil => cases split
  | cons first before =>
    obtain ⟨rfl, behind⟩ := List.cons_eq_cons.mp split
    have given := later before other after behind
    rwa [List.append_assoc] at given

theorem Justified.remove (here : reason past text pieces)
    (later : Justified reason (past ++ [⟨text, false⟩]) pieces) :
    Justified reason past (⟨text, false⟩ :: pieces) := by
  intro before other after split
  cases before with
  | nil =>
    cases split
    rwa [List.append_nil]
  | cons first before =>
    obtain ⟨rfl, behind⟩ := List.cons_eq_cons.mp split
    have given := later before other after behind
    rwa [List.append_assoc] at given

end Reasons

end Deletions
