import Mathlib.Data.List.Infix
import Mathlib.Data.List.Lemmas

/-! # Fields between delimiters

A format writes a field as it is and then one of its delimiters. Where the delimiters do not overlap,
two fields can be mistaken for each other only if one of them is the other one followed by a delimiter.
-/

namespace Delimiters

variable {α : Type*} {ends : List (List α)} {field field' rest rest' gap : List α} {c : α}

/-- What is written after a field -/
def Starts (ends : List (List α)) (rest : List α) : Prop := ∃ mark ∈ ends, mark <+: rest

/-- The second field goes on with a delimiter where the first one ends. -/
def Continues (ends : List (List α)) (field field' : List α) : Prop :=
  ∃ mark ∈ ends, field ++ mark <+: field'

/-- No delimiter begins inside a delimiter. -/
def Apart (ends : List (List α)) : Prop :=
  ∀ mark ∈ ends, ∀ mark' ∈ ends, ∀ late ∈ mark.tail.tails, late ≠ [] →
    ¬ late <+: mark' ∧ ¬ mark' <+: late

instance [DecidableEq α] (ends : List (List α)) (field field' : List α) :
    Decidable (Continues ends field field') :=
  inferInstanceAs (Decidable (∃ mark ∈ ends, field ++ mark <+: field'))

instance [DecidableEq α] (ends : List (List α)) : Decidable (Apart ends) :=
  inferInstanceAs (Decidable (∀ mark ∈ ends, ∀ mark' ∈ ends, ∀ late ∈ mark.tail.tails, late ≠ [] →
    ¬ late <+: mark' ∧ ¬ mark' <+: late))

theorem apart_singleton (c : α) : Apart [[c]] := by
  intro mark member mark' _ late inside nonempty
  rw [List.mem_singleton] at member
  subst member
  exact absurd (List.mem_singleton.mp inside) nonempty

/-- A delimiter of one letter goes on only with a field that has the letter. -/
theorem Continues.mem (goes : Continues [[c]] field field') : c ∈ field' := by
  obtain ⟨mark, member, start⟩ := goes
  rw [List.mem_singleton] at member
  subst member
  exact start.subset (List.mem_append_right _ List.mem_cons_self)

/-- What comes between two places at which a delimiter begins holds the first delimiter. -/
theorem mark_inside (apart : Apart ends) (first : Starts ends (gap ++ rest))
    (second : Starts ends rest) (nonempty : gap ≠ []) : ∃ mark ∈ ends, mark <+: gap := by
  obtain ⟨mark, member, start⟩ := first
  obtain ⟨mark', member', start'⟩ := second
  refine ⟨mark, member, ?_⟩
  rcases List.prefix_or_prefix_of_prefix start (List.prefix_append gap rest) with inside | short
  · exact inside
  -- Otherwise the second delimiter begins before the first one ends.
  obtain ⟨late, rfl⟩ := short
  by_contra outside
  have left : late ≠ [] := by
    rintro rfl
    exact outside (by rw [List.append_nil])
  obtain ⟨c, gap, rfl⟩ := List.exists_cons_of_ne_nil nonempty
  have tail : late ∈ ((c :: gap) ++ late).tail.tails :=
    (List.mem_tails _ _).mpr (List.suffix_append gap late)
  have follows : late <+: rest := (List.prefix_append_right_inj _).mp start
  obtain ⟨before, after⟩ := apart _ member mark' member' late tail left
  rcases List.prefix_or_prefix_of_prefix follows start' with shorter | shorter
  · exact before shorter
  · exact after shorter

/-- The end of a field is found again unless one of the two fields goes on there. -/
theorem cut (apart : Apart ends) (same : field ++ rest = field' ++ rest') (starts : Starts ends rest)
    (starts' : Starts ends rest') (fresh : ¬ Continues ends field field')
    (fresh' : ¬ Continues ends field' field) : field = field' ∧ rest = rest' := by
  have none {field rest gap : List α} (fresh : ¬ Continues ends field (field ++ gap))
      (first : Starts ends (gap ++ rest)) (second : Starts ends rest) : gap = [] := by
    by_contra nonempty
    obtain ⟨mark, member, inside⟩ := mark_inside apart first second nonempty
    exact fresh ⟨mark, member, (List.prefix_append_right_inj field).mpr inside⟩
  rcases List.append_eq_append_iff.mp same with ⟨gap, rfl, rfl⟩ | ⟨gap, rfl, rfl⟩
  · rw [none fresh starts starts', List.append_nil, List.nil_append]
    exact ⟨rfl, rfl⟩
  · rw [none fresh' starts' starts, List.append_nil, List.nil_append]
    exact ⟨rfl, rfl⟩

/-- A letter that no field has ends the fields. -/
theorem cut_letter (same : field ++ c :: rest = field' ++ c :: rest') (fresh : c ∉ field)
    (fresh' : c ∉ field') : field = field' ∧ rest = rest' := by
  have starts (rest : List α) : Starts [[c]] (c :: rest) :=
    ⟨[c], List.mem_singleton_self _, List.prefix_append [c] rest⟩
  obtain ⟨fields, rests⟩ := cut (apart_singleton c) same (starts rest) (starts rest')
    (fun goes => fresh' goes.mem) fun goes => fresh goes.mem
  exact ⟨fields, (List.cons_inj_right c).mp rests⟩

end Delimiters
