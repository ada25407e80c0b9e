import Mathlib.Data.List.Basic

/-! # Reading a stream piece by piece

A peeler takes the next complete piece off the front of what has arrived, or says that none is
complete yet. More input behind a complete piece does not change it, so the pieces of a stream do
not depend on where its chunks are cut. Splitting at a separator is one peeler; a code whose words
show their length is another.
-/

namespace Streaming

variable {α β : Type*}

structure Peeler (α β : Type*) where
  next : List α → Option (β × List α)
  shorter : ∀ {input piece rest}, next input = some (piece, rest) → rest.length < input.length
  append : ∀ {input piece rest} (more : List α),
    next input = some (piece, rest) → next (input ++ more) = some (piece, rest ++ more)

namespace Peeler

variable (p : Peeler α β)

/-- At most so many pieces, and what is left. -/
def peelUpTo : ℕ → List α → List β × List α
  | 0, input => ([], input)
  | n + 1, input =>
    match p.next input with
    | none => ([], input)
    | some (piece, rest) => (piece :: (peelUpTo n rest).1, (peelUpTo n rest).2)

/-- All complete pieces, and what is left. -/
def peel (input : List α) : List β × List α := p.peelUpTo input.length input

/-- The chunks arrive one after the other; what is not complete waits for the next. -/
def feed (waiting : List α) : List (List α) → List β × List α
  | [] => ([], waiting)
  | chunk :: chunks =>
    let arrived := p.peel (waiting ++ chunk)
    let later := feed arrived.2 chunks
    (arrived.1 ++ later.1, later.2)

variable {p} {input rest : List α} {piece : β}

theorem next_nil : p.next [] = none := by
  by_contra complete
  obtain ⟨⟨piece, rest⟩, found⟩ := Option.ne_none_iff_exists'.mp complete
  exact absurd (p.shorter found) (Nat.not_lt_zero _)

theorem peelUpTo_of_none (incomplete : p.next input = none) (n : ℕ) :
    p.peelUpTo n input = ([], input) := by
  cases n with
  | zero => rfl
  | succ n => rw [peelUpTo, incomplete]

theorem peelUpTo_eq {n m : ℕ} (enough : input.length ≤ n) (enough' : input.length ≤ m) :
    p.peelUpTo n input = p.peelUpTo m input := by
  induction n generalizing input m with
  | zero =>
    obtain rfl := List.eq_nil_of_length_eq_zero (Nat.le_zero.mp enough)
    rw [peelUpTo_of_none next_nil, peelUpTo_of_none next_nil]
  | succ n ih =>
    cases found : p.next input with
    | none => rw [peelUpTo_of_none found, peelUpTo_of_none found]
    | some peeled =>
      obtain ⟨piece, rest⟩ := peeled
      have shorter := p.shorter found
      obtain ⟨m, rfl⟩ : ∃ k, m = k + 1 := ⟨m - 1, by omega⟩
      have same : p.peelUpTo n rest = p.peelUpTo m rest := ih (by omega) (by omega)
      simp only [peelUpTo, found, same]

theorem peel_of_none (incomplete : p.next input = none) : p.peel input = ([], input) :=
  peelUpTo_of_none incomplete _

theorem peel_of_some (found : p.next input = some (piece, rest)) :
    p.peel input = (piece :: (p.peel rest).1, (p.peel rest).2) := by
  have shorter := p.shorter found
  obtain ⟨n, length⟩ : ∃ n, input.length = n + 1 := ⟨input.length - 1, by omega⟩
  have same : p.peelUpTo n rest = p.peel rest := peelUpTo_eq (by omega) (Nat.le_refl _)
  rw [peel, length]
  simp only [peelUpTo, found, same]

/-- Nothing is complete in what is left. -/
theorem next_peel (input : List α) : p.next (p.peel input).2 = none := by
  induction length : input.length using Nat.strongRecOn generalizing input with
  | _ n ih =>
    cases found : p.next input with
    | none => rwa [peel_of_none found]
    | some peeled =>
      obtain ⟨piece, rest⟩ := peeled
      rw [peel_of_some found]
      exact ih rest.length (length ▸ p.shorter found) rest rfl

/-- What is left of the front is read on with the back. -/
theorem peel_append (front back : List α) :
    p.peel (front ++ back) = ((p.peel front).1 ++ (p.peel ((p.peel front).2 ++ back)).1,
      (p.peel ((p.peel front).2 ++ back)).2) := by
  induction length : front.length using Nat.strongRecOn generalizing front with
  | _ n ih =>
    cases found : p.next front with
    | none => rw [peel_of_none found, List.nil_append]
    | some peeled =>
      obtain ⟨piece, rest⟩ := peeled
      rw [peel_of_some (p.append back found), peel_of_some found,
        ih rest.length (length ▸ p.shorter found) rest rfl, List.cons_append]

/-- The pieces of a stream do not depend on where its chunks are cut. -/
theorem feed_eq_peel {waiting : List α} (incomplete : p.next waiting = none)
    (chunks : List (List α)) : p.feed waiting chunks = p.peel (waiting ++ chunks.flatten) := by
  induction chunks generalizing waiting with
  | nil => rw [feed, List.flatten_nil, List.append_nil, peel_of_none incomplete]
  | cons chunk chunks ih =>
    rw [List.flatten_cons, ← List.append_assoc, peel_append (waiting ++ chunk),
      ← ih (next_peel (waiting ++ chunk))]
    rfl

/-- A stream of pieces that are each complete by themselves. -/
theorem peel_flatMap {ι : Type*} {code : ι → List α} {piece : ι → β} {items : List ι}
    (complete : ∀ i ∈ items, p.next (code i) = some (piece i, [])) :
    p.peel (items.flatMap code) = (items.map piece, []) := by
  induction items with
  | nil => exact peel_of_none next_nil
  | cons i items ih =>
    have found := p.append (items.flatMap code) (complete i List.mem_cons_self)
    rw [List.flatMap_cons, peel_of_some found, List.nil_append,
      ih fun j member => complete j (List.mem_cons_of_mem i member), List.map_cons]

end Peeler

section Separator

variable [DecidableEq α]

/-- What stands before the first separator, and what follows it. -/
def untilSeparator (separator : List α) : List α → Option (List α × List α)
  | [] => none
  | x :: input =>
    if separator.isPrefixOf (x :: input) then some ([], (x :: input).drop separator.length)
    else (untilSeparator separator input).map fun (piece, rest) => (x :: piece, rest)

variable {separator input piece rest : List α}

/-- The input is cut at the separator. -/
theorem untilSeparator_split (found : untilSeparator separator input = some (piece, rest)) :
    input = piece ++ separator ++ rest := by
  induction input generalizing piece with
  | nil => cases found
  | cons x input ih =>
    rw [untilSeparator] at found
    split_ifs at found with here
    · obtain ⟨tail, split⟩ := List.isPrefixOf_iff_prefix.mp here
      cases found
      rw [← split, List.drop_left, List.nil_append]
    · obtain ⟨⟨piece', rest'⟩, later, same⟩ := Option.map_eq_some_iff.mp found
      cases same
      rw [ih later, List.cons_append, List.cons_append]

/-- The separator cannot begin where its first element does not stand. -/
theorem untilSeparator_skip {first : α} {front : List α} (apart : first ∉ front) (input : List α) :
    untilSeparator (first :: separator) (front ++ input) =
      (untilSeparator (first :: separator) input).map fun cut => (front ++ cut.1, cut.2) := by
  induction front with
  | nil => exact (Option.map_id' (x := untilSeparator (first :: separator) input)).symm
  | cons x front ih =>
    obtain ⟨differs, apart⟩ := not_or.mp (mt List.mem_cons.mpr apart)
    have here : ¬ (first :: separator).isPrefixOf (x :: (front ++ input)) = true := by
      rw [List.isPrefixOf_cons_cons, beq_false_of_ne differs, Bool.false_and]
      exact Bool.false_ne_true
    rw [List.cons_append, untilSeparator, if_neg here, ih apart]
    cases untilSeparator (first :: separator) input <;> rfl

theorem untilSeparator_of_not_mem {first : α} (apart : first ∉ input) :
    untilSeparator (first :: separator) input = none := by
  have skipped : untilSeparator (first :: separator) (input ++ []) =
      (untilSeparator (first :: separator) []).map fun cut => (input ++ cut.1, cut.2) :=
    untilSeparator_skip apart []
  rwa [List.append_nil] at skipped

theorem untilSeparator_here (nonempty : separator ≠ []) (input : List α) :
    untilSeparator separator (separator ++ input) = some ([], input) := by
  obtain ⟨x, tail, rfl⟩ := List.exists_cons_of_ne_nil nonempty
  have here : (x :: tail).isPrefixOf (x :: (tail ++ input)) = true :=
    List.isPrefixOf_iff_prefix.mpr (List.prefix_append (x :: tail) input)
  rw [List.cons_append, untilSeparator, if_pos here, List.length_cons, List.drop_succ_cons,
    List.drop_left]

theorem untilSeparator_append (more : List α)
    (found : untilSeparator separator input = some (piece, rest)) :
    untilSeparator separator (input ++ more) = some (piece, rest ++ more) := by
  induction input generalizing piece with
  | nil => cases found
  | cons x input ih =>
    rw [untilSeparator] at found
    split_ifs at found with here
    · obtain ⟨tail, split⟩ := List.isPrefixOf_iff_prefix.mp here
      cases found
      have longer : separator.isPrefixOf (x :: (input ++ more)) = true :=
        List.isPrefixOf_iff_prefix.mpr ⟨tail ++ more, by
          rw [← List.append_assoc, split, List.cons_append]⟩
      rw [List.cons_append, untilSeparator, if_pos longer, ← List.cons_append, ← split,
        List.append_assoc, List.drop_left, List.drop_left]
    · obtain ⟨⟨piece', rest'⟩, later, same⟩ := Option.map_eq_some_iff.mp found
      cases same
      -- a separator that reaches into `more` would be longer than the input, but one is inside
      have apart : ¬ separator.isPrefixOf (x :: (input ++ more)) = true := by
        intro longer
        have inside : separator.length ≤ input.length := by
          have lengths := congrArg List.length (untilSeparator_split later)
          simp only [List.length_append] at lengths
          omega
        have front : separator <+: (x :: input) ++ more := List.isPrefixOf_iff_prefix.mp longer
        have fits : separator <+: x :: input := List.prefix_of_prefix_length_le front
          (List.prefix_append _ _) (by simp only [List.length_cons]; omega)
        exact here (List.isPrefixOf_iff_prefix.mpr fits)
      rw [List.cons_append, untilSeparator, if_neg apart, ih later]
      rfl

/-- Pieces that end at a separator. -/
def separated (separator : List α) (nonempty : separator ≠ []) : Peeler α (List α) where
  next := untilSeparator separator
  shorter found := by
    have lengths := congrArg List.length (untilSeparator_split found)
    have positive := List.length_pos_of_ne_nil nonempty
    simp only [List.length_append] at lengths
    omega
  append more found := untilSeparator_append more found

theorem next_separated (nonempty : separator ≠ []) (input : List α) :
    (separated separator nonempty).next input = untilSeparator separator input := rfl

end Separator

end Streaming
