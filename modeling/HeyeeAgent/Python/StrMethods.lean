import HeyeeAgent.Python.Text
import Mathlib.Data.List.DropRight

/-! # Methods of Python's `str`

A text is cut at its line boundaries, where a carriage return and the line feed after it are one
boundary, so a start without boundaries stays in the first line. Stripping a stripped text changes
nothing.
-/

namespace Python.Str

section Lines

def isLineBreak (c : ℕ) : Bool :=
  (10 ≤ c && c ≤ 13) || (28 ≤ c && c ≤ 30) || c == 0x85 || c == 0x2028 || c == 0x2029

/-- What stands between the boundaries, empty pieces included. -/
def pieces : Str → List Str
  | [] => [[]]
  | 13 :: 10 :: rest => [] :: pieces rest
  | c :: rest => if isLineBreak c then [] :: pieces rest else (pieces rest).modifyHead (c :: ·)

/-- `str.splitlines`, which has no empty line after a boundary at the end. -/
def splitlines (text : Str) : List Str :=
  let lines := pieces text
  if lines.getLast? = some [] then lines.dropLast else lines

/-- `separator.join(lines)` -/
def join (separator : Str) (lines : List Str) : Str := separator.intercalate lines

/-- Every line but the first comes with a separator. -/
theorem join_cons (separator line : Str) (lines : List Str) :
    join separator (line :: lines) = line ++ lines.flatMap (separator ++ ·) := by
  induction lines generalizing line with
  | nil => rw [join, List.intercalate_singleton, List.flatMap_nil, List.append_nil]
  | cons next lines ih =>
    rw [join, List.intercalate_cons_cons, ← join, ih, List.flatMap_cons, List.append_assoc,
      List.append_assoc]

/-- Nothing comes only of lines that are empty. -/
theorem eq_nil_of_join_eq_nil {separator : Str} {lines : List Str}
    (empty : join separator lines = []) : ∀ line ∈ lines, line = [] := by
  cases lines with
  | nil => exact fun line member => absurd member List.not_mem_nil
  | cons first lines =>
    rw [join_cons, List.append_eq_nil_iff, List.flatMap_eq_nil_iff] at empty
    intro line member
    rcases List.mem_cons.mp member with rfl | later
    · exact empty.1
    · exact (List.append_eq_nil_iff.mp (empty.2 line later)).2

theorem pieces_cons {c : ℕ} {rest : Str} (other : ∀ later, c = 13 → rest = 10 :: later → False) :
    pieces (c :: rest) =
      if isLineBreak c then [] :: pieces rest else (pieces rest).modifyHead (c :: ·) :=
  pieces.eq_3 c rest other

theorem pieces_ne_nil (text : Str) : pieces text ≠ [] := by
  induction text using pieces.induct with
  | case1 => exact List.cons_ne_nil _ _
  | case2 rest ih => exact List.cons_ne_nil _ _
  | case3 c rest other breaks ih =>
    rw [pieces_cons other, if_pos breaks]
    exact List.cons_ne_nil _ _
  | case4 c rest other plain ih =>
    rw [pieces_cons other, if_neg plain]
    exact mt List.modifyHead_eq_nil_iff.mp ih

theorem pieces_plain {c : ℕ} (plain : isLineBreak c = false) (text : Str) :
    pieces (c :: text) = (pieces text).modifyHead (c :: ·) := by
  have other : ∀ rest, c = 13 → text = 10 :: rest → False := by
    rintro rest rfl -
    exact absurd plain (by decide)
  rw [pieces_cons other, plain, if_neg Bool.false_ne_true]

/-- Characters that are no boundaries stay at the start of the first piece. -/
theorem pieces_append {start rest line : Str} {lines : List Str}
    (plain : ∀ c ∈ start, isLineBreak c = false) (cut : pieces rest = line :: lines) :
    pieces (start ++ rest) = (start ++ line) :: lines := by
  induction start with
  | nil => exact cut
  | cons c start ih =>
    obtain ⟨first, later⟩ := List.forall_mem_cons.mp plain
    rw [List.cons_append, pieces_plain first, ih later]
    rfl

theorem pieces_unbroken {text : Str} (plain : ∀ c ∈ text, isLineBreak c = false) :
    pieces text = [text] := by
  have empty : pieces [] = [[]] := rfl
  have cut := pieces_append plain empty
  rwa [List.append_nil] at cut

/-- A line end parts the pieces. -/
theorem pieces_newline {line ending : Str} (feed : ending = [10] ∨ ending = [13, 10])
    (unended : ∀ c ∈ line, c ≠ 10 ∧ c ≠ 13) (rest : Str) :
    pieces (line ++ (ending ++ rest)) = pieces line ++ pieces rest := by
  induction line with
  | nil => rcases feed with rfl | rfl <;> rfl
  | cons c line ih =>
    obtain ⟨first, later⟩ := List.forall_mem_cons.mp unended
    have other (text : Str) : ∀ rest, c = 13 → text = 10 :: rest → False :=
      fun _ carriage _ => first.2 carriage
    rw [List.cons_append, pieces_cons (other _), pieces_cons (other _), ih later]
    obtain ⟨head, tail, cut⟩ := List.exists_cons_of_ne_nil (pieces_ne_nil line)
    rw [cut]
    split_ifs <;> rfl

section Feeds

variable {line : Str} {c : ℕ}

theorem alone_of_cons (alone : ∀ d ∈ (c :: line).getLast?, d ≠ 13) : ∀ d ∈ line.getLast?, d ≠ 13 := by
  intro d last
  cases line with
  | nil => cases last
  | cons e line => exact alone d last

theorem feed_alone (alone : ∀ d ∈ (c :: line).getLast?, d ≠ 13)
    (other : ∀ rest, c = 13 → line = 10 :: rest → False) {rest : Str} :
    ∀ later, c = 13 → line ++ 10 :: rest = 10 :: later → False := by
  rintro later rfl same
  cases line with
  | nil => exact alone 13 rfl rfl
  | cons d line =>
    cases same
    exact other line rfl rfl

end Feeds

/-- A line feed parts the pieces, unless it belongs to a carriage return. -/
theorem pieces_feed {line : Str} (alone : ∀ c ∈ line.getLast?, c ≠ 13) (rest : Str) :
    pieces (line ++ 10 :: rest) = pieces line ++ pieces rest := by
  induction line using pieces.induct with
  | case1 => rfl
  | case2 line ih =>
    rw [List.cons_append, List.cons_append, pieces.eq_2, pieces.eq_2, List.cons_append, ih]
    intro c last
    refine alone c ?_
    cases line with
    | nil => cases last
    | cons d line => exact last
  | case3 c line other breaks ih =>
    rw [List.cons_append, pieces_cons other, pieces_cons (feed_alone alone other),
      if_pos breaks, if_pos breaks, List.cons_append, ih (alone_of_cons alone)]
  | case4 c line other plain ih =>
    obtain ⟨head, tail, cut⟩ := List.exists_cons_of_ne_nil (pieces_ne_nil line)
    rw [List.cons_append, pieces_cons other, pieces_cons (feed_alone alone other),
      if_neg plain, if_neg plain, ih (alone_of_cons alone), cut]
    rfl

/-- The text with a line feed at every boundary -/
def relined : Str → Str
  | [] => []
  | 13 :: 10 :: rest => 10 :: relined rest
  | c :: rest => (if isLineBreak c then 10 else c) :: relined rest

theorem join_pieces (text : Str) : join [10] (pieces text) = relined text := by
  induction text using relined.induct with
  | case1 => rfl
  | case2 rest ih =>
    rw [pieces.eq_2, relined.eq_2, join, List.intercalate_cons_of_ne_nil (pieces_ne_nil rest), ← join,
      ih]
    rfl
  | case3 c rest other ih =>
    obtain ⟨head, tail, cut⟩ := List.exists_cons_of_ne_nil (pieces_ne_nil rest)
    rw [pieces_cons other, relined.eq_3 c rest other]
    split_ifs with breaks
    · rw [join, List.intercalate_cons_of_ne_nil (pieces_ne_nil rest), ← join, ih]
      rfl
    · rw [← ih, cut]
      cases tail <;> rfl

/-- A character that is no boundary parts the lines before it from those behind. -/
theorem relined_append_cons {c : ℕ} (plain : isLineBreak c = false) (first rest : Str) :
    relined (first ++ c :: rest) = relined first ++ c :: relined rest := by
  induction first using relined.induct with
  | case1 =>
    have other : ∀ later, c = 13 → rest = 10 :: later → False := by
      rintro later rfl -
      cases plain
    rw [List.nil_append, relined.eq_3 c rest other, plain]
    rfl
  | case2 first ih =>
    rw [List.cons_append, List.cons_append, relined.eq_2, relined.eq_2, ih]
    rfl
  | case3 d first other ih =>
    have other' : ∀ later, d = 13 → first ++ c :: rest = 10 :: later → False := by
      rintro later rfl same
      cases first with
      | nil =>
        cases same
        cases plain
      | cons e first =>
        cases same
        exact other first rfl rfl
    rw [List.cons_append, relined.eq_3 d _ other', relined.eq_3 d _ other, ih]
    rfl

theorem relined_cons {c : ℕ} (plain : isLineBreak c = false) (rest : Str) :
    relined (c :: rest) = c :: relined rest :=
  relined_append_cons plain [] rest

theorem mem_relined {c : ℕ} (plain : isLineBreak c = false) (text : Str) :
    c ∈ relined text ↔ c ∈ text := by
  have feed : c ≠ 10 := by
    rintro rfl
    cases plain
  induction text using relined.induct with
  | case1 => rfl
  | case2 rest ih =>
    have carriage : c ≠ 13 := by
      rintro rfl
      cases plain
    have later : c ∈ relined rest ↔ c ∈ rest := ih
    rw [relined.eq_2, List.mem_cons, List.mem_cons, List.mem_cons, later, or_iff_right feed,
      or_iff_right carriage]
  | case3 d rest other ih =>
    have later : c ∈ relined rest ↔ c ∈ rest := ih
    rw [relined.eq_3 d rest other, List.mem_cons, List.mem_cons, later]
    split_ifs with breaks
    · rw [or_iff_right feed, or_iff_right]
      rintro rfl
      rw [breaks] at plain
      cases plain
    · rfl

theorem head_splitlines {start : Str} (plain : ∀ c ∈ start, isLineBreak c = false)
    (nonempty : start ≠ []) (rest : Str) :
    ∃ line, (splitlines (start ++ rest)).head? = some (start ++ line) := by
  obtain ⟨line, lines, cut⟩ := List.exists_cons_of_ne_nil (pieces_ne_nil rest)
  refine ⟨line, ?_⟩
  unfold splitlines
  rw [pieces_append plain cut]
  dsimp only
  split_ifs with last
  · cases lines with
    | nil =>
      have empty := Option.some.inj (List.getLast?_singleton.symm.trans last)
      exact absurd (List.append_eq_nil_iff.mp empty).1 nonempty
    | cons line' lines => rfl
  · rfl

end Lines

section Order

/-- `<=`, by the code points -/
def le : Str → Str → Bool
  | [], _ => true
  | _ :: _, [] => false
  | c :: text, d :: text' => c < d || (c == d && le text text')

end Order

section Search

/-- `str.find` of a character; none for -1. -/
def find (c : ℕ) (text : Str) : Option ℕ := text.findIdx? (· == c)

/-- `str.rfind` of a character -/
def rfind (c : ℕ) (text : Str) : Option ℕ :=
  (text.reverse.findIdx? (· == c)).map fun i => text.length - 1 - i

/-- `text[start:stop]` -/
def slice (start stop : ℕ) (text : Str) : Str := (text.take stop).drop start

/-- What stands from the first opening character to the last closing one. -/
def between (opening closing : ℕ) (text : Str) : Option Str :=
  match text.find opening, text.rfind closing with
  | some start, some stop => if start ≤ stop then some (text.slice start (stop + 1)) else none
  | _, _ => none

theorem find_append {c : ℕ} {before : Str} (first : c ∉ before) (after : Str) :
    find c (before ++ c :: after) = some before.length := by
  rw [find, List.findIdx?_append, List.findIdx?_eq_none_iff.mpr]
  · rw [List.findIdx?_cons, beq_self_eq_true]
    simp
  · intro d member
    rw [beq_eq_false_iff_ne]
    rintro rfl
    exact first member

theorem rfind_append {c : ℕ} {after : Str} (last : c ∉ after) (before : Str) :
    rfind c (before ++ c :: after) = some before.length := by
  have mirrored : (before ++ c :: after).reverse = after.reverse ++ c :: before.reverse := by
    rw [List.reverse_append, List.reverse_cons, List.append_assoc, List.singleton_append]
  have found := find_append (mt List.mem_reverse.mp last) before.reverse
  rw [find] at found
  rw [rfind, mirrored, found, Option.map_some, List.length_append, List.length_cons,
    List.length_reverse]
  congr 1
  omega

/-- A text between the first opening character and the last closing one -/
theorem between_append {opening closing : ℕ} {before after : Str} (first : opening ∉ before)
    (last : closing ∉ after) (inner : Str) :
    between opening closing (before ++ opening :: (inner ++ closing :: after)) =
      some (opening :: (inner ++ [closing])) := by
  have whole : before ++ opening :: (inner ++ closing :: after) =
      (before ++ opening :: inner) ++ closing :: after := by
    rw [List.append_assoc, List.cons_append]
  have found := find_append first (inner ++ closing :: after)
  have found' := rfind_append last (before ++ opening :: inner)
  rw [← whole] at found'
  have length : (before ++ opening :: inner).length = before.length + (inner.length + 1) := by
    rw [List.length_append, List.length_cons]
  have cut : before ++ opening :: (inner ++ closing :: after) =
      (before ++ (opening :: (inner ++ [closing]))) ++ after := by simp
  have stop : (before ++ (opening :: (inner ++ [closing]))).length =
      (before ++ opening :: inner).length + 1 := by
    simp only [List.length_append, List.length_cons, List.length_nil]
    omega
  rw [between, found, found']
  dsimp only
  rw [if_pos (by omega), slice, cut, List.take_left' stop, List.drop_left]

end Search

section Strip

/-- `str.lstrip` -/
def lstrip (text : Str) : Str := text.dropWhile isSpaceCode

/-- `str.strip` -/
theorem strip_eq (text : Str) : text.strip = text.lstrip.rdropWhile isSpaceCode := rfl

/-- A text that starts with no white space still does after characters at its end are gone. -/
theorem lstrip_rdropWhile {text : Str} (kept : text.lstrip = text) (p : ℕ → Bool) :
    lstrip (text.rdropWhile p) = text.rdropWhile p := by
  obtain ⟨after, split⟩ := List.rdropWhile_prefix p (l := text)
  cases rest : text.rdropWhile p with
  | nil => rfl
  | cons c rest' =>
    rw [rest, List.cons_append] at split
    refine List.dropWhile_cons_of_neg fun space => ?_
    rw [← split, lstrip, List.dropWhile_cons_of_pos space] at kept
    have shorter := (List.dropWhile_sublist isSpaceCode (l := rest' ++ after)).length_le
    rw [kept, List.length_cons] at shorter
    omega

theorem strip_strip (text : Str) : text.strip.strip = text.strip := by
  have kept : lstrip (text.strip) = text.strip := by
    have once : text.lstrip.lstrip = text.lstrip := List.dropWhile_idempotent isSpaceCode text
    rw [strip_eq]
    exact lstrip_rdropWhile once isSpaceCode
  rw [strip_eq text.strip, kept, strip_eq, List.rdropWhile_idempotent]

/-- A predicate that white space does not have counts as much in the stripped text. -/
theorem filter_strip {p : ℕ → Bool} (spaces : ∀ c, isSpaceCode c = true → p c = false) (text : Str) :
    text.strip.filter p = text.filter p := by
  obtain ⟨before, after, split, first, last⟩ := strip_split text
  have none {gap : Str} (space : ∀ c ∈ gap, isSpaceCode c = true) : gap.filter p = [] := by
    refine List.filter_eq_nil_iff.mpr fun c member => ?_
    rw [spaces c (space c member)]
    exact Bool.false_ne_true
  have whole := congrArg (List.filter p) split
  rwa [List.filter_append, List.filter_append, none first, none last, List.append_nil,
    List.nil_append, eq_comm] at whole

/-- Nothing is left of white space, and only of it. -/
theorem strip_eq_nil_iff {text : Str} : text.strip = [] ↔ ∀ c ∈ text, isSpaceCode c = true := by
  constructor
  · intro empty c member
    have kept := filter_strip (p := fun c => !isSpaceCode c) (fun c space => by rw [space]; rfl) text
    rw [empty, List.filter_nil, eq_comm, List.filter_eq_nil_iff] at kept
    have space := kept c member
    rwa [Bool.not_eq_true, Bool.not_eq_false'] at space
  · intro spaces
    rw [strip_eq, lstrip, List.dropWhile_eq_nil_iff.mpr spaces]
    rfl

/-- A text whose first and last characters are no white space is not changed. -/
theorem strip_eq_self {text : Str} (first : ∀ c ∈ text.head?, isSpaceCode c = false)
    (last : ∀ c ∈ text.getLast?, isSpaceCode c = false) : text.strip = text := by
  have front : text.lstrip = text := by
    cases text with
    | nil => rfl
    | cons c text =>
      refine List.dropWhile_cons_of_neg ?_
      rw [first c rfl]
      exact Bool.false_ne_true
  rw [strip_eq, front, List.rdropWhile_eq_self_iff]
  intro nonempty space
  rw [last _ (List.getLast?_eq_some_getLast nonempty)] at space
  exact Bool.false_ne_true space

/-- White space before a text is taken away. -/
theorem strip_spaces_append {gap : Str} (space : ∀ c ∈ gap, isSpaceCode c = true) (text : Str) :
    (gap ++ text).strip = text.strip := by
  rw [strip_eq, strip_eq, lstrip, List.dropWhile_append_of_pos space, ← lstrip]

/-- A stripped text has no white space at its ends. -/
theorem head_of_strip {text : Str} (bare : text.strip = text) :
    ∀ c ∈ text.head?, isSpaceCode c = false := by
  intro c first
  obtain ⟨rest, rfl⟩ : ∃ rest, text = c :: rest := by
    cases text with
    | nil => cases first
    | cons d rest =>
      cases first
      exact ⟨rest, rfl⟩
  by_contra space
  rw [Bool.not_eq_false] at space
  have gap : ∀ d ∈ [c], isSpaceCode d = true := by simpa using space
  have shorter := length_strip rest
  rw [← strip_spaces_append gap rest, List.singleton_append, bare, List.length_cons] at shorter
  omega

theorem last_of_strip {text : Str} (bare : text.strip = text) :
    ∀ c ∈ text.getLast?, isSpaceCode c = false := by
  intro c last
  rw [← bare, strip_eq] at last
  obtain ⟨nonempty, same⟩ := List.mem_getLast?_eq_getLast last
  have shown := List.rdropWhile_last_not isSpaceCode text.lstrip nonempty
  rw [← same] at shown
  exact Bool.not_eq_true _ ▸ shown

end Strip

end Python.Str
