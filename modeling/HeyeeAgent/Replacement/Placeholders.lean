import HeyeeAgent.Framing.Delimiters
import Mathlib.Data.List.Infix
import Mathlib.Data.List.Lemmas

/-! # Placeholders in a text

A placeholder is a name between an opening and a closing letter. A text is a row of letters and
placeholders; a replacement scans it from the left. Letters may carry more than their code, such as
where they come from: a scan reads the codes only.
-/

namespace Placeholders

/-- The letters around a name, which no name has -/
structure Marks (κ : Type*) where
  opening : κ
  closing : κ
  isWord : κ → Bool
  opening_word : isWord opening = false
  closing_word : isWord closing = false
  opening_ne_closing : opening ≠ closing

inductive Token (α : Type*) where
  | char (c : α)
  | slot (opening : α) (name : List α) (closing : α)

inductive Piece (α : Type*) where
  | kept (c : α)
  | matched (text : List α)

variable {κ α : Type*}

def Token.text : Token α → List α
  | .char c => [c]
  | .slot o name c => o :: (name ++ [c])

def text (tokens : List (Token α)) : List α := tokens.flatMap Token.text

@[simp] theorem text_nil : text ([] : List (Token α)) = [] := rfl

@[simp] theorem text_cons (token : Token α) (tokens : List (Token α)) :
    text (token :: tokens) = token.text ++ text tokens := rfl

theorem text_append (tokens others : List (Token α)) :
    text (tokens ++ others) = text tokens ++ text others := List.flatMap_append

@[simp] theorem text_chars (chars : List α) : text (chars.map Token.char) = chars := by
  rw [text, List.flatMap_map]
  exact List.flatMap_singleton' chars

section Replacing

variable (code : α → κ) (found : List κ → ℕ)

/-- The letters that are kept and the matches, from the left. `found` says how many letters match at
the start of a text; the first number counts the letters of the last match that are still to come. -/
def cutFrom : ℕ → List α → List (Piece α)
  | _, [] => []
  | skipped + 1, _ :: rest => cutFrom skipped rest
  | 0, c :: rest =>
    match found ((c :: rest).map code) with
    | 0 => .kept c :: cutFrom 0 rest
    | n + 1 => .matched ((c :: rest).take (n + 1)) :: cutFrom n rest

def cut (text : List α) : List (Piece α) := cutFrom code found 0 text

def Piece.letters (target : List α) : Piece α → List α
  | .kept c => [c]
  | .matched _ => target

/-- The text with a target for every match -/
def sub (target text : List α) : List α := (cut code found text).flatMap (Piece.letters target)

def matchesIn (text : List α) : List (List α) :=
  (cut code found text).filterMap fun
    | .kept _ => none
    | .matched text => some text

variable {code found}

theorem cutFrom_skip (u rest : List α) :
    cutFrom code found u.length (u ++ rest) = cut code found rest := by
  induction u with
  | nil => rfl
  | cons c u ih => rw [List.length_cons, List.cons_append, cutFrom, ih]

theorem cut_kept {c : α} {rest : List α} (missed : found ((c :: rest).map code) = 0) :
    cut code found (c :: rest) = .kept c :: cut code found rest := by
  rw [cut, cutFrom, missed, ← cut]

theorem cut_matched {u rest : List α} {c : α}
    (hit : found ((c :: (u ++ rest)).map code) = u.length + 1) :
    cut code found (c :: (u ++ rest)) = .matched (c :: u) :: cut code found rest := by
  rw [cut, cutFrom, hit]
  simp only [List.take_succ_cons, List.take_left']
  rw [cutFrom_skip]

/-- A replacement keeps the number of letters that neither the matches nor the target have. -/
theorem countP_sub {p : α → Bool} {target : List α} (none : target.countP p = 0)
    (gone : ∀ chars : List α, ∀ c ∈ chars.take (found (chars.map code)), p c = false)
    (chars : List α) : (sub code found target chars).countP p = chars.countP p := by
  have general (skipped : ℕ) : ((cutFrom code found skipped chars).flatMap
      (Piece.letters target)).countP p = (chars.drop skipped).countP p := by
    induction chars generalizing skipped with
    | nil => rw [cutFrom, List.drop_nil, List.flatMap_nil]
    | cons c chars ih =>
      cases skipped with
      | succ skipped => rw [cutFrom, ih, List.drop_succ_cons]
      | zero =>
        have lost := gone (c :: chars)
        rw [cutFrom, List.drop_zero]
        cases length : found ((c :: chars).map code) with
        | zero =>
          rw [List.flatMap_cons, List.countP_append, ih, List.drop_zero, ← List.countP_append]
          rfl
        | succ n =>
          rw [length] at lost
          have split := congrArg (List.countP p) (List.take_append_drop (n + 1) (c :: chars))
          have taken : ((c :: chars).take (n + 1)).countP p = 0 :=
            List.countP_eq_zero.mpr fun d member => Bool.not_eq_true _ ▸ lost d member
          rw [List.countP_append, taken, List.drop_succ_cons] at split
          rw [List.flatMap_cons, List.countP_append, ih, Piece.letters, none, split]
  exact general 0

end Replacing

section Tokens

variable (marks : Marks κ) (code : α → κ)

def Marks.IsName (name : List κ) : Prop := name ≠ [] ∧ ∀ c ∈ name, marks.isWord c = true

instance [DecidableEq κ] (name : List κ) : Decidable (marks.IsName name) :=
  inferInstanceAs (Decidable (name ≠ [] ∧ ∀ c ∈ name, marks.isWord c = true))

/-- A placeholder is a name between the two letters. -/
def Token.Proper : Token α → Prop
  | .char _ => True
  | .slot o name c => code o = marks.opening ∧ marks.IsName (name.map code) ∧ code c = marks.closing

/-- The letters of a placeholder stand in a row, but not as a placeholder. -/
def Formed (hit : List κ → Bool) (tokens : List (Token α)) : Prop :=
  ∃ o name c, (Token.slot o name c).Proper marks code ∧ hit (name.map code) = true ∧
    (o :: (name ++ [c])).map Token.char <:+: tokens

/-- The replacement looks for the placeholders with these names. -/
structure Finds (found : List κ → ℕ) (hit : List κ → Bool) : Prop where
  at_slot : ∀ {name rest : List κ}, marks.IsName name → hit name = true →
    found (marks.opening :: (name ++ marks.closing :: rest)) = name.length + 2
  slot_of : ∀ {text : List κ}, found text ≠ 0 → ∃ name rest, marks.IsName name ∧ hit name = true ∧
    text = marks.opening :: (name ++ marks.closing :: rest)

variable {marks code} {found : List κ → ℕ} {hit : List κ → Bool} {tokens others : List (Token α)}
  {o c : α} {name : List α}

theorem Marks.opening_not_mem {name : List κ} (words : ∀ c ∈ name, marks.isWord c = true) :
    marks.opening ∉ name := fun member =>
  absurd ((words _ member).symm.trans marks.opening_word) (Bool.noConfusion)

theorem Marks.closing_not_mem {name : List κ} (words : ∀ c ∈ name, marks.isWord c = true) :
    marks.closing ∉ name := fun member =>
  absurd ((words _ member).symm.trans marks.closing_word) (Bool.noConfusion)

/-- The name of a placeholder at the start of a text is the only one that can be read there. -/
theorem Marks.name_unique {name name' rest rest' : List κ} (proper : marks.IsName name)
    (proper' : marks.IsName name')
    (same : name ++ marks.closing :: rest = name' ++ marks.closing :: rest') : name = name' :=
  (Delimiters.cut_letter same (marks.closing_not_mem proper.2) (marks.closing_not_mem proper'.2)).1

/-- Letters that read like the rest of a placeholder are no placeholders. -/
theorem chars_of_text {names rest : List κ} (words : ∀ c ∈ names, marks.isWord c = true)
    (proper : ∀ token ∈ tokens, token.Proper marks code)
    (reads : (text tokens).map code = names ++ marks.closing :: rest) :
    ∃ (chars : List α) (c : α) (after : List (Token α)),
      tokens = chars.map Token.char ++ .char c :: after ∧ chars.map code = names ∧
      code c = marks.closing := by
  induction names generalizing tokens with
  | nil =>
    cases tokens with
    | nil => cases reads
    | cons token tokens =>
      cases token with
      | char c => exact ⟨[], c, tokens, rfl, rfl, (List.cons.inj reads).1⟩
      | slot o name c =>
        have opens : code o = marks.opening := (proper _ List.mem_cons_self).1
        exact absurd (opens.symm.trans (List.cons.inj reads).1) marks.opening_ne_closing
  | cons first names ih =>
    cases tokens with
    | nil => cases reads
    | cons token tokens =>
      cases token with
      | char a =>
        obtain ⟨same, others⟩ := List.cons.inj reads
        obtain ⟨chars, c, after, rfl, rfl, closes⟩ := ih
          (fun d member => words d (List.mem_cons_of_mem _ member))
          (fun token member => proper token (List.mem_cons_of_mem _ member)) others
        exact ⟨a :: chars, c, after, rfl, congrArg (· :: _) same, closes⟩
      | slot o name c =>
        have opens : code o = marks.opening := (proper _ List.mem_cons_self).1
        have word := words first List.mem_cons_self
        rw [← (List.cons.inj reads).1, opens, marks.opening_word] at word
        exact absurd word Bool.false_ne_true

theorem Formed.of_suffix (formed : Formed marks code hit tokens) (suffix : tokens <:+ others) :
    Formed marks code hit others := by
  obtain ⟨o, name, c, slot, wanted, inside⟩ := formed
  exact ⟨o, name, c, slot, wanted, inside.trans suffix.isInfix⟩

/-- A placeholder is formed at the first letter or behind it. -/
theorem Formed.cons_cases {token : Token α} (formed : Formed marks code hit (token :: tokens)) :
    (∃ o name c after, (Token.slot o name c).Proper marks code ∧ hit (name.map code) = true ∧
      token = .char o ∧ tokens = name.map .char ++ .char c :: after) ∨
    Formed marks code hit tokens := by
  obtain ⟨o, name, c, slot, wanted, inside⟩ := formed
  rcases List.infix_cons_iff.mp inside with ⟨after, start⟩ | behind
  · rw [List.map_cons, List.cons_append, List.map_append, List.append_assoc] at start
    obtain ⟨rfl, rfl⟩ := List.cons.inj start
    exact .inl ⟨o, name, c, after, slot, wanted, rfl, rfl⟩
  · exact .inr ⟨o, name, c, slot, wanted, behind⟩

/-- The letters behind the first one of a placeholder do not open one. -/
theorem Token.Proper.plain (slot : (Token.slot o name c).Proper marks code) :
    ∀ b ∈ name ++ [c], code b ≠ marks.opening := by
  obtain ⟨-, named, closes⟩ := slot
  intro b member same
  rcases List.mem_append.mp member with inside | last
  · exact marks.opening_not_mem named.2 (same ▸ List.mem_map_of_mem inside)
  · rw [List.mem_singleton.mp last] at same
    exact marks.opening_ne_closing (same.symm.trans closes)

theorem cut_plain {u : List α} (finds : Finds marks found hit)
    (plain : ∀ a ∈ u, code a ≠ marks.opening) (rest : List α) :
    cut code found (u ++ rest) = u.map .kept ++ cut code found rest := by
  induction u with
  | nil => rfl
  | cons a u ih =>
    have missed : found ((a :: (u ++ rest)).map code) = 0 := by
      by_contra matched
      obtain ⟨name, after, -, -, reads⟩ := finds.slot_of matched
      exact plain a List.mem_cons_self (List.cons.inj reads).1
    rw [List.cons_append, cut_kept missed, ih fun b member => plain b (List.mem_cons_of_mem _ member)]
    rfl

/-- What a scan makes of a token -/
def pieces (code : α → κ) (hit : List κ → Bool) : Token α → List (Piece α)
  | .char c => [.kept c]
  | .slot o name c => if hit (name.map code) then [.matched (o :: (name ++ [c]))]
      else (o :: (name ++ [c])).map .kept

/-- A scan finds the placeholders, where no others are formed. -/
theorem cut_text (finds : Finds marks found hit) (proper : ∀ token ∈ tokens, token.Proper marks code)
    (apart : ¬ Formed marks code hit tokens) :
    cut code found (text tokens) = tokens.flatMap (pieces code hit) := by
  induction tokens with
  | nil => rfl
  | cons token tokens ih =>
    have rest := ih (fun token member => proper token (List.mem_cons_of_mem _ member))
      fun formed => apart (formed.of_suffix (List.suffix_cons token tokens))
    rw [List.flatMap_cons, text_cons, ← rest]
    cases token with
    | char a =>
      refine cut_kept ?_
      by_contra matched
      obtain ⟨name, after, named, wanted, reads⟩ := finds.slot_of matched
      obtain ⟨opens, reads⟩ := List.cons.inj reads
      obtain ⟨chars, c, behind, rfl, rfl, closes⟩ := chars_of_text named.2
        (fun token member => proper token (List.mem_cons_of_mem _ member)) reads
      refine apart ⟨a, chars, c, ⟨opens, named, closes⟩, wanted, [], behind, ?_⟩
      simp
    | slot o name c =>
      obtain ⟨opens, named, closes⟩ := proper _ List.mem_cons_self
      have reads (rest : List α) : (o :: ((name ++ [c]) ++ rest)).map code =
          marks.opening :: (name.map code ++ marks.closing :: rest.map code) := by
        simp [opens, closes]
      rw [pieces]
      split_ifs with wanted
      · refine cut_matched ?_
        rw [reads, finds.at_slot named wanted]
        simp
      · have missed : found ((o :: ((name ++ [c]) ++ text tokens)).map code) = 0 := by
          by_contra matched
          obtain ⟨name', after, named', wanted', reads'⟩ := finds.slot_of matched
          rw [reads] at reads'
          rw [marks.name_unique named named' (List.cons.inj reads').2] at wanted
          exact wanted wanted'
        rw [Token.text, List.cons_append, cut_kept missed,
          cut_plain finds (Token.Proper.plain ⟨opens, named, closes⟩)]
        rfl

/-- The placeholders that have a value are replaced by its letters. -/
def Token.fill (code : α → κ) (value : List κ → Option (List α)) : Token α → List (Token α)
  | .char c => [.char c]
  | .slot o name c =>
    match value (name.map code) with
    | some chars => chars.map .char
    | none => [.slot o name c]

def fill (code : α → κ) (value : List κ → Option (List α)) (tokens : List (Token α)) :
    List (Token α) :=
  tokens.flatMap (Token.fill code value)

/-- The value of a replacement that looks for some names -/
def only (hit : List κ → Bool) (target : List α) (name : List κ) : Option (List α) :=
  if hit name then some target else none

/-- A replacement is simultaneous, where no placeholders are formed. -/
theorem sub_text (finds : Finds marks found hit) (proper : ∀ token ∈ tokens, token.Proper marks code)
    (apart : ¬ Formed marks code hit tokens) (target : List α) :
    sub code found target (text tokens) = text (fill code (only hit target) tokens) := by
  rw [sub, cut_text finds proper apart, text, fill, List.flatMap_assoc, List.flatMap_assoc]
  refine congrArg (fun piece => tokens.flatMap piece) (funext fun token => ?_)
  cases token with
  | char c => rfl
  | slot o name c =>
    rw [pieces, Token.fill, only]
    split_ifs
    · simp [List.flatMap_map, Token.text, Piece.letters]
    · simp [List.flatMap_map, Token.text, Piece.letters]

/-- The matches are the placeholders, where no others are formed. -/
theorem mem_matchesIn (finds : Finds marks found hit)
    (proper : ∀ token ∈ tokens, token.Proper marks code) (apart : ¬ Formed marks code hit tokens)
    {chars : List α} : chars ∈ matchesIn code found (text tokens) ↔
      ∃ o name c, Token.slot o name c ∈ tokens ∧ hit (name.map code) = true ∧
        chars = o :: (name ++ [c]) := by
  rw [matchesIn, cut_text finds proper apart, List.mem_filterMap]
  constructor
  · rintro ⟨piece, member, kept⟩
    obtain ⟨token, listed, made⟩ := List.mem_flatMap.mp member
    cases token with
    | char c =>
      rw [List.mem_singleton.mp made] at kept
      cases kept
    | slot o name c =>
      rw [pieces] at made
      split_ifs at made with wanted
      · rw [List.mem_singleton.mp made] at kept
        exact ⟨o, name, c, listed, wanted, (Option.some.inj kept).symm⟩
      · obtain ⟨d, -, rfl⟩ := List.mem_map.mp made
        cases kept
  · rintro ⟨o, name, c, listed, wanted, rfl⟩
    refine ⟨.matched (o :: (name ++ [c])), List.mem_flatMap.mpr ⟨_, listed, ?_⟩, rfl⟩
    rw [pieces, if_pos wanted]
    exact List.mem_singleton_self _

theorem proper_fill (value : List κ → Option (List α))
    (proper : ∀ token ∈ tokens, token.Proper marks code) :
    ∀ token ∈ fill code value tokens, token.Proper marks code := by
  intro token member
  obtain ⟨source, listed, filled⟩ := List.mem_flatMap.mp member
  cases source with
  | char c =>
    rw [List.mem_singleton.mp filled]
    trivial
  | slot o name c =>
    rw [Token.fill] at filled
    split at filled
    · obtain ⟨c, -, rfl⟩ := List.mem_map.mp filled
      trivial
    · rw [List.mem_singleton.mp filled]
      exact proper _ listed

theorem fill_append (value : List κ → Option (List α)) (tokens others : List (Token α)) :
    fill code value (tokens ++ others) = fill code value tokens ++ fill code value others :=
  List.flatMap_append

@[simp] theorem fill_chars (value : List κ → Option (List α)) (chars : List α) :
    fill code value (chars.map .char) = chars.map .char := by
  rw [fill, List.flatMap_map]
  exact List.map_eq_flatMap.symm

/-- What is formed stays formed when placeholders are filled. -/
theorem Formed.fill (formed : Formed marks code hit tokens) (value : List κ → Option (List α)) :
    Formed marks code hit (fill code value tokens) := by
  obtain ⟨o, name, c, slot, wanted, before, after, rfl⟩ := formed
  refine ⟨o, name, c, slot, wanted, fill code value before, fill code value after, ?_⟩
  rw [fill_append, fill_append, fill_chars]

theorem Formed.mono {hit' : List κ → Bool} (formed : Formed marks code hit tokens)
    (wider : ∀ name, hit name = true → hit' name = true) : Formed marks code hit' tokens := by
  obtain ⟨o, name, c, slot, wanted, inside⟩ := formed
  exact ⟨o, name, c, slot, wider _ wanted, inside⟩

end Tokens

section Scan

variable (marks : Marks κ) (code : α → κ)

/-- The letters of a name at the start, and what follows them -/
def splitWord : List (Token α) → List α × List (Token α)
  | .char c :: tokens =>
    if marks.isWord (code c) then ((c :: (splitWord tokens).1), (splitWord tokens).2)
    else ([], .char c :: tokens)
  | tokens => ([], tokens)

variable {marks code} {hit : List κ → Bool} {tokens : List (Token α)} {a o c : α} {name : List α}

theorem splitWord_eq (marks : Marks κ) (code : α → κ) (tokens : List (Token α)) :
    tokens = (splitWord marks code tokens).1.map .char ++ (splitWord marks code tokens).2 ∧
      ∀ b ∈ (splitWord marks code tokens).1, marks.isWord (code b) = true := by
  induction tokens with
  | nil => exact ⟨rfl, fun _ => (absurd · List.not_mem_nil)⟩
  | cons token tokens ih =>
    cases token with
    | slot o name c => exact ⟨rfl, fun _ => (absurd · List.not_mem_nil)⟩
    | char c =>
      rw [splitWord]
      split_ifs with word
      · refine ⟨congrArg (_ :: ·) ih.1, fun b member => ?_⟩
        rcases List.mem_cons.mp member with rfl | inside
        · exact word
        · exact ih.2 b inside
      · exact ⟨rfl, fun _ => (absurd · List.not_mem_nil)⟩

theorem splitWord_chars {chars : List α} (words : ∀ b ∈ chars, marks.isWord (code b) = true)
    (plain : marks.isWord (code c) = false) (after : List (Token α)) :
    splitWord marks code (chars.map .char ++ .char c :: after) = (chars, .char c :: after) := by
  induction chars with
  | nil => rw [List.map_nil, List.nil_append, splitWord, plain, if_neg Bool.false_ne_true]
  | cons b chars ih =>
    rw [List.map_cons, List.cons_append, splitWord, if_pos (words b List.mem_cons_self),
      ih fun d member => words d (List.mem_cons_of_mem _ member)]

variable [DecidableEq κ]

variable (marks code) in
/-- A letter makes a placeholder of the name and the closing letter behind it. -/
def merge (a : α) (tokens : List (Token α)) : List (Token α) :=
  match splitWord marks code tokens with
  | (b :: name, .char c :: after) =>
    if code a = marks.opening ∧ code c = marks.closing then .slot a (b :: name) c :: after
    else .char a :: tokens
  | _ => .char a :: tokens

variable (marks code) in
/-- The placeholders of a text -/
def scan (text : List α) : List (Token α) := text.foldr (merge marks code) []

theorem merge_slot (slot : (Token.slot o name c).Proper marks code) (after : List (Token α)) :
    merge marks code o (name.map .char ++ .char c :: after) = .slot o name c :: after := by
  obtain ⟨opens, ⟨nonempty, words⟩, closes⟩ := slot
  have plain : marks.isWord (code c) = false := closes ▸ marks.closing_word
  rw [merge, splitWord_chars (fun b member => words _ (List.mem_map_of_mem member)) plain]
  cases name with
  | nil => exact absurd rfl nonempty
  | cons b name =>
    simp only []
    rw [if_pos ⟨opens, closes⟩]

theorem merge_cases (marks : Marks κ) (code : α → κ) (a : α) (tokens : List (Token α)) :
    merge marks code a tokens = .char a :: tokens ∨
    ∃ name c after, (Token.slot a name c).Proper marks code ∧
      tokens = name.map .char ++ .char c :: after ∧
      merge marks code a tokens = .slot a name c :: after := by
  rw [merge]
  split
  · rename_i b name c after split
    obtain ⟨reads, words⟩ := splitWord_eq marks code tokens
    rw [split] at reads words
    split_ifs with around
    · refine .inr ⟨b :: name, c, after, ⟨around.1, ⟨List.cons_ne_nil _ _, ?_⟩, around.2⟩, reads, rfl⟩
      intro d member
      obtain ⟨d, inside, rfl⟩ := List.mem_map.mp member
      exact words d inside
    · exact .inl rfl
  · exact .inl rfl

theorem scan_cons (a : α) (text : List α) :
    scan marks code (a :: text) = merge marks code a (scan marks code text) := rfl

/-- The tokens are the text again. -/
@[simp] theorem text_scan (marks : Marks κ) (code : α → κ) (chars : List α) :
    text (scan marks code chars) = chars := by
  induction chars with
  | nil => rfl
  | cons a chars ih =>
    rw [scan_cons]
    rcases merge_cases marks code a (scan marks code chars) with kept |
      ⟨name, c, after, -, split, made⟩
    · rw [kept, text_cons, ih]
      rfl
    · rw [made, text_cons, ← ih, split, text_append, text_chars, text_cons]
      simp [Token.text]

theorem proper_scan (marks : Marks κ) (code : α → κ) (chars : List α) :
    ∀ token ∈ scan marks code chars, token.Proper marks code := by
  induction chars with
  | nil => exact fun _ => (absurd · List.not_mem_nil)
  | cons a chars ih =>
    intro token member
    rw [scan_cons] at member
    rcases merge_cases marks code a (scan marks code chars) with kept |
      ⟨name, c, after, slot, split, made⟩
    · rw [kept] at member
      rcases List.mem_cons.mp member with rfl | inside
      · trivial
      · exact ih token inside
    · rw [made] at member
      rcases List.mem_cons.mp member with rfl | inside
      · exact slot
      · refine ih token ?_
        rw [split]
        exact List.mem_append_right _ (List.mem_cons_of_mem _ inside)

/-- The scan leaves no letters that read like a placeholder. -/
theorem not_formed_scan (chars : List α) : ¬ Formed marks code hit (scan marks code chars) := by
  induction chars with
  | nil =>
    rintro ⟨o, name, c, -, -, inside⟩
    exact absurd (List.infix_nil.mp inside) (by simp)
  | cons a chars ih =>
    intro formed
    rw [scan_cons] at formed
    rcases merge_cases marks code a (scan marks code chars) with kept |
      ⟨name, c, after, -, split, made⟩
    · rw [kept] at formed
      rcases formed.cons_cases with ⟨o, name, c, after, slot, -, same, split⟩ | behind
      · cases same
        rw [split, merge_slot slot] at kept
        cases kept
      · exact ih behind
    · rw [made] at formed
      rcases formed.cons_cases with ⟨o, name, c, after, -, -, same, -⟩ | behind
      · cases same
      · refine ih (behind.of_suffix ?_)
        rw [split]
        exact (List.suffix_cons _ after).trans (List.suffix_append _ _)

theorem merge_plain (plain : code a ≠ marks.opening) (tokens : List (Token α)) :
    merge marks code a tokens = .char a :: tokens := by
  rcases merge_cases marks code a tokens with kept | ⟨name, c, after, slot, -, -⟩
  · exact kept
  · exact absurd slot.1 plain

theorem scan_plain {u : List α} (plain : ∀ b ∈ u, code b ≠ marks.opening) (rest : List α) :
    scan marks code (u ++ rest) = u.map .char ++ scan marks code rest := by
  induction u with
  | nil => rfl
  | cons b u ih =>
    rw [List.cons_append, scan_cons, ih fun d member => plain d (List.mem_cons_of_mem _ member),
      merge_plain (plain b List.mem_cons_self)]
    rfl

theorem scan_slot (slot : (Token.slot o name c).Proper marks code) (rest : List α) :
    scan marks code (o :: (name ++ [c] ++ rest)) = .slot o name c :: scan marks code rest := by
  rw [scan_cons, scan_plain slot.plain, List.map_append, List.append_assoc]
  exact merge_slot slot _

/-- Every place of a text that reads like a placeholder is one. -/
theorem mem_scan (slot : (Token.slot o name c).Proper marks code) (before after : List α) :
    .slot o name c ∈ scan marks code (before ++ (o :: (name ++ [c] ++ after))) := by
  induction before with
  | nil =>
    rw [List.nil_append, scan_slot slot]
    exact List.mem_cons_self
  | cons b before ih =>
    rw [List.cons_append, scan_cons]
    rcases merge_cases marks code b (scan marks code (before ++ (o :: (name ++ [c] ++ after)))) with
      kept | ⟨name', c', behind, -, split, made⟩
    · rw [kept]
      exact List.mem_cons_of_mem _ ih
    · rw [split] at ih
      rw [made]
      rcases List.mem_append.mp ih with inside | later
      · obtain ⟨d, -, same⟩ := List.mem_map.mp inside
        cases same
      · rcases List.mem_cons.mp later with same | later
        · cases same
        · exact List.mem_cons_of_mem _ later

/-- What is formed is among the matches. -/
theorem Formed.mem_matchesIn {found : List κ → ℕ} (finds : Finds marks found hit)
    (formed : Formed marks code hit tokens) : ∃ o name c,
      (Token.slot o name c).Proper marks code ∧ hit (name.map code) = true ∧
      (o :: (name ++ [c])).map Token.char <:+: tokens ∧
      o :: (name ++ [c]) ∈ matchesIn code found (text tokens) := by
  obtain ⟨o, name, c, slot, wanted, before, after, rfl⟩ := formed
  refine ⟨o, name, c, slot, wanted, ⟨before, after, rfl⟩, ?_⟩
  rw [← text_scan marks code (text _),
    Placeholders.mem_matchesIn finds (proper_scan marks code _) (not_formed_scan _)]
  refine ⟨o, name, c, ?_, wanted, rfl⟩
  rw [text_append, text_append, text_chars, List.append_assoc, List.cons_append]
  exact mem_scan slot _ _

/-- How many letters open nothing -/
def openings (marks : Marks κ) (code : α → κ) (tokens : List (Token α)) : ℕ :=
  tokens.countP fun
    | .char c => code c = marks.opening
    | .slot .. => false

theorem openings_char (c : α) (tokens : List (Token α)) : openings marks code (.char c :: tokens) =
    openings marks code tokens + if code c = marks.opening then 1 else 0 := by
  rw [openings, List.countP_cons, ← openings]
  simp only [decide_eq_true_eq]

@[simp] theorem openings_slot (o : α) (name : List α) (c : α) (tokens : List (Token α)) :
    openings marks code (.slot o name c :: tokens) = openings marks code tokens := rfl

theorem openings_append (tokens others : List (Token α)) : openings marks code (tokens ++ others) =
    openings marks code tokens + openings marks code others := List.countP_append

theorem scan_text_slot {o c : α} {name : List α}
    (slot : (Token.slot o name c).Proper marks code) :
    scan marks code (text (.slot o name c :: tokens)) =
      .slot o name c :: scan marks code (text tokens) := by
  rw [text_cons, Token.text, List.cons_append, scan_slot slot]

/-- A letter in front adds at most itself: where it opens a placeholder, that takes it in. -/
theorem openings_scan_char (a : α) (tokens : List (Token α)) :
    openings marks code (scan marks code (text (.char a :: tokens))) ≤
      openings marks code (scan marks code (text tokens)) +
        if code a = marks.opening then 1 else 0 := by
  rw [text_cons, Token.text, List.singleton_append, scan_cons]
  rcases merge_cases marks code a (scan marks code (text tokens)) with kept |
    ⟨name, c, after, -, split, made⟩
  · rw [kept, openings_char]
  · rw [made, openings_slot, split, openings_append, openings_char]
    omega

theorem openings_scan_le (proper : ∀ token ∈ tokens, token.Proper marks code) :
    openings marks code (scan marks code (text tokens)) ≤ openings marks code tokens := by
  induction tokens with
  | nil => exact le_rfl
  | cons token tokens ih =>
    have rest := ih fun token member => proper token (List.mem_cons_of_mem _ member)
    cases token with
    | slot o name c =>
      rw [scan_text_slot (proper _ List.mem_cons_self), openings_slot, openings_slot]
      exact rest
    | char a =>
      rw [openings_char]
      exact (openings_scan_char a tokens).trans (Nat.add_le_add_right rest _)

/-- Where a placeholder is formed, another scan finds fewer openings. -/
theorem openings_scan_lt (proper : ∀ token ∈ tokens, token.Proper marks code)
    (formed : Formed marks code hit tokens) :
    openings marks code (scan marks code (text tokens)) < openings marks code tokens := by
  induction tokens with
  | nil =>
    obtain ⟨o, name, c, -, -, inside⟩ := formed
    exact absurd (List.infix_nil.mp inside) (by simp)
  | cons token tokens ih =>
    have proper' : ∀ token ∈ tokens, token.Proper marks code :=
      fun token member => proper token (List.mem_cons_of_mem _ member)
    rcases formed.cons_cases with ⟨o, name, c, after, slot, -, rfl, rfl⟩ | behind
    · have reads : text (.char o :: (name.map .char ++ .char c :: after)) =
          o :: (name ++ [c] ++ text after) := by
        rw [text_cons, text_append, text_chars, text_cons, List.append_assoc]
        rfl
      have fewer := openings_scan_le fun token member =>
        proper' token (List.mem_append_right _ (List.mem_cons_of_mem _ member))
      rw [reads, scan_slot slot, openings_slot, openings_char, openings_append, openings_char,
        if_pos slot.1]
      omega
    · have rest := ih proper' behind
      cases token with
      | slot o name c =>
        rw [scan_text_slot (proper _ List.mem_cons_self), openings_slot, openings_slot]
        exact rest
      | char a =>
        rw [openings_char]
        exact (openings_scan_char a tokens).trans_lt (Nat.add_lt_add_right rest _)

end Scan

end Placeholders
