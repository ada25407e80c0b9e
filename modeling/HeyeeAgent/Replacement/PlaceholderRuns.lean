import HeyeeAgent.Replacement.Placeholders

/-! # Replacing one placeholder after the other

A run replaces the names of a list one by one, each in the text that the replacements before it have
left, and takes away the placeholders that are left in the end. It is a simultaneous replacement if and
only if filling in the values forms no placeholder: the letters of a value, or those around an empty
one, must not read like a placeholder.
-/

namespace Placeholders

variable {κ α β : Type*}

section Fill

variable {code : α → κ} {tokens : List (Token α)} {value value' : List κ → Option (List α)}

theorem fill_none : fill code (fun _ => none) tokens = tokens := by
  induction tokens with
  | nil => rfl
  | cons token tokens ih =>
    rw [fill, List.flatMap_cons, ← fill, ih]
    cases token with
    | char c => rfl
    | slot o name c => rfl

/-- What is left of the placeholders is filled later. -/
theorem fill_fill : fill code value' (fill code value tokens) =
    fill code (fun name => (value name).or (value' name)) tokens := by
  rw [fill, fill, List.flatMap_assoc, fill]
  refine congrArg (fun filled => tokens.flatMap filled) (funext fun token => ?_)
  cases token with
  | char c => rfl
  | slot o name c =>
    rw [Token.fill, Token.fill]
    cases value (name.map code) with
    | none => exact List.flatMap_singleton _ _
    | some chars => exact fill_chars value' chars

theorem slot_of_mem_fill {o c : α} {name : List α} (member : .slot o name c ∈ fill code value tokens) :
    .slot o name c ∈ tokens := by
  obtain ⟨token, listed, filled⟩ := List.mem_flatMap.mp member
  cases token with
  | char d => cases List.mem_singleton.mp filled
  | slot o' name' c' =>
    rw [Token.fill] at filled
    split at filled
    · obtain ⟨d, -, same⟩ := List.mem_map.mp filled
      cases same
    · rwa [List.mem_singleton.mp filled]

variable [DecidableEq κ]

@[simp] theorem fill_lookup_nil (tokens : List (Token α)) :
    fill code (fun name => ([] : List (List κ × List α)).lookup name) tokens = tokens := fill_none

theorem fill_only_lookup (key : List κ) (target : List α) (slots : List (List κ × List α)) :
    fill code (fun name => slots.lookup name) (fill code (only (· == key) target) tokens) =
      fill code (fun name => ((key, target) :: slots).lookup name) tokens := by
  rw [fill_fill]
  refine congrArg (fun value => fill code value tokens) (funext fun name => ?_)
  rw [only, List.lookup_cons]
  cases name == key with
  | false => rfl
  | true => rfl

end Fill

variable [DecidableEq κ]

/-- What looks for one name and what looks for every name -/
structure Scanner (marks : Marks κ) where
  one : List κ → List κ → ℕ
  any : List κ → ℕ
  finds_one : ∀ {key : List κ}, marks.IsName key → Finds marks (one key) fun name => name == key
  finds_any : Finds marks any fun _ => true

section Run

variable {marks : Marks κ} (scanner : Scanner marks) (code : α → κ)

/-- The replacements of the names, one after the other -/
def replaceEach (slots : List (List κ × List α)) (text : List α) : List α :=
  slots.foldl (fun text (key, value) => sub code (scanner.one key) value text) text

/-- The whole run -/
def run (slots : List (List κ × List α)) (text : List α) : List α :=
  sub code scanner.any [] (replaceEach scanner code slots text)

theorem run_cons (key : List κ) (target : List α) (slots : List (List κ × List α)) (text : List α) :
    run scanner code ((key, target) :: slots) text =
      run scanner code slots (sub code (scanner.one key) target text) := rfl

/-- All the matches of a run: what it replaces or takes away -/
def touched : List (List κ × List α) → List α → List (List α)
  | [], text => matchesIn code scanner.any text
  | (key, value) :: slots, text => matchesIn code (scanner.one key) text ++
      touched slots (sub code (scanner.one key) value text)

/-- The placeholders of a text with their values. Those without a value are left. -/
def filled (marks : Marks κ) (code : α → κ) (slots : List (List κ × List α)) (text : List α) :
    List (Token α) :=
  fill code (fun name => slots.lookup name) (scan marks code text)

/-- The simultaneous replacement: every placeholder gives way to its value, or to nothing. -/
def simultaneous (marks : Marks κ) (code : α → κ) (slots : List (List κ × List α)) (text : List α) :
    List α :=
  Placeholders.text (fill code (fun name => some ((slots.lookup name).getD [])) (scan marks code text))

/-- With the values in place something else reads like a placeholder. -/
def Overlaps (marks : Marks κ) (code : α → κ) (slots : List (List κ × List α)) (text : List α) :
    Prop :=
  Formed marks code (fun _ => true) (filled marks code slots text)

end Run

section Sufficient

variable {marks : Marks κ} (scanner : Scanner marks) {code : α → κ}
  {slots : List (List κ × List α)} {tokens : List (Token α)}

theorem sub_one {key : List κ} (named : marks.IsName key)
    (proper : ∀ token ∈ tokens, token.Proper marks code)
    (apart : ¬ Formed marks code (fun name => name == key) tokens) (target : List α) :
    sub code (scanner.one key) target (text tokens) =
      text (fill code (only (· == key) target) tokens) :=
  sub_text (scanner.finds_one named) proper apart target

theorem sub_any (proper : ∀ token ∈ tokens, token.Proper marks code)
    (apart : ¬ Formed marks code (fun _ => true) tokens) :
    sub code scanner.any [] (text tokens) = text (fill code (fun _ => some []) tokens) :=
  sub_text scanner.finds_any proper apart []

/-- The replacements fill the placeholders in, where no others are formed in the end, and they touch
nothing but the placeholders. -/
theorem replaceEach_text (named : ∀ slot ∈ slots, marks.IsName slot.1)
    (proper : ∀ token ∈ tokens, token.Proper marks code)
    (apart : ¬ Formed marks code (fun _ => true) (fill code (fun name => slots.lookup name) tokens)) :
    replaceEach scanner code slots (text tokens) =
        text (fill code (fun name => slots.lookup name) tokens) ∧
      ∀ piece ∈ touched scanner code slots (text tokens), ∃ o name c, Token.slot o name c ∈ tokens ∧
        piece = o :: (name ++ [c]) := by
  induction slots generalizing tokens with
  | nil =>
    rw [fill_lookup_nil] at apart ⊢
    refine ⟨rfl, fun piece member => ?_⟩
    obtain ⟨o, name, c, listed, -, rfl⟩ := (mem_matchesIn scanner.finds_any proper apart).mp member
    exact ⟨o, name, c, listed, rfl⟩
  | cons slot slots ih =>
    obtain ⟨key, target⟩ := slot
    have key_named := named _ List.mem_cons_self
    have apart_key : ¬ Formed marks code (fun name => name == key) tokens :=
      fun formed => apart ((formed.mono fun _ _ => rfl).fill _)
    rw [← fill_only_lookup] at apart ⊢
    obtain ⟨replaced, pieces⟩ := ih (fun slot member => named slot (List.mem_cons_of_mem _ member))
      (proper_fill _ proper) apart
    rw [← sub_one scanner key_named proper apart_key] at replaced pieces
    refine ⟨replaced, fun piece member => ?_⟩
    rcases List.mem_append.mp member with now | later
    · obtain ⟨o, name, c, listed, -, rfl⟩ :=
        (mem_matchesIn (scanner.finds_one key_named) proper apart_key).mp now
      exact ⟨o, name, c, listed, rfl⟩
    · obtain ⟨o, name, c, listed, rfl⟩ := pieces piece later
      exact ⟨o, name, c, slot_of_mem_fill listed, rfl⟩

/-- Where no placeholders are formed, the run is simultaneous. -/
theorem run_eq_simultaneous (named : ∀ slot ∈ slots, marks.IsName slot.1) {chars : List α}
    (apart : ¬ Overlaps marks code slots chars) :
    run scanner code slots chars = simultaneous marks code slots chars := by
  have replaced := (replaceEach_text scanner named (proper_scan marks code chars) apart).1
  rw [text_scan] at replaced
  rw [run, replaced, sub_any scanner (proper_fill _ (proper_scan marks code chars)) apart, fill_fill,
    simultaneous]
  refine congrArg (fun value => text (fill code value _)) (funext fun name => ?_)
  cases slots.lookup name with
  | none => rfl
  | some value => rfl

end Sufficient

section Necessary

variable {marks : Marks κ} (scanner : Scanner marks) {code : α → κ} {plain : α → Prop}
  {slots others : List (List κ × List α)} {tokens : List (Token α)}
  {value : List κ → Option (List α)} {chars : List α}

/-- No placeholder is formed by plain letters alone. -/
def Seamless (marks : Marks κ) (code : α → κ) (plain : α → Prop) (tokens : List (Token α)) : Prop :=
  ∀ o name c, (Token.slot o name c).Proper marks code → (∀ a ∈ o :: (name ++ [c]), plain a) →
    ¬ (o :: (name ++ [c])).map Token.char <:+: tokens

omit [DecidableEq κ] in
/-- Plain letters that start a text with values start it without them. -/
theorem prefix_of_fill (marked : ∀ name letters, value name = some letters → letters ≠ [] ∧
    ∀ a ∈ letters, ¬ plain a) (letters : ∀ a ∈ chars, plain a)
    (start : chars.map .char <+: fill code value tokens) : chars.map .char <+: tokens := by
  induction chars generalizing tokens with
  | nil => exact List.nil_prefix
  | cons a chars ih =>
    cases tokens with
    | nil => exact absurd (List.prefix_nil.mp start) (by simp)
    | cons token tokens =>
      rw [fill, List.flatMap_cons, ← fill] at start
      cases token with
      | char b =>
        obtain ⟨same, behind⟩ := List.cons_prefix_cons.mp start
        rw [List.map_cons, same]
        exact (List.prefix_cons_inj _).mpr
          (ih (fun d member => letters d (List.mem_cons_of_mem _ member)) behind)
      | slot o name c =>
        rw [Token.fill] at start
        split at start
        · rename_i target given
          obtain ⟨nonempty, coloured⟩ := marked _ target given
          obtain ⟨d, target, rfl⟩ := List.exists_cons_of_ne_nil nonempty
          obtain ⟨same, -⟩ := List.cons_prefix_cons.mp start
          cases same
          exact absurd (letters a List.mem_cons_self) (coloured a List.mem_cons_self)
        · cases (List.cons_prefix_cons.mp start).1

omit [DecidableEq κ] in
theorem infix_behind {target : List α} (coloured : ∀ a ∈ target, ¬ plain a)
    (letters : ∀ a ∈ chars, plain a) (inside : chars.map .char <:+: target.map .char ++ tokens) :
    chars.map .char <:+: tokens := by
  induction target with
  | nil => exact inside
  | cons d target ih =>
    rcases List.infix_cons_iff.mp inside with start | behind
    · cases chars with
      | nil => exact List.nil_infix
      | cons a chars =>
        have same : a = d := Token.char.inj (List.cons_prefix_cons.mp start).1
        exact absurd (letters a List.mem_cons_self) (same ▸ coloured d List.mem_cons_self)
    · exact ih (fun b member => coloured b (List.mem_cons_of_mem _ member)) behind

omit [DecidableEq κ] in
theorem infix_of_fill (marked : ∀ name letters, value name = some letters → letters ≠ [] ∧
    ∀ a ∈ letters, ¬ plain a) (letters : ∀ a ∈ chars, plain a)
    (inside : chars.map .char <:+: fill code value tokens) : chars.map .char <:+: tokens := by
  induction tokens with
  | nil => exact inside
  | cons token tokens ih =>
    have first (start : chars.map .char <+: fill code value (token :: tokens)) :
        chars.map .char <:+: token :: tokens := (prefix_of_fill marked letters start).isInfix
    have later (behind : chars.map .char <:+: fill code value tokens) :
        chars.map .char <:+: token :: tokens :=
      (ih behind).trans (List.suffix_cons token tokens).isInfix
    rw [fill, List.flatMap_cons, ← fill] at inside first
    cases token with
    | char b => exact (List.infix_cons_iff.mp inside).elim first later
    | slot o name c =>
      rw [Token.fill] at inside first
      split at inside
      · rename_i target given
        exact later (infix_behind (marked _ target given).2 letters inside)
      · rename_i left
        rw [left] at first
        exact (List.infix_cons_iff.mp inside).elim first later

/-- Values that are not empty and not plain hold every placeholder that they form apart from the plain
letters, so a run that touches only plain letters fills them in. -/
theorem replaceEach_marked (named : ∀ slot ∈ slots, marks.IsName slot.1)
    (marked : ∀ slot ∈ slots, slot.2 ≠ [] ∧ ∀ a ∈ slot.2, ¬ plain a)
    (proper : ∀ token ∈ tokens, token.Proper marks code) (seamless : Seamless marks code plain tokens)
    (untouched : ∀ piece ∈ touched scanner code (slots ++ others) (text tokens),
      ∀ a ∈ piece, plain a) :
    replaceEach scanner code (slots ++ others) (text tokens) =
      replaceEach scanner code others (text (fill code (fun name => slots.lookup name) tokens)) := by
  induction slots generalizing tokens with
  | nil =>
    rw [fill_lookup_nil]
    rfl
  | cons slot slots ih =>
    obtain ⟨key, target⟩ := slot
    have key_named := named _ List.mem_cons_self
    have apart : ¬ Formed marks code (fun name => name == key) tokens := by
      intro formed
      obtain ⟨o, name, c, slot, -, inside, found⟩ :=
        formed.mem_matchesIn (scanner.finds_one key_named)
      exact seamless o name c slot (untouched _ (List.mem_append_left _ found)) inside
    have replaced := sub_one scanner key_named proper apart target
    have seamless' : Seamless marks code plain (fill code (only (· == key) target) tokens) := by
      intro o name c slot letters inside
      refine seamless o name c slot letters (infix_of_fill (fun name value given => ?_) letters inside)
      rw [only] at given
      split_ifs at given
      cases given
      exact marked _ List.mem_cons_self
    rw [← fill_only_lookup, ← ih (fun slot member => named slot (List.mem_cons_of_mem _ member))
      (fun slot member => marked slot (List.mem_cons_of_mem _ member)) (proper_fill _ proper)
      seamless' ?_, ← replaced]
    · rfl
    · rw [← replaced]
      exact fun piece member => untouched piece (List.mem_append_right _ member)

/-- The letters of a text that could open a placeholder -/
def opens (marks : Marks κ) (code : α → κ) (chars : List α) : ℕ :=
  chars.countP fun c => code c = marks.opening

theorem opens_text_fill (tokens : List (Token α)) :
    opens marks code (text (fill code (fun _ => some []) tokens)) = openings marks code tokens := by
  induction tokens with
  | nil => rfl
  | cons token tokens ih =>
    rw [fill, List.flatMap_cons, ← fill, text_append, opens, List.countP_append, ← opens, ← opens, ih]
    cases token with
    | char c =>
      rw [openings_char, opens, Nat.add_comm]
      simp [Token.fill, Token.text, List.countP_cons]
    | slot o name c => exact Nat.zero_add _

theorem openings_fill (empty : ∀ name letters, value name = some letters → letters = []) :
    openings marks code (fill code value tokens) = openings marks code tokens := by
  induction tokens with
  | nil => rfl
  | cons token tokens ih =>
    rw [fill, List.flatMap_cons, ← fill, openings_append, ih]
    cases token with
    | char c =>
      rw [openings_char, Nat.add_comm, Token.fill, openings_char]
      exact congrArg (_ + ·) (Nat.zero_add _)
    | slot o name c =>
      rw [Token.fill]
      split
      · rename_i letters given
        rw [empty _ letters given]
        exact Nat.zero_add _
      · exact Nat.zero_add _

theorem empty_of_only (key : List κ) : ∀ name letters,
    only (α := α) (· == key) [] name = some letters → letters = [] := by
  intro name letters given
  rw [only] at given
  split_ifs at given
  exact (Option.some.inj given).symm

theorem sub_one_nil {key : List κ} (named : marks.IsName key) (chars : List α) :
    sub code (scanner.one key) [] chars =
      text (fill code (only (· == key) []) (scan marks code chars)) := by
  rw [← sub_one scanner named (proper_scan marks code chars) (not_formed_scan chars), text_scan]

/-- What only takes away leaves no more openings than the text has beside its placeholders. -/
theorem opens_run_le (code : α → κ) (named : ∀ slot ∈ slots, marks.IsName slot.1)
    (empty : ∀ slot ∈ slots, slot.2 = []) (chars : List α) :
    opens marks code (run scanner code slots chars) ≤
      openings marks code (scan marks code chars) := by
  induction slots generalizing chars with
  | nil =>
    have taken := sub_any scanner (proper_scan marks code chars)
      (not_formed_scan chars)
    rw [text_scan] at taken
    rw [run, replaceEach, List.foldl_nil, taken, opens_text_fill]
  | cons slot slots ih =>
    obtain ⟨key, target⟩ := slot
    obtain rfl : target = [] := empty _ List.mem_cons_self
    have fewer := openings_scan_le (proper_fill (only (· == key) [])
      (proper_scan marks code chars))
    rw [openings_fill (empty_of_only key), ← sub_one_nil scanner (named _ List.mem_cons_self)]
      at fewer
    exact (ih (fun slot member => named slot (List.mem_cons_of_mem _ member))
      (fun slot member => empty slot (List.mem_cons_of_mem _ member)) _).trans fewer

theorem not_formed_of_opens_run (named : ∀ slot ∈ slots, marks.IsName slot.1)
    (empty : ∀ slot ∈ slots, slot.2 = []) (proper : ∀ token ∈ tokens, token.Proper marks code)
    (all : openings marks code tokens ≤ opens marks code (run scanner code slots (text tokens))) :
    ¬ Formed marks code (fun _ => true) tokens := by
  intro formed
  have fewer := openings_scan_lt proper formed
  have rest := opens_run_le scanner code named empty (text tokens)
  omega

/-- If no opening is lost, nothing is formed on the way. -/
theorem not_formed_fill_of_opens_run (named : ∀ slot ∈ slots, marks.IsName slot.1)
    (empty : ∀ slot ∈ slots, slot.2 = []) (proper : ∀ token ∈ tokens, token.Proper marks code)
    (all : openings marks code tokens ≤ opens marks code (run scanner code slots (text tokens))) :
    ¬ Formed marks code (fun _ => true) (fill code (fun name => slots.lookup name) tokens) := by
  have apart := not_formed_of_opens_run scanner named empty proper all
  induction slots generalizing tokens with
  | nil =>
    rw [fill_lookup_nil]
    exact apart
  | cons slot slots ih =>
    obtain ⟨key, target⟩ := slot
    obtain rfl : target = [] := empty _ List.mem_cons_self
    have named' : ∀ slot ∈ slots, marks.IsName slot.1 :=
      fun slot member => named slot (List.mem_cons_of_mem _ member)
    have empty' : ∀ slot ∈ slots, slot.2 = [] :=
      fun slot member => empty slot (List.mem_cons_of_mem _ member)
    have key_named : marks.IsName key := named _ List.mem_cons_self
    rw [run_cons, sub_one scanner key_named proper (fun formed => apart (formed.mono fun _ _ => rfl)),
      ← openings_fill (empty_of_only key)] at all
    rw [← fill_only_lookup]
    exact ih named' empty' (proper_fill _ proper) all
      (not_formed_of_opens_run scanner named' empty' (proper_fill _ proper) all)

theorem fill_lookup_append (slots others : List (List κ × List α)) (tokens : List (Token α)) :
    fill code (fun name => others.lookup name) (fill code (fun name => slots.lookup name) tokens) =
      fill code (fun name => (slots ++ others).lookup name) tokens := by
  rw [fill_fill]
  refine congrArg (fun value => fill code value tokens) (funext fun name => ?_)
  rw [List.lookup_append]

/-- A run that touches the letters of the text only and loses no opening has nothing formed, if the
names with an empty value come last. -/
theorem not_overlaps_of_run (plain : α → Prop) (named : ∀ slot ∈ slots ++ others, marks.IsName slot.1)
    (marked : ∀ slot ∈ slots, slot.2 ≠ [] ∧ ∀ a ∈ slot.2, ¬ plain a)
    (empty : ∀ slot ∈ others, slot.2 = [])
    (untouched : ∀ piece ∈ touched scanner code (slots ++ others) chars, ∀ a ∈ piece, plain a)
    (all : opens marks code (simultaneous marks code (slots ++ others) chars) ≤
      opens marks code (run scanner code (slots ++ others) chars)) :
    ¬ Overlaps marks code (slots ++ others) chars := by
  have proper := proper_scan marks code chars
  have apart : ¬ Formed marks code (fun _ => true) (scan marks code chars) := not_formed_scan chars
  have seamless : Seamless marks code plain (scan marks code chars) :=
    fun o name c slot _ inside => apart ⟨o, name, c, slot, rfl, inside⟩
  have replaced := replaceEach_marked scanner
    (fun slot member => named slot (List.mem_append_left _ member)) marked proper seamless
    (by rwa [text_scan])
  rw [text_scan] at replaced
  -- The simultaneous replacement only takes away what is left.
  have target : simultaneous marks code (slots ++ others) chars = text (fill code (fun _ => some [])
      (fill code (fun name => slots.lookup name) (scan marks code chars))) := by
    rw [fill_fill, simultaneous]
    refine congrArg (fun value => text (fill code value _)) (funext fun name => ?_)
    rw [List.lookup_append]
    cases slots.lookup name with
    | some value => rfl
    | none =>
      cases given : others.lookup name with
      | none => rfl
      | some value =>
        obtain ⟨l, r, split, -⟩ := List.lookup_eq_some_iff.mp given
        have listed : (name, value) ∈ others := split ▸ List.mem_append_right _ List.mem_cons_self
        exact congrArg some (empty _ listed)
  rw [target, opens_text_fill, run, replaced, ← run] at all
  rw [Overlaps, filled, ← fill_lookup_append]
  exact not_formed_fill_of_opens_run scanner
    (fun slot member => named slot (List.mem_append_right _ member)) empty (proper_fill _ proper) all

end Necessary

section Map

variable {marks : Marks κ} (scanner : Scanner marks) (f : α → β) (code : β → κ)

def Token.map (f : α → β) : Token α → Token β
  | .char c => .char (f c)
  | .slot o name c => .slot (f o) (name.map f) (f c)

omit [DecidableEq κ] in
theorem text_map (tokens : List (Token α)) :
    text (tokens.map (Token.map f)) = (text tokens).map f := by
  rw [text, text, List.flatMap_map, List.map_flatMap]
  refine congrArg (fun piece => tokens.flatMap piece) (funext fun token => ?_)
  cases token with
  | char c => rfl
  | slot o name c => simp [Token.map, Token.text]

def Piece.map (f : α → β) : Piece α → Piece β
  | .kept c => .kept (f c)
  | .matched text => .matched (text.map f)

omit [DecidableEq κ] in
theorem cutFrom_map (found : List κ → ℕ) (skipped : ℕ) (chars : List α) :
    cutFrom code found skipped (chars.map f) =
      (cutFrom (code ∘ f) found skipped chars).map (Piece.map f) := by
  induction chars generalizing skipped with
  | nil => rw [List.map_nil, cutFrom, cutFrom, List.map_nil]
  | cons c chars ih =>
    cases skipped with
    | succ skipped => rw [List.map_cons, cutFrom, cutFrom, ih]
    | zero =>
      rw [List.map_cons, cutFrom, cutFrom, ← List.map_cons, List.map_map]
      cases found ((c :: chars).map (code ∘ f)) with
      | zero =>
        simp only [List.map_cons, ih]
        rfl
      | succ n =>
        simp only [List.map_cons, ih, Piece.map, List.map_take]

omit [DecidableEq κ] in
/-- A replacement reads nothing but the codes. -/
theorem sub_map (found : List κ → ℕ) (target chars : List α) :
    sub code found (target.map f) (chars.map f) = (sub (code ∘ f) found target chars).map f := by
  rw [sub, cut, cutFrom_map, sub, ← cut, List.flatMap_map, List.map_flatMap]
  refine congrArg (fun piece => (cut (code ∘ f) found chars).flatMap piece) (funext fun piece => ?_)
  cases piece with
  | kept c => rfl
  | matched text => rfl

/-- The slots with the letters of their values mapped -/
def mapSlots (slots : List (List κ × List α)) : List (List κ × List β) :=
  slots.map fun slot => (slot.1, slot.2.map f)

theorem run_map (slots : List (List κ × List α)) (chars : List α) :
    run scanner code (mapSlots f slots) (chars.map f) =
      (run scanner (code ∘ f) slots chars).map f := by
  induction slots generalizing chars with
  | nil => exact sub_map f code scanner.any [] chars
  | cons slot slots ih =>
    obtain ⟨key, target⟩ := slot
    rw [run_cons, mapSlots, List.map_cons, run_cons, sub_map, ← mapSlots, ih]

omit [DecidableEq κ] in
theorem splitWord_map (tokens : List (Token α)) :
    splitWord marks code (tokens.map (Token.map f)) =
      ((splitWord marks (code ∘ f) tokens).1.map f,
        (splitWord marks (code ∘ f) tokens).2.map (Token.map f)) := by
  induction tokens with
  | nil => rfl
  | cons token tokens ih =>
    cases token with
    | slot o name c => rfl
    | char c =>
      rw [List.map_cons, Token.map, splitWord, splitWord, ih]
      split_ifs with word other other
      · rfl
      · exact absurd word other
      · exact absurd other word
      · rfl

theorem merge_map (a : α) (tokens : List (Token α)) :
    merge marks code (f a) (tokens.map (Token.map f)) =
      (merge marks (code ∘ f) a tokens).map (Token.map f) := by
  rw [merge, splitWord_map, merge]
  rcases splitWord marks (code ∘ f) tokens with ⟨_ | ⟨b, name⟩, _ | ⟨c | ⟨o, inner, c⟩, after⟩⟩
  · rfl
  · rfl
  · rfl
  · rfl
  · simp only [List.map_cons, Token.map, Function.comp_apply]
    split_ifs
    · rfl
    · rfl
  · rfl

theorem scan_map (chars : List α) : scan marks code (chars.map f) =
    (scan marks (code ∘ f) chars).map (Token.map f) := by
  induction chars with
  | nil => rfl
  | cons a chars ih => rw [List.map_cons, scan_cons, scan_cons, ih, merge_map]

omit [DecidableEq κ] in
theorem fill_map (value : List κ → Option (List α)) (tokens : List (Token α)) :
    fill code (fun name => (value name).map (List.map f)) (tokens.map (Token.map f)) =
      (fill (code ∘ f) value tokens).map (Token.map f) := by
  rw [fill, fill, List.flatMap_map, List.map_flatMap]
  refine congrArg (fun piece => tokens.flatMap piece) (funext fun token => ?_)
  cases token with
  | char c => rfl
  | slot o name c =>
    rw [Token.map, Token.fill, Token.fill, List.map_map]
    cases value (name.map (code ∘ f)) with
    | none => rfl
    | some letters => simp [Token.map, Function.comp_def]

theorem lookup_mapSlots (slots : List (List κ × List α)) (name : List κ) :
    (mapSlots f slots).lookup name = (slots.lookup name).map (List.map f) := by
  induction slots with
  | nil => rfl
  | cons slot slots ih =>
    rw [mapSlots, List.map_cons, ← mapSlots, List.lookup_cons, List.lookup_cons, ih]
    cases name == slot.1 with
    | false => rfl
    | true => rfl

theorem filled_map (slots : List (List κ × List α)) (chars : List α) :
    filled marks code (mapSlots f slots) (chars.map f) =
      (filled marks (code ∘ f) slots chars).map (Token.map f) := by
  rw [filled, scan_map, filled, ← fill_map]
  exact congrArg (fun value => fill code value _) (funext fun name => lookup_mapSlots f slots name)

variable (marks) in
theorem simultaneous_map (slots : List (List κ × List α)) (chars : List α) :
    simultaneous marks code (mapSlots f slots) (chars.map f) =
      (simultaneous marks (code ∘ f) slots chars).map f := by
  rw [simultaneous, scan_map, simultaneous, ← text_map, ← fill_map]
  refine congrArg (fun value => text (fill code value _)) (funext fun name => ?_)
  rw [lookup_mapSlots]
  cases slots.lookup name with
  | none => rfl
  | some letters => rfl

omit [DecidableEq κ] in
theorem chars_of_map {letters : List β} {tokens : List (Token α)}
    (same : tokens.map (Token.map f) = letters.map .char) :
    ∃ chars : List α, tokens = chars.map .char ∧ chars.map f = letters := by
  induction tokens generalizing letters with
  | nil => exact ⟨[], rfl, (List.map_eq_nil_iff.mp same.symm).symm⟩
  | cons token tokens ih =>
    obtain ⟨b, letters, rfl, head, tail⟩ := List.map_eq_cons_iff.mp same.symm
    obtain ⟨chars, rfl, rfl⟩ := ih tail.symm
    cases token with
    | char a => exact ⟨a :: chars, rfl, congrArg (· :: _) (Token.char.inj head).symm⟩
    | slot o name c => cases head

omit [DecidableEq κ] in
/-- What is formed is told by the codes. -/
theorem formed_map {hit : List κ → Bool} {tokens : List (Token α)} :
    Formed marks code hit (tokens.map (Token.map f)) ↔ Formed marks (code ∘ f) hit tokens := by
  constructor
  · rintro ⟨o, name, c, slot, wanted, before, after, split⟩
    obtain ⟨front, behind, rfl, split, -⟩ := List.map_eq_append_iff.mp split.symm
    obtain ⟨before', middle, rfl, -, split⟩ := List.map_eq_append_iff.mp split
    obtain ⟨chars, rfl, letters⟩ := chars_of_map f split
    obtain ⟨o, rest, rfl, rfl, rest_eq⟩ := List.map_eq_cons_iff.mp letters
    obtain ⟨name, last, rfl, rfl, last_eq⟩ := List.map_eq_append_iff.mp rest_eq
    obtain ⟨c, rfl, rfl⟩ := List.map_eq_singleton_iff.mp last_eq
    rw [List.map_map] at wanted
    refine ⟨o, name, c, ?_, wanted, before', behind, rfl⟩
    rwa [Token.Proper, List.map_map] at slot
  · rintro ⟨o, name, c, slot, wanted, before, after, rfl⟩
    refine ⟨f o, name.map f, f c, ?_, ?_, before.map (Token.map f), after.map (Token.map f), ?_⟩
    · rw [Token.Proper, List.map_map]
      exact slot
    · rwa [List.map_map]
    · simp [Token.map, Function.comp_def]

variable (marks) in
theorem overlaps_map (slots : List (List κ × List α)) (chars : List α) :
    Overlaps marks code (mapSlots f slots) (chars.map f) ↔ Overlaps marks (code ∘ f) slots chars := by
  rw [Overlaps, filled_map, formed_map, Overlaps]

end Map

end Placeholders
