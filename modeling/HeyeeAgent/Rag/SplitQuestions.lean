import HeyeeAgent.Rag.QueryRewrite

/-! # The parts of a question

A question is cut behind its question marks and at its separators, so a question mark that follows
another one becomes a part of its own. Nothing else of a question is lost than white space and
separators.
-/

namespace HeyeeAgent.Rag

open Python

/-- Neither white space nor a separator -/
def shown (c : ℕ) : Bool := !isSpaceCode c && !isIn c separators

/-- Where a part ends -/
def isBoundary (c : ℕ) : Bool := isIn c separators || isIn c questionEndings

/-- A question mark with nothing but white space between it and the boundary before it. -/
def Bare (text : Str) : Prop :=
  ∃ start gap c after, text = start ++ (gap ++ c :: after) ∧ isIn c questionEndings = true ∧
    (∀ d ∈ gap, isSpaceCode d = true) ∧ ∀ d ∈ start.getLast?, isBoundary d = true

/-- The parts are trimmed, hold what is shown of the question, and more than question marks. -/
structure Meaningful (question : Str) (parts : List Str) : Prop where
  nonempty : parts ≠ []
  part_ne_nil : ∀ part ∈ parts, part ≠ []
  trimmed : ∀ part ∈ parts, part.strip = part
  lossless : parts.flatten.filter shown = question.filter shown
  content : ∀ part ∈ parts, (∃ c ∈ part, isIn c questionEndings = false) ∨
    ∀ c ∈ question, isIn c questionEndings = true

/-- A part with more than question marks, or one question mark -/
def Content (part : Str) : Prop :=
  (∃ c ∈ part, shown c = true ∧ isIn c questionEndings = false) ∨
    ∃ c, isIn c questionEndings = true ∧ part = [c]

/-- The parts and the current one after the loop has read a text -/
structure Reading (text : Str) (state : List Str × Str) : Prop where
  suffix : ∃ start, text = start ++ state.2 ∧ ∀ d ∈ start.getLast?, isBoundary d = true
  unbroken : ∀ c ∈ state.2, isBoundary c = false
  lossless : (state.1.flatten ++ state.2).filter shown = text.filter shown
  trimmed : ∀ part ∈ state.1, part.strip = part
  content : ∀ part ∈ state.1, Content part
  bare : (∃ c, isIn c questionEndings = true ∧ [c] ∈ state.1) ↔ Bare text

section Characters

variable {c : ℕ} {text part value : Str} {parts : List Str}

theorem shown_iff : shown c = true ↔ isSpaceCode c = false ∧ isIn c separators = false := by
  rw [shown, Bool.and_eq_true, Bool.not_eq_true', Bool.not_eq_true']

theorem shown_of_ending (ending : isIn c questionEndings = true) : shown c = true := by
  rw [isIn_iff] at ending
  have marks : ∀ d ∈ questionEndings, shown d = true := by decide
  exact marks c ending

theorem shown_of_space (c : ℕ) (space : isSpaceCode c = true) : shown c = false := by
  rw [shown, space]
  rfl

theorem not_ending_of_not_shown (hidden : shown c = false) : isIn c questionEndings = false := by
  by_contra ending
  rw [Bool.not_eq_false] at ending
  rw [shown_of_ending ending] at hidden
  cases hidden

theorem isBoundary_false_iff :
    isBoundary c = false ↔ isIn c separators = false ∧ isIn c questionEndings = false :=
  Bool.or_eq_false_iff

theorem Content.exists_shown (content : Content part) : ∃ c ∈ part, shown c = true := by
  obtain ⟨c, member, visible, -⟩ | ⟨c, ending, rfl⟩ := content
  · exact ⟨c, member, visible⟩
  · exact ⟨c, List.mem_singleton_self c, shown_of_ending ending⟩

theorem Content.ne_nil (content : Content part) : part ≠ [] := by
  obtain ⟨c, member, -⟩ := content.exists_shown
  exact List.ne_nil_of_mem member

/-- Without a bare question mark a part has more than question marks. -/
theorem Content.of_not_bare (content : Content part)
    (covered : ∀ c, isIn c questionEndings = true → part ≠ [c]) :
    ∃ c ∈ part, shown c = true ∧ isIn c questionEndings = false := by
  obtain more | ⟨c, ending, alone⟩ := content
  · exact more
  · exact absurd alone (covered c ending)

theorem mem_strip_of_shown (member : c ∈ text) (visible : shown c = true) : c ∈ text.strip := by
  have kept : c ∈ text.filter shown := List.mem_filter.mpr ⟨member, visible⟩
  rw [← Str.filter_strip shown_of_space] at kept
  exact (List.mem_filter.mp kept).1

/-- What stands between two boundaries is white space or has a character of its own. -/
theorem exists_own (unbroken : ∀ c ∈ text, isBoundary c = false) (visible : text.strip ≠ []) :
    ∃ c ∈ text, shown c = true ∧ isIn c questionEndings = false := by
  obtain ⟨c, member, space⟩ : ∃ c ∈ text, isSpaceCode c = false := by
    by_contra none
    refine visible (Str.strip_eq_nil_iff.mpr fun c member => ?_)
    by_contra space
    exact none ⟨c, member, (Bool.not_eq_true _).mp space⟩
  obtain ⟨separator, ending⟩ := isBoundary_false_iff.mp (unbroken c member)
  exact ⟨c, member, shown_iff.mpr ⟨space, separator⟩, ending⟩

/-- Such a text is no question mark when it is stripped. -/
theorem strip_ne_mark {d : ℕ} (own : ∃ c ∈ text, shown c = true ∧ isIn c questionEndings = false)
    (ending : isIn d questionEndings = true) : text.strip ≠ [d] := by
  intro alone
  obtain ⟨c, member, visible, other⟩ := own
  have kept := mem_strip_of_shown member visible
  rw [alone, List.mem_singleton] at kept
  rw [kept, ending] at other
  cases other

/-- A question mark behind white space is a part of its own. -/
theorem strip_bare {gap : Str} (blank : gap.strip = []) (ending : isIn c questionEndings = true) :
    (gap ++ [c]).strip = [c] := by
  have space := (shown_iff.mp (shown_of_ending ending)).1
  have mark : ∀ d ∈ some c, isSpaceCode d = false := by
    rintro d ⟨⟩
    exact space
  rw [Str.strip_spaces_append (Str.strip_eq_nil_iff.mp blank)]
  exact Str.strip_eq_self mark mark

theorem flatten_appendPart :
    (appendPart parts value false).flatten.filter shown = (parts.flatten ++ value).filter shown := by
  have kept := Str.filter_strip shown_of_space value
  rw [appendPart, List.filter_append]
  by_cases blank : value.strip = []
  · rw [if_neg (by simp [blank]), ← kept, blank, List.filter_nil, List.append_nil]
  · rw [if_pos (.inl blank), List.flatten_append, List.flatten_singleton, List.filter_append, kept]

theorem mem_appendPart : part ∈ appendPart parts value false ↔
    part ∈ parts ∨ value.strip ≠ [] ∧ part = value.strip := by
  rw [appendPart]
  by_cases visible : value.strip = []
  · rw [if_neg (by simp [visible])]
    simp [visible]
  · rw [if_pos (.inl visible), List.mem_append, List.mem_singleton]
    simp [visible]

theorem forall_mem_appendPart {P : Str → Prop} (earlier : ∀ part ∈ parts, P part)
    (last : value.strip ≠ [] → P value.strip) : ∀ part ∈ appendPart parts value false, P part := by
  intro part member
  obtain listed | ⟨visible, rfl⟩ := mem_appendPart.mp member
  · exact earlier part listed
  · exact last visible

theorem mark_mem_appendPart : (∃ c, isIn c questionEndings = true ∧
      [c] ∈ appendPart parts value false) ↔
    (∃ c, isIn c questionEndings = true ∧ [c] ∈ parts) ∨
      ∃ c, isIn c questionEndings = true ∧ value.strip = [c] := by
  rw [← exists_or]
  refine exists_congr fun c => ?_
  rw [mem_appendPart, ← and_or_left]
  refine and_congr_right fun _ => or_congr_right ⟨fun last => last.2.symm, fun alone => ?_⟩
  exact ⟨alone ▸ List.cons_ne_nil c [], alone.symm⟩

end Characters

section Loop

variable {c : ℕ} {text current : Str} {parts : List Str} {state : List Str × Str}

theorem not_bare_nil : ¬ Bare [] := by
  rintro ⟨start, gap, c, after, empty, -⟩
  simp at empty

/-- A last character is bare with nothing but white space behind the last boundary. -/
theorem bare_concat_iff {start : Str} (suffix : text = start ++ current)
    (ended : ∀ d ∈ start.getLast?, isBoundary d = true)
    (unbroken : ∀ d ∈ current, isBoundary d = false) :
    Bare (text ++ [c]) ↔ Bare text ∨ isIn c questionEndings = true ∧ current.strip = [] := by
  constructor
  · rintro ⟨front, gap, mark, after, split, ending, space, closed⟩
    rcases List.eq_nil_or_concat after with rfl | ⟨after, last, rfl⟩
    · rw [← List.append_assoc] at split
      obtain ⟨whole, same⟩ := List.append_inj' split rfl
      obtain rfl := List.singleton_inj.mp same
      refine .inr ⟨ending, Str.strip_eq_nil_iff.mpr ?_⟩
      rw [suffix, List.append_eq_append_iff] at whole
      obtain ⟨more, front_eq, current_eq⟩ | ⟨more, -, rfl⟩ := whole
      · rcases List.eq_nil_or_concat more with rfl | ⟨more, last, rfl⟩
        · rwa [current_eq]
        · -- the boundary would stand in the current part
          have boundary := closed last (by rw [front_eq]; simp)
          rw [unbroken last (by rw [current_eq]; simp)] at boundary
          cases boundary
      · exact fun d member => space d (List.mem_append_right more member)
    · rw [List.concat_eq_append, ← List.cons_append, ← List.append_assoc, ← List.append_assoc] at split
      obtain ⟨whole, -⟩ := List.append_inj' split rfl
      exact .inl ⟨front, gap, mark, after, whole.trans (List.append_assoc _ _ _), ending, space, closed⟩
  · rintro (⟨front, gap, mark, after, rfl, rest⟩ | ⟨ending, blank⟩)
    · exact ⟨front, gap, mark, after ++ [c], by simp, rest⟩
    · refine ⟨start, current, c, [], ?_, ending, Str.strip_eq_nil_iff.mp blank, ended⟩
      rw [suffix, List.append_assoc]

theorem not_ending_of_separator (separator : isIn c separators = true) :
    isIn c questionEndings = false := by
  rw [isIn_iff] at separator
  have marks : ∀ d ∈ separators, isIn d questionEndings = false := by decide
  exact marks c separator

/-- What a turn of the loop does -/
theorem Reading.step (reading : Reading text state) :
    Reading (text ++ [c]) (splitChar state c) := by
  obtain ⟨parts, current⟩ := state
  obtain ⟨⟨start, suffix, ended⟩, unbroken, lossless, trimmed, content, bare⟩ := reading
  have concat := bare_concat_iff (c := c) suffix ended unbroken
  have last (boundary : isBoundary c = true) : ∃ start, text ++ [c] = start ++ [] ∧
      ∀ d ∈ start.getLast?, isBoundary d = true := by
    refine ⟨text ++ [c], (List.append_nil _).symm, ?_⟩
    simp [boundary]
  cases separator : isIn c separators with
  | true =>
    have other := not_ending_of_separator separator
    have hidden : shown c = false := by rw [shown, separator, Bool.not_true, Bool.and_false]
    rw [splitChar, if_pos separator]
    refine ⟨last (by rw [isBoundary, separator]; rfl), List.forall_mem_nil _, ?_, ?_, ?_, ?_⟩
    · rw [List.append_nil, flatten_appendPart, lossless, List.filter_append,
        List.filter_cons_of_neg (by rw [hidden]; exact Bool.false_ne_true), List.filter_nil,
        List.append_nil]
    · exact forall_mem_appendPart trimmed fun _ => Str.strip_strip current
    · refine forall_mem_appendPart content fun visible => ?_
      obtain ⟨d, inside, seen, own⟩ := exists_own unbroken visible
      exact .inl ⟨d, mem_strip_of_shown inside seen, seen, own⟩
    · rw [mark_mem_appendPart, concat, other, bare]
      refine or_congr_right ⟨?_, fun ending => absurd ending.1 Bool.false_ne_true⟩
      rintro ⟨d, ending, alone⟩
      have visible : current.strip ≠ [] := alone ▸ List.cons_ne_nil d []
      exact absurd alone (strip_ne_mark (exists_own unbroken visible) ending)
  | false =>
    cases ending : isIn c questionEndings with
    | true =>
      have seen := shown_of_ending ending
      rw [splitChar, if_neg (by rw [separator]; exact Bool.false_ne_true), if_pos ending]
      refine ⟨last (by rw [isBoundary, ending, Bool.or_true]), List.forall_mem_nil _, ?_, ?_, ?_, ?_⟩
      · rw [List.append_nil, flatten_appendPart, ← List.append_assoc, List.filter_append, lossless,
          List.filter_append]
      · exact forall_mem_appendPart trimmed fun _ => Str.strip_strip (current ++ [c])
      · refine forall_mem_appendPart content fun _ => ?_
        by_cases blank : current.strip = []
        · exact .inr ⟨c, ending, strip_bare blank ending⟩
        · obtain ⟨d, inside, visible, own⟩ := exists_own unbroken blank
          exact .inl ⟨d, mem_strip_of_shown (List.mem_append_left [c] inside) visible, visible, own⟩
      · rw [mark_mem_appendPart, concat, bare, ending]
        refine or_congr_right ⟨?_, fun blank => ⟨c, ending, strip_bare blank.2 ending⟩⟩
        rintro ⟨d, mark, alone⟩
        refine ⟨rfl, ?_⟩
        by_contra blank
        obtain ⟨own, inside, rest⟩ := exists_own unbroken blank
        exact strip_ne_mark ⟨own, List.mem_append_left [c] inside, rest⟩ mark alone
    | false =>
      rw [splitChar, if_neg (by rw [separator]; exact Bool.false_ne_true),
        if_neg (by rw [ending]; exact Bool.false_ne_true)]
      refine ⟨⟨start, ?_, ended⟩, ?_, ?_, trimmed, content, ?_⟩
      · rw [suffix, List.append_assoc]
      · rintro d member
        obtain earlier | new := List.mem_append.mp member
        · exact unbroken d earlier
        · rw [List.mem_singleton.mp new]
          exact isBoundary_false_iff.mpr ⟨separator, ending⟩
      · rw [← List.append_assoc, List.filter_append, lossless, List.filter_append]
      · rw [concat, bare, ending]
        exact (or_iff_left fun mark => Bool.false_ne_true mark.1).symm

theorem reading_nil : Reading [] ([], []) where
  suffix := ⟨[], rfl, fun _ member => absurd member (Option.not_mem_none _)⟩
  unbroken := List.forall_mem_nil _
  lossless := rfl
  trimmed := List.forall_mem_nil _
  content := List.forall_mem_nil _
  bare := by
    refine iff_of_false ?_ not_bare_nil
    rintro ⟨c, -, member⟩
    exact List.not_mem_nil member

/-- What the loop has read when it ends -/
theorem reading (text : Str) : Reading text (text.foldl splitChar ([], [])) := by
  induction text using List.reverseRecOn with
  | nil => exact reading_nil
  | append_singleton text c ih =>
    rw [List.foldl_concat]
    exact ih.step

end Loop

section Question

variable {question : Str}

/-- The parts that the loop leaves, with the last one -/
def loopParts (question : Str) : List Str :=
  let state := question.strip.foldl splitChar ([], [])
  appendPart state.1 state.2 false

theorem splitQuery_eq (visible : question.strip ≠ []) : splitQuery question =
    if 1 < (loopParts question).length then loopParts question else [question.strip] := by
  rw [splitQuery, if_neg visible]
  rfl

theorem loopParts_reading (question : Str) :
    (∀ part ∈ loopParts question, part.strip = part ∧ Content part) ∧
    (loopParts question).flatten.filter shown = question.strip.filter shown ∧
    ((∃ c, isIn c questionEndings = true ∧ [c] ∈ loopParts question) ↔ Bare question.strip) := by
  have whole := reading question.strip
  refine ⟨?_, ?_, ?_⟩
  · have parts (part : Str) (member : part ∈ (question.strip.foldl splitChar ([], [])).1) :=
      And.intro (whole.trimmed part member) (whole.content part member)
    refine forall_mem_appendPart parts fun visible => ⟨Str.strip_strip _, ?_⟩
    obtain ⟨d, inside, seen, own⟩ := exists_own whole.unbroken visible
    exact .inl ⟨d, mem_strip_of_shown inside seen, seen, own⟩
  · rw [loopParts, flatten_appendPart, whole.lossless]
  · rw [loopParts, mark_mem_appendPart, whole.bare]
    refine or_iff_left ?_
    rintro ⟨c, ending, alone⟩
    have visible := alone ▸ List.cons_ne_nil c []
    exact strip_ne_mark (exists_own whole.unbroken visible) ending alone

/-- There are only question marks, or none of them is bare, or one of them is all that is shown and a
separator stands beside it. -/
def Divisible (question : Str) : Prop :=
  (∀ c ∈ question, isIn c questionEndings = true) ∨ ¬ Bare question.strip ∨
    (question.filter shown).length = 1 ∧ question.strip.length ≠ 1

/-- As many characters are shown as there are parts, or more. -/
theorem length_le_shown {parts : List Str} (content : ∀ part ∈ parts, Content part) :
    parts.length ≤ (parts.flatten.filter shown).length := by
  induction parts with
  | nil => exact Nat.zero_le _
  | cons part parts ih =>
    obtain ⟨first, rest⟩ := List.forall_mem_cons.mp content
    obtain ⟨c, member, visible⟩ := first.exists_shown
    have some := List.length_pos_of_mem (List.mem_filter.mpr ⟨member, visible⟩)
    have later := ih rest
    rw [List.flatten_cons, List.filter_append, List.length_append, List.length_cons]
    omega

theorem filter_shown_strip (question : Str) : question.strip.filter shown = question.filter shown :=
  Str.filter_strip shown_of_space question

/-- Of the parts of a question those are question marks that stand bare in it. -/
theorem content_many (many : 1 < (loopParts question).length) :
    (∀ part ∈ loopParts question, (∃ c ∈ part, isIn c questionEndings = false) ∨
      ∀ c ∈ question, isIn c questionEndings = true) ↔ Divisible question := by
  obtain ⟨parts, lossless, bare⟩ := loopParts_reading question
  constructor
  · intro content
    by_cases only : ∀ c ∈ question, isIn c questionEndings = true
    · exact .inl only
    · refine .inr (.inl fun stands => ?_)
      obtain ⟨mark, ending, listed⟩ := bare.mpr stands
      obtain ⟨c, member, other⟩ := (content [mark] listed).resolve_right only
      rw [List.mem_singleton.mp member, ending] at other
      cases other
  · rintro (only | covered | ⟨one, -⟩) part member
    · exact .inr only
    · obtain ⟨c, inside, -, other⟩ := (parts part member).2.of_not_bare fun c ending alone =>
        covered (bare.mp ⟨c, ending, alone ▸ member⟩)
      exact .inl ⟨c, inside, other⟩
    · have enough := length_le_shown fun part member => (parts part member).2
      rw [lossless, filter_shown_strip] at enough
      omega

/-- A question that stays whole is one question mark or has another character. -/
theorem content_single (visible : question.strip ≠ []) (few : (loopParts question).length ≤ 1) :
    ((∃ c ∈ question.strip, isIn c questionEndings = false) ∨
      ∀ c ∈ question, isIn c questionEndings = true) ↔ Divisible question := by
  obtain ⟨parts, lossless, bare⟩ := loopParts_reading question
  constructor
  · rintro (⟨c, member, other⟩ | only)
    · by_cases stands : Bare question.strip
      · -- the mark is the only part, and the other character is not shown
        obtain ⟨mark, ending, listed⟩ := bare.mpr stands
        have alone : loopParts question = [[mark]] := by
          obtain ⟨part, single⟩ := List.length_eq_one_iff.mp
            (Nat.le_antisymm few (List.length_pos_of_mem listed))
          rw [single, List.mem_singleton] at listed
          rw [single, listed]
        rw [alone, List.flatten_singleton, List.filter_singleton, shown_of_ending ending, cond_true]
          at lossless
        refine .inr (.inr ⟨by rw [← filter_shown_strip, ← lossless, List.length_singleton], ?_⟩)
        intro one
        obtain ⟨d, single⟩ := List.length_eq_one_iff.mp one
        rw [single, List.mem_singleton] at member
        have inside : mark ∈ question.strip.filter shown := by
          rw [← lossless]
          exact List.mem_singleton_self mark
        have same := (List.mem_filter.mp inside).1
        rw [single, List.mem_singleton] at same
        rw [member, ← same, ending] at other
        cases other
      · exact .inr (.inl stands)
    · exact .inl only
  · rintro (only | covered | ⟨one, longer⟩)
    · exact .inr only
    · left
      cases single : loopParts question with
      | nil =>
        rw [single, List.flatten_nil, List.filter_nil, eq_comm, List.filter_eq_nil_iff] at lossless
        obtain ⟨c, member⟩ := List.exists_mem_of_ne_nil _ visible
        exact ⟨c, member, not_ending_of_not_shown ((Bool.not_eq_true _).mp (lossless c member))⟩
      | cons part rest =>
        have listed : part ∈ loopParts question := single ▸ List.mem_cons_self
        obtain ⟨c, inside, seen, other⟩ := (parts part listed).2.of_not_bare fun c ending alone =>
          covered (bare.mp ⟨c, ending, alone ▸ listed⟩)
        have kept : c ∈ (loopParts question).flatten.filter shown :=
          List.mem_filter.mpr ⟨List.mem_flatten.mpr ⟨part, listed, inside⟩, seen⟩
        rw [lossless] at kept
        exact ⟨c, (List.mem_filter.mp kept).1, other⟩
    · left
      by_contra none
      refine longer ?_
      rw [← one, ← filter_shown_strip, List.filter_eq_self.mpr]
      intro c member
      by_contra hidden
      exact none ⟨c, member, not_ending_of_not_shown ((Bool.not_eq_true _).mp hidden)⟩

/-- The split of a question is trimmed and lossless, and it is meaningful unless a question mark
becomes a part of its own. -/
theorem meaningful_splitQuery_iff (visible : question.strip ≠ []) :
    Meaningful question (splitQuery question) ↔ Divisible question := by
  obtain ⟨parts, lossless, -⟩ := loopParts_reading question
  rw [splitQuery_eq visible]
  by_cases many : 1 < (loopParts question).length
  · rw [if_pos many, ← content_many many]
    refine ⟨Meaningful.content, fun content => ⟨?_, ?_, ?_, ?_, content⟩⟩
    · exact List.ne_nil_of_length_pos (Nat.zero_lt_of_lt many)
    · exact fun part member => (parts part member).2.ne_nil
    · exact fun part member => (parts part member).1
    · rw [lossless, filter_shown_strip]
  · rw [if_neg many, ← content_single visible (Nat.le_of_not_lt many)]
    refine ⟨fun whole => whole.content _ (List.mem_singleton_self _), fun content => ?_⟩
    refine ⟨List.cons_ne_nil _ _, ?_, ?_, ?_, ?_⟩
    · exact List.forall_mem_singleton.mpr visible
    · exact List.forall_mem_singleton.mpr (Str.strip_strip question)
    · rw [List.flatten_singleton, filter_shown_strip]
    · exact List.forall_mem_singleton.mpr content

end Question

section Questions

/-- A question with two question marks at its end -/
def urgentQuestion : Str := .lit "How long is the warranty??"

def twoQuestions : Str := .lit "How long is the warranty? And the battery?"

theorem twoQuestions_divisible : ¬ Bare twoQuestions.strip := by
  obtain ⟨-, -, bare⟩ := loopParts_reading twoQuestions
  rw [← bare]
  rintro ⟨c, ending, member⟩
  have long : ∀ part ∈ loopParts twoQuestions, part.length ≠ 1 := by decide +kernel
  exact long [c] member rfl

theorem meaningful_twoQuestions : Meaningful twoQuestions (splitQuery twoQuestions) :=
  (meaningful_splitQuery_iff (by decide)).mpr (.inr (.inl twoQuestions_divisible))

/-- The second question mark becomes a question. -/
theorem urgentQuestion_not_meaningful : ¬ ∀ question : Str, question.strip ≠ [] →
    Meaningful question (splitQuery question) := by
  intro all
  have whole := all urgentQuestion (by decide)
  have listed : isIn [63] (splitQuery urgentQuestion) = true := by decide +kernel
  obtain ⟨c, member, other⟩ | only := whole.content [63] (isIn_iff.mp listed)
  · rw [List.mem_singleton.mp member] at other
    cases other
  · have first := only 72 (by decide)
    cases first

end Questions

end HeyeeAgent.Rag
