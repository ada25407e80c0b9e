import HeyeeAgent.Python.JsonSpacing
import HeyeeAgent.Python.StrMethods

/-! # The lines of a JSON text

A text cut at its line ends and joined again by line feeds, each line without the white space at its
beginning. A line end in a JSON text stands between its parts, so `json.loads` gives the same for the
joined text.
-/

namespace Python.JsonDecoder

open Python

variable {phase final : Phase} {text : Str} {c : ℕ}

/-- A text cut at its line ends: carriage return and line feed, or one of them alone. -/
def textLines : Str → List Str
  | [] => [[]]
  | 13 :: 10 :: rest => [] :: textLines rest
  | c :: rest =>
    if c = 10 ∨ c = 13 then [] :: textLines rest else (textLines rest).modifyHead (c :: ·)

theorem textLines_ne_nil (text : Str) : textLines text ≠ [] := by
  induction text using textLines.induct with
  | case1 => exact List.cons_ne_nil _ _
  | case2 rest ih => exact List.cons_ne_nil _ _
  | case3 c rest other newline ih =>
    rw [textLines.eq_3 c rest other, if_pos newline]
    exact List.cons_ne_nil _ _
  | case4 c rest other plain ih =>
    rw [textLines.eq_3 c rest other, if_neg plain]
    exact mt List.modifyHead_eq_nil_iff.mp ih

theorem textLines_plain (plain : ¬ (c = 10 ∨ c = 13)) (text : Str) :
    textLines (c :: text) = (textLines text).modifyHead (c :: ·) := by
  rw [textLines.eq_3 c text, if_neg plain]
  rintro rest rfl -
  exact plain (.inr rfl)

/-- A control character stands outside of strings. -/
theorem strictStep_control {next : Phase} (control : c < 32) (read : strictStep phase c = some next) :
    phase = .outside ∧ next = .outside := by
  unfold strictStep at read
  split_ifs at read with inside
  · have outside : phase = .outside := by
      by_contra other
      exact inside ⟨other, control⟩
    subst outside
    have other : c ≠ quote := by
      change c ≠ 34
      omega
    simp only [lexStep, if_neg other] at read
    split_ifs at read
    exact ⟨rfl, (Option.some.inj read).symm⟩

theorem strictLex_cons_some {next : Phase} : strictLex phase (c :: text) = some next ↔
    ∃ middle, strictStep phase c = some middle ∧ strictLex middle text = some next := by
  rw [strictLex_cons, Option.bind_eq_some_iff]

/-- Every line leads from outside of strings to outside of them, after the first. -/
theorem strictLex_textLines (lexed : strictLex phase text = some .outside) :
    ∃ first others, textLines text = first :: others ∧ strictLex phase first = some .outside ∧
      ∀ line ∈ others, strictLex .outside line = some .outside := by
  induction text using textLines.induct generalizing phase with
  | case1 => exact ⟨[], [], rfl, lexed, by simp⟩
  | case2 rest ih =>
    obtain ⟨middle, read, later⟩ := strictLex_cons_some.mp lexed
    obtain ⟨rfl, rfl⟩ := strictStep_control (by decide) read
    obtain ⟨middle, read, later⟩ := strictLex_cons_some.mp later
    obtain ⟨-, rfl⟩ := strictStep_control (by decide) read
    obtain ⟨first, others, split, head, tail⟩ := ih later
    refine ⟨[], textLines rest, rfl, rfl, ?_⟩
    rw [split]
    exact List.forall_mem_cons.mpr ⟨head, tail⟩
  | case3 c rest other newline ih =>
    obtain ⟨middle, read, later⟩ := strictLex_cons_some.mp lexed
    obtain ⟨rfl, rfl⟩ := strictStep_control (by omega) read
    obtain ⟨first, others, split, head, tail⟩ := ih later
    refine ⟨[], textLines rest, ?_, rfl, ?_⟩
    · rw [textLines.eq_3 c rest other, if_pos newline]
    · rw [split]
      exact List.forall_mem_cons.mpr ⟨head, tail⟩
  | case4 c rest other plain ih =>
    obtain ⟨middle, read, later⟩ := strictLex_cons_some.mp lexed
    obtain ⟨first, others, split, head, tail⟩ := ih later
    refine ⟨c :: first, others, ?_, strictLex_cons_some.mpr ⟨middle, read, head⟩, tail⟩
    rw [textLines_plain plain, split]
    rfl

/-- White space that is read outside of strings is made of the blanks of JSON. -/
theorem isBlank_of_isSpaceCode (outside : isOutside c = true) (space : isSpaceCode c = true) :
    isBlank c = true := by
  unfold isOutside at outside
  simp only [Bool.or_eq_true] at outside
  rcases outside with (blank | digit) | mark
  · exact blank
  · unfold isSpaceCode at space
    simp only [isDigit, Bool.and_eq_true, decide_eq_true_eq] at digit
    simp only [Bool.or_eq_true, Bool.and_eq_true, decide_eq_true_eq, beq_iff_eq] at space
    omega
  · have marks : ∀ d ∈ Str.lit "{}[],:+-.eEnultrfasNIiy", isSpaceCode d = false := by decide
    rw [marks c (by simpa using mark)] at space
    cases space

theorem strictLex_space {spaces : Str} (space : ∀ c ∈ spaces, isSpaceCode c = true)
    (lexed : strictLex .outside (spaces ++ text) = some final) :
    (∀ c ∈ spaces, isBlank c = true) ∧ strictLex .outside text = some final := by
  induction spaces with
  | nil => exact ⟨by simp, lexed⟩
  | cons c spaces ih =>
    obtain ⟨first, later⟩ := List.forall_mem_cons.mp space
    obtain ⟨middle, read, lexed⟩ := strictLex_cons_some.mp lexed
    have other : c ≠ quote := by
      rintro rfl
      exact absurd first (by decide)
    have outside : isOutside c = true := by
      by_contra inside
      simp [strictStep, lexStep, other, inside] at read
    rw [strictStep_outside outside] at read
    cases read
    obtain ⟨blank, rest⟩ := ih later lexed
    exact ⟨List.forall_mem_cons.mpr ⟨isBlank_of_isSpaceCode outside first, blank⟩, rest⟩

/-- A beginning of the first line is a beginning of the text. -/
theorem textLines_prefix {start first : Str} {others : List Str}
    (split : textLines text = (start ++ first) :: others) :
    ∃ rest, text = start ++ rest ∧ textLines rest = first :: others := by
  induction start generalizing text with
  | nil => exact ⟨text, rfl, split⟩
  | cons d start ih =>
    rcases text with _ | ⟨c, text⟩
    · cases (List.cons.inj split).1
    · by_cases newline : c = 10 ∨ c = 13
      · have ended : ∃ lines, textLines (c :: text) = [] :: lines := by
          unfold textLines
          split
          · next empty => cases empty
          · exact ⟨_, rfl⟩
          · next same =>
            cases same
            exact ⟨_, if_pos newline⟩
        obtain ⟨lines, ended⟩ := ended
        rw [ended] at split
        cases (List.cons.inj split).1
      · rw [textLines_plain newline] at split
        obtain ⟨head, lines, inner⟩ := List.exists_cons_of_ne_nil (textLines_ne_nil text)
        rw [inner, List.modifyHead_cons, List.cons_append] at split
        obtain ⟨same, rfl⟩ := List.cons.inj split
        obtain ⟨rfl, rfl⟩ := List.cons.inj same
        obtain ⟨rest, rfl, rest_split⟩ := ih inner
        exact ⟨rest, rfl, rest_split⟩

/-- The white space at the beginning of the first line stands at the beginning of the text. -/
theorem textLines_lstrip {first : Str} {others : List Str}
    (split : textLines text = first :: others) :
    ∃ spaces rest, text = spaces ++ rest ∧ (∀ c ∈ spaces, isSpaceCode c = true) ∧
      textLines rest = Str.lstrip first :: others := by
  have parts : first.takeWhile isSpaceCode ++ Str.lstrip first = first :=
    List.takeWhile_append_dropWhile
  rw [← parts] at split
  obtain ⟨rest, whole, rest_split⟩ := textLines_prefix split
  exact ⟨_, rest, whole, fun c member => List.mem_takeWhile_imp member, rest_split⟩

def newline : Str := Str.lit "\n"

theorem join_cons {line : Str} {lines : List Str} (more : lines ≠ []) :
    Str.join newline (line :: lines) = line ++ (newline ++ Str.join newline lines) := by
  rw [Str.join, List.intercalate_cons_of_ne_nil more, List.append_assoc]
  rfl

/-- The text with its lines joined has other blanks only. -/
theorem respaced_lines {first : Str} {others : List Str}
    (split : textLines text = first :: others) (lexed : strictLex phase text = some final) :
    Respaced phase text (Str.join newline (first :: others.map Str.lstrip)) := by
  induction size : text.length using Nat.strongRecOn generalizing phase text first others with
  | ind n ih =>
    -- after a line end, with the white space that follows it
    have line_end {run rest : Str} (some_blank : run ≠ []) (blank : ∀ c ∈ run, isBlank c = true)
        (shorter : rest.length < n) (lexed : strictLex .outside rest = some final) :
        Respaced .outside (run ++ rest) (Str.join newline ([] :: (textLines rest).map Str.lstrip)) := by
      obtain ⟨head, lines, inner⟩ := List.exists_cons_of_ne_nil (textLines_ne_nil rest)
      obtain ⟨spaces, rest', rfl, space, stripped⟩ := textLines_lstrip inner
      obtain ⟨blanks, lexed'⟩ := strictLex_space space lexed
      rw [List.length_append] at shorter
      have spaced := ih rest'.length (by omega) stripped lexed' rfl
      rw [inner, List.map_cons, join_cons (List.cons_ne_nil _ _), List.nil_append, ← List.append_assoc]
      refine .blanks ?_ (by decide) (by simp [some_blank]) (List.cons_ne_nil _ _) spaced
      intro c member
      exact (List.mem_append.mp member).elim (blank c) (blanks c)
    rcases text with _ | ⟨c, text⟩
    · cases split
      exact .nil phase
    · rw [List.length_cons] at size
      obtain ⟨middle, read, later⟩ := strictLex_cons_some.mp lexed
      by_cases ends : c = 10 ∨ c = 13
      · obtain ⟨rfl, rfl⟩ := strictStep_control (by omega) read
        by_cases both : c = 13 ∧ ∃ rest, text = 10 :: rest
        · obtain ⟨rfl, rest, rfl⟩ := both
          obtain ⟨middle, read, later⟩ := strictLex_cons_some.mp later
          obtain ⟨-, rfl⟩ := strictStep_control (by decide) read
          rw [List.length_cons] at size
          cases split
          have two : ([13, 10] : Str) ≠ [] := List.cons_ne_nil _ _
          exact line_end two (by decide) (by omega) later
        · rw [textLines.eq_3 c text fun rest carriage feed => both ⟨carriage, rest, feed⟩,
            if_pos ends] at split
          cases split
          have one : [c] ≠ [] := List.cons_ne_nil _ _
          refine line_end one ?_ (by omega) later
          intro d member
          rw [List.mem_singleton.mp member]
          rcases ends with rfl | rfl <;> rfl
      · obtain ⟨head, lines, inner⟩ := List.exists_cons_of_ne_nil (textLines_ne_nil text)
        rw [textLines_plain ends, inner, List.modifyHead_cons] at split
        obtain ⟨rfl, rfl⟩ := List.cons.inj split
        have spaced := ih text.length (by omega) inner later rfl
        rw [Str.join, List.intercalate_cons_cons_left]
        by_cases solid : phase = .outside → isBlank c = false
        · exact .char read solid spaced
        · obtain ⟨rfl, blank⟩ := Classical.not_imp.mp solid
          rw [Bool.not_eq_false] at blank
          rw [strictStep_outside (isOutside_of_isBlank blank)] at read
          cases read
          have one : [c] ≠ [] := List.cons_ne_nil _ _
          have single : ∀ d ∈ [c], isBlank d = true := fun d member =>
            List.mem_singleton.mp member ▸ blank
          exact .blanks single single one one spaced

/-- No byte order mark stands at the beginning. -/
theorem Respaced.Heads.no_mark {text' : Str} (begins : Respaced.Heads text text') :
    text'.head? ≠ some 0xfeff := by
  intro mark
  cases begins with
  | nil => cases mark
  | char read =>
    cases mark
    cases read
  | blanks _ blank =>
    cases mark
    cases blank

/-- The lines of a JSON text, without the white space at their beginnings, joined again. -/
def rejoined (text : Str) : Str := Str.join newline ((textLines text).map Str.lstrip)

theorem loads_rejoined {v : Value} (loaded : loads text = some v) :
    loads (rejoined text) = some v := by
  have lexed := strictLex_of_loads loaded
  obtain ⟨head, lines, split⟩ := List.exists_cons_of_ne_nil (textLines_ne_nil text)
  obtain ⟨spaces, rest, rfl, space, stripped⟩ := textLines_lstrip split
  obtain ⟨blanks, lexed'⟩ := strictLex_space space lexed
  have spaced := respaced_lines stripped lexed'
  refine Respaced.loads_skip ?_ ?_ loaded
  · rw [Respaced.skipBlanks_append blanks, rejoined, split]
    exact spaced.skip
  · rw [rejoined, split, List.map_cons]
    exact spaced.heads.no_mark

/-- A line holds the characters of the text, and no line end. -/
theorem mem_textLines {line : Str} (listed : line ∈ textLines text) (member : c ∈ line) :
    c ∈ text ∧ c ≠ 10 ∧ c ≠ 13 := by
  induction text using textLines.induct generalizing line with
  | case1 =>
    rw [List.mem_singleton.mp listed] at member
    cases member
  | case2 rest ih =>
    rcases List.mem_cons.mp listed with rfl | listed
    · cases member
    · obtain ⟨inside, unended⟩ := ih listed member
      exact ⟨List.mem_cons_of_mem _ (List.mem_cons_of_mem _ inside), unended⟩
  | case3 d rest other newline ih =>
    rw [textLines.eq_3 d rest other, if_pos newline] at listed
    rcases List.mem_cons.mp listed with rfl | listed
    · cases member
    · obtain ⟨inside, unended⟩ := ih listed member
      exact ⟨List.mem_cons_of_mem _ inside, unended⟩
  | case4 d rest other plain ih =>
    obtain ⟨head, lines, inner⟩ := List.exists_cons_of_ne_nil (textLines_ne_nil rest)
    rw [textLines_plain plain, inner, List.modifyHead_cons] at listed
    rw [inner] at ih
    rcases List.mem_cons.mp listed with rfl | listed
    · rcases List.mem_cons.mp member with rfl | member
      · exact ⟨List.mem_cons_self, by omega, by omega⟩
      · obtain ⟨inside, unended⟩ := ih List.mem_cons_self member
        exact ⟨List.mem_cons_of_mem _ inside, unended⟩
    · obtain ⟨inside, unended⟩ := ih (List.mem_cons_of_mem _ listed) member
      exact ⟨List.mem_cons_of_mem _ inside, unended⟩

/-- A character that ends no line stands in a line. -/
theorem exists_textLine (member : c ∈ text) (unended : c ≠ 10 ∧ c ≠ 13) :
    ∃ line ∈ textLines text, c ∈ line := by
  induction text using textLines.induct with
  | case1 => cases member
  | case2 rest ih =>
    obtain ⟨line, listed, inside⟩ : ∃ line ∈ textLines rest, c ∈ line := by
      refine ih ?_
      rcases List.mem_cons.mp member with rfl | member
      · exact absurd rfl unended.2
      · rcases List.mem_cons.mp member with rfl | member
        · exact absurd rfl unended.1
        · exact member
    exact ⟨line, List.mem_cons_of_mem _ listed, inside⟩
  | case3 d rest other newline ih =>
    rw [textLines.eq_3 d rest other, if_pos newline]
    rcases List.mem_cons.mp member with rfl | member
    · omega
    · obtain ⟨line, listed, inside⟩ := ih member
      exact ⟨line, List.mem_cons_of_mem _ listed, inside⟩
  | case4 d rest other plain ih =>
    obtain ⟨head, lines, inner⟩ := List.exists_cons_of_ne_nil (textLines_ne_nil rest)
    rw [textLines_plain plain, inner, List.modifyHead_cons]
    rw [inner] at ih
    rcases List.mem_cons.mp member with rfl | member
    · exact ⟨c :: head, List.mem_cons_self, List.mem_cons_self⟩
    · obtain ⟨line, listed, inside⟩ := ih member
      rcases List.mem_cons.mp listed with rfl | listed
      · exact ⟨d :: line, List.mem_cons_self, List.mem_cons_of_mem _ inside⟩
      · exact ⟨line, List.mem_cons_of_mem _ listed, inside⟩

/-- Every line of a text that is accepted leads from outside of strings to outside of them. -/
theorem strictLex_line {v : Value} (loaded : loads text = some v) {line : Str}
    (listed : line ∈ textLines text) : strictLex .outside line = some .outside := by
  obtain ⟨first, others, split, head, tail⟩ := strictLex_textLines (strictLex_of_loads loaded)
  rw [split] at listed
  rcases List.mem_cons.mp listed with rfl | listed
  · exact head
  · exact tail line listed

/-- Line feeds join only texts that lead from outside of strings to outside of them. -/
theorem strictLex_join {line : Str} {lines : List Str}
    (lexed : strictLex phase (Str.join newline (line :: lines)) = some .outside) :
    strictLex phase line = some .outside ∧
      ∀ other ∈ lines, strictLex .outside other = some .outside := by
  induction lines generalizing phase line with
  | nil =>
    rw [Str.join, List.intercalate_singleton] at lexed
    exact ⟨lexed, by simp⟩
  | cons next lines ih =>
    rw [join_cons (List.cons_ne_nil _ _), strictLex_append] at lexed
    obtain ⟨middle, before, after⟩ := Option.bind_eq_some_iff.mp lexed
    have feed : newline ++ Str.join newline (next :: lines) =
        10 :: Str.join newline (next :: lines) := rfl
    rw [feed] at after
    obtain ⟨_, read, later⟩ := strictLex_cons_some.mp after
    obtain ⟨rfl, rfl⟩ := strictStep_control (by decide) read
    obtain ⟨first, others⟩ := ih later
    exact ⟨before, List.forall_mem_cons.mpr ⟨first, others⟩⟩

end Python.JsonDecoder
