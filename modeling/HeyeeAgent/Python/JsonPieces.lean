import HeyeeAgent.Python.JsonSlices

/-! # A JSON text cut inside its strings

`splitlines` cuts a text of one line nowhere but inside its strings. Seen from a later piece, the
strings and what stands between them have changed places, so the piece is no JSON, or its keys are
made of the characters that stand between strings. The first piece ends inside a string.
-/

namespace Python

namespace Str

/-- Before a piece that is not the first stands a boundary. -/
theorem mem_tail_pieces {text piece : Str} (member : piece ∈ (pieces text).tail) :
    ∃ before c after, text = before ++ c :: (piece ++ after) ∧ isLineBreak c = true := by
  have begins {text piece : Str} {others : List Str} (cut : pieces text = piece :: others) :
      ∃ after, text = piece ++ after := by
    induction text using pieces.induct generalizing piece others with
    | case1 =>
      obtain ⟨rfl, -⟩ := List.cons.inj cut
      exact ⟨[], rfl⟩
    | case2 rest _ =>
      obtain ⟨rfl, -⟩ := List.cons.inj cut
      exact ⟨13 :: 10 :: rest, rfl⟩
    | case3 c rest other breaks _ =>
      rw [pieces.eq_3 c rest other, if_pos breaks] at cut
      obtain ⟨rfl, -⟩ := List.cons.inj cut
      exact ⟨c :: rest, rfl⟩
    | case4 c rest other plain ih =>
      obtain ⟨head, lines, inner⟩ := List.exists_cons_of_ne_nil (pieces_ne_nil rest)
      rw [pieces_plain (by simpa using plain), inner, List.modifyHead_cons] at cut
      obtain ⟨rfl, -⟩ := List.cons.inj cut
      obtain ⟨after, rfl⟩ := ih inner
      exact ⟨after, rfl⟩
  -- the piece is the first one after the boundary, or comes after it
  have parted (start : Str) {rest : Str} {c : ℕ} (breaks : isLineBreak c = true)
      (member : piece ∈ pieces rest)
      (ih : piece ∈ (pieces rest).tail →
        ∃ before d after, rest = before ++ d :: (piece ++ after) ∧ isLineBreak d = true) :
      ∃ before d after, start ++ c :: rest = before ++ d :: (piece ++ after) ∧
        isLineBreak d = true := by
    obtain ⟨head, lines, inner⟩ := List.exists_cons_of_ne_nil (pieces_ne_nil rest)
    rw [inner] at member
    rcases List.mem_cons.mp member with rfl | later
    · obtain ⟨after, rfl⟩ := begins inner
      exact ⟨start, c, after, rfl, breaks⟩
    · obtain ⟨before, d, after, rfl, breaks'⟩ := ih (by rwa [inner])
      exact ⟨start ++ c :: before, d, after, by simp, breaks'⟩
  induction text using pieces.induct with
  | case1 => cases member
  | case2 rest ih => exact parted [13] (by decide) member ih
  | case3 c rest other breaks ih =>
    rw [pieces.eq_3 c rest other, if_pos breaks] at member
    exact parted [] breaks member ih
  | case4 c rest other plain ih =>
    obtain ⟨head, lines, inner⟩ := List.exists_cons_of_ne_nil (pieces_ne_nil rest)
    rw [pieces_plain (by simpa using plain), inner, List.modifyHead_cons] at member
    obtain ⟨before, d, after, rfl, breaks⟩ := ih (by rwa [inner])
    exact ⟨c :: before, d, after, rfl, breaks⟩

/-- After the first of several pieces stands a boundary. -/
theorem head_pieces {text first second : Str} {others : List Str}
    (cut : pieces text = first :: second :: others) :
    ∃ c rest, text = first ++ c :: rest ∧ isLineBreak c = true := by
  induction text using pieces.induct generalizing first with
  | case1 => cases cut
  | case2 rest _ =>
    obtain ⟨rfl, -⟩ := List.cons.inj cut
    exact ⟨13, 10 :: rest, rfl, rfl⟩
  | case3 c rest other breaks _ =>
    rw [pieces.eq_3 c rest other, if_pos breaks] at cut
    obtain ⟨rfl, -⟩ := List.cons.inj cut
    exact ⟨c, rest, rfl, breaks⟩
  | case4 c rest other plain ih =>
    obtain ⟨head, lines, inner⟩ := List.exists_cons_of_ne_nil (pieces_ne_nil rest)
    rw [pieces_plain (by simpa using plain), inner, List.modifyHead_cons] at cut
    obtain ⟨rfl, same⟩ := List.cons.inj cut
    obtain ⟨d, after, rfl, breaks⟩ := ih (inner.trans (congrArg _ same))
    exact ⟨d, after, rfl, breaks⟩

/-- A text of one piece holds no boundary. -/
theorem unbroken_of_pieces {text line : Str} (cut : pieces text = [line]) :
    ∀ c ∈ text, isLineBreak c = false := by
  induction text using pieces.induct generalizing line with
  | case1 => exact fun _ member => absurd member List.not_mem_nil
  | case2 rest _ => exact absurd (List.cons.inj cut).2 (pieces_ne_nil rest)
  | case3 c rest other breaks _ =>
    rw [pieces.eq_3 c rest other, if_pos breaks] at cut
    exact absurd (List.cons.inj cut).2 (pieces_ne_nil rest)
  | case4 c rest other plain ih =>
    have first : isLineBreak c = false := by simpa using plain
    obtain ⟨head, lines, inner⟩ := List.exists_cons_of_ne_nil (pieces_ne_nil rest)
    rw [pieces_plain first, inner, List.modifyHead_cons] at cut
    obtain ⟨-, rfl⟩ := List.cons.inj cut
    exact List.forall_mem_cons.mpr ⟨first, ih inner⟩

end Str

namespace JsonDecoder

variable {phase phase' turned turned' final : Phase} {text read : Str} {v : Value} {c : ℕ}

section Turned

/-- Inside and outside of strings, taken for each other. -/
inductive Turned : Phase → Phase → Prop
  | inside : Turned .inside .outside
  | outside : Turned .outside .inside

/-- A character that both lexers read is a quote or one that stands between strings. -/
theorem Turned.step (opposite : Turned phase turned) (own : lexStep anything phase c = some phase')
    (other : lexStep anything turned c = some turned') :
    lexStep isOutside turned c = some turned' ∧ Turned phase' turned' := by
  unfold lexStep at own other ⊢
  by_cases quoted : c = quote
  · subst quoted
    cases opposite with
    | inside =>
      cases own
      cases other
      exact ⟨rfl, .outside⟩
    | outside =>
      cases own
      cases other
      exact ⟨rfl, .inside⟩
  · have plain (outside : isOutside c = true) : c ≠ backslash := by
      rintro rfl
      cases outside
    cases opposite with
    | inside =>
      dsimp only at own other ⊢
      rw [if_neg quoted] at own other ⊢
      split_ifs at other with outside
      rw [if_pos (show anything c = true from rfl), if_neg (plain outside)] at own
      rw [if_pos outside]
      cases own
      cases other
      exact ⟨rfl, .inside⟩
    | outside =>
      dsimp only at own other ⊢
      rw [if_neg quoted] at own other ⊢
      split_ifs at own with outside
      rw [if_pos (show anything c = true from rfl), if_neg (plain outside)] at other
      rw [if_pos outside, if_neg (plain outside)]
      cases own
      cases other
      exact ⟨rfl, .outside⟩

theorem Turned.lex (opposite : Turned phase turned)
    (own : JsonDecoder.lex anything phase read = some phase')
    (other : JsonDecoder.lex anything turned read = some turned') :
    JsonDecoder.lex isOutside turned read = some turned' := by
  induction read generalizing phase turned with
  | nil => exact other
  | cons c read ih =>
    rw [lex_cons] at own other ⊢
    obtain ⟨middle, first, later⟩ := Option.bind_eq_some_iff.mp own
    obtain ⟨middle', first', later'⟩ := Option.bind_eq_some_iff.mp other
    obtain ⟨restricted, opposite'⟩ := opposite.step first first'
    rw [restricted]
    exact ih opposite' later later'

/-- What begins inside a string of the whole text has no letters in its keys but those of scalars. -/
theorem keys_of_inside (own : JsonDecoder.lex anything .inside text = some phase)
    (loaded : loads text = some v) : v.Keys isOutside := by
  obtain ⟨lexed, keys⟩ := loads_reads loaded
  exact keys isOutside (by decide) (Turned.inside.lex own lexed)

theorem get_of_foreign {fields : List (Str × Value)} {raw : ℕ → Bool} {key : String}
    (keys : Keys fields raw) (member : c ∈ Str.lit key) (foreign : raw c = false) :
    Value.get fields key = .null := by
  have absent : fields.reverse.find? (fun field => field.1 == Str.lit key) = none := by
    rw [List.find?_eq_none]
    intro field listed same
    have known := keys field (List.mem_reverse.mp listed) c (by rwa [beq_iff_eq.mp same])
    rw [foreign] at known
    cases known
  unfold Value.get
  rw [absent]

end Turned

section Pieces

/-- A boundary in a line is a separator, and stands inside a string. -/
theorem inside_of_isLineBreak {before rest : Str} (breaks : Str.isLineBreak c = true)
    (feed : c ≠ 10 ∧ c ≠ 13) (lexed : strictLex .outside (before ++ c :: rest) = some final) :
    isSeparator c = true ∧ ∃ within, strictLex .outside before = some within ∧
      within ≠ .outside ∧ strictLex .inside rest = some final := by
  rw [strictLex_append] at lexed
  obtain ⟨within, read, lexed⟩ := Option.bind_eq_some_iff.mp lexed
  obtain ⟨next, step, later⟩ := strictLex_cons_some.mp lexed
  cases separator : isSeparator c with
  | false =>
    obtain ⟨-, -, blank⟩ := blank_of_isLineBreak breaks separator step
    simp only [isBlank, Bool.or_eq_true, beq_iff_eq] at blank
    simp only [Str.isLineBreak, Bool.or_eq_true, Bool.and_eq_true, decide_eq_true_eq,
      beq_iff_eq] at breaks
    omega
  | true =>
    simp only [isSeparator, Bool.or_eq_true, beq_iff_eq] at separator
    refine ⟨rfl, within, read, ?_, ?_⟩
    · rintro rfl
      rcases separator with (rfl | rfl) | rfl <;> cases step
    · cases within with
      | outside => rcases separator with (rfl | rfl) | rfl <;> cases step
      | inside =>
        obtain rfl : next = .inside := by
          rcases separator with (rfl | rfl) | rfl <;> exact (Option.some.inj step).symm
        exact later
      | escaped =>
        obtain rfl : next = .inside := by
          rcases separator with (rfl | rfl) | rfl <;> exact (Option.some.inj step).symm
        exact later

theorem lexStep_of_strictStep (read : strictStep phase c = some phase') :
    lexStep anything phase c = some phase' := by
  unfold strictStep at read
  split_ifs at read
  exact read

theorem lex_of_strictLex (lexed : strictLex phase text = some final) :
    JsonDecoder.lex anything phase text = some final := by
  induction text generalizing phase with
  | nil => exact lexed
  | cons c text ih =>
    obtain ⟨middle, read, later⟩ := strictLex_cons_some.mp lexed
    rw [lex_cons, lexStep_of_strictStep read]
    exact ih later

/-- White space at the end of a text that is read to the outside of strings is made of blanks. -/
theorem strictLex_rspace {spaces : Str} (space : ∀ c ∈ spaces, isSpaceCode c = true)
    (lexed : strictLex phase (text ++ spaces) = some .outside) :
    (∀ c ∈ spaces, isBlank c = true) ∧ strictLex phase text = some .outside := by
  rw [strictLex_append] at lexed
  obtain ⟨middle, read, later⟩ := Option.bind_eq_some_iff.mp lexed
  have outside : middle = .outside := by
    clear read lexed
    induction spaces generalizing middle with
    | nil => exact Option.some.inj later
    | cons c spaces ih =>
      obtain ⟨first, others⟩ := List.forall_mem_cons.mp space
      obtain ⟨next, step, later⟩ := strictLex_cons_some.mp later
      obtain rfl := ih others next later
      have unquoted : c ≠ quote := by
        rintro rfl
        cases first
      have step := lexStep_of_strictStep step
      unfold lexStep at step
      cases middle with
      | outside => rfl
      | escaped => cases step
      | inside =>
        dsimp only at step
        rw [if_neg unquoted] at step
        split_ifs at step <;> cases step
  subst outside
  have alone : strictLex .outside (spaces ++ []) = some .outside := by rwa [List.append_nil]
  exact ⟨(strictLex_space space alone).1, read⟩

end Pieces

end JsonDecoder

end Python
