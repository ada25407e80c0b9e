import HeyeeAgent.Python.JsonBrackets
import HeyeeAgent.Python.JsonLines

/-! # An array cut out of a JSON text

The lines of a text joined again by line feeds give the same value as long as no string holds a line
boundary, and none otherwise. Cut from its first opening bracket to its last closing one, an object
gives the array of one of its members if there is no other such bracket around it, and nothing
otherwise.
-/

namespace Python.JsonDecoder

open Python

section Lines

variable {phase final final' : Phase} {text : Str} {v v' : Value} {c : ℕ}

/-- The line boundaries that JSON allows in a string -/
def isSeparator (c : ℕ) : Bool := c == 0x85 || c == 0x2028 || c == 0x2029

/-- Another line boundary stands where blanks stand. -/
theorem blank_of_isLineBreak {next : Phase} (breaks : Str.isLineBreak c = true)
    (other : isSeparator c = false) (read : strictStep phase c = some next) :
    phase = .outside ∧ next = .outside ∧ isBlank c = true := by
  unfold Str.isLineBreak at breaks
  unfold isSeparator at other
  simp only [Bool.or_eq_true, Bool.and_eq_true, decide_eq_true_eq, beq_iff_eq, Bool.or_eq_false_iff,
    beq_eq_false_iff_ne] at breaks other
  have control : c < 32 := by omega
  obtain ⟨rfl, rfl⟩ := strictStep_control control read
  refine ⟨rfl, rfl, isBlank_of_isSpaceCode ?_ ?_⟩
  · by_contra inside
    have quoted : c ≠ quote := by
      change c ≠ 34
      omega
    simp [strictStep, lexStep, quoted, inside] at read
  · unfold isSpaceCode
    simp only [Bool.or_eq_true, Bool.and_eq_true, decide_eq_true_eq, beq_iff_eq]
    omega

theorem respaced_blank {c' : ℕ} {text' : Str} (blank : isBlank c = true) (blank' : isBlank c' = true)
    (same : Respaced .outside text text') : Respaced .outside (c :: text) (c' :: text') := by
  have single {d : ℕ} (blank : isBlank d = true) : ∀ e ∈ [d], isBlank e = true := by
    simpa using blank
  have joined : Respaced .outside ([c] ++ text) ([c'] ++ text') :=
    .blanks (single blank) (single blank') (List.cons_ne_nil _ _) (List.cons_ne_nil _ _) same
  exact joined

theorem respaced_relined (plain : ∀ c ∈ text, isSeparator c = false)
    (lexed : strictLex phase text = some final) : Respaced phase text (Str.relined text) := by
  induction text using Str.relined.induct generalizing phase with
  | case1 => exact .nil phase
  | case2 rest ih =>
    obtain ⟨middle, read, later⟩ := strictLex_cons_some.mp lexed
    obtain ⟨rfl, rfl⟩ := strictStep_control (by decide) read
    obtain ⟨middle, read, later⟩ := strictLex_cons_some.mp later
    obtain ⟨-, rfl⟩ := strictStep_control (by decide) read
    have same := ih (fun c member => plain c (List.mem_cons_of_mem _ (List.mem_cons_of_mem _ member)))
      later
    rw [Str.relined.eq_2]
    have joined : Respaced .outside ([13, 10] ++ rest) ([10] ++ Str.relined rest) :=
      .blanks (by decide) (by decide) (List.cons_ne_nil _ _) (List.cons_ne_nil _ _) same
    exact joined
  | case3 c rest other ih =>
    obtain ⟨first, others⟩ := List.forall_mem_cons.mp plain
    obtain ⟨middle, read, later⟩ := strictLex_cons_some.mp lexed
    have same := ih others later
    rw [Str.relined.eq_3 c rest other]
    split_ifs with breaks
    · obtain ⟨rfl, rfl, blank⟩ := blank_of_isLineBreak breaks first read
      exact respaced_blank blank (by decide) same
    · by_cases solid : phase = .outside → isBlank c = false
      · exact .char read solid same
      · rw [Classical.not_imp, Bool.not_eq_false] at solid
        obtain ⟨rfl, blank⟩ := solid
        rw [strictStep_outside (isOutside_of_isBlank blank)] at read
        cases read
        exact respaced_blank blank blank same

/-- A line boundary in a string becomes a control character. -/
theorem separators_of_relined (lexed : strictLex phase text = some final)
    (lexed' : strictLex phase (Str.relined text) = some final') :
    ∀ c ∈ text, isSeparator c = false := by
  induction text using Str.relined.induct generalizing phase with
  | case1 => exact fun c member => absurd member List.not_mem_nil
  | case2 rest ih =>
    obtain ⟨middle, read, later⟩ := strictLex_cons_some.mp lexed
    obtain ⟨rfl, rfl⟩ := strictStep_control (by decide) read
    obtain ⟨middle, read, later⟩ := strictLex_cons_some.mp later
    obtain ⟨-, rfl⟩ := strictStep_control (by decide) read
    rw [Str.relined.eq_2] at lexed'
    obtain ⟨middle, read, later'⟩ := strictLex_cons_some.mp lexed'
    obtain ⟨-, rfl⟩ := strictStep_control (by decide) read
    exact List.forall_mem_cons.mpr ⟨rfl, List.forall_mem_cons.mpr ⟨rfl, ih later later'⟩⟩
  | case3 c rest other ih =>
    obtain ⟨middle, read, later⟩ := strictLex_cons_some.mp lexed
    rw [Str.relined.eq_3 c rest other] at lexed'
    obtain ⟨middle', read', later'⟩ := strictLex_cons_some.mp lexed'
    cases separator : isSeparator c with
    | true =>
      have breaks : Str.isLineBreak c = true := by
        unfold isSeparator at separator
        simp only [Bool.or_eq_true, beq_iff_eq] at separator
        rcases separator with (rfl | rfl) | rfl <;> rfl
      rw [if_pos breaks] at read'
      obtain ⟨rfl, rfl⟩ := strictStep_control (by decide) read'
      unfold isSeparator at separator
      simp only [Bool.or_eq_true, beq_iff_eq] at separator
      rcases separator with (rfl | rfl) | rfl <;> cases read
    | false =>
      have same : middle = middle' := by
        split_ifs at read' with breaks
        · obtain ⟨rfl, rfl, -⟩ := blank_of_isLineBreak breaks separator read
          exact (strictStep_control (by decide) read').2.symm
        · exact Option.some.inj (read.symm.trans read')
      subst same
      exact List.forall_mem_cons.mpr ⟨separator, ih later later'⟩

/-- Its lines joined by line feeds, a text gives the same value unless a string holds a boundary. -/
theorem loads_relined (loaded : loads text = some v) (plain : ∀ c ∈ text, isSeparator c = false) :
    loads (Str.relined text) = some v := by
  have same := respaced_relined plain (strictLex_of_loads loaded)
  exact Respaced.loads_skip same.skip same.heads.no_mark loaded

theorem separators_of_loads (loaded : loads text = some v)
    (loaded' : loads (Str.relined text) = some v') : ∀ c ∈ text, isSeparator c = false :=
  separators_of_relined (strictLex_of_loads loaded) (strictLex_of_loads loaded')

/-- A boundary is read like the line feed that replaces it. -/
theorem trackStep_feed {at_ next : Place × ℕ} (breaks : Str.isLineBreak c = true)
    (read : trackStep at_ c = some next) : trackStep at_ 10 = some next := by
  have known : c = 10 ∨ c = 11 ∨ c = 12 ∨ c = 13 ∨ c = 28 ∨ c = 29 ∨ c = 30 ∨ c = 0x85 ∨
      c = 0x2028 ∨ c = 0x2029 := by
    unfold Str.isLineBreak at breaks
    simp only [Bool.or_eq_true, Bool.and_eq_true, decide_eq_true_eq, beq_iff_eq] at breaks
    omega
  obtain ⟨place, depth⟩ := at_
  rcases known with rfl | rfl | rfl | rfl | rfl | rfl | rfl | rfl | rfl | rfl <;>
    cases place <;> first | exact read | cases read

theorem trackStep_feed_twice {at_ next last : Place × ℕ} (first : trackStep at_ 13 = some next)
    (second : trackStep next 10 = some last) : trackStep at_ 10 = some last := by
  obtain ⟨place, depth⟩ := at_
  cases place <;> (cases first; exact second)

theorem track_relined {at_ next : Place × ℕ} (read : track at_ text = some next) :
    track at_ (Str.relined text) = some next := by
  induction text using Str.relined.induct generalizing at_ with
  | case1 => exact read
  | case2 rest ih =>
    rw [track_cons] at read
    obtain ⟨middle, first, later⟩ := Option.bind_eq_some_iff.mp read
    rw [track_cons] at later
    obtain ⟨last, second, later⟩ := Option.bind_eq_some_iff.mp later
    rw [Str.relined.eq_2, track_cons, trackStep_feed_twice first second]
    exact ih later
  | case3 c rest other ih =>
    rw [track_cons] at read
    obtain ⟨middle, first, later⟩ := Option.bind_eq_some_iff.mp read
    rw [Str.relined.eq_3 c rest other, track_cons]
    split_ifs with breaks
    · rw [trackStep_feed breaks first]
      exact ih later
    · rw [first]
      exact ih later

theorem balanced_relined (balanced : Balanced text) : Balanced (Str.relined text) := by
  obtain ⟨place, ended, read⟩ := balanced
  exact ⟨place, ended, track_relined read⟩

end Lines

section Arrays

variable {text rest : Str} {fuel : ℕ} {items : List Value}

theorem scalar_ne_array (scanned : scalar text = some (.arr items, rest)) : False := by
  unfold scalar at scanned
  split at scanned
  · next name constant found =>
    have listed := List.mem_of_find?_eq_some found
    have known : ∀ constant ∈ constants, ∀ items, constant.2 ≠ .arr items := by simp [constants]
    cases scanned
    exact known _ listed items rfl
  · obtain ⟨-, -, digits, same⟩ := number_reads scanned
    cases same

/-- Only an opening bracket begins an array. -/
theorem value_array_iff (scanned : value fuel text = some (.arr items, rest)) :
    ∃ tail, text = openBracket :: tail := by
  cases parse_value_iff.mpr scanned with
  | emptyArray => exact ⟨_, rfl⟩
  | array => exact ⟨_, rfl⟩
  | scalar _ _ _ scanned => exact (scalar_ne_array scanned).elim

theorem isSpaceCode_of_isBlank {c : ℕ} (blank : isBlank c = true) : isSpaceCode c = true := by
  unfold isBlank at blank
  simp only [Bool.or_eq_true, beq_iff_eq] at blank
  rcases blank with ((rfl | rfl) | rfl) | rfl <;> rfl

/-- The text of an array without white space around it -/
theorem array_text (loaded : loads text = some (.arr items)) (bare : text.strip = text) :
    ∃ inner, text = openBracket :: (inner ++ [closeBracket]) ∧ Balanced inner := by
  have first : ∀ c ∈ text.head?, isSpaceCode c = false := Str.head_of_strip bare
  have last : ∀ c ∈ text.getLast?, isSpaceCode c = false := Str.last_of_strip bare
  unfold loads at loaded
  split_ifs at loaded
  split at loaded
  · next v rest found =>
    split_ifs at loaded with finished
    cases loaded
    obtain ⟨tail, skipped⟩ := value_array_iff found
    obtain ⟨run, blank, split⟩ := blanks_of_skip skipped
    obtain rfl : run = [] := by
      cases run with
      | nil => rfl
      | cons c run =>
        have space := isSpaceCode_of_isBlank (blank c List.mem_cons_self)
        rw [first c (by rw [split]; rfl)] at space
        cases space
    rw [skipped] at found
    obtain ⟨inner, rfl, balanced⟩ := array_balanced found
    obtain ⟨run, blank, rfl⟩ := blanks_of_skip finished
    refine ⟨inner, ?_, balanced⟩
    rcases List.eq_nil_or_concat run with rfl | ⟨run', c, rfl⟩
    · exact split
    · have space := isSpaceCode_of_isBlank (blank c (by simp))
      have ends : text = (openBracket :: (inner ++ closeBracket :: run')) ++ [c] := by simp [split]
      rw [last c (by rw [ends]; exact List.getLast?_concat ..)] at space
      cases space
  · cases loaded

/-- The first character of a key that is not empty: itself, or an escape. -/
theorem scanString_first {c : ℕ} {key : Str} (scanned : scanString text = some (c :: key, rest)) :
    ∃ k later, text = k :: later ∧ k ≠ quote ∧ (k = c ∨ k = backslash) := by
  obtain ⟨⟨units, rest'⟩, found, same⟩ := Option.map_eq_some_iff.mp scanned
  cases text with
  | nil => cases found
  | cons k later =>
    unfold scanUnits at found
    split_ifs at found with closing escaping control
    · cases found
      cases same
    · exact ⟨k, later, rfl, closing, .inr escaping⟩
    · obtain ⟨⟨units', rest''⟩, -, both⟩ := Option.map_eq_some_iff.mp found
      cases both
      have joined : joinPairs ((false, k) :: units') = k :: joinPairs units' := rfl
      have first := congrArg Prod.fst same
      dsimp only at first
      rw [joined] at first
      exact ⟨k, later, rfl, closing, .inl (List.cons.inj first).1⟩

end Arrays

section Objects

variable {lead gap inner tail : Str} {k : ℕ}

/-- The text of an object at the array of one of its members: `lead` stands before the quote of its
key, and `k` is the first character of the key. -/
def objectText (lead : Str) (k : ℕ) (gap inner tail : Str) : Str :=
  openBrace :: (lead ++ quote :: k :: (gap ++ openBracket :: (inner ++ closeBracket :: tail)))

/-- The part of an object that leads to the array -/
structure Leads (lead : Str) (k : ℕ) (gap : Str) : Prop where
  tracked : track (.outside, 0) lead = some (.outside, 0)
  key : ∀ depth, markStep .closed depth k = none
  unopened : openBracket ∉ k :: gap

/-- Without another bracket around it, the array is cut out. -/
theorem between_objectText (leads : Leads lead k gap) (first : openBracket ∉ lead)
    (last : closeBracket ∉ tail) : Str.between openBracket closeBracket
      (objectText lead k gap inner tail) = some (openBracket :: (inner ++ [closeBracket])) := by
  have whole : objectText lead k gap inner tail =
      (openBrace :: (lead ++ quote :: k :: gap)) ++
        openBracket :: (inner ++ closeBracket :: tail) := by
    simp [objectText]
  rw [whole]
  refine Str.between_append (fun member => ?_) last inner
  rcases List.mem_append.mp ((List.mem_cons.mp member).resolve_left (by decide)) with early | key
  · exact first early
  · exact leads.unopened ((List.mem_cons.mp key).resolve_left (by decide))

theorem exists_last {c : ℕ} {text : Str} (member : c ∈ text) :
    ∃ before after, text = before ++ c :: after ∧ c ∉ after := by
  obtain ⟨after, before, split, fresh⟩ := List.eq_append_cons_of_mem (List.mem_reverse.mpr member)
  refine ⟨before.reverse, after.reverse, ?_, mt List.mem_reverse.mp fresh⟩
  rw [← List.reverse_reverse text, split]
  simp

/-- With another one, what is cut out is no JSON. -/
theorem loads_objectText (leads : Leads lead k gap) (balanced : Balanced inner)
    (other : openBracket ∈ lead ∨ closeBracket ∈ tail) :
    ∃ cut, Str.between openBracket closeBracket (objectText lead k gap inner tail) = some cut ∧
      loads cut = none := by
  obtain ⟨inner', tail', split, last⟩ : ∃ inner' tail', inner ++ closeBracket :: tail =
      inner' ++ closeBracket :: tail' ∧ closeBracket ∉ tail' := exists_last (by simp)
  have unloaded {cut : Str} (unbalanced : ¬ Balanced cut) :
      loads (openBracket :: (cut ++ [closeBracket])) = none := by
    rw [Option.eq_none_iff_forall_ne_some]
    exact fun v loaded => unbalanced (slice_balanced loaded)
  by_cases early : openBracket ∈ lead
  · obtain ⟨first, second, rfl, fresh⟩ := List.eq_append_cons_of_mem early
    have whole : objectText (first ++ openBracket :: second) k gap inner tail =
        (openBrace :: first) ++ openBracket ::
          ((second ++ quote :: k :: (gap ++ openBracket :: inner')) ++ closeBracket :: tail') := by
      simp [objectText, split]
    rw [whole]
    refine ⟨_, Str.between_append (fun member => ?_) last _, unloaded ?_⟩
    · exact fresh ((List.mem_cons.mp member).resolve_left (by decide))
    · exact not_balanced_of_earlier leads.tracked leads.key _
  · have behind := other.resolve_left early
    obtain ⟨before, after, rfl, fresh⟩ := exists_last behind
    have whole : objectText lead k gap inner (before ++ closeBracket :: after) =
        objectText lead k gap (inner ++ closeBracket :: before) after := by
      simp [objectText]
    rw [whole]
    exact ⟨_, between_objectText leads early fresh, unloaded (not_balanced_close balanced before)⟩

end Objects

end Python.JsonDecoder
