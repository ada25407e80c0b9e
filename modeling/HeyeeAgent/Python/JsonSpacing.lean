import HeyeeAgent.Python.JsonLexing
import Mathlib.Data.List.Find

/-! # The blanks of a JSON text

A text that `json.loads` accepts has its control characters outside of strings. The blanks between
its parts can be replaced by other blanks: the scanners find the same parts, so the object is the
same.
-/

namespace Python.JsonDecoder

variable {phase next : Phase} {text text' rest : Str} {c : ℕ}

/-- Reads a character of a JSON text: a string holds no control character. -/
def strictStep (phase : Phase) (c : ℕ) : Option Phase :=
  if phase ≠ .outside ∧ c < 32 then none else lexStep anything phase c

def strictLex (phase : Phase) (text : Str) : Option Phase := text.foldlM strictStep phase

@[simp] theorem strictLex_nil : strictLex phase [] = some phase := rfl

theorem strictLex_cons : strictLex phase (c :: text) =
    (strictStep phase c).bind fun next => strictLex next text := rfl

theorem strictLex_append (first second : Str) : strictLex phase (first ++ second) =
    (strictLex phase first).bind fun next => strictLex next second := by
  unfold strictLex
  rw [List.foldlM_append]
  rfl

theorem strictStep_outside (outside : isOutside c = true) :
    strictStep .outside c = some .outside := by
  have other : c ≠ quote := by
    rintro rfl
    rw [isOutside_quote] at outside
    cases outside
  simp [strictStep, lexStep, other, outside]

theorem strictLex_outside (outside : ∀ c ∈ text, isOutside c = true) :
    strictLex .outside text = some .outside := by
  induction text with
  | nil => rfl
  | cons c text ih =>
    rw [strictLex_cons, strictStep_outside (outside c List.mem_cons_self), Option.bind_some]
    exact ih fun c member => outside c (List.mem_cons_of_mem _ member)

section Scanning

/-- A relation between what a scanner is given and what it leaves, made of the parts that it reads:
characters outside of strings and whole strings. -/
structure Scanning (R : Str → Str → Prop) : Prop where
  refl : ∀ text, R text text
  trans : ∀ {text middle rest}, R text middle → R middle rest → R text rest
  outside : ∀ {c} rest, isOutside c = true → R (c :: rest) rest
  string : ∀ {text key rest}, scanString text = some (key, rest) → R (quote :: text) rest

variable {R : Str → Str → Prop}

theorem Scanning.readsOutside (scanning : Scanning R) (reads : ReadsOutside text rest) :
    R text rest := by
  obtain ⟨read, rfl, outside⟩ := reads
  induction read with
  | nil => exact scanning.refl _
  | cons c read ih =>
    exact scanning.trans (scanning.outside _ (outside c List.mem_cons_self))
      (ih fun c member => outside c (List.mem_cons_of_mem _ member))

theorem Scanning.blanks (scanning : Scanning R) (text : Str) : R text (skipBlanks text) := by
  refine scanning.readsOutside ⟨text.takeWhile isBlank, List.takeWhile_append_dropWhile.symm, ?_⟩
  exact fun c member => isOutside_of_isBlank (List.mem_takeWhile_imp member)

/-- A sign between blanks. -/
theorem Scanning.mark (scanning : Scanning R) (reads : R text (c :: rest))
    (outside : isOutside c = true) : R text (skipBlanks rest) :=
  scanning.trans reads (scanning.trans (scanning.outside rest outside) (scanning.blanks rest))

theorem Scanning.after (scanning : Scanning R) {middle : Str} (reads : R text middle)
    (skipped : skipBlanks middle = rest) : R text rest :=
  scanning.trans reads (skipped ▸ scanning.blanks middle)

/-- What holds of the parts holds of the values. -/
theorem Scanning.parse (scanning : Scanning R) {fuel : ℕ} {part : Part}
    (parse : Parse fuel part text rest) : R text rest := by
  have opened {c : ℕ} (text : Str) (outside : isOutside c = true) :
      R (c :: text) (skipBlanks text) := scanning.mark (scanning.refl (c :: text)) outside
  have closed {c : ℕ} {text middle rest : Str} (reads : R text middle)
      (after : skipBlanks middle = c :: rest) (outside : isOutside c = true) : R text rest :=
    scanning.trans (scanning.after reads after) (scanning.outside rest outside)
  induction parse with
  | string scanned => exact scanning.string scanned
  | emptyObject after => exact closed (scanning.outside _ (by decide)) after (by decide)
  | object _ _ inner => exact scanning.trans (opened _ (by decide)) inner
  | emptyArray after => exact closed (scanning.outside _ (by decide)) after (by decide)
  | array _ _ inner => exact scanning.trans (opened _ (by decide)) inner
  | scalar _ _ _ scanned => exact scanning.readsOutside (scalar_reads scanned).1
  | item _ after _ first others =>
    exact scanning.trans (scanning.mark (scanning.after first after) (by decide)) others
  | lastItem _ after first => exact closed first after (by decide)
  | member named bound _ after _ first others =>
    have bound := scanning.mark (scanning.after (scanning.string named) bound) (by decide)
    have member := scanning.after (scanning.trans bound first) after
    exact scanning.trans (scanning.mark member (by decide)) others
  | lastMember named bound _ after first =>
    have bound := scanning.mark (scanning.after (scanning.string named) bound) (by decide)
    exact closed (scanning.trans bound first) after (by decide)

end Scanning

section Strict

variable {state : StringState} {units : List (Bool × ℕ)}

theorem UnitStep.printable {state' : StringState} {given : List (Bool × ℕ)}
    (step : UnitStep state c state' given) : 32 ≤ c := by
  cases step with
  | escaping => decide
  | char _ _ control => exact Nat.le_of_not_lt control
  | simple simple => exact simpleEscape_printable simple
  | letter => decide
  | digit _ hex => exact (hexDigit_bounds hex).1
  | last hex => exact (hexDigit_bounds hex).1

/-- A scanner of a string is never outside of one. -/
theorem StringState.lexPhase_ne_outside (state : StringState) : state.lexPhase ≠ .outside := by
  cases state <;> exact Phase.noConfusion

theorem UnitStep.strictStep {state' : StringState} {given : List (Bool × ℕ)}
    (step : UnitStep state c state' given) :
    JsonDecoder.strictStep state.lexPhase c = some state'.lexPhase := by
  have printable := step.printable
  rw [JsonDecoder.strictStep, if_neg (by omega), step.lexStep]

theorem ScansUnits.strictLex {read : Str} (scans : ScansUnits state read units) :
    JsonDecoder.strictLex state.lexPhase read = some .inside := by
  induction scans with
  | nil => rfl
  | cons step _ ih =>
    rw [strictLex_cons, step.strictStep]
    exact ih

/-- What was read leads from outside of strings to outside of them. -/
def ReadsStrictly (text rest : Str) : Prop :=
  ∃ read, text = read ++ rest ∧ strictLex .outside read = some .outside

theorem scanning_strict : Scanning ReadsStrictly where
  refl _ := ⟨[], rfl, rfl⟩
  trans := by
    rintro text middle rest ⟨read, rfl, lexed⟩ ⟨read', rfl, lexed'⟩
    refine ⟨read ++ read', (List.append_assoc _ _ _).symm, ?_⟩
    rw [strictLex_append, lexed]
    exact lexed'
  outside := by
    intro c rest outside
    exact ⟨[c], rfl, strictLex_outside fun d member => List.mem_singleton.mp member ▸ outside⟩
  string := by
    intro text key rest scanned
    obtain ⟨⟨units, rest'⟩, found, same⟩ := Option.map_eq_some_iff.mp scanned
    cases same
    obtain ⟨read, rfl, scans⟩ := scansUnits_of_scanUnits found
    refine ⟨quote :: (read ++ [quote]), by simp, ?_⟩
    have opened : strictStep .outside quote = some .inside := rfl
    rw [strictLex_cons, opened, Option.bind_some, strictLex_append]
    change (strictLex StringState.plain.lexPhase read).bind _ = _
    rw [scans.strictLex]
    rfl

/-- A text that is accepted has no control character in a string. -/
theorem strictLex_of_loads {v : Value} (loaded : loads text = some v) :
    strictLex .outside text = some .outside := by
  unfold loads at loaded
  split_ifs at loaded
  split at loaded
  · next v' rest found =>
    split_ifs at loaded with finished
    have values := scanning_strict.parse (parse_value_iff.mpr found)
    obtain ⟨read, split, lexed⟩ := scanning_strict.after (scanning_strict.trans
      (scanning_strict.blanks text) values) finished
    rw [List.append_nil] at split
    rwa [split]
  · cases loaded

end Strict

/-- Two texts that differ only in how many blanks, and which, stand where blanks stand. -/
inductive Respaced : Phase → Str → Str → Prop
  | nil (phase : Phase) : Respaced phase [] []
  | char {phase next : Phase} {c : ℕ} {text text' : Str} (read : strictStep phase c = some next)
      (solid : phase = .outside → isBlank c = false) (rest : Respaced next text text') :
      Respaced phase (c :: text) (c :: text')
  | blanks {run run' text text' : Str} (blank : ∀ c ∈ run, isBlank c = true)
      (blank' : ∀ c ∈ run', isBlank c = true) (some_blank : run ≠ []) (some_blank' : run' ≠ [])
      (rest : Respaced .outside text text') : Respaced .outside (run ++ text) (run' ++ text')

namespace Respaced

theorem symm (same : Respaced phase text text') : Respaced phase text' text := by
  induction same with
  | nil phase => exact .nil phase
  | char read solid _ ih => exact .char read solid ih
  | blanks blank blank' some_blank some_blank' _ ih =>
    exact .blanks blank' blank some_blank' some_blank ih

theorem skipBlanks_append {run : Str} (blank : ∀ c ∈ run, isBlank c = true) (text : Str) :
    skipBlanks (run ++ text) = skipBlanks text := by
  unfold skipBlanks
  rw [List.dropWhile_append, List.dropWhile_eq_nil_iff.mpr blank]
  rfl

theorem skipBlanks_solid (solid : isBlank c = false) (text : Str) :
    skipBlanks (c :: text) = c :: text :=
  List.dropWhile_cons_of_neg (by rw [solid]; exact Bool.false_ne_true)

theorem skip (same : Respaced .outside text text') :
    Respaced .outside (skipBlanks text) (skipBlanks text') := by
  generalize outside : Phase.outside = phase at same
  induction same with
  | nil phase => exact .nil _
  | char read solid rest =>
    subst outside
    rw [skipBlanks_solid (solid rfl), skipBlanks_solid (solid rfl)]
    exact .char read solid rest
  | blanks blank blank' _ _ _ ih =>
    rw [skipBlanks_append blank, skipBlanks_append blank']
    exact ih rfl

/-- The ways in which two such texts begin. -/
inductive Heads : Str → Str → Prop
  | nil : Heads [] []
  | char {next : Phase} {c : ℕ} {text text' : Str} (read : strictStep .outside c = some next)
      (solid : isBlank c = false) (rest : Respaced next text text') :
      Heads (c :: text) (c :: text')
  | blanks {b b' : ℕ} {text text' : Str} (blank : isBlank b = true) (blank' : isBlank b' = true) :
      Heads (b :: text) (b' :: text')

theorem heads (same : Respaced .outside text text') : Heads text text' := by
  cases same with
  | nil => exact .nil
  | char read solid rest => exact .char read (solid rfl) rest
  | blanks blank blank' some_blank some_blank' rest =>
    obtain ⟨b, run, rfl⟩ := List.exists_cons_of_ne_nil some_blank
    obtain ⟨b', run', rfl⟩ := List.exists_cons_of_ne_nil some_blank'
    exact .blanks (blank b List.mem_cons_self) (blank' b' List.mem_cons_self)

/-- The next character is the same one. -/
theorem uncons (same : Respaced .outside (c :: text) text') (solid : isBlank c = false) :
    ∃ next rest, strictStep .outside c = some next ∧ text' = c :: rest ∧
      Respaced next text rest := by
  generalize whole : c :: text = given at same
  have begins := same.heads
  cases begins with
  | nil => cases whole
  | char read _ rest =>
    cases whole
    exact ⟨_, _, read, rfl, rest⟩
  | blanks blank =>
    cases whole
    rw [blank] at solid
    cases solid

/-- A mark between the parts. -/
theorem mark (same : Respaced .outside (c :: text) text') (solid : isBlank c = false)
    (outside : isOutside c = true) :
    ∃ rest, text' = c :: rest ∧ Respaced .outside text rest := by
  obtain ⟨next, rest, read, rfl, later⟩ := same.uncons solid
  rw [strictStep_outside outside] at read
  cases read
  exact ⟨rest, rfl, later⟩

theorem eq_nil (same : Respaced .outside [] text') : text' = [] := by
  generalize whole : ([] : Str) = given at same
  have begins := same.heads
  cases begins with
  | nil => rfl
  | char => cases whole
  | blanks => cases whole

/-- Inside a string every character is the same. -/
theorem uncons_inside (same : Respaced phase (c :: text) text') (inside : phase ≠ .outside) :
    ∃ next rest, strictStep phase c = some next ∧ text' = c :: rest ∧
      Respaced next text rest := by
  generalize whole : c :: text = given at same
  cases same with
  | nil => cases whole
  | char read _ rest =>
    cases whole
    exact ⟨_, _, read, rfl, rest⟩
  | blanks => exact absurd rfl inside

/-- What is read of a string is the same. -/
theorem scansUnits {state : StringState} {units : List (Bool × ℕ)} {read : Str}
    (scans : ScansUnits state read units) (same : Respaced state.lexPhase (read ++ text) text') :
    ∃ rest, text' = read ++ rest ∧ Respaced .inside text rest := by
  induction scans generalizing text' with
  | nil => exact ⟨text', rfl, same⟩
  | cons step _ ih =>
    obtain ⟨next, text', read, rfl, later⟩ :=
      same.uncons_inside (StringState.lexPhase_ne_outside _)
    rw [step.strictStep] at read
    cases read
    obtain ⟨rest, rfl, spaced⟩ := ih later
    exact ⟨rest, rfl, spaced⟩

/-- The rest of a string is the same up to its closing quote. -/
theorem scanUnits {state : StringState} {units : List (Bool × ℕ)}
    (scanned : JsonDecoder.scanUnits state text = some (units, rest))
    (same : Respaced state.lexPhase text text') :
    ∃ rest', JsonDecoder.scanUnits state text' = some (units, rest') ∧
      Respaced .outside rest rest' := by
  obtain ⟨read, rfl, scans⟩ := scansUnits_of_scanUnits scanned
  obtain ⟨closed, rfl, later⟩ := scansUnits scans same
  obtain ⟨next, rest', closing, rfl, spaced⟩ := later.uncons_inside (by decide)
  cases closing
  exact ⟨rest', scans.scanUnits rest', spaced⟩

theorem scanString {key : Str} (same : Respaced .inside text text')
    (scanned : JsonDecoder.scanString text = some (key, rest)) :
    ∃ rest', JsonDecoder.scanString text' = some (key, rest') ∧ Respaced .outside rest rest' := by
  obtain ⟨⟨units, rest'⟩, found, equal⟩ := Option.map_eq_some_iff.mp scanned
  cases equal
  obtain ⟨rest'', found', spaced⟩ := scanUnits found same
  refine ⟨rest'', ?_, spaced⟩
  rw [JsonDecoder.scanString, found']
  rfl

/-- A scanner takes the same part from both texts and leaves texts of the same kind. -/
def Takes (scanner : Str → Str × Str) (text text' : Str) : Prop :=
  (scanner text).1 = (scanner text').1 ∧ Respaced .outside (scanner text).2 (scanner text').2

theorem isDigit_of_isBlank (blank : isBlank c = true) : isDigit c = false := by
  unfold isBlank at blank
  simp only [Bool.or_eq_true, beq_iff_eq] at blank
  rcases blank with ((rfl | rfl) | rfl) | rfl <;> rfl

theorem digits (same : Respaced .outside text text') : Takes JsonDecoder.digits text text' := by
  generalize outside : Phase.outside = phase at same
  induction same with
  | nil phase => exact ⟨rfl, .nil _⟩
  | char read solid rest ih =>
    subst outside
    rename_i next c text text'
    by_cases digit : isDigit c = true
    · rw [strictStep_outside (isOutside_of_isDigit digit)] at read
      cases read
      obtain ⟨first, second⟩ := ih rfl
      unfold Takes JsonDecoder.digits at *
      simp only [List.takeWhile_cons_of_pos digit, List.dropWhile_cons_of_pos digit]
      exact ⟨congrArg (c :: ·) first, second⟩
    · unfold Takes JsonDecoder.digits
      simp only [List.takeWhile_cons_of_neg digit, List.dropWhile_cons_of_neg digit]
      exact ⟨trivial, .char read solid rest⟩
  | blanks blank blank' some_blank some_blank' rest =>
    have whole := Respaced.blanks blank blank' some_blank some_blank' rest
    obtain ⟨b, run, rfl⟩ := List.exists_cons_of_ne_nil some_blank
    obtain ⟨b', run', rfl⟩ := List.exists_cons_of_ne_nil some_blank'
    have first := isDigit_of_isBlank (blank b List.mem_cons_self)
    have first' := isDigit_of_isBlank (blank' b' List.mem_cons_self)
    unfold Takes JsonDecoder.digits
    rw [List.cons_append, List.cons_append] at *
    simp only [List.takeWhile_cons, List.dropWhile_cons, first, first', Bool.false_eq_true,
      ↓reduceIte]
    exact ⟨trivial, whole⟩

theorem Takes.nothing {scanner : Str → Str × Str} (same : Respaced .outside text text')
    (stays : scanner text = ([], text)) (stays' : scanner text' = ([], text')) :
    Takes scanner text text' := by
  unfold Takes
  rw [stays, stays']
  exact ⟨rfl, same⟩

theorem blank_cases (blank : isBlank c = true) : c = 32 ∨ c = 9 ∨ c = 10 ∨ c = 13 := by
  unfold isBlank at blank
  simp only [Bool.or_eq_true, beq_iff_eq] at blank
  omega

theorem sign {signs : Str} (outside : ∀ c ∈ signs, isOutside c = true ∧ isBlank c = false)
    (same : Respaced .outside text text') : Takes (JsonDecoder.sign signs) text text' := by
  have begins := same.heads
  cases begins with
  | nil => exact .nothing same rfl rfl
  | char read solid rest =>
    rename_i next c text text'
    unfold Takes JsonDecoder.sign
    dsimp only
    split_ifs with signed
    · rw [strictStep_outside (outside c (by simpa using signed)).1] at read
      cases read
      exact ⟨rfl, rest⟩
    · exact ⟨rfl, same⟩
  | blanks blank blank' =>
    have unsigned {b : ℕ} (blank : isBlank b = true) : signs.contains b = false := by
      by_contra signed
      have member : b ∈ signs := by simpa using signed
      rw [(outside b member).2] at blank
      cases blank
    refine .nothing same ?_ ?_
    · simp only [JsonDecoder.sign, unsigned blank, Bool.false_eq_true, ↓reduceIte]
    · simp only [JsonDecoder.sign, unsigned blank', Bool.false_eq_true, ↓reduceIte]

theorem fraction (same : Respaced .outside text text') :
    Takes JsonDecoder.fraction text text' := by
  have begins := same.heads
  cases begins with
  | nil => exact .nothing same rfl rfl
  | char read solid rest =>
    rename_i next c text text'
    by_cases pointed : c = point
    · subst pointed
      cases read
      obtain ⟨first, second⟩ := rest.digits
      have taken (text : Str) : JsonDecoder.fraction (point :: text) =
          if (JsonDecoder.digits text).1 = [] then ([], point :: text)
          else (point :: (JsonDecoder.digits text).1, (JsonDecoder.digits text).2) := rfl
      unfold Takes
      rw [taken, taken, ← first]
      split_ifs
      · exact ⟨rfl, same⟩
      · exact ⟨rfl, second⟩
    · refine .nothing same ?_ ?_
      · simp [JsonDecoder.fraction, pointed]
      · simp [JsonDecoder.fraction, pointed]
  | blanks blank blank' =>
    refine .nothing same ?_ ?_
    · rcases blank_cases blank with rfl | rfl | rfl | rfl <;> rfl
    · rcases blank_cases blank' with rfl | rfl | rfl | rfl <;> rfl

theorem exponent (same : Respaced .outside text text') :
    Takes JsonDecoder.exponent text text' := by
  have begins := same.heads
  cases begins with
  | nil => exact .nothing same rfl rfl
  | char read solid rest =>
    rename_i next c text text'
    by_cases marked : c = 101 ∨ c = 69
    · have outside : isOutside c = true := by rcases marked with rfl | rfl <;> decide
      rw [strictStep_outside outside] at read
      cases read
      have signed := rest.sign (by decide : ∀ c ∈ ([43, 45] : Str), _)
      obtain ⟨first, second⟩ := signed.2.digits
      unfold Takes JsonDecoder.exponent
      dsimp only
      rw [if_pos marked, if_pos marked, ← signed.1, ← first]
      split_ifs
      · exact ⟨rfl, same⟩
      · exact ⟨rfl, second⟩
    · refine .nothing same ?_ ?_
      · simp [JsonDecoder.exponent, marked]
      · simp [JsonDecoder.exponent, marked]
  | blanks blank blank' =>
    refine .nothing same ?_ ?_
    · rcases blank_cases blank with rfl | rfl | rfl | rfl <;> rfl
    · rcases blank_cases blank' with rfl | rfl | rfl | rfl <;> rfl

theorem integer (same : Respaced .outside text text') :
    Takes JsonDecoder.integer text text' := by
  have begins := same.heads
  cases begins with
  | nil => exact .nothing same rfl rfl
  | char read solid rest =>
    rename_i next c text text'
    by_cases leading : c = zero
    · subst leading
      cases read
      exact ⟨rfl, rest⟩
    · have plain (text : Str) : JsonDecoder.integer (c :: text) = JsonDecoder.digits (c :: text) := by
        simp [JsonDecoder.integer, leading]
      unfold Takes
      rw [plain, plain]
      exact same.digits
  | blanks blank blank' =>
    have plain {b : ℕ} (blank : isBlank b = true) (text : Str) :
        JsonDecoder.integer (b :: text) = JsonDecoder.digits (b :: text) := by
      rcases blank_cases blank with rfl | rfl | rfl | rfl <;> rfl
    unfold Takes
    rw [plain blank, plain blank']
    exact same.digits

theorem number {v : Value} (same : Respaced .outside text text')
    (scanned : JsonDecoder.number text = some (v, rest)) :
    ∃ rest', JsonDecoder.number text' = some (v, rest') ∧ Respaced .outside rest rest' := by
  have signed := same.sign (by decide : ∀ c ∈ ([45] : Str), _)
  have whole := signed.2.integer
  have fractional := whole.2.fraction
  have scaled := fractional.2.exponent
  unfold JsonDecoder.number at scanned ⊢
  dsimp only at scanned ⊢
  rw [← whole.1, ← signed.1, ← fractional.1, ← scaled.1]
  split_ifs at scanned ⊢
  cases scanned
  exact ⟨_, rfl, scaled.2⟩

/-- A name stands at the beginning of both texts or of neither. -/
theorem name {name : Str} (solid : ∀ c ∈ name, isOutside c = true ∧ isBlank c = false)
    (same : Respaced .outside text text') (begins : name.isPrefixOf text = true) :
    name.isPrefixOf text' = true ∧
      Respaced .outside (text.drop name.length) (text'.drop name.length) := by
  induction name generalizing text text' with
  | nil => exact ⟨rfl, same⟩
  | cons c name ih =>
    cases text with
    | nil => cases begins
    | cons d text =>
      obtain ⟨equal, later⟩ := Bool.and_eq_true_iff.mp begins
      obtain rfl := beq_iff_eq.mp equal
      obtain ⟨outside, visible⟩ := solid c List.mem_cons_self
      obtain ⟨text', rfl, rest⟩ := same.mark visible outside
      obtain ⟨later', rest'⟩ := ih (fun d member => solid d (List.mem_cons_of_mem c member))
        rest later
      exact ⟨Bool.and_eq_true_iff.mpr ⟨equal, later'⟩, rest'⟩

theorem constants_solid :
    ∀ constant ∈ constants, ∀ c ∈ constant.1, isOutside c = true ∧ isBlank c = false := by
  decide

theorem scalar {v : Value} (same : Respaced .outside text text')
    (scanned : JsonDecoder.scalar text = some (v, rest)) :
    ∃ rest', JsonDecoder.scalar text' = some (v, rest') ∧ Respaced .outside rest rest' := by
  have found_same : (constants.find? fun constant => constant.1.isPrefixOf text') =
      constants.find? fun constant => constant.1.isPrefixOf text := by
    refine List.find?_congr fun constant listed => ?_
    have solid := constants_solid constant listed
    refine Bool.eq_iff_iff.mpr ⟨fun begins => ?_, fun begins => ?_⟩
    · exact (same.symm.name solid begins).1
    · exact (same.name solid begins).1
  unfold JsonDecoder.scalar at scanned ⊢
  rw [found_same]
  split at scanned
  · next name constant found =>
    cases scanned
    have solid := constants_solid _ (List.mem_of_find?_eq_some found)
    have begins := List.find?_some found
    exact ⟨_, rfl, (same.name solid begins).2⟩
  · exact same.number scanned

/-- After the blanks stands the same mark. -/
theorem skip_mark (same : Respaced .outside text text') (skipped : skipBlanks text = c :: rest)
    (solid : isBlank c = false) (outside : isOutside c = true) :
    ∃ rest', skipBlanks text' = c :: rest' ∧ Respaced .outside rest rest' := by
  have spaced := same.skip
  rw [skipped] at spaced
  exact spaced.mark solid outside

/-- The mark that stands after the blanks of a text does not stand there by itself in the other. -/
theorem skip_other (same : Respaced .outside text text')
    (other : ∀ rest, skipBlanks text ≠ c :: rest) (solid : isBlank c = false)
    (outside : isOutside c = true) (rest : Str) : skipBlanks text' ≠ c :: rest := by
  intro skipped
  obtain ⟨rest', skipped', -⟩ := same.symm.skip_mark skipped solid outside
  exact other rest' skipped'

/-- The scanners find the same values. -/
theorem parse {fuel : ℕ} {part : Part} (parse : Parse fuel part text rest)
    (same : Respaced .outside text text') :
    ∃ rest', Parse fuel part text' rest' ∧ Respaced .outside rest rest' := by
  induction parse generalizing text' with
  | string scanned =>
    obtain ⟨next, later, read, rfl, inner⟩ := same.uncons (by decide)
    cases read
    obtain ⟨rest', found, spaced⟩ := inner.scanString scanned
    exact ⟨rest', .string found, spaced⟩
  | emptyObject after =>
    obtain ⟨tail, rfl, later⟩ := same.mark (by decide) (by decide)
    obtain ⟨rest', after', spaced⟩ := later.skip_mark after (by decide) (by decide)
    exact ⟨rest', .emptyObject after', spaced⟩
  | object other _ ih =>
    obtain ⟨tail, rfl, later⟩ := same.mark (by decide) (by decide)
    obtain ⟨rest', inner, spaced⟩ := ih later.skip
    exact ⟨rest', .object (later.skip_other other (by decide) (by decide)) inner, spaced⟩
  | emptyArray after =>
    obtain ⟨tail, rfl, later⟩ := same.mark (by decide) (by decide)
    obtain ⟨rest', after', spaced⟩ := later.skip_mark after (by decide) (by decide)
    exact ⟨rest', .emptyArray after', spaced⟩
  | array other _ ih =>
    obtain ⟨tail, rfl, later⟩ := same.mark (by decide) (by decide)
    obtain ⟨rest', inner, spaced⟩ := ih later.skip
    exact ⟨rest', .array (later.skip_other other (by decide) (by decide)) inner, spaced⟩
  | scalar no_quote no_brace no_bracket scanned =>
    obtain ⟨rest', found, spaced⟩ := same.scalar scanned
    refine ⟨rest', .scalar ?_ ?_ ?_ found, spaced⟩
    · rintro tail rfl
      obtain ⟨next, later, -, rfl, -⟩ := same.symm.uncons (by decide)
      exact no_quote later rfl
    · rintro tail rfl
      obtain ⟨later, rfl, -⟩ := same.symm.mark (by decide) (by decide)
      exact no_brace later rfl
    · rintro tail rfl
      obtain ⟨later, rfl, -⟩ := same.symm.mark (by decide) (by decide)
      exact no_bracket later rfl
  | item _ after _ ih_first ih_others =>
    obtain ⟨tail, first, spaced⟩ := ih_first same
    obtain ⟨later, after', spaced⟩ := spaced.skip_mark after (by decide) (by decide)
    obtain ⟨rest', others, spaced⟩ := ih_others spaced.skip
    exact ⟨rest', .item first after' others, spaced⟩
  | lastItem _ after ih_first =>
    obtain ⟨tail, first, spaced⟩ := ih_first same
    obtain ⟨rest', after', spaced⟩ := spaced.skip_mark after (by decide) (by decide)
    exact ⟨rest', .lastItem first after', spaced⟩
  | member named bound _ after _ ih_first ih_others =>
    obtain ⟨next, text', read, rfl, inner⟩ := same.uncons (by decide)
    cases read
    obtain ⟨tail, named', spaced⟩ := inner.scanString named
    obtain ⟨bare, bound', spaced⟩ := spaced.skip_mark bound (by decide) (by decide)
    obtain ⟨tail', first, spaced⟩ := ih_first spaced.skip
    obtain ⟨later, after', spaced⟩ := spaced.skip_mark after (by decide) (by decide)
    obtain ⟨rest', others, spaced⟩ := ih_others spaced.skip
    exact ⟨rest', .member named' bound' first after' others, spaced⟩
  | lastMember named bound _ after ih_first =>
    obtain ⟨next, text', read, rfl, inner⟩ := same.uncons (by decide)
    cases read
    obtain ⟨tail, named', spaced⟩ := inner.scanString named
    obtain ⟨bare, bound', spaced⟩ := spaced.skip_mark bound (by decide) (by decide)
    obtain ⟨tail', first, spaced⟩ := ih_first spaced.skip
    obtain ⟨rest', after', spaced⟩ := spaced.skip_mark after (by decide) (by decide)
    exact ⟨rest', .lastMember named' bound' first after', spaced⟩

/-- A text is accepted with other blanks as well, and gives the same value. -/
theorem loads_skip {v : Value} (same : Respaced .outside (skipBlanks text) (skipBlanks text'))
    (start : text'.head? ≠ some 0xfeff) (loaded : JsonDecoder.loads text = some v) :
    JsonDecoder.loads text' = some v := by
  unfold JsonDecoder.loads at loaded ⊢
  rw [if_neg start]
  split_ifs at loaded
  split at loaded
  · next v' rest found =>
    split_ifs at loaded with finished
    cases loaded
    rw [← value_of_fuel text (2 * text'.length + 1)] at found
    obtain ⟨rest', parse', spaced⟩ := parse (parse_value_iff.mpr found) same
    have found' := parse_value_iff.mp parse'
    have fuel : 2 * text.length + 1 + (2 * text'.length + 1) =
        2 * text'.length + 1 + (2 * text.length + 1) := Nat.add_comm _ _
    rw [fuel, value_of_fuel text'] at found'
    have skipped := spaced.skip
    rw [finished] at skipped
    rw [found']
    exact if_pos skipped.eq_nil
  · cases loaded

end Respaced

end Python.JsonDecoder
