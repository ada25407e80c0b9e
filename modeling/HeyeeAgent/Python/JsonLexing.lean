import HeyeeAgent.Python.JsonGrammar
import Mathlib.Tactic.IntervalCases

/-! # What `json.loads` reads

Where the quotes of a text stand tells its strings apart; a backslash keeps the quote after it from
ending one. Everything between the strings is made of few characters. The scanners read from
outside of the strings to outside of them, and the fuel of `loads` is enough for every text.
-/

namespace Python.JsonDecoder

inductive Phase where
  | outside
  | inside
  | escaped
deriving DecidableEq

/-- The characters between strings. -/
def isOutside (c : ℕ) : Bool :=
  isBlank c || isDigit c || (Str.lit "{}[],:+-.eEnultrfasNIiy").contains c

def lexStep (raw : ℕ → Bool) : Phase → ℕ → Option Phase
  | .outside, c => if c = quote then some .inside else if isOutside c then some .outside else none
  | .inside, c =>
    if c = quote then some .outside
    else if raw c then some (if c = backslash then .escaped else .inside)
    else none
  | .escaped, _ => some .inside

/-- Reads a text; only the characters given may stand inside a string. -/
def lex (raw : ℕ → Bool) (phase : Phase) (text : Str) : Option Phase :=
  text.foldlM (lexStep raw) phase

def anything : ℕ → Bool := fun _ => true

variable {raw : ℕ → Bool} {phase phase' : Phase} {text rest : Str} {c : ℕ}

theorem lex_cons : lex raw phase (c :: text) =
    (lexStep raw phase c).bind fun phase => lex raw phase text := rfl

theorem lex_append (first second : Str) : lex raw phase (first ++ second) =
    (lex raw phase first).bind fun phase => lex raw phase second := by
  unfold lex
  rw [List.foldlM_append]
  rfl

theorem lexStep_anything (read : lexStep raw phase c = some phase') :
    lexStep anything phase c = some phase' := by
  cases phase with
  | outside => exact read
  | escaped => exact read
  | inside =>
    unfold lexStep at read ⊢
    dsimp only at read ⊢
    by_cases closing : c = quote
    · rwa [if_pos closing] at read ⊢
    · rw [if_neg closing] at read ⊢
      split_ifs at read with allowed escaping
      · rw [if_pos (show anything c = true from rfl), if_pos escaping]
        exact read
      · rw [if_pos (show anything c = true from rfl), if_neg escaping]
        exact read

theorem lex_anything (read : lex raw phase text = some phase') :
    lex anything phase text = some phase' := by
  induction text generalizing phase with
  | nil => exact read
  | cons c text ih =>
    rw [lex_cons] at read ⊢
    obtain ⟨middle, first, later⟩ := Option.bind_eq_some_iff.mp read
    rw [lexStep_anything first]
    exact ih later

theorem isOutside_quote : isOutside quote = false := by decide

theorem isOutside_of_isDigit (digit : isDigit c = true) : isOutside c = true := by
  simp [isOutside, digit]

theorem isOutside_of_isBlank (blank : isBlank c = true) : isOutside c = true := by
  simp [isOutside, blank]

theorem lex_outside (outside : ∀ c ∈ text, isOutside c = true) :
    lex raw .outside text = some .outside := by
  induction text with
  | nil => rfl
  | cons c text ih =>
    have first := outside c (List.mem_cons_self)
    have other : c ≠ quote := by
      rintro rfl
      rw [isOutside_quote] at first
      cases first
    rw [lex_cons]
    unfold lexStep
    dsimp only
    rw [if_neg other, if_pos first]
    exact ih fun c member => outside c (List.mem_cons_of_mem _ member)

/-- What a scanner has read of a text: at least `k` characters, from outside of the strings to
outside of them, with a consequence of what stands inside the strings when no escape does. -/
def Reads (k : ℕ) (gives : (ℕ → Bool) → Prop) (text rest : Str) : Prop :=
  ∃ read : Str, k ≤ read.length ∧ text = read ++ rest ∧
    lex anything .outside read = some .outside ∧
    ∀ raw, raw backslash = false → lex raw .outside read = some .outside → gives raw

namespace Reads

variable {k k' : ℕ} {gives gives' : (ℕ → Bool) → Prop} {middle : Str}

theorem outside {read : Str} (outside : ∀ c ∈ read, isOutside c = true) :
    Reads read.length (fun _ => True) (read ++ rest) rest :=
  ⟨read, Nat.le_refl _, rfl, lex_outside outside, fun _ _ _ => trivial⟩

theorem char (outside : isOutside c = true) : Reads 1 (fun _ => True) (c :: rest) rest :=
  ⟨[c], Nat.le_refl _, rfl, lex_outside fun _ member => by rwa [List.mem_singleton.mp member],
    fun _ _ _ => trivial⟩

theorem blanks (text : Str) : Reads 0 (fun _ => True) text (skipBlanks text) := by
  refine ⟨text.takeWhile isBlank, Nat.zero_le _, List.takeWhile_append_dropWhile.symm,
    lex_outside fun c member => ?_, fun _ _ _ => trivial⟩
  exact isOutside_of_isBlank (List.mem_takeWhile_imp member)

theorem mono (reads : Reads k gives text rest) (fewer : k' ≤ k)
    (implies : ∀ raw, gives raw → gives' raw) : Reads k' gives' text rest := by
  obtain ⟨read, length, split, lexed, given⟩ := reads
  exact ⟨read, Nat.le_trans fewer length, split, lexed,
    fun raw plain restricted => implies raw (given raw plain restricted)⟩

/-- One scanner after another. -/
theorem trans (first : Reads k gives text middle) (second : Reads k' gives' middle rest) :
    Reads (k + k') (fun raw => gives raw ∧ gives' raw) text rest := by
  obtain ⟨read, length, split, lexed, given⟩ := first
  obtain ⟨read', length', split', lexed', given'⟩ := second
  refine ⟨read ++ read', ?_, ?_, ?_, ?_⟩
  · rw [List.length_append]
    omega
  · rw [split, split', List.append_assoc]
  · rw [lex_append, lexed]
    exact lexed'
  · intro raw plain restricted
    rw [lex_append] at restricted
    obtain ⟨phase, before, after⟩ := Option.bind_eq_some_iff.mp restricted
    have back := lex_anything before
    rw [lexed, Option.some.injEq] at back
    subst back
    exact ⟨given raw plain before, given' raw plain after⟩

/-- The blanks after what was read -/
theorem skip (reads : Reads k gives text rest) : Reads k gives text (skipBlanks rest) :=
  (reads.trans (.blanks rest)).mono (Nat.le_refl k) fun _ given => given.1

/-- A mark behind the blanks after what was read -/
theorem mark (reads : Reads k gives text middle) (after : skipBlanks middle = c :: rest)
    (outside : isOutside c = true) : Reads (k + 1) gives text rest := by
  have skipped := reads.skip
  rw [after] at skipped
  exact (skipped.trans (.char outside)).mono (Nat.le_refl _) fun _ given => given.1

theorem length (reads : Reads k gives text rest) : rest.length + k ≤ text.length := by
  obtain ⟨read, length, split, -, -⟩ := reads
  rw [split, List.length_append]
  omega

end Reads

section Strings

variable {state : StringState} {units : List (Bool × ℕ)}

/-- The phase of a lexer at a state of the string scanner. -/
def StringState.lexPhase : StringState → Phase
  | .escape => .escaped
  | .plain | .unicode _ _ => .inside

/-- What the string scanner does with a character that does not end the string: the state after it,
and the unit that it gives. -/
inductive UnitStep : StringState → ℕ → StringState → List (Bool × ℕ) → Prop
  | escaping : UnitStep .plain backslash .escape []
  | char {c : ℕ} (closing : c ≠ quote) (escaping : c ≠ backslash) (control : ¬ c < 32) :
      UnitStep .plain c .plain [(false, c)]
  | simple {c unit : ℕ} (simple : simpleEscape c = some unit) :
      UnitStep .escape c .plain [(false, unit)]
  | letter : UnitStep .escape 117 (.unicode 0 0) []
  | digit {count value c digit : ℕ} (more : count ≠ 3) (hex : hexDigit c = some digit) :
      UnitStep (.unicode count value) c (.unicode (count + 1) (value * 16 + digit)) []
  | last {value c digit : ℕ} (hex : hexDigit c = some digit) :
      UnitStep (.unicode 3 value) c .plain [(true, value * 16 + digit)]

theorem UnitStep.scanUnits {state' : StringState} {given : List (Bool × ℕ)}
    (step : UnitStep state c state' given) (later : scanUnits state' text = some (units, rest)) :
    JsonDecoder.scanUnits state (c :: text) = some (given ++ units, rest) := by
  cases step with
  | escaping => exact later
  | char closing escaping control =>
    rw [JsonDecoder.scanUnits, if_neg closing, if_neg escaping, if_neg control, later]
    rfl
  | simple simple =>
    rw [JsonDecoder.scanUnits, simple, later]
    rfl
  | letter => exact later
  | digit more hex =>
    rw [JsonDecoder.scanUnits, hex]
    exact (if_neg more).trans later
  | last hex =>
    rw [JsonDecoder.scanUnits, hex, later]
    rfl

/-- What is read of a string up to its closing quote, one character after the other. -/
inductive ScansUnits : StringState → Str → List (Bool × ℕ) → Prop
  | nil : ScansUnits .plain [] []
  | cons {state state' : StringState} {c : ℕ} {given units : List (Bool × ℕ)} {read : Str}
      (step : UnitStep state c state' given) (later : ScansUnits state' read units) :
      ScansUnits state (c :: read) (given ++ units)

/-- A string ends at its first quote that no backslash precedes. -/
theorem scansUnits_of_scanUnits (scanned : scanUnits state text = some (units, rest)) :
    ∃ read, text = read ++ quote :: rest ∧ ScansUnits state read units := by
  induction text generalizing state units with
  | nil => cases state <;> cases scanned
  | cons c text ih =>
    have next {state' : StringState} {given later : List (Bool × ℕ)}
        (step : UnitStep state c state' given)
        (found : scanUnits state' text = some (later, rest)) :
        ∃ read, c :: text = read ++ quote :: rest ∧ ScansUnits state read (given ++ later) := by
      obtain ⟨read, split, scans⟩ := ih found
      exact ⟨c :: read, congrArg _ split, .cons step scans⟩
    cases state with
    | plain =>
      unfold scanUnits at scanned
      split_ifs at scanned with closing escaping control
      · cases scanned
        subst closing
        exact ⟨[], rfl, .nil⟩
      · subst escaping
        exact next .escaping scanned
      · obtain ⟨⟨later, rest'⟩, found, same⟩ := Option.map_eq_some_iff.mp scanned
        cases same
        exact next (.char closing escaping control) found
    | escape =>
      unfold scanUnits at scanned
      cases simple : simpleEscape c with
      | some unit =>
        rw [simple] at scanned
        obtain ⟨⟨later, rest'⟩, found, same⟩ := Option.map_eq_some_iff.mp scanned
        cases same
        exact next (.simple simple) found
      | none =>
        rw [simple] at scanned
        dsimp only at scanned
        split_ifs at scanned with letter
        subst letter
        exact next .letter scanned
    | unicode count value =>
      unfold scanUnits at scanned
      cases hex : hexDigit c with
      | none =>
        rw [hex] at scanned
        cases scanned
      | some digit =>
        rw [hex] at scanned
        dsimp only at scanned
        split_ifs at scanned with last
        · subst last
          obtain ⟨⟨later, rest'⟩, found, same⟩ := Option.map_eq_some_iff.mp scanned
          cases same
          exact next (.last hex) found
        · exact next (.digit last hex) scanned

theorem ScansUnits.scanUnits {read : Str} (scans : ScansUnits state read units) (rest : Str) :
    JsonDecoder.scanUnits state (read ++ quote :: rest) = some (units, rest) := by
  induction scans with
  | nil => rfl
  | cons step _ ih => exact step.scanUnits ih

theorem simpleEscape_printable {unit : ℕ} (simple : simpleEscape c = some unit) : 32 ≤ c := by
  by_contra control
  have small : c < 32 := by omega
  interval_cases c <;> cases simple

theorem hexDigit_bounds {digit : ℕ} (hex : hexDigit c = some digit) :
    32 ≤ c ∧ c ≠ quote ∧ c ≠ backslash := by
  change 32 ≤ c ∧ c ≠ 34 ∧ c ≠ 92
  unfold hexDigit at hex
  split_ifs at hex with decimal lower upper
  · simp only [isDigit, Bool.and_eq_true, decide_eq_true_eq] at decimal
    omega
  · omega
  · omega

/-- The lexer is in the phase of the scanner's state. -/
theorem UnitStep.lexStep {state' : StringState} {given : List (Bool × ℕ)}
    (step : UnitStep state c state' given) :
    JsonDecoder.lexStep anything state.lexPhase c = some state'.lexPhase := by
  have inside {c : ℕ} (closing : c ≠ quote) (escaping : c ≠ backslash) :
      JsonDecoder.lexStep anything .inside c = some .inside := by
    unfold JsonDecoder.lexStep
    dsimp only
    rw [if_neg closing, if_pos (show anything c = true from rfl), if_neg escaping]
  cases step with
  | escaping => rfl
  | char closing escaping _ => exact inside closing escaping
  | simple _ => rfl
  | letter => rfl
  | digit _ hex =>
    obtain ⟨-, closing, escaping⟩ := hexDigit_bounds hex
    exact inside closing escaping
  | last hex =>
    obtain ⟨-, closing, escaping⟩ := hexDigit_bounds hex
    exact inside closing escaping

theorem ScansUnits.lex {read : Str} (scans : ScansUnits state read units) :
    JsonDecoder.lex anything state.lexPhase read = some .inside := by
  induction scans with
  | nil => rfl
  | cons step _ ih =>
    rw [lex_cons, step.lexStep]
    exact ih

/-- Without a backslash the units are the characters. -/
theorem ScansUnits.units_raw {read : Str} (scans : ScansUnits state read units)
    (unescaped : raw backslash = false) (plain : state = .plain)
    (restricted : JsonDecoder.lex raw .inside read = some .inside) :
    ∀ unit ∈ units, unit.1 = false ∧ raw unit.2 = true := by
  induction scans with
  | nil => exact List.forall_mem_nil _
  | cons step _ ih =>
    rw [lex_cons] at restricted
    obtain ⟨phase, allowed, later⟩ := Option.bind_eq_some_iff.mp restricted
    unfold JsonDecoder.lexStep at allowed
    dsimp only at allowed
    cases step with
    | escaping =>
      rw [if_neg (by decide), unescaped] at allowed
      cases allowed
    | char closing escaping _ =>
      rw [if_neg closing] at allowed
      split_ifs at allowed with known
      cases allowed
      exact List.forall_mem_cons.mpr ⟨⟨rfl, known⟩, ih rfl later⟩
    | simple | letter | digit | last => cases plain

/-- Characters that no `\u` escape gave stay as they are. -/
theorem joinPairs_plain (plain : ∀ unit ∈ units, unit.1 = false) :
    joinPairs units = units.map Prod.snd := by
  induction units with
  | nil => rfl
  | cons unit units ih =>
    obtain ⟨escaped, c⟩ := unit
    obtain rfl : escaped = false := plain _ List.mem_cons_self
    have later := ih fun unit member => plain unit (List.mem_cons_of_mem _ member)
    simpa [joinPairs] using later

/-- A whole string, with its two quotes. -/
theorem scanString_reads {key : Str} (scanned : scanString text = some (key, rest)) :
    Reads 2 (fun raw => ∀ c ∈ key, raw c = true) (quote :: text) rest := by
  obtain ⟨⟨units, rest'⟩, found, same⟩ := Option.map_eq_some_iff.mp scanned
  cases same
  obtain ⟨read, split, scans⟩ := scansUnits_of_scanUnits found
  have lexed : lex anything .inside read = some .inside := scans.lex
  refine ⟨quote :: (read ++ [quote]), ?_, ?_, ?_, ?_⟩
  · simp
  · simp [split]
  · rw [lex_cons, Option.bind_eq_some_iff]
    refine ⟨.inside, rfl, ?_⟩
    rw [lex_append, lexed]
    rfl
  · intro raw plain restricted c member
    rw [lex_cons, Option.bind_eq_some_iff] at restricted
    obtain ⟨_, opened, restricted⟩ := restricted
    cases opened
    rw [lex_append] at restricted
    obtain ⟨phase, inner, closed⟩ := Option.bind_eq_some_iff.mp restricted
    have back := lex_anything inner
    rw [lexed, Option.some.injEq] at back
    subst back
    have known := scans.units_raw plain rfl inner
    rw [joinPairs_plain fun unit member => (known unit member).1] at member
    obtain ⟨unit, listed, rfl⟩ := List.mem_map.mp member
    exact (known unit listed).2

end Strings

section Scalars

/-- A scanner has read characters that stand outside of strings. -/
def ReadsOutside (text rest : Str) : Prop :=
  ∃ read, text = read ++ rest ∧ ∀ c ∈ read, isOutside c = true

theorem ReadsOutside.refl (text : Str) : ReadsOutside text text := ⟨[], rfl, nofun⟩

theorem ReadsOutside.trans {middle : Str} (first : ReadsOutside text middle)
    (second : ReadsOutside middle rest) : ReadsOutside text rest := by
  obtain ⟨read, split, outside⟩ := first
  obtain ⟨read', split', outside'⟩ := second
  refine ⟨read ++ read', by rw [split, split', List.append_assoc], fun c member => ?_⟩
  rcases List.mem_append.mp member with before | after
  · exact outside c before
  · exact outside' c after

theorem ReadsOutside.cons (outside : isOutside c = true) (later : ReadsOutside text rest) :
    ReadsOutside (c :: text) rest := by
  obtain ⟨read, split, all⟩ := later
  refine ⟨c :: read, congrArg _ split, fun d member => ?_⟩
  rcases List.mem_cons.mp member with rfl | member
  · exact outside
  · exact all d member

/-- The characters of scalars, which are no marks. -/
def isScalar (c : ℕ) : Bool := isDigit c || (Str.lit "+-.eEnultrfasNIiy").contains c

theorem isOutside_of_isScalar (scalar : isScalar c = true) : isOutside c = true := by
  unfold isScalar at scalar
  rw [Bool.or_eq_true] at scalar
  rcases scalar with digit | letter
  · exact isOutside_of_isDigit digit
  · have letters : ∀ d ∈ Str.lit "+-.eEnultrfasNIiy", isOutside d = true := by decide
    exact letters c (by simpa using letter)

/-- A scanner has read characters of scalars. -/
def ReadsScalar (text rest : Str) : Prop :=
  ∃ read, text = read ++ rest ∧ ∀ c ∈ read, isScalar c = true

theorem ReadsScalar.refl (text : Str) : ReadsScalar text text :=
  ⟨[], rfl, fun _ member => absurd member List.not_mem_nil⟩

theorem ReadsScalar.trans {middle : Str} (first : ReadsScalar text middle)
    (second : ReadsScalar middle rest) : ReadsScalar text rest := by
  obtain ⟨read, split, scalar⟩ := first
  obtain ⟨read', split', scalar'⟩ := second
  refine ⟨read ++ read', by rw [split, split', List.append_assoc], fun c member => ?_⟩
  exact (List.mem_append.mp member).elim (scalar c) (scalar' c)

theorem ReadsScalar.cons (scalar : isScalar c = true) (later : ReadsScalar text rest) :
    ReadsScalar (c :: text) rest := by
  obtain ⟨read, split, all⟩ := later
  exact ⟨c :: read, congrArg _ split, List.forall_mem_cons.mpr ⟨scalar, all⟩⟩

theorem ReadsScalar.outside (reads : ReadsScalar text rest) : ReadsOutside text rest := by
  obtain ⟨read, split, scalar⟩ := reads
  exact ⟨read, split, fun c member => isOutside_of_isScalar (scalar c member)⟩

theorem digits_readsScalar (text : Str) : ReadsScalar text (digits text).2 := by
  refine ⟨text.takeWhile isDigit, List.takeWhile_append_dropWhile.symm, fun c member => ?_⟩
  rw [isScalar, List.mem_takeWhile_imp member, Bool.true_or]

theorem sign_readsScalar {signs : Str} (scalar : ∀ c ∈ signs, isScalar c = true) (text : Str) :
    ReadsScalar text (sign signs text).2 := by
  unfold sign
  split
  · next c rest =>
    split_ifs with signed
    · exact .cons (scalar c (by simpa using signed)) (.refl _)
    · exact .refl _
  · exact .refl _

theorem fraction_readsScalar (text : Str) : ReadsScalar text (fraction text).2 := by
  unfold fraction
  split
  · next rest =>
    dsimp only
    split_ifs
    · exact .refl _
    · exact .cons (by decide) (digits_readsScalar rest)
  · exact .refl _

theorem exponent_readsScalar (text : Str) : ReadsScalar text (exponent text).2 := by
  unfold exponent
  split
  · next e rest =>
    dsimp only
    split_ifs with marked
    · exact .refl _
    · apply ReadsScalar.cons
      · rcases marked with rfl | rfl <;> decide
      · exact (sign_readsScalar (by decide) rest).trans (digits_readsScalar _)
    · exact .refl _
  · exact .refl _

/-- The integer part reads what it returns. -/
theorem integer_reads (text : Str) :
    ReadsScalar text (integer text).2 ∧
      (integer text).2.length + (integer text).1.length = text.length := by
  unfold integer
  split
  · exact ⟨.cons (by decide) (.refl _), rfl⟩
  · refine ⟨digits_readsScalar _, ?_⟩
    have parts := congrArg List.length (List.takeWhile_append_dropWhile (p := isDigit) (l := text))
    rw [List.length_append] at parts
    unfold digits
    dsimp only
    omega

theorem ReadsScalar.length (reads : ReadsScalar text rest) : rest.length ≤ text.length := by
  obtain ⟨read, rfl, -⟩ := reads
  rw [List.length_append]
  omega

/-- A number reads at least one character, and none of a string. -/
theorem number_reads {value : Value} (scanned : number text = some (value, rest)) :
    ReadsScalar text rest ∧ rest.length < text.length ∧ ∃ text, value = .number text := by
  unfold number at scanned
  dsimp only at scanned
  split_ifs at scanned with empty
  cases scanned
  have signed := sign_readsScalar (by decide : ∀ c ∈ ([45] : Str), isScalar c = true) text
  obtain ⟨whole, length⟩ := integer_reads (sign [45] text).2
  have fractional := fraction_readsScalar (integer (sign [45] text).2).2
  have scaled := exponent_readsScalar (fraction (integer (sign [45] text).2).2).2
  refine ⟨((signed.trans whole).trans fractional).trans scaled, ?_, _, rfl⟩
  have first := signed.length
  have third := fractional.length
  have fourth := scaled.length
  have some_digit := List.length_pos_iff.mpr empty
  omega

theorem scalar_readsScalar {value : Value} (scanned : scalar text = some (value, rest)) :
    ReadsScalar text rest := by
  unfold scalar at scanned
  split at scanned
  · next name constant found =>
    cases scanned
    have listed := List.mem_of_find?_eq_some found
    have fits := List.find?_some found
    obtain ⟨later, rfl⟩ := List.isPrefixOf_iff_prefix.mp fits
    have known : ∀ constant ∈ constants, ∀ c ∈ constant.1, isScalar c = true := by decide
    rw [List.drop_left]
    exact ⟨name, rfl, known _ listed⟩
  · exact (number_reads scanned).1

theorem scalar_reads {value : Value} (scanned : scalar text = some (value, rest)) :
    ReadsOutside text rest ∧ rest.length < text.length ∧ ∀ fields, value ≠ .obj fields := by
  refine ⟨(scalar_readsScalar scanned).outside, ?_⟩
  unfold scalar at scanned
  split at scanned
  · next name constant found =>
    cases scanned
    have listed := List.mem_of_find?_eq_some found
    have fits := List.find?_some found
    obtain ⟨later, rfl⟩ := List.isPrefixOf_iff_prefix.mp fits
    have known : ∀ constant ∈ constants, constant.1 ≠ [] := by decide
    have valued : ∀ constant ∈ constants, ∀ fields, constant.2 ≠ .obj fields := by
      simp [constants]
    have positive : 0 < name.length := List.length_pos_iff.mpr (known _ listed)
    rw [List.drop_left]
    refine ⟨?_, valued _ listed⟩
    change later.length < (name ++ later).length
    rw [List.length_append]
    omega
  · obtain ⟨-, shorter, text, rfl⟩ := number_reads scanned
    exact ⟨shorter, nofun⟩

/-- A scalar as a part of a text. -/
theorem Reads.scalar {value : Value} {gives : (ℕ → Bool) → Prop}
    (scanned : scalar text = some (value, rest)) (given : ∀ raw, gives raw) :
    Reads 1 gives text rest := by
  obtain ⟨⟨read, rfl, outside⟩, shorter, -⟩ := scalar_reads scanned
  rw [List.length_append] at shorter
  exact (Reads.outside outside).mono (by omega) fun raw _ => given raw

end Scalars

section Values

variable {fuel : ℕ}

/-- The characters of the keys of an object. -/
def Keys (fields : List (Str × Value)) (raw : ℕ → Bool) : Prop :=
  ∀ field ∈ fields, ∀ c ∈ field.1, raw c = true

def Value.Keys (value : Value) (raw : ℕ → Bool) : Prop :=
  ∀ fields, value = .obj fields → JsonDecoder.Keys fields raw

/-- What the text without its escapes tells of the part. -/
def Part.Keys (raw : ℕ → Bool) : Part → Prop
  | value v => v.Keys raw
  | elements _ => True
  | members fields => JsonDecoder.Keys fields raw

/-- The scanners read whole values. -/
theorem Parse.reads {part : Part} (parse : Parse fuel part text rest) :
    Reads 1 (fun raw => part.Keys raw) text rest := by
  induction parse with
  | string scanned => exact (scanString_reads scanned).mono (by omega) fun _ _ _ => nofun
  | emptyObject after =>
    refine ((Reads.char (by decide)).mark after (by decide)).mono (by omega) ?_
    rintro - - fields ⟨⟩
    exact List.forall_mem_nil _
  | object _ _ inner =>
    refine ((Reads.char (by decide)).skip.trans inner).mono (by omega) ?_
    rintro raw ⟨-, keys⟩ fields ⟨⟩
    exact keys
  | emptyArray after =>
    exact ((Reads.char (by decide)).mark after (by decide)).mono (by omega) fun _ _ _ => nofun
  | array _ _ inner =>
    exact ((Reads.char (by decide)).skip.trans inner).mono (by omega) fun _ _ _ => nofun
  | scalar _ _ _ scanned =>
    obtain ⟨-, -, other⟩ := scalar_reads scanned
    exact .scalar scanned fun _ fields same => absurd same (other fields)
  | item _ after _ first others =>
    exact ((first.mark after (by decide)).skip.trans others).mono (by omega) fun _ _ => trivial
  | lastItem _ after first =>
    exact (first.mark after (by decide)).mono (by omega) fun _ _ => trivial
  | member named bound _ after _ first others =>
    have named := ((scanString_reads named).mark bound (by decide)).skip
    have member := ((named.trans first).mark after (by decide)).skip
    refine (member.trans others).mono (by omega) ?_
    rintro raw ⟨⟨key, -⟩, keys⟩
    exact List.forall_mem_cons.mpr ⟨key, keys⟩
  | lastMember named bound _ after first =>
    have named := ((scanString_reads named).mark bound (by decide)).skip
    refine ((named.trans first).mark after (by decide)).mono (by omega) ?_
    rintro raw ⟨key, -⟩
    exact List.forall_mem_singleton.mpr key

theorem length_skipBlanks (text : Str) : (skipBlanks text).length ≤ text.length :=
  (Reads.blanks text).length

/-- The characters up to the blanks after a mark -/
theorem Reads.length_mark {gives : (ℕ → Bool) → Prop} {k : ℕ} {middle : Str}
    (reads : Reads k gives text middle) (after : skipBlanks middle = c :: rest)
    (outside : isOutside c = true) : (skipBlanks rest).length + (k + 1) ≤ text.length :=
  (reads.mark after outside).skip.length

/-- The fuel that is enough: an array or object takes its bracket before it takes two units for an
item. -/
def Part.neededFuel (text : Str) : Part → ℕ
  | value _ => 2 * text.length + 1
  | elements _ | members _ => 2 * text.length + 2

theorem Part.exists_fuel {part : Part} (enough : part.neededFuel text ≤ fuel) :
    ∃ less, fuel = less + 1 := by
  refine Nat.exists_eq_add_one.mpr (Nat.lt_of_lt_of_le ?_ enough)
  cases part <;> exact Nat.succ_pos _

/-- With a fuel that is enough the scanners read what they read with any other. -/
theorem Parse.refuel {part : Part} (parse : Parse fuel part text rest) {fuel' : ℕ}
    (enough : part.neededFuel text ≤ fuel') : Parse fuel' part text rest := by
  induction parse generalizing fuel' with
  | string scanned =>
    obtain ⟨less, rfl⟩ := Part.exists_fuel enough
    exact .string scanned
  | emptyObject after =>
    obtain ⟨less, rfl⟩ := Part.exists_fuel enough
    exact .emptyObject after
  | @object _ text _ _ other _ ih =>
    obtain ⟨less, rfl⟩ := Part.exists_fuel enough
    have blanks := length_skipBlanks text
    simp only [Part.neededFuel, List.length_cons] at enough ih
    exact .object other (ih (by omega))
  | emptyArray after =>
    obtain ⟨less, rfl⟩ := Part.exists_fuel enough
    exact .emptyArray after
  | @array _ text _ _ other _ ih =>
    obtain ⟨less, rfl⟩ := Part.exists_fuel enough
    have blanks := length_skipBlanks text
    simp only [Part.neededFuel, List.length_cons] at enough ih
    exact .array other (ih (by omega))
  | scalar no_quote no_brace no_bracket scanned =>
    obtain ⟨less, rfl⟩ := Part.exists_fuel enough
    exact .scalar no_quote no_brace no_bracket scanned
  | item first after _ ih_first ih_others =>
    obtain ⟨less, rfl⟩ := Part.exists_fuel enough
    have shorter := first.reads.length_mark after (by decide)
    simp only [Part.neededFuel] at enough ih_first ih_others
    exact .item (ih_first (by omega)) after (ih_others (by omega))
  | lastItem _ after ih_first =>
    obtain ⟨less, rfl⟩ := Part.exists_fuel enough
    simp only [Part.neededFuel] at enough ih_first
    exact .lastItem (ih_first (by omega)) after
  | member named bound first after _ ih_first ih_others =>
    obtain ⟨less, rfl⟩ := Part.exists_fuel enough
    have shorter := (scanString_reads named).length_mark bound (by decide)
    have shorter' := first.reads.length_mark after (by decide)
    simp only [Part.neededFuel] at enough ih_first ih_others
    exact .member named bound (ih_first (by omega)) after (ih_others (by omega))
  | lastMember named bound _ after ih_first =>
    obtain ⟨less, rfl⟩ := Part.exists_fuel enough
    have shorter := (scanString_reads named).length_mark bound (by decide)
    simp only [Part.neededFuel] at enough ih_first
    exact .lastMember named bound (ih_first (by omega)) after

/-- The fuel of `loads` never runs out. -/
theorem value_of_fuel (text : Str) (more : ℕ) :
    value (2 * text.length + 1 + more) (skipBlanks text) =
      value (2 * text.length + 1) (skipBlanks text) := by
  have blanks := length_skipBlanks text
  have enough (v : Value) : (Part.value v).neededFuel (skipBlanks text) ≤ 2 * text.length + 1 := by
    change 2 * (skipBlanks text).length + 1 ≤ _
    omega
  apply Option.ext
  rintro ⟨v, rest⟩
  rw [← parse_value_iff, ← parse_value_iff]
  constructor
  · exact fun parse => parse.refuel (enough v)
  · exact fun parse => parse.refuel (Nat.le_add_right_of_le (enough v))

/-- A text that `loads` accepts is read from outside of strings to outside of them; if it has no
escape, the keys of an object are made of the characters inside its strings. -/
theorem loads_reads {v : Value} (loaded : loads text = some v) :
    lex anything .outside text = some .outside ∧
      ∀ raw, raw backslash = false → lex raw .outside text = some .outside → v.Keys raw := by
  unfold loads at loaded
  split_ifs at loaded
  split at loaded
  · next v' rest found =>
    split_ifs at loaded with finished
    cases loaded
    have blanks := Reads.blanks rest
    rw [finished] at blanks
    have reads := (parse_value_iff.mpr found).reads
    obtain ⟨read, -, split, lexed, given⟩ := ((Reads.blanks text).trans reads).trans blanks
    rw [List.append_nil] at split
    subst split
    exact ⟨lexed, fun raw plain restricted => (given raw plain restricted).1.2⟩
  · cases loaded

end Values

end Python.JsonDecoder
