import HeyeeAgent.Python.JsonSpacing

/-! # The brackets of a JSON text

A text is read with the number of its open brackets. What the scanners of `json.loads` read of it
leaves as many brackets open as there were, and closes none that were open before. The reading allows
more than the scanners do: it tells strings apart, and wants a mark between a string and what
follows it.
-/

namespace Python.JsonDecoder

open Python

section Track

/-- Where a text is read: elsewhere than in a string, behind a string, or in one. -/
inductive Place where
  | outside
  | closed
  | inside
  | escaped
deriving DecidableEq

/-- A value may have ended here. -/
def Place.Ended (place : Place) : Prop := place = .outside ∨ place = .closed

/-- Reads a character outside of strings. -/
def markStep (place : Place) (depth c : ℕ) : Option (Place × ℕ) :=
  if c = openBracket ∨ c = openBrace then
    if place = .outside then some (.outside, depth + 1) else none
  else if c = closeBracket ∨ c = closeBrace then
    if 0 < depth then some (.outside, depth - 1) else none
  else if c = comma ∨ c = colon then some (.outside, depth)
  else if isBlank c then some (place, depth)
  else if place ≠ .outside then none
  else if c = quote then some (.inside, depth)
  else if isOutside c then some (.outside, depth)
  else none

/-- Reads a character, with the number of open brackets. -/
def trackStep (at_ : Place × ℕ) (c : ℕ) : Option (Place × ℕ) :=
  match at_ with
  | (.outside, depth) => markStep .outside depth c
  | (.closed, depth) => markStep .closed depth c
  | (.inside, depth) =>
    some (if c = quote then .closed else if c = backslash then .escaped else .inside, depth)
  | (.escaped, depth) => some (.inside, depth)

def track (at_ : Place × ℕ) (text : Str) : Option (Place × ℕ) := text.foldlM trackStep at_

variable {at_ next : Place × ℕ} {place place' : Place} {depth depth' c : ℕ}
  {text rest run : Str}

@[simp] theorem track_nil (at_ : Place × ℕ) : track at_ [] = some at_ := rfl

theorem track_cons : track at_ (c :: text) = (trackStep at_ c).bind fun next => track next text := rfl

theorem track_append (first second : Str) : track at_ (first ++ second) =
    (track at_ first).bind fun next => track next second := by
  unfold track
  rw [List.foldlM_append]
  rfl

/-- Brackets that are open all the time do not matter. -/
theorem markStep_shift (more : ℕ) (read : markStep place depth c = some (place', depth')) :
    markStep place (depth + more) c = some (place', depth' + more) := by
  unfold markStep at read ⊢
  split_ifs at read with opening free closing covered mark blank other quoted outside <;> cases read
  · rw [if_pos opening, if_pos free, Nat.add_right_comm]
  · rw [if_neg opening, if_pos closing, if_pos (Nat.add_pos_left covered more),
      Nat.sub_add_comm covered]
  · rw [if_neg opening, if_neg closing, if_pos mark]
  · rw [if_neg opening, if_neg closing, if_neg mark, if_pos blank]
  · rw [if_neg opening, if_neg closing, if_neg mark, if_neg blank, if_neg other, if_pos quoted]
  · rw [if_neg opening, if_neg closing, if_neg mark, if_neg blank, if_neg other, if_neg quoted,
      if_pos outside]

theorem trackStep_shift (more : ℕ) (read : trackStep (place, depth) c = some (place', depth')) :
    trackStep (place, depth + more) c = some (place', depth' + more) := by
  cases place with
  | outside => exact markStep_shift more read
  | closed => exact markStep_shift more read
  | inside =>
    cases read
    rfl
  | escaped =>
    cases read
    rfl

theorem track_shift (more : ℕ) (read : track (place, depth) text = some (place', depth')) :
    track (place, depth + more) text = some (place', depth' + more) := by
  induction text generalizing place depth with
  | nil =>
    cases read
    rfl
  | cons c text ih =>
    rw [track_cons] at read ⊢
    obtain ⟨⟨middle, between⟩, first, later⟩ := Option.bind_eq_some_iff.mp read
    rw [trackStep_shift more first]
    exact ih later

theorem track_blanks (blank : ∀ c ∈ run, isBlank c = true) (ended : place.Ended) (depth : ℕ) :
    track (place, depth) run = some (place, depth) := by
  induction run with
  | nil => rfl
  | cons c run ih =>
    obtain ⟨first, later⟩ := List.forall_mem_cons.mp blank
    have step : trackStep (place, depth) c = some (place, depth) := by
      unfold isBlank at first
      simp only [Bool.or_eq_true, beq_iff_eq] at first
      rcases ended with rfl | rfl <;> rcases first with ((rfl | rfl) | rfl) | rfl <;> rfl
    rw [track_cons, step]
    exact ih later

end Track

section Balanced

variable {text rest run first second : Str} {c : ℕ}

/-- The text leaves as many brackets open as there were, outside of strings. -/
def Balanced (text : Str) : Prop :=
  ∃ place, place.Ended ∧ track (.outside, 0) text = some (place, 0)

theorem Balanced.above (balanced : Balanced text) (depth : ℕ) :
    ∃ place, place.Ended ∧ track (.outside, depth) text = some (place, depth) := by
  obtain ⟨place, ended, read⟩ := balanced
  have shifted := track_shift depth read
  rw [Nat.zero_add] at shifted
  exact ⟨place, ended, shifted⟩

theorem balanced_blanks (blank : ∀ c ∈ run, isBlank c = true) : Balanced run :=
  ⟨.outside, .inl rfl, track_blanks blank (.inl rfl) 0⟩

theorem Balanced.append_blanks (balanced : Balanced text) (blank : ∀ c ∈ run, isBlank c = true) :
    Balanced (text ++ run) := by
  obtain ⟨place, ended, read⟩ := balanced
  refine ⟨place, ended, ?_⟩
  rw [track_append, read]
  exact track_blanks blank ended 0

theorem Balanced.blanks_append (balanced : Balanced text) (blank : ∀ c ∈ run, isBlank c = true) :
    Balanced (run ++ text) := by
  obtain ⟨place, ended, read⟩ := balanced
  refine ⟨place, ended, ?_⟩
  rw [track_append, track_blanks blank (.inl rfl)]
  exact read

/-- A comma or a colon between two parts -/
theorem track_mark (balanced : Balanced first) (mark : c = comma ∨ c = colon) (depth : ℕ) :
    track (.outside, depth) (first ++ [c]) = some (.outside, depth) := by
  obtain ⟨place, ended, read⟩ := balanced.above depth
  rw [track_append, read]
  rcases ended with rfl | rfl <;> rcases mark with rfl | rfl <;> rfl

theorem Balanced.mark (balanced : Balanced first) (mark : c = comma ∨ c = colon)
    (later : Balanced second) : Balanced (first ++ c :: second) := by
  obtain ⟨place, ended, read⟩ := later
  refine ⟨place, ended, ?_⟩
  rw [List.append_cons, track_append, track_mark balanced mark]
  exact read

/-- A closing bracket after a part -/
theorem track_close (balanced : Balanced text) (closing : c = closeBracket ∨ c = closeBrace)
    (depth : ℕ) :
    track (.outside, depth + 1) (text ++ [c]) = some (.outside, depth) := by
  obtain ⟨place, ended, read⟩ := balanced.above (depth + 1)
  rw [track_append, read]
  rcases ended with rfl | rfl <;> rcases closing with rfl | rfl <;> rfl

theorem track_close_first (balanced : Balanced text)
    (closing : c = closeBracket ∨ c = closeBrace) :
    track (.outside, 0) (text ++ [c]) = none := by
  obtain ⟨place, ended, read⟩ := balanced
  rw [track_append, read]
  rcases ended with rfl | rfl <;> rcases closing with rfl | rfl <;> rfl

theorem Balanced.array (balanced : Balanced text) :
    Balanced (openBracket :: (text ++ [closeBracket])) :=
  ⟨.outside, .inl rfl, track_close balanced (.inl rfl) 0⟩

theorem Balanced.object (balanced : Balanced text) :
    Balanced (openBrace :: (text ++ [closeBrace])) :=
  ⟨.outside, .inl rfl, track_close balanced (.inr rfl) 0⟩

/-- A whole text of characters that are no brackets -/
theorem balanced_outside (outside : ∀ c ∈ text, isOutside c = true ∧
    ¬ (c = openBracket ∨ c = openBrace) ∧ ¬ (c = closeBracket ∨ c = closeBrace)) :
    Balanced text := by
  refine ⟨.outside, .inl rfl, ?_⟩
  induction text with
  | nil => rfl
  | cons c text ih =>
    obtain ⟨⟨allowed, opening, closing⟩, later⟩ := List.forall_mem_cons.mp outside
    have quoted : c ≠ quote := by
      rintro rfl
      cases allowed
    have step : trackStep (.outside, 0) c = some (.outside, 0) := by
      change markStep .outside 0 c = some (.outside, 0)
      unfold markStep
      rw [if_neg opening, if_neg closing, if_neg (not_not_intro rfl), if_neg quoted, if_pos allowed,
        ite_self, ite_self]
    rw [track_cons, step]
    exact ih later

end Balanced

section Strings

variable {state : StringState} {units : List (Bool × ℕ)} {text rest : Str}

def StringState.place : StringState → Place
  | .escape => .escaped
  | .plain | .unicode _ _ => .inside

theorem track_inside {c : ℕ} (closing : c ≠ quote) (escaping : c ≠ backslash) (depth : ℕ) :
    trackStep (.inside, depth) c = some (.inside, depth) := by
  unfold trackStep
  rw [if_neg closing, if_neg escaping]

theorem UnitStep.trackStep {state' : StringState} {c : ℕ} {given : List (Bool × ℕ)}
    (step : UnitStep state c state' given) :
    JsonDecoder.trackStep (state.place, 0) c = some (state'.place, 0) := by
  cases step with
  | escaping => rfl
  | char closing escaping _ => exact track_inside closing escaping 0
  | simple _ => rfl
  | letter => rfl
  | digit _ hex =>
    obtain ⟨-, closing, escaping⟩ := hexDigit_bounds hex
    exact track_inside closing escaping 0
  | last hex =>
    obtain ⟨-, closing, escaping⟩ := hexDigit_bounds hex
    exact track_inside closing escaping 0

theorem ScansUnits.track {read : Str} (scans : ScansUnits state read units) :
    JsonDecoder.track (state.place, 0) read = some (.inside, 0) := by
  induction scans with
  | nil => rfl
  | cons step _ ih =>
    rw [track_cons, step.trackStep]
    exact ih

/-- A bracket in a string stands for itself. -/
theorem ScansUnits.bracket {read : Str} (scans : ScansUnits state read units)
    (bracket : openBracket ∈ read) : (false, openBracket) ∈ units := by
  induction scans with
  | nil => cases bracket
  | cons step _ ih =>
    rcases List.mem_cons.mp bracket with rfl | later
    · refine List.mem_append_left _ ?_
      cases step with
      | char => exact List.mem_cons_self
      | simple simple => cases simple
      | digit _ hex | last hex => cases hex
    · exact List.mem_append_right _ (ih later)

/-- A unit that no escape of a code point gives is a character of the string. -/
theorem mem_joinPairs {c : ℕ} (member : (false, c) ∈ units) : c ∈ joinPairs units := by
  induction units using joinPairs.induct with
  | case1 => cases member
  | case2 high low units pair ih =>
    rw [joinPairs, if_pos pair]
    refine List.mem_cons_of_mem _ (ih ?_)
    have later := (List.mem_cons.mp member).resolve_left (by rintro ⟨⟩)
    exact (List.mem_cons.mp later).resolve_left (by rintro ⟨⟩)
  | case3 high low units pair ih =>
    rw [joinPairs, if_neg pair]
    exact List.mem_cons_of_mem _ (ih ((List.mem_cons.mp member).resolve_left (by rintro ⟨⟩)))
  | case4 escaped c' units single ih =>
    rw [joinPairs.eq_3 _ _ _ single]
    rcases List.mem_cons.mp member with same | member
    · cases same
      exact List.mem_cons_self
    · exact List.mem_cons_of_mem _ (ih member)

/-- A whole string, with its two quotes -/
theorem scanString_balanced {key : Str} (scanned : scanString text = some (key, rest)) :
    ∃ body, text = body ++ quote :: rest ∧ Balanced (quote :: (body ++ [quote])) ∧
      (openBracket ∈ body → openBracket ∈ key) := by
  obtain ⟨⟨units, rest'⟩, found, same⟩ := Option.map_eq_some_iff.mp scanned
  cases same
  obtain ⟨body, split, scans⟩ := scansUnits_of_scanUnits found
  refine ⟨body, split, ⟨.closed, .inr rfl, ?_⟩, fun member => mem_joinPairs (scans.bracket member)⟩
  change track (.inside, 0) (body ++ [quote]) = some (.closed, 0)
  rw [track_append]
  change (track (StringState.plain.place, 0) body).bind _ = _
  rw [scans.track]
  rfl

end Strings

section Scalars

variable {text rest : Str}

theorem scalar_balanced {v : Value} (scanned : scalar text = some (v, rest)) :
    ∃ read, text = read ++ rest ∧ Balanced read := by
  obtain ⟨read, split, scalars⟩ := scalar_readsScalar scanned
  refine ⟨read, split, balanced_outside fun c member => ⟨isOutside_of_isScalar (scalars c member), ?_⟩⟩
  have scalar := scalars c member
  constructor
  · rintro (rfl | rfl) <;> cases scalar
  · rintro (rfl | rfl) <;> cases scalar

end Scalars

section Values

variable {text rest : Str} {fuel : ℕ} {v : Value}

/-- The blanks before what stands after them -/
theorem blanks_of_skip {later : Str} (skipped : skipBlanks text = later) :
    ∃ run, (∀ c ∈ run, isBlank c = true) ∧ text = run ++ later := by
  refine ⟨text.takeWhile isBlank, fun _ => List.mem_takeWhile_imp, ?_⟩
  rw [← skipped]
  exact List.takeWhile_append_dropWhile.symm

/-- The bracket behind the items or the members -/
def Part.closing : Part → Str
  | value _ => []
  | elements _ => [closeBracket]
  | members _ => [closeBrace]

/-- What the scanners read is balanced, up to the bracket that closes the array or object. -/
theorem Parse.balanced {part : Part} (parse : Parse fuel part text rest) :
    ∃ read, text = read ++ (part.closing ++ rest) ∧ Balanced read := by
  induction parse with
  | string scanned =>
    obtain ⟨body, rfl, string, -⟩ := scanString_balanced scanned
    exact ⟨_, by simp [Part.closing], string⟩
  | emptyObject after =>
    obtain ⟨run, blank, rfl⟩ := blanks_of_skip after
    exact ⟨_, by simp [Part.closing], (balanced_blanks blank).object⟩
  | object _ _ ih =>
    obtain ⟨read, split, balanced⟩ := ih
    obtain ⟨run, blank, rfl⟩ := blanks_of_skip split
    exact ⟨_, by simp [Part.closing], (balanced.blanks_append blank).object⟩
  | emptyArray after =>
    obtain ⟨run, blank, rfl⟩ := blanks_of_skip after
    exact ⟨_, by simp [Part.closing], (balanced_blanks blank).array⟩
  | array _ _ ih =>
    obtain ⟨read, split, balanced⟩ := ih
    obtain ⟨run, blank, rfl⟩ := blanks_of_skip split
    exact ⟨_, by simp [Part.closing], (balanced.blanks_append blank).array⟩
  | scalar _ _ _ scanned => exact scalar_balanced scanned
  | item _ after _ ih_first ih_others =>
    obtain ⟨read, rfl, first⟩ := ih_first
    obtain ⟨before, blank, rfl⟩ := blanks_of_skip after
    obtain ⟨read', split, second⟩ := ih_others
    obtain ⟨behind, blank', rfl⟩ := blanks_of_skip split
    exact ⟨_, by simp [Part.closing], (first.append_blanks blank).mark (.inl rfl)
      (second.blanks_append blank')⟩
  | lastItem _ after ih_first =>
    obtain ⟨read, rfl, first⟩ := ih_first
    obtain ⟨before, blank, rfl⟩ := blanks_of_skip after
    exact ⟨_, by simp [Part.closing], first.append_blanks blank⟩
  | member named bound _ after _ ih_first ih_others =>
    obtain ⟨key, rfl, string, -⟩ := scanString_balanced named
    obtain ⟨gap, blank, rfl⟩ := blanks_of_skip bound
    obtain ⟨read, split, value⟩ := ih_first
    obtain ⟨gap', blank', rfl⟩ := blanks_of_skip split
    have member := (string.append_blanks blank).mark (.inr rfl) (value.blanks_append blank')
    obtain ⟨before, spaces, rfl⟩ := blanks_of_skip after
    obtain ⟨read', split, second⟩ := ih_others
    obtain ⟨behind, spaces', rfl⟩ := blanks_of_skip split
    exact ⟨_, by simp [Part.closing], (member.append_blanks spaces).mark (.inl rfl)
      (second.blanks_append spaces')⟩
  | lastMember named bound _ after ih_first =>
    obtain ⟨key, rfl, string, -⟩ := scanString_balanced named
    obtain ⟨gap, blank, rfl⟩ := blanks_of_skip bound
    obtain ⟨read, split, value⟩ := ih_first
    obtain ⟨gap', blank', rfl⟩ := blanks_of_skip split
    have member := (string.append_blanks blank).mark (.inr rfl) (value.blanks_append blank')
    obtain ⟨before, spaces, rfl⟩ := blanks_of_skip after
    exact ⟨_, by simp [Part.closing], member.append_blanks spaces⟩

theorem loads_balanced (loaded : loads text = some v) : Balanced text := by
  unfold loads at loaded
  split_ifs at loaded
  split at loaded
  · next v' rest found =>
    split_ifs at loaded with finished
    obtain ⟨read, split, read_balanced⟩ := (parse_value_iff.mpr found).balanced
    obtain ⟨run, blank, rfl⟩ := blanks_of_skip split
    obtain ⟨run', blank', rfl⟩ := blanks_of_skip finished
    rw [List.append_nil]
    exact (read_balanced.append_blanks blank').blanks_append blank
  · cases loaded

end Values

section Slices

variable {text first second inner more : Str} {v : Value} {fuel depth depth' k : ℕ}
  {place place' twin twin' : Place}

/-- An array is read up to its own bracket. -/
theorem array_balanced {rest : Str}
    (scanned : value (fuel + 1) (openBracket :: text) = some (v, rest)) :
    ∃ inner, text = inner ++ closeBracket :: rest ∧ Balanced inner := by
  by_cases empty : ∃ tail, skipBlanks text = closeBracket :: tail
  · obtain ⟨tail, skipped⟩ := empty
    rw [value_emptyArray skipped] at scanned
    cases scanned
    obtain ⟨run, blank, rfl⟩ := blanks_of_skip skipped
    exact ⟨run, rfl, balanced_blanks blank⟩
  · rw [value_array fun tail skipped => empty ⟨tail, skipped⟩] at scanned
    obtain ⟨⟨items, rest'⟩, found, same⟩ := Option.map_eq_some_iff.mp scanned
    cases same
    have parse : Parse fuel (.elements items) (skipBlanks text) rest := parse_of_scanned found
    obtain ⟨read, split, items_balanced⟩ := parse.balanced
    obtain ⟨run, blank, rfl⟩ := blanks_of_skip split
    exact ⟨run ++ read, (List.append_assoc ..).symm, items_balanced.blanks_append blank⟩

/-- A slice between two brackets that is an array -/
theorem slice_balanced (loaded : loads (openBracket :: (inner ++ [closeBracket])) = some v) :
    Balanced inner := by
  have solid : skipBlanks (openBracket :: (inner ++ [closeBracket])) =
      openBracket :: (inner ++ [closeBracket]) := rfl
  unfold loads at loaded
  rw [if_neg (by simp), solid] at loaded
  split at loaded
  · next v' rest found =>
    split_ifs at loaded with finished
    obtain ⟨read, split, balanced⟩ := array_balanced found
    obtain ⟨run, blank, none_left⟩ := blanks_of_skip finished
    rw [List.append_nil] at none_left
    subst none_left
    rcases List.eq_nil_or_concat rest with rfl | ⟨rest', last, rfl⟩
    · rwa [(List.append_inj' split rfl).1]
    · rw [List.concat_eq_append, ← List.cons_append, ← List.append_assoc] at split
      cases (List.append_inj' split rfl).2
      exact absurd (blank closeBracket (by simp)) (by decide)
  · cases loaded

theorem Balanced.exists_track (balanced : Balanced (first ++ second)) :
    ∃ at_, track (.outside, 0) first = some at_ ∧ (track at_ second).isSome := by
  obtain ⟨place, -, read⟩ := balanced
  rw [track_append] at read
  obtain ⟨at_, read, later⟩ := Option.bind_eq_some_iff.mp read
  exact ⟨at_, read, by rw [later]; rfl⟩

/-- Nothing stands behind the bracket that closes the first one. -/
theorem not_balanced_close (balanced : Balanced first) (more : Str) :
    ¬ Balanced (first ++ closeBracket :: more) := by
  intro longer
  rw [List.append_cons] at longer
  obtain ⟨at_, read, -⟩ := longer.exists_track
  rw [track_close_first balanced (.inl rfl)] at read
  cases read

/-- A character outside of strings other than a quote begins none. -/
theorem ended_of_markStep (ended : place.Ended) (other : k ≠ quote)
    (read : markStep place depth k = some (place', depth')) : place'.Ended := by
  unfold markStep at read
  split_ifs at read <;> cases read
  · exact .inl rfl
  · exact .inl rfl
  · exact .inl rfl
  · exact ended
  · exact .inl rfl

theorem markStep_of_trackStep (ended : place.Ended)
    (read : trackStep (place, depth) k = some (place', depth')) :
    markStep place depth k = some (place', depth') := by
  rcases ended with rfl | rfl <;> exact read

theorem markStep_backslash (place : Place) (depth : ℕ) : markStep place depth backslash = none := by
  cases place <;> rfl

theorem markStep_quote (read : markStep place depth quote = some (place', depth')) :
    place = .outside ∧ place' = .inside := by
  cases place with
  | outside =>
    cases read
    exact ⟨rfl, rfl⟩
  | closed | inside | escaped => cases read

/-- Of two readings one is in a string and the other is not. -/
def Flipped (place twin : Place) : Prop :=
  place = .inside ∧ twin.Ended ∨ place.Ended ∧ twin = .inside

theorem Flipped.symm (flipped : Flipped place twin) : Flipped twin place :=
  flipped.elim (fun both => .inr both.symm) fun both => .inl both.symm

/-- A reading that is in a string while the other is not -/
theorem flipped_inside (ended : twin.Ended)
    (read : trackStep (.inside, depth) k = some (place, depth'))
    {twins twins' : ℕ} (read' : trackStep (twin, twins) k = some (twin', twins')) :
    Flipped place twin' := by
  have marked := markStep_of_trackStep ended read'
  by_cases closing : k = quote
  · subst closing
    cases read
    exact .inr ⟨.inr rfl, (markStep_quote marked).2⟩
  · by_cases escaping : k = backslash
    · subst escaping
      rw [markStep_backslash] at marked
      cases marked
    · rw [track_inside closing escaping] at read
      cases read
      exact .inl ⟨rfl, ended_of_markStep ended closing marked⟩

theorem flipped_track {twins twins' : ℕ} (flipped : Flipped place twin)
    (read : track (place, depth) text = some (place', depth'))
    (read' : track (twin, twins) text = some (twin', twins')) : Flipped place' twin' := by
  induction text generalizing place twin depth twins with
  | nil =>
    cases read
    cases read'
    exact flipped
  | cons c text ih =>
    rw [track_cons] at read read'
    obtain ⟨⟨middle, opened⟩, step, later⟩ := Option.bind_eq_some_iff.mp read
    obtain ⟨⟨middle', opened'⟩, step', later'⟩ := Option.bind_eq_some_iff.mp read'
    refine ih ?_ later later'
    rcases flipped with ⟨rfl, ended⟩ | ⟨ended, rfl⟩
    · exact flipped_inside ended step step'
    · exact (flipped_inside ended step' step).symm

/-- No array begins at a bracket before the quote of a key: its own array would end too early, or it
stands in a string and the key would follow a string. -/
theorem not_balanced_of_earlier
    (tracked : track (.outside, 0) (first ++ openBracket :: second) = some (.outside, 0))
    (key : ∀ depth, markStep .closed depth k = none) (more : Str) :
    ¬ Balanced (second ++ quote :: k :: more) := by
  intro balanced
  rw [track_append] at tracked
  obtain ⟨⟨place, depth⟩, -, opened⟩ := Option.bind_eq_some_iff.mp tracked
  rw [track_cons] at opened
  obtain ⟨next, step, later⟩ := Option.bind_eq_some_iff.mp opened
  obtain ⟨⟨twin, twins⟩, read, behind⟩ := balanced.exists_track
  have in_string (depth : ℕ) (within : track (.inside, depth) second = some (.outside, 0)) :
      False := by
    rcases flipped_track (.inl ⟨rfl, .inl rfl⟩) within read with ⟨outside, -⟩ | ⟨-, rfl⟩
    · cases outside
    · have closed : track (.inside, twins) (quote :: k :: more) = none := by
        rw [track_cons]
        change track (.closed, twins) (k :: more) = none
        rw [track_cons]
        change (markStep .closed twins k).bind _ = none
        rw [key]
        rfl
      rw [closed] at behind
      cases behind
  cases place with
  | outside =>
    cases step
    have shifted := track_shift (depth + 1) read
    rw [Nat.zero_add, later, Option.some.injEq, Prod.mk.injEq] at shifted
    omega
  | closed => cases step
  | inside =>
    cases step
    exact in_string depth later
  | escaped =>
    cases step
    exact in_string depth later

end Slices

end Python.JsonDecoder
