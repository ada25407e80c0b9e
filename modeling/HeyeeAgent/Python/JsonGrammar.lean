import HeyeeAgent.Python.JsonDecoder

/-! # The grammar of `json.loads`

What the scanners read of a text, as a derivation with their fuel: a rule for each way in which a
value begins, and rules for what follows an item or a member. Facts about the scanners are
inductions on it.
-/

namespace Python.JsonDecoder

section Equations

variable {fuel : ℕ} {text tail later : Str} {item : Value} {key : Str}

theorem value_quote (text : Str) : value (fuel + 1) (quote :: text) =
    (scanString text).map fun (text, rest) => (.str text, rest) := by
  rw [value.eq_def]
  rfl

theorem value_emptyObject (after : skipBlanks text = closeBrace :: tail) :
    value (fuel + 1) (openBrace :: text) = some (.obj [], tail) := by
  rw [value.eq_def]
  simp only [after]

theorem value_object (other : ∀ tail, skipBlanks text ≠ closeBrace :: tail) :
    value (fuel + 1) (openBrace :: text) =
      (members fuel (skipBlanks text)).map fun (fields, rest) => (.obj fields, rest) := by
  rw [value.eq_def]
  dsimp only
  split
  · next rest begins => exact absurd (List.cons.inj begins).1 (by decide)
  · next rest begins =>
    obtain rfl := (List.cons.inj begins).2
    split
    · next tail after => exact absurd after (other tail)
    · rfl
  · next rest begins => exact absurd (List.cons.inj begins).1 (by decide)
  · next noBrace _ => exact (noBrace text rfl).elim

theorem value_emptyArray (after : skipBlanks text = closeBracket :: tail) :
    value (fuel + 1) (openBracket :: text) = some (.arr [], tail) := by
  rw [value.eq_def]
  simp only [after]

theorem value_array (other : ∀ tail, skipBlanks text ≠ closeBracket :: tail) :
    value (fuel + 1) (openBracket :: text) =
      (elements fuel (skipBlanks text)).map fun (items, rest) => (.arr items, rest) := by
  rw [value.eq_def]
  dsimp only
  split
  · next rest begins => exact absurd (List.cons.inj begins).1 (by decide)
  · next rest begins => exact absurd (List.cons.inj begins).1 (by decide)
  · next rest begins =>
    obtain rfl := (List.cons.inj begins).2
    split
    · next tail after => exact absurd after (other tail)
    · rfl
  · next noBracket => exact (noBracket text rfl).elim

theorem elements_more (found : value fuel text = some (item, tail))
    (after : skipBlanks tail = comma :: later) : elements (fuel + 1) text =
      (elements fuel (skipBlanks later)).map fun (items, rest) => (item :: items, rest) := by
  rw [elements.eq_def]
  simp only [found, after]

theorem elements_last (found : value fuel text = some (item, tail))
    (after : skipBlanks tail = closeBracket :: later) :
    elements (fuel + 1) text = some ([item], later) := by
  rw [elements.eq_def]
  simp only [found, after]

theorem members_more {tail' tail'' : Str} (named : scanString text = some (key, tail))
    (bound : skipBlanks tail = colon :: tail')
    (found : value fuel (skipBlanks tail') = some (item, tail''))
    (after : skipBlanks tail'' = comma :: later) : members (fuel + 1) (quote :: text) =
      (members fuel (skipBlanks later)).map fun (fields, rest) => ((key, item) :: fields, rest) := by
  rw [members.eq_def]
  simp only [named, bound, found, after]

theorem members_last {tail' tail'' : Str} (named : scanString text = some (key, tail))
    (bound : skipBlanks tail = colon :: tail')
    (found : value fuel (skipBlanks tail') = some (item, tail''))
    (after : skipBlanks tail'' = closeBrace :: later) :
    members (fuel + 1) (quote :: text) = some ([(key, item)], later) := by
  rw [members.eq_def]
  simp only [named, bound, found, after]

theorem value_scalar (no_quote : ∀ tail, text ≠ quote :: tail)
    (no_brace : ∀ tail, text ≠ openBrace :: tail) (no_bracket : ∀ tail, text ≠ openBracket :: tail) :
    value (fuel + 1) text = scalar text := by
  rw [value.eq_def]
  dsimp only
  split
  · next tail => exact absurd rfl (no_quote tail)
  · next tail => exact absurd rfl (no_brace tail)
  · next tail => exact absurd rfl (no_bracket tail)
  · rfl

end Equations

/-- What a scanner gives: a value, or the items or members from one of them on. -/
inductive Part where
  | value (value : Value)
  | elements (items : List Value)
  | members (fields : List (Str × Value))

/-- The scanner of the part gives it, and leaves the rest. -/
def Part.Scanned (fuel : ℕ) (text rest : Str) : Part → Prop
  | value v => JsonDecoder.value fuel text = some (v, rest)
  | elements items => JsonDecoder.elements fuel text = some (items, rest)
  | members fields => JsonDecoder.members fuel text = some (fields, rest)

inductive Parse : ℕ → Part → Str → Str → Prop
  | string {fuel : ℕ} {text rest key : Str} (scanned : scanString text = some (key, rest)) :
      Parse (fuel + 1) (.value (.str key)) (quote :: text) rest
  | emptyObject {fuel : ℕ} {text rest : Str} (after : skipBlanks text = closeBrace :: rest) :
      Parse (fuel + 1) (.value (.obj [])) (openBrace :: text) rest
  | object {fuel : ℕ} {text rest : Str} {fields : List (Str × Value)}
      (other : ∀ tail, skipBlanks text ≠ closeBrace :: tail)
      (inner : Parse fuel (.members fields) (skipBlanks text) rest) :
      Parse (fuel + 1) (.value (.obj fields)) (openBrace :: text) rest
  | emptyArray {fuel : ℕ} {text rest : Str} (after : skipBlanks text = closeBracket :: rest) :
      Parse (fuel + 1) (.value (.arr [])) (openBracket :: text) rest
  | array {fuel : ℕ} {text rest : Str} {items : List Value}
      (other : ∀ tail, skipBlanks text ≠ closeBracket :: tail)
      (inner : Parse fuel (.elements items) (skipBlanks text) rest) :
      Parse (fuel + 1) (.value (.arr items)) (openBracket :: text) rest
  | scalar {fuel : ℕ} {text rest : Str} {v : Value} (no_quote : ∀ tail, text ≠ quote :: tail)
      (no_brace : ∀ tail, text ≠ openBrace :: tail)
      (no_bracket : ∀ tail, text ≠ openBracket :: tail)
      (scanned : scalar text = some (v, rest)) : Parse (fuel + 1) (.value v) text rest
  | item {fuel : ℕ} {text tail later rest : Str} {item : Value} {items : List Value}
      (first : Parse fuel (.value item) text tail) (after : skipBlanks tail = comma :: later)
      (others : Parse fuel (.elements items) (skipBlanks later) rest) :
      Parse (fuel + 1) (.elements (item :: items)) text rest
  | lastItem {fuel : ℕ} {text tail rest : Str} {item : Value}
      (first : Parse fuel (.value item) text tail)
      (after : skipBlanks tail = closeBracket :: rest) :
      Parse (fuel + 1) (.elements [item]) text rest
  | member {fuel : ℕ} {text tail bare tail' later rest key : Str} {item : Value}
      {fields : List (Str × Value)} (named : scanString text = some (key, tail))
      (bound : skipBlanks tail = colon :: bare)
      (first : Parse fuel (.value item) (skipBlanks bare) tail')
      (after : skipBlanks tail' = comma :: later)
      (others : Parse fuel (.members fields) (skipBlanks later) rest) :
      Parse (fuel + 1) (.members ((key, item) :: fields)) (quote :: text) rest
  | lastMember {fuel : ℕ} {text tail bare tail' rest key : Str} {item : Value}
      (named : scanString text = some (key, tail)) (bound : skipBlanks tail = colon :: bare)
      (first : Parse fuel (.value item) (skipBlanks bare) tail')
      (after : skipBlanks tail' = closeBrace :: rest) :
      Parse (fuel + 1) (.members [(key, item)]) (quote :: text) rest

section Parses

variable {fuel : ℕ} {text rest : Str}

theorem parse_of_scanned {part : Part} (scanned : part.Scanned fuel text rest) :
    Parse fuel part text rest := by
  induction fuel generalizing part text rest with
  | zero =>
    cases part with
    | value v => exact nomatch (value_zero text).symm.trans scanned
    | elements items => exact nomatch (elements_zero text).symm.trans scanned
    | members fields => exact nomatch (members_zero text).symm.trans scanned
  | succ fuel ih =>
    cases part with
    | value v =>
      change value (fuel + 1) text = some (v, rest) at scanned
      rw [value.eq_def] at scanned
      dsimp only at scanned
      split at scanned
      · obtain ⟨⟨key, rest'⟩, found, same⟩ := Option.map_eq_some_iff.mp scanned
        cases same
        exact .string found
      · next tail =>
        split at scanned
        · next after =>
          cases scanned
          exact .emptyObject after
        · next other =>
          obtain ⟨⟨fields, rest'⟩, found, same⟩ := Option.map_eq_some_iff.mp scanned
          cases same
          exact .object other (ih found)
      · next tail =>
        split at scanned
        · next after =>
          cases scanned
          exact .emptyArray after
        · next other =>
          obtain ⟨⟨items, rest'⟩, found, same⟩ := Option.map_eq_some_iff.mp scanned
          cases same
          exact .array other (ih found)
      · next no_quote no_brace no_bracket => exact .scalar no_quote no_brace no_bracket scanned
    | elements items =>
      change elements (fuel + 1) text = some (items, rest) at scanned
      rw [elements.eq_def] at scanned
      dsimp only at scanned
      split at scanned
      · cases scanned
      · next item tail found =>
        have first : Parse fuel (.value item) text tail := ih found
        split at scanned
        · next later after =>
          obtain ⟨⟨items', rest'⟩, found', same⟩ := Option.map_eq_some_iff.mp scanned
          cases same
          exact .item first after (ih found')
        · next later after =>
          cases scanned
          exact .lastItem first after
        · cases scanned
    | members fields =>
      change members (fuel + 1) text = some (fields, rest) at scanned
      rw [members.eq_def] at scanned
      dsimp only at scanned
      split at scanned
      · split at scanned
        · cases scanned
        · next key tail named =>
          split at scanned
          · next bare bound =>
            split at scanned
            · cases scanned
            · next item tail' found =>
              have first : Parse fuel (.value item) (skipBlanks bare) tail' := ih found
              split at scanned
              · next later after =>
                obtain ⟨⟨fields', rest'⟩, found', same⟩ := Option.map_eq_some_iff.mp scanned
                cases same
                exact .member named bound first after (ih found')
              · next later after =>
                cases scanned
                exact .lastMember named bound first after
              · cases scanned
          · cases scanned
      · cases scanned

theorem Parse.scanned {part : Part} (parse : Parse fuel part text rest) :
    part.Scanned fuel text rest := by
  induction parse with
  | string scanned =>
    unfold Part.Scanned
    rw [value_quote, scanned]
    rfl
  | emptyObject after => exact value_emptyObject after
  | object other _ ih =>
    unfold Part.Scanned at ih ⊢
    rw [value_object other, ih]
    rfl
  | emptyArray after => exact value_emptyArray after
  | array other _ ih =>
    unfold Part.Scanned at ih ⊢
    rw [value_array other, ih]
    rfl
  | scalar no_quote no_brace no_bracket scanned =>
    exact (value_scalar no_quote no_brace no_bracket).trans scanned
  | item _ after _ first others =>
    unfold Part.Scanned at first others ⊢
    rw [elements_more first after, others]
    rfl
  | lastItem _ after first => exact elements_last first after
  | member named bound _ after _ first others =>
    unfold Part.Scanned at first others ⊢
    rw [members_more named bound first after, others]
    rfl
  | lastMember named bound _ after first => exact members_last named bound first after

/-- The scanner of values reads what the grammar derives. -/
theorem parse_value_iff {v : Value} :
    Parse fuel (.value v) text rest ↔ value fuel text = some (v, rest) :=
  ⟨Parse.scanned, fun found => parse_of_scanned found⟩

end Parses

end Python.JsonDecoder
