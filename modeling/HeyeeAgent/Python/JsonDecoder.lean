import HeyeeAgent.Python.Text

/-! # Python's `json.loads`

The decoder of the standard library on a text of code points. Inside a string every code point from
32 on may stand raw, and an escaped pair of surrogates is one code point; a half of a pair stays as
it is. The scanners of a value and of its parts call each other with a fuel that the length of the
text bounds. The interpreter's limits on nesting and on the digits of an integer are left out.
-/

namespace Python.JsonDecoder

/-- A decoded value; a number is kept as it was written. -/
inductive Value where
  | null
  | bool (value : Bool)
  | number (text : Str)
  | str (value : Str)
  | arr (items : List Value)
  | obj (fields : List (Str × Value))

@[match_pattern] abbrev quote : ℕ := 34
@[match_pattern] abbrev comma : ℕ := 44
@[match_pattern] abbrev point : ℕ := 46
@[match_pattern] abbrev zero : ℕ := 48
@[match_pattern] abbrev colon : ℕ := 58
@[match_pattern] abbrev openBracket : ℕ := 91
@[match_pattern] abbrev backslash : ℕ := 92
@[match_pattern] abbrev closeBracket : ℕ := 93
@[match_pattern] abbrev openBrace : ℕ := 123
@[match_pattern] abbrev closeBrace : ℕ := 125

/-- The white space between the parts of a JSON text. -/
def isBlank (c : ℕ) : Bool := c == 32 || c == 9 || c == 10 || c == 13

def skipBlanks (text : Str) : Str := text.dropWhile isBlank

def isDigit (c : ℕ) : Bool := 48 ≤ c && c ≤ 57

section Strings

def hexDigit (c : ℕ) : Option ℕ :=
  if isDigit c then some (c - 48)
  else if 97 ≤ c ∧ c ≤ 102 then some (c - 87)
  else if 65 ≤ c ∧ c ≤ 70 then some (c - 55)
  else none

/-- The escapes of one letter. -/
def simpleEscape (c : ℕ) : Option ℕ :=
  match c with
  | 34 => some 34
  | 47 => some 47
  | 92 => some 92
  | 98 => some 8
  | 102 => some 12
  | 110 => some 10
  | 114 => some 13
  | 116 => some 9
  | _ => none

/-- Where the scanner of a string stands; the digits of a `\u` escape are counted. -/
inductive StringState where
  | plain
  | escape
  | unicode (count value : ℕ)

/-- The units of a string up to its closing quote, each with whether a `\u` escape gave it. -/
def scanUnits : StringState → Str → Option (List (Bool × ℕ) × Str)
  | _, [] => none
  | .plain, c :: rest =>
    if c = quote then some ([], rest)
    else if c = backslash then scanUnits .escape rest
    else if c < 32 then none
    else (scanUnits .plain rest).map fun (units, rest) => ((false, c) :: units, rest)
  | .escape, c :: rest =>
    match simpleEscape c with
    | some unit => (scanUnits .plain rest).map fun (units, rest) => ((false, unit) :: units, rest)
    | none => if c = 117 then scanUnits (.unicode 0 0) rest else none
  | .unicode count value, c :: rest =>
    match hexDigit c with
    | none => none
    | some digit =>
      let value := value * 16 + digit
      if count = 3 then
        (scanUnits .plain rest).map fun (units, rest) => ((true, value) :: units, rest)
      else scanUnits (.unicode (count + 1) value) rest

def isHigh (c : ℕ) : Bool := 0xd800 ≤ c && c ≤ 0xdbff

def isLow (c : ℕ) : Bool := 0xdc00 ≤ c && c ≤ 0xdfff

/-- Two escapes in a row that are the halves of a pair give one code point. -/
def joinPairs : List (Bool × ℕ) → Str
  | [] => []
  | (true, high) :: (true, low) :: units =>
    if isHigh high && isLow low then
      (0x10000 + (high - 0xd800) * 0x400 + (low - 0xdc00)) :: joinPairs units
    else high :: joinPairs ((true, low) :: units)
  | (_, c) :: units => c :: joinPairs units

/-- `scanstring`, after the opening quote. -/
def scanString (text : Str) : Option (Str × Str) :=
  (scanUnits .plain text).map fun (units, rest) => (joinPairs units, rest)

end Strings

section Scalars

def digits (text : Str) : Str × Str := (text.takeWhile isDigit, text.dropWhile isDigit)

/-- A sign, if there is one of these. -/
def sign (signs text : Str) : Str × Str :=
  match text with
  | c :: rest => if signs.contains c then ([c], rest) else ([], text)
  | [] => ([], [])

def fraction (text : Str) : Str × Str :=
  match text with
  | point :: rest =>
    let (fractionDigits, rest) := digits rest
    if fractionDigits = [] then ([], text) else (point :: fractionDigits, rest)
  | _ => ([], text)

def exponent (text : Str) : Str × Str :=
  match text with
  | e :: rest =>
    if e = 101 ∨ e = 69 then
      let (exponentSign, rest) := sign [43, 45] rest
      let (exponentDigits, rest) := digits rest
      if exponentDigits = [] then ([], text) else (e :: exponentSign ++ exponentDigits, rest)
    else ([], text)
  | [] => ([], [])

/-- An integer part has no leading zero. -/
def integer (text : Str) : Str × Str :=
  match text with
  | zero :: rest => ([zero], rest)
  | _ => digits text

/-- What cannot follow in the number is left for the caller. -/
def number (text : Str) : Option (Value × Str) :=
  let (minusSign, rest) := sign [45] text
  let (integerDigits, rest) := integer rest
  if integerDigits = [] then none
  else
    let (fractionPart, rest) := fraction rest
    let (exponentPart, rest) := exponent rest
    some (.number (minusSign ++ integerDigits ++ fractionPart ++ exponentPart), rest)

def constants : List (Str × Value) :=
  [(.lit "null", .null), (.lit "true", .bool true), (.lit "false", .bool false),
    (.lit "NaN", .number (.lit "NaN")), (.lit "Infinity", .number (.lit "Infinity")),
    (.lit "-Infinity", .number (.lit "-Infinity"))]

/-- A constant or a number. -/
def scalar (text : Str) : Option (Value × Str) :=
  match constants.find? fun constant => constant.1.isPrefixOf text with
  | some (name, value) => some (value, text.drop name.length)
  | none => number text

end Scalars

mutual

/-- `scan_once` -/
def value : ℕ → Str → Option (Value × Str)
  | 0, _ => none
  | fuel + 1, text =>
    match text with
    | quote :: rest => (scanString rest).map fun (text, rest) => (.str text, rest)
    | openBrace :: rest =>
      match skipBlanks rest with
      | closeBrace :: rest => some (.obj [], rest)
      | rest => (members fuel rest).map fun (fields, rest) => (.obj fields, rest)
    | openBracket :: rest =>
      match skipBlanks rest with
      | closeBracket :: rest => some (.arr [], rest)
      | rest => (elements fuel rest).map fun (items, rest) => (.arr items, rest)
    | text => scalar text

/-- The items of an array from one of them on, with the closing bracket. -/
def elements : ℕ → Str → Option (List Value × Str)
  | 0, _ => none
  | fuel + 1, text =>
    match value fuel text with
    | none => none
    | some (item, rest) =>
      match skipBlanks rest with
      | comma :: rest =>
        (elements fuel (skipBlanks rest)).map fun (items, rest) => (item :: items, rest)
      | closeBracket :: rest => some ([item], rest)
      | _ => none

/-- The members of an object from one of them on, with the closing brace. -/
def members : ℕ → Str → Option (List (Str × Value) × Str)
  | 0, _ => none
  | fuel + 1, text =>
    match text with
    | quote :: rest =>
      match scanString rest with
      | none => none
      | some (key, rest) =>
        match skipBlanks rest with
        | colon :: rest =>
          match value fuel (skipBlanks rest) with
          | none => none
          | some (item, rest) =>
            match skipBlanks rest with
            | comma :: rest =>
              (members fuel (skipBlanks rest)).map fun (fields, rest) =>
                ((key, item) :: fields, rest)
            | closeBrace :: rest => some ([(key, item)], rest)
            | _ => none
        | _ => none
    | _ => none

end

section Fuel

/-! Without fuel nothing is scanned. -/

theorem value_zero (text : Str) : value 0 text = none := by rw [value.eq_def]

theorem elements_zero (text : Str) : elements 0 text = none := by rw [elements.eq_def]

theorem members_zero (text : Str) : members 0 text = none := by rw [members.eq_def]

end Fuel

/-- `json.loads` of a `str`; none where it raises `JSONDecodeError`. -/
def loads (text : Str) : Option Value :=
  if text.head? = some 0xfeff then none
  else
    match value (2 * text.length + 1) (skipBlanks text) with
    | some (value, rest) => if skipBlanks rest = [] then some value else none
    | none => none

namespace Value

/-- `dict.get`; the last of equal keys counts. -/
def get (fields : List (Str × Value)) (key : String) : Value :=
  match fields.reverse.find? fun field => field.1 == Str.lit key with
  | some (_, value) => value
  | none => .null

end Value

end Python.JsonDecoder
