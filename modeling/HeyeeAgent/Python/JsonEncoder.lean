import HeyeeAgent.Python.Text
import Mathlib.Data.Nat.Digits.Defs
import Mathlib.Data.Nat.Digits.Lemmas

/-! # Python's `json.dumps`

The encoder of the standard library with `ensure_ascii=False` and without blanks between the parts.
Quotes, backslashes and control characters are escaped, so no line break is ever written; a lone
surrogate stays as it is.
-/

namespace Python.JsonEncoder

/-- `float.__repr__` on the finite floats. -/
structure FloatRepr where
  text : ℚ → Str
  /-- digits, signs, a point and the letter of the exponent -/
  ascii : ∀ value, ∀ c ∈ text value, 32 < c ∧ c < 127

def hexDigit (n : ℕ) : ℕ := if n < 10 then 48 + n else 87 + n

/-- `ESCAPE_DCT` -/
def escape (c : ℕ) : Str :=
  match c with
  | 8 => Str.lit "\\b"
  | 9 => Str.lit "\\t"
  | 10 => Str.lit "\\n"
  | 12 => Str.lit "\\f"
  | 13 => Str.lit "\\r"
  | 34 => Str.lit "\\\""
  | 92 => Str.lit "\\\\"
  | c => if c < 32 then Str.lit "\\u00" ++ [hexDigit (c / 16), hexDigit (c % 16)] else [c]

/-- `encode_basestring` -/
def encodeString (value : Str) : Str := Str.lit "\"" ++ value.flatMap escape ++ Str.lit "\""

def decimal (n : ℕ) : Str := if n = 0 then [48] else ((Nat.digits 10 n).map (48 + ·)).reverse

/-- `int.__repr__` -/
def intstr : ℤ → Str
  | .ofNat n => decimal n
  | .negSucc n => Str.lit "-" ++ decimal (n + 1)

variable (repr : FloatRepr)

def floatstr : PyFloat → Str
  | .nan => Str.lit "NaN"
  | .infinity false => Str.lit "Infinity"
  | .infinity true => Str.lit "-Infinity"
  | .finite value => repr.text value

mutual

def dumps : Json → Str
  | .null => Str.lit "null"
  | .bool true => Str.lit "true"
  | .bool false => Str.lit "false"
  | .int value => intstr value
  | .float value => floatstr repr value
  | .str value => encodeString value
  | .arr items => Str.lit "[" ++ dumpsItems items ++ Str.lit "]"
  | .obj fields => Str.lit "\x7b" ++ dumpsFields fields ++ Str.lit "\x7d"

def dumpsItems : List Json → Str
  | [] => []
  | [item] => dumps item
  | item :: items => dumps item ++ Str.lit "," ++ dumpsItems items

def dumpsFields : List (String × Json) → Str
  | [] => []
  | [(key, item)] => encodeString (Str.lit key) ++ Str.lit ":" ++ dumps item
  | (key, item) :: fields =>
    encodeString (Str.lit key) ++ Str.lit ":" ++ dumps item ++ Str.lit "," ++ dumpsFields fields

end

section Characters

/-- A printable character of ASCII. -/
def Ascii (c : ℕ) : Prop := 32 < c ∧ c < 127

/-- No control characters are in the text, and it can be encoded if `sendable` says so. -/
structure Written (sendable : Bool) (text : Str) : Prop where
  shown : ∀ c ∈ text, 32 ≤ c
  encodes : text.encodes = sendable

theorem Written.append {a b : Bool} {first second : Str} (written : Written a first)
    (written' : Written b second) : Written (a && b) (first ++ second) where
  shown c member := (List.mem_append.mp member).elim (written.shown c) (written'.shown c)
  encodes := by
    rw [← written.encodes, ← written'.encodes, Str.encodes, List.all_append]
    rfl

theorem written_ascii {text : Str} (ascii : ∀ c ∈ text, Ascii c) : Written true text where
  shown c member := (ascii c member).1.le
  encodes := by
    simp only [Str.encodes, List.all_eq_true, Bool.or_eq_true, decide_eq_true_eq]
    intro c member
    have bounds := ascii c member
    unfold Ascii at bounds
    omega

instance (c : ℕ) : Decidable (Ascii c) := inferInstanceAs (Decidable (_ ∧ _))

theorem written_lit (text : String) (ascii : ∀ c ∈ Str.lit text, Ascii c) :
    Written true (Str.lit text) := written_ascii ascii

theorem written_escape (c : ℕ) : Written (Str.encodes [c]) (escape c) := by
  unfold escape
  split
  case h_8 =>
    split_ifs with control
    · have digit : ∀ n < 16, Ascii (hexDigit n) := by decide
      have sendable : Str.encodes [c] = true := by
        simp only [Str.encodes, List.all_cons, List.all_nil, Bool.and_true, Bool.or_eq_true,
          decide_eq_true_eq]
        omega
      rw [sendable]
      refine (written_ascii (by decide)).append (written_ascii fun d member => ?_)
      simp only [List.mem_cons, List.not_mem_nil, or_false] at member
      rcases member with rfl | rfl
      · exact digit _ (by omega)
      · exact digit _ (by omega)
    · exact ⟨fun d member => by rw [List.mem_singleton.mp member]; omega, rfl⟩
  all_goals exact written_ascii (by decide)

theorem written_encodeString (value : Str) : Written value.encodes (encodeString value) := by
  have inside : Written value.encodes (value.flatMap escape) := by
    induction value with
    | nil => exact ⟨nofun, rfl⟩
    | cons c value ih =>
      have joined := (written_escape c).append ih
      have split : Str.encodes (c :: value) = (Str.encodes [c] && Str.encodes value) := by
        simp [Str.encodes]
      rw [split, List.flatMap_cons]
      exact joined
  have quoted := ((written_lit "\"" (by decide)).append inside).append (written_lit "\"" (by decide))
  rwa [Bool.true_and, Bool.and_true] at quoted

theorem ascii_decimal (n : ℕ) : ∀ c ∈ decimal n, Ascii c := by
  intro c member
  unfold decimal at member
  split_ifs at member
  · rw [List.mem_singleton.mp member]
    decide
  · obtain ⟨digit, listed, rfl⟩ := List.mem_map.mp (List.mem_reverse.mp member)
    have bound := Nat.digits_lt_base (by decide : 1 < 10) listed
    unfold Ascii
    omega

theorem written_intstr (value : ℤ) : Written true (intstr value) := by
  cases value with
  | ofNat n => exact written_ascii (ascii_decimal n)
  | negSucc n => exact (written_ascii (by decide)).append (written_ascii (ascii_decimal _))

theorem written_floatstr (value : PyFloat) : Written true (floatstr repr value) := by
  rcases value with value | (_ | _) | _
  · exact written_ascii (repr.ascii value)
  · exact written_lit "Infinity" (by decide)
  · exact written_lit "-Infinity" (by decide)
  · exact written_lit "NaN" (by decide)

/-- A text between brackets. -/
theorem Written.between {sendable : Bool} {text : Str} (written : Written sendable text)
    (left right : String) (ascii : ∀ c ∈ Str.lit left, Ascii c)
    (ascii' : ∀ c ∈ Str.lit right, Ascii c) :
    Written sendable (Str.lit left ++ text ++ Str.lit right) := by
  have joined := ((written_lit left ascii).append written).append (written_lit right ascii')
  rwa [Bool.true_and, Bool.and_true] at joined

theorem written_key (key : String) {sendable : Bool} {text : Str} (written : Written sendable text) :
    Written sendable (encodeString (Str.lit key) ++ Str.lit ":" ++ text) := by
  have joined := ((written_encodeString (Str.lit key)).append
    (written_lit ":" (by decide))).append written
  rwa [Str.encodes_lit, Bool.true_and, Bool.true_and] at joined

/-- A comma after the first item. -/
theorem Written.comma {a b : Bool} {first second : Str} (written : Written a first)
    (written' : Written b second) : Written (a && b) (first ++ Str.lit "," ++ second) := by
  have joined := (written.append (written_lit "," (by decide))).append written'
  rwa [Bool.and_true] at joined

mutual

/-- What is written can be encoded if every string of the data can. -/
theorem written_dumps : (data : Json) → Written data.encodes (dumps repr data)
  | .null => written_lit "null" (by decide)
  | .bool true => written_lit "true" (by decide)
  | .bool false => written_lit "false" (by decide)
  | .int value => written_intstr value
  | .float value => written_floatstr repr value
  | .str value => written_encodeString value
  | .arr items => (written_dumpsItems items).between "[" "]" (by decide) (by decide)
  | .obj fields => (written_dumpsFields fields).between "\x7b" "\x7d" (by decide) (by decide)

theorem written_dumpsItems : (items : List Json) →
    Written (Json.encodesAll items) (dumpsItems repr items)
  | [] => ⟨nofun, rfl⟩
  | [item] => by
    rw [dumpsItems, Json.encodesAll, Json.encodesAll, Bool.and_true]
    exact written_dumps item
  | item :: item' :: items => by
    rw [dumpsItems, Json.encodesAll]
    · exact (written_dumps item).comma (written_dumpsItems (item' :: items))
    · simp

theorem written_dumpsFields : (fields : List (String × Json)) →
    Written (Json.encodesFields fields) (dumpsFields repr fields)
  | [] => ⟨nofun, rfl⟩
  | [(key, item)] => by
    rw [dumpsFields, Json.encodesFields, Json.encodesFields, Bool.and_true]
    exact written_key key (written_dumps item)
  | (key, item) :: field :: fields => by
    rw [dumpsFields, Json.encodesFields]
    · exact (written_key key (written_dumps item)).comma (written_dumpsFields (field :: fields))
    · simp

end

end Characters

end Python.JsonEncoder
