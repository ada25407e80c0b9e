import HeyeeAgent.Python.Float
import Mathlib.Data.Int.Notation
import Mathlib.Data.List.Basic
import Mathlib.Data.List.TakeWhile

/-! # Python's text

The characters for which `str.isspace` holds, which `str.strip` removes at both ends. A `str` that
comes from outside is its list of code points, because it may hold lone surrogates, which no UTF-8
encoding has.
-/

namespace Python

def isSpaceCode (n : ℕ) : Bool :=
  (9 ≤ n && n ≤ 13) || (28 ≤ n && n ≤ 32) || n == 0x85 || n == 0xa0 || n == 0x1680 ||
    (0x2000 ≤ n && n ≤ 0x200a) || n == 0x2028 || n == 0x2029 || n == 0x202f || n == 0x205f ||
    n == 0x3000

def isSpace (c : Char) : Bool := isSpaceCode c.toNat

def stripChars (text : List Char) : List Char :=
  ((text.dropWhile isSpace).reverse.dropWhile isSpace).reverse

def strip (text : String) : String := String.ofList (stripChars text.toList)

/-- Nothing is left of white space, and only of it. -/
theorem stripChars_eq_nil {text : List Char} : stripChars text = [] ↔ ∀ c ∈ text, isSpace c = true := by
  rw [stripChars, List.reverse_eq_nil_iff, List.dropWhile_eq_nil_iff]
  simp only [List.mem_reverse]
  constructor
  · intro spaces c member
    rcases List.mem_append.mp
      ((List.takeWhile_append_dropWhile (p := isSpace) (l := text)).symm ▸ member)
      with before | after
    · exact List.mem_takeWhile_imp before
    · exact spaces c after
  · exact fun spaces c member => spaces c ((List.dropWhile_sublist _).subset member)

/-- A text without white space is not changed. -/
theorem strip_eq_self {text : String} (shown : ∀ c ∈ text.toList, isSpace c = false) :
    strip text = text := by
  have kept (chars : List Char) (shown : ∀ c ∈ chars, isSpace c = false) :
      chars.dropWhile isSpace = chars := by
    cases chars with
    | nil => rfl
    | cons c chars =>
      exact List.dropWhile_cons_of_neg (by rw [shown c List.mem_cons_self]; exact Bool.false_ne_true)
  rw [strip, stripChars, kept _ shown, kept _ fun c member => shown c (List.mem_reverse.mp member),
    List.reverse_reverse, String.ofList_toList]

/-- A `str` as its code points. -/
abbrev Str := List ℕ

namespace Str

/-- A text without surrogates. -/
def lit (text : String) : Str := text.toList.map Char.toNat

def strip (text : Str) : Str :=
  ((text.dropWhile isSpaceCode).reverse.dropWhile isSpaceCode).reverse

/-- Only white space is taken away, at the ends. -/
theorem strip_split (text : Str) : ∃ before after, text = before ++ strip text ++ after ∧
    (∀ c ∈ before, isSpaceCode c = true) ∧ ∀ c ∈ after, isSpaceCode c = true := by
  let rest := text.dropWhile isSpaceCode
  refine ⟨text.takeWhile isSpaceCode, (rest.reverse.takeWhile isSpaceCode).reverse, ?_, ?_, ?_⟩
  · unfold strip
    rw [List.append_assoc, ← List.reverse_append, List.takeWhile_append_dropWhile,
      List.reverse_reverse, List.takeWhile_append_dropWhile]
  · exact fun c member => List.mem_takeWhile_imp member
  · exact fun c member => List.mem_takeWhile_imp (List.mem_reverse.mp member)

theorem length_strip (text : Str) : (strip text).length ≤ text.length := by
  obtain ⟨before, after, split, -, -⟩ := strip_split text
  have lengths := congrArg List.length split
  simp only [List.length_append] at lengths
  omega

/-- `str.encode()` succeeds: there is no surrogate. -/
def encodes (text : Str) : Bool := text.all fun n => n < 0xd800 || 0xdfff < n

@[simp] theorem encodes_lit (text : String) : (lit text).encodes = true := by
  simp only [encodes, lit, List.all_map, List.all_eq_true, Function.comp_apply, Bool.or_eq_true,
    decide_eq_true_eq]
  intro c _
  rcases c.valid with below | ⟨above, -⟩
  · exact .inl below
  · exact .inr above

end Str

/-- What `json.dumps` reads. -/
inductive Json where
  | null
  | bool (value : Bool)
  | int (value : ℤ)
  | float (value : PyFloat)
  | str (value : Str)
  | arr (items : List Json)
  | obj (fields : List (String × Json))

namespace Json

mutual

/-- Every string inside can be encoded. -/
def encodes : Json → Bool
  | .str value => value.encodes
  | .arr items => encodesAll items
  | .obj fields => encodesFields fields
  | _ => true

def encodesAll : List Json → Bool
  | [] => true
  | item :: items => item.encodes && encodesAll items

def encodesFields : List (String × Json) → Bool
  | [] => true
  | (_, item) :: fields => item.encodes && encodesFields fields

end

/-- `None` or a value. -/
def ofOption : Option Json → Json
  | none => .null
  | some value => value

def text (value : String) : Json := .str (Str.lit value)

/-- What stands under a key of a dictionary. -/
def field (key : String) : Json → Option Json
  | .obj fields => (fields.find? fun field => field.1 = key).map Prod.snd
  | _ => none

@[simp] theorem encodesFields_append (fields more : List (String × Json)) :
    encodesFields (fields ++ more) = (encodesFields fields && encodesFields more) := by
  induction fields with
  | nil => rfl
  | cons field fields ih =>
    obtain ⟨key, value⟩ := field
    simp only [List.cons_append, encodesFields, ih, Bool.and_assoc]

theorem encodes_ofOption_str {value : Option Str} (encodes : ∀ text ∈ value, Str.encodes text = true) :
    (ofOption (value.map .str)).encodes = true := by
  cases value with
  | none => rfl
  | some text => exact encodes text rfl

@[simp] theorem encodes_text (value : String) : (text value).encodes = true := by
  simp [text, encodes]

end Json

end Python
