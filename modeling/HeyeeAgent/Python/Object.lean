import HeyeeAgent.Python.Collections
import HeyeeAgent.Python.JsonDecoder
import Mathlib.Data.Int.Log
import Mathlib.Data.Rat.Floor

/-! # The objects of `json.loads`

The values of a JSON text as the program handles them. `json` has one object for `nan`, which
membership of a list finds by its identity. The text of an object that is no `str` is a parameter.
-/

namespace Python

inductive Object where
  | none
  | bool (value : Bool)
  | int (value : ℤ)
  | float (value : PyFloat)
  | str (value : Str)
  | list (items : List Object)
  | dict (entries : List (Str × Object))

section Floats

/-- The nearest integer, the even one of two. -/
def roundHalfEven (value : ℚ) : ℤ :=
  let below := ⌊value⌋
  let rest := value - below
  if rest < 1 / 2 ∨ rest = 1 / 2 ∧ below % 2 = 0 then below else below + 1

/-- The nearest float of 64 bits. -/
def PyFloat.ofRat (value : ℚ) : PyFloat :=
  let unit : ℚ := 2 ^ max (Int.log 2 |value| - 52) (-1074)
  let nearest := roundHalfEven (value / unit) * unit
  if |nearest| < 2 ^ 1024 then .finite nearest else .infinity (value < 0)

end Floats

section Dictionary

variable {κ α : Type*} [DecidableEq κ] {dict : Dict κ α} {k : κ} {a : α} {entry : κ × α}

/-- `dict[k] = a`, which leaves a key where it is. -/
def Dict.set (dict : Dict κ α) (k : κ) (a : α) : Dict κ α :=
  if k ∈ dict.keys then dict.map fun entry => if entry.1 = k then (k, a) else entry
  else dict ++ [(k, a)]

theorem Dict.get_eq_none_iff : dict.get k = none ↔ k ∉ dict.keys := by
  rw [Dict.get, Option.map_eq_none_iff, List.find?_eq_none, Dict.keys, List.mem_map]
  simp only [decide_eq_true_eq, not_exists, not_and]

/-- A new key goes to the end. -/
theorem Dict.set_of_get_none (absent : dict.get k = none) : dict.set k a = dict ++ [(k, a)] :=
  if_neg (Dict.get_eq_none_iff.mp absent)

theorem Dict.mem_of_mem_set (member : entry ∈ dict.set k a) : entry ∈ dict ∨ entry = (k, a) := by
  unfold Dict.set at member
  split_ifs at member with taken
  · obtain ⟨before, listed, rfl⟩ := List.mem_map.mp member
    split_ifs with same
    · exact .inr rfl
    · exact .inl listed
  · exact (List.mem_append.mp member).imp id List.mem_singleton.mp

theorem Dict.mem_keys_set {k' : κ} : k' ∈ (dict.set k a).keys ↔ k' ∈ dict.keys ∨ k' = k := by
  unfold Dict.set
  split_ifs with taken
  · have kept : keys (dict.map fun entry => if entry.1 = k then (k, a) else entry) = dict.keys := by
      rw [keys, keys, List.map_map]
      refine List.map_congr_left fun entry _ => ?_
      dsimp only [Function.comp_apply]
      split_ifs with same
      · exact same.symm
      · rfl
    rw [kept]
    exact ⟨.inl, fun listed => listed.elim id fun same => same ▸ taken⟩
  · rw [keys, List.map_append, List.mem_append]
    exact or_congr Iff.rfl List.mem_singleton

theorem Dict.get_set_self (dict : Dict κ α) (k : κ) (a : α) : (dict.set k a).get k = some a := by
  unfold Dict.set
  split_ifs with taken
  · induction dict with
    | nil => cases taken
    | cons entry dict ih =>
      rw [List.map_cons, Dict.get]
      split_ifs with same
      · rw [List.find?_cons_of_pos (by simp)]
        rfl
      · rw [List.find?_cons_of_neg (by simpa using same)]
        exact ih ((List.mem_cons.mp taken).resolve_left fun first => same first.symm)
  · have unlisted : dict.find? (fun entry => decide (entry.1 = k)) = none := by
      refine List.find?_eq_none.mpr fun entry member same => taken ?_
      rw [← of_decide_eq_true same]
      exact List.mem_map_of_mem member
    rw [Dict.get, List.find?_append, unlisted]
    simp

/-- The other keys keep their values. -/
theorem Dict.get_set_of_ne {k' : κ} (other : k' ≠ k) : (dict.set k a).get k' = dict.get k' := by
  have unfound : ¬ (k = k') := fun same => other same.symm
  unfold Dict.set
  split_ifs with taken
  · clear taken
    induction dict with
    | nil => rfl
    | cons entry dict ih =>
      rw [List.map_cons]
      split_ifs with same
      · have passed : ¬ (entry.1 = k') := fun there => unfound (same.symm.trans there)
        simp only [Dict.get, List.find?_cons, decide_eq_false unfound, decide_eq_false passed]
        exact ih
      · cases there : decide (entry.1 = k') with
        | true => simp only [Dict.get, List.find?_cons, there]
        | false =>
          simp only [Dict.get, List.find?_cons, there]
          exact ih
  · unfold Dict.get
    rw [List.find?_append, List.find?_singleton, decide_eq_false unfound]
    simp

section Comprehension

variable {β : Type*} {key : β → κ} {value : β → α} {items : List β}

/-- `{key(item): value(item) for item in items}`: the last item of a key gives its value. -/
def Dict.comprehend (key : β → κ) (value : β → α) (items : List β) : Dict κ α :=
  items.foldl (fun dict item => Dict.set dict (key item) (value item)) []

theorem Dict.comprehend_concat {item : β} : comprehend key value (items ++ [item]) =
    Dict.set (comprehend key value items) (key item) (value item) := by
  rw [comprehend, List.foldl_append, List.foldl_cons, List.foldl_nil, ← comprehend]

theorem Dict.exists_of_mem_comprehend (member : entry ∈ comprehend key value items) :
    ∃ item ∈ items, (key item, value item) = entry := by
  induction items using List.reverseRecOn with
  | nil => exact absurd member List.not_mem_nil
  | append_singleton items last ih =>
    rw [comprehend_concat] at member
    rcases mem_of_mem_set member with before | same
    · obtain ⟨item, listed, same⟩ := ih before
      exact ⟨item, List.mem_append_left _ listed, same⟩
    · exact ⟨last, List.mem_append_right _ (List.mem_singleton_self last), same.symm⟩

theorem Dict.exists_of_get_comprehend (found : (comprehend key value items).get k = some a) :
    ∃ item ∈ items, key item = k ∧ value item = a := by
  obtain ⟨item, listed, same⟩ := exists_of_mem_comprehend (mem_of_get found)
  exact ⟨item, listed, congrArg Prod.fst same, congrArg Prod.snd same⟩

theorem Dict.exists_get_comprehend {item : β} (member : item ∈ items) :
    ∃ a, (comprehend key value items).get (key item) = some a := by
  induction items using List.reverseRecOn with
  | nil => exact absurd member List.not_mem_nil
  | append_singleton items last ih =>
    rw [comprehend_concat]
    rcases eq_or_ne (key item) (key last) with same | other
    · exact ⟨value last, same ▸ get_set_self _ _ _⟩
    · rw [get_set_of_ne other]
      refine ih ((List.mem_append.mp member).resolve_right fun listed => other ?_)
      rw [List.mem_singleton.mp listed]

end Comprehension

end Dictionary

namespace Object

/-- `bool(object)` -/
def truthy : Object → Bool
  | .none => false
  | .bool value => value
  | .int value => value != 0
  | .float value => value != .finite 0
  | .str value => value != []
  | .list items => !items.isEmpty
  | .dict entries => !entries.isEmpty

/-- `object.get(key)`, where `None` stands for a missing key as well. -/
def get (entries : Dict Str Object) (key : Str) : Object := (entries.get key).getD .none

/-- `str(object)` -/
def text (repr : Object → Str) : Object → Str
  | .str value => value
  | object => repr object

/-- `iter(object)`; none where it raises. -/
def iter : Object → Option (List Object)
  | .list items => some items
  | .dict entries => some (entries.map fun entry => .str entry.1)
  | .str value => some (value.map fun c => .str [c])
  | _ => Option.none

/-- `object or other` -/
def orElse (object other : Object) : Object := if object.truthy then object else other

/-- What a number counts for in a comparison; `True` is one. -/
def number : Object → Option PyFloat
  | .bool value => some (.finite (if value then 1 else 0))
  | .int value => some (.finite value)
  | .float value => some value
  | _ => Option.none

mutual

/-- `is` or `==` -/
def same : Object → Object → Bool
  | .none, .none => true
  | .str a, .str b => a == b
  | .list items, .list items' => sameItems items items'
  | .dict entries, .dict entries' =>
    entries.length == entries'.length && sameEntries entries entries'
  | a, b =>
    match a.number, b.number with
    | some x, some y => x == y
    | _, _ => false

def sameItems : List Object → List Object → Bool
  | [], [] => true
  | a :: items, b :: items' => same a b && sameItems items items'
  | _, _ => false

/-- Every entry has an equal one under its key. -/
def sameEntries : List (Str × Object) → List (Str × Object) → Bool
  | [], _ => true
  | (key, a) :: entries, entries' =>
    match Dict.get entries' key with
    | some b => same a b && sameEntries entries entries'
    | Option.none => false

end

/-- `object in items` -/
def isIn (object : Object) (items : List Object) : Bool := items.any object.same

section Loads

open JsonDecoder

def digitsValue (digits : Str) : ℕ := digits.foldl (fun value digit => 10 * value + (digit - 48)) 0

/-- `int` refuses a text with more digits. -/
def maxStrDigits : ℕ := 4300

def signed (minusSign : Str) (value : ℕ) : ℤ := if minusSign = [] then value else -value

/-- `_parse_number` -/
def ofNumber (text : Str) : Option Object :=
  if text = .lit "NaN" then some (.float .nan)
  else if text = .lit "Infinity" then some (.float (.infinity false))
  else if text = .lit "-Infinity" then some (.float (.infinity true))
  else
    let (minusSign, rest) := sign [45] text
    let (integerDigits, rest) := integer rest
    let (fractionPart, rest) := fraction rest
    let (exponentPart, _) := exponent rest
    if fractionPart = [] ∧ exponentPart = [] then
      if integerDigits.length ≤ maxStrDigits then
        some (.int (signed minusSign (digitsValue integerDigits)))
      else Option.none
    else
      let fractionDigits := fractionPart.tail
      let (exponentSign, exponentDigits) := sign [43, 45] exponentPart.tail
      let power := signed (exponentSign.filter (· == 45)) (digitsValue exponentDigits)
      let mantissa := signed minusSign (digitsValue (integerDigits ++ fractionDigits))
      some (.float (.ofRat (mantissa * (10 : ℚ) ^ (power - fractionDigits.length))))

mutual

def ofValue : Value → Option Object
  | .null => some .none
  | .bool value => some (.bool value)
  | .number text => ofNumber text
  | .str value => some (.str value)
  | .arr items => (ofItems items).map .list
  | .obj fields => (ofFields [] fields).map .dict

def ofItems : List Value → Option (List Object)
  | [] => some []
  | item :: items =>
    match ofValue item, ofItems items with
    | some object, some objects => some (object :: objects)
    | _, _ => Option.none

/-- The last of equal keys counts. -/
def ofFields (entries : Dict Str Object) : List (Str × Value) → Option (Dict Str Object)
  | [] => some entries
  | (key, item) :: fields =>
    match ofValue item with
    | some object => ofFields (entries.set key object) fields
    | Option.none => Option.none

end

/-- `json.loads` of a `str`; none where it raises. -/
def loads (text : Str) : Option Object := (JsonDecoder.loads text).bind ofValue

end Loads

end Object

end Python
