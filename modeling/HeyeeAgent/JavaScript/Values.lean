import HeyeeAgent.Python.Text

/-! # Values of a script that come from JSON

The operators that a page applies to parsed JSON. An object has no methods but the inherited ones, so
it is written `[object Object]`, or not at all when it has a `toString` of its own. How numbers are
written and added is the runtime's.
-/

namespace JavaScript

open Python (Json Str)

structure Numbers where
  /-- `Number::toString` -/
  text : Json → Str
  /-- `+` of two primitive values neither of which is a string -/
  sum : Json → Json → Json

def truthy : Json → Bool
  | .null => false
  | .bool value => value
  | .int value => value != 0
  | .float value => value != .finite 0 && value != .nan
  | .str value => !value.isEmpty
  | .arr _ | .obj _ => true

/-- `value || default`, where the value may be undefined. -/
def orElse (value : Option Json) (default : Json) : Json := (value.filter truthy).getD default

/-- A primitive value that is not a string. -/
def numeric : Json → Bool
  | .null | .bool _ | .int _ | .float _ => true
  | .str _ | .arr _ | .obj _ => false

variable (numbers : Numbers)

mutual

/-- `String(value)`; none where it raises a `TypeError`. -/
def text : Json → Option Str
  | .null => some (Str.lit "null")
  | .bool true => some (Str.lit "true")
  | .bool false => some (Str.lit "false")
  | .int value => some (numbers.text (.int value))
  | .float value => some (numbers.text (.float value))
  | .str value => some value
  | .arr items => join items
  | .obj fields =>
    if fields.any (·.1 == "toString") then none else some (Str.lit "[object Object]")

/-- `items.join()` -/
def join : List Json → Option Str
  | [] => some []
  | [item] => element item
  | item :: items => do
    let first ← element item
    let rest ← join items
    some (first ++ Str.lit "," ++ rest)

def element : Json → Option Str
  | .null => some []
  | item => text item

end

/-- `left + right` -/
def add (left right : Json) : Option Json :=
  if numeric left && numeric right then some (numbers.sum left right)
  else do
    let left ← text numbers left
    let right ← text numbers right
    some (.str (left ++ right))

variable {numbers}

@[simp] theorem truthy_str (value : Str) : truthy (.str value) = !value.isEmpty := rfl

/-- A string plus anything is a string that goes on. -/
theorem add_str (value : Str) (right : Json) :
    add numbers (.str value) right =
      (text numbers right).map fun more => .str (value ++ more) := by
  unfold add
  rw [if_neg (by simp [numeric])]
  cases text numbers right with
  | none => simp [text]
  | some more => simp [text]

theorem text_str (value : Str) : text numbers (.str value) = some value := by rw [text]

theorem add_texts (value more : Str) :
    add numbers (.str value) (.str more) = some (.str (value ++ more)) := by
  rw [add_str, text_str, Option.map_some]

end JavaScript
