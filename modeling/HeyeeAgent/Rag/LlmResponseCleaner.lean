import HeyeeAgent.Python.Object
import HeyeeAgent.Python.StrMethods

/-! # Cleaning the reply of a model

A reply may stand in a code fence and have text around its JSON. Two places take the fence away; the
one of the tool arguments also looks for it behind white space.
-/

namespace HeyeeAgent.Rag

open Python

section CodeFence

def fence : Str := Str.lit "```"

/-- The lines of a text in a fence, without its first and its last line. -/
def stripFence (opens : Str → Bool) (text : Str) : Str :=
  if fence.isPrefixOf text then
    let lines := text.splitlines
    let lines := if lines.head?.any opens then lines.drop 1 else lines
    let lines := if lines.getLast?.any fun line => line.strip = fence then lines.dropLast else lines
    (Str.join [10] lines).strip
  else text

/-- `_strip_code_fence` -/
def stripCodeFence (text : Str) : Str := stripFence fence.isPrefixOf text

end CodeFence

section Parsing

/-- `parse_json_object`; none where it raises. -/
def parseJsonObject (text : Str) : Option (Dict Str Object) :=
  match ((stripCodeFence text.strip).between JsonDecoder.openBrace JsonDecoder.closeBrace).bind
    Object.loads with
  | some (.dict parsed) => some parsed
  | _ => none

def dictOf : Object → Option (Dict Str Object)
  | .dict entries => some entries
  | _ => none

/-- `parse_json_array`; none where it raises. -/
def parseJsonArray (text : Str) : Option (List (Dict Str Object)) :=
  let cleaned := stripCodeFence text.strip
  let parsed := match cleaned.between JsonDecoder.openBracket JsonDecoder.closeBracket with
    | some array => Object.loads array
    | none => (parseJsonObject cleaned).map fun parsed => Object.get parsed (Str.lit "results")
  match parsed with
  | some (.list items) => some (items.filterMap dictOf)
  | _ => none

end Parsing

end HeyeeAgent.Rag
