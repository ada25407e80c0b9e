import HeyeeAgent.Python.JsonDecoder
import Mathlib.Algebra.Group.Nat.Defs

/-! # The streaming chat clients

How the two chat clients turn the lines of a response into calls of a `StreamCallback`. A response
is the lines that `aiter_lines` yields, each with whether the stream was cancelled when it is read,
and what happens after them; the request itself is left out.
-/

namespace HeyeeAgent.InfraAi

open Python Python.JsonDecoder

inductive CallbackCall where
  | onThinking (content : Str)
  | onContent (content : Str)
  | onComplete
  | onError (error : Str)
deriving DecidableEq

/-- How a response ends once its lines are read. -/
inductive ResponseEnd where
  | closed (cancelled : Bool)
  /-- an `Exception`, such as a failed status or a lost connection -/
  | raised (error : Str) (cancelled : Bool)
  | cancelledError
deriving DecidableEq

structure StreamResponse where
  lines : List (Str × Bool)
  ending : ResponseEnd

/-- The content of the calls of `on_content`. -/
def contents (calls : List CallbackCall) : List Str :=
  calls.filterMap fun
    | .onContent content => some content
    | _ => none

/-- What follows the last line, when none of them has completed the stream. -/
def ResponseEnd.calls (incomplete : String) : ResponseEnd → List CallbackCall
  | .closed cancelled => if cancelled then [] else [.onError (.lit incomplete)]
  | .raised error cancelled => if cancelled then [] else [.onError error]
  | .cancelledError => []

section Text

/-- `str(value)`; `repr` gives it for what is no string. -/
def str (repr : Value → Str) : Value → Str
  | .str text => text
  | value => repr value

/-- `_optional_text` -/
def optionalText (repr : Value → Str) : Value → Option Str
  | .null => none
  | value =>
    let text := Str.strip (str repr value)
    if text = [] then none else some text

/-- The value of a number is not zero; a float is zero from half of the least one down. -/
def numberTruth (text : Str) : Bool :=
  let mantissa := text.takeWhile fun c => c ≠ 101 ∧ c ≠ 69
  let scale := (text.dropWhile fun c => c ≠ 101 ∧ c ≠ 69).drop 1
  let natural (digits : Str) : ℕ := (digits.filter isDigit).foldl (fun n c => 10 * n + (c - 48)) 0
  let fractionLength := ((mantissa.dropWhile (· ≠ point)).drop 1).length
  let negative := scale.head? = some 45
  let shift := fractionLength + if negative then natural scale else 0
  let factor := if negative then 1 else 10 ^ natural scale
  if mantissa.filter isDigit = [] then true
  else if text.contains point || scale ≠ [] then
    10 ^ shift < natural mantissa * factor * 2 ^ 1075
  else natural mantissa ≠ 0

/-- `bool(value)` -/
def truth : Value → Bool
  | .null => false
  | .bool value => value
  | .number text => numberTruth text
  | .str text => text ≠ []
  | .arr items => !items.isEmpty
  | .obj fields => !fields.isEmpty

end Text

section Ollama

/-- What a line of Ollama calls, and whether it completes the stream. -/
def ollamaLine (repr : Value → Str) (reasoningEnabled : Bool) (line : Str) :
    List CallbackCall × Bool :=
  match loads line with
  | some (.obj data) =>
    let calls : List CallbackCall := match Value.get data "message" with
      | .obj message =>
        let thinking := optionalText repr (Value.get message "thinking")
        let content := optionalText repr (Value.get message "content")
        (if reasoningEnabled then (thinking.map CallbackCall.onThinking).toList else []) ++
          (content.map CallbackCall.onContent).toList
      | _ => []
    (calls, truth (Value.get data "done"))
  | _ => ([], false)

def readOllamaLines (repr : Value → Str) (reasoningEnabled : Bool) (ending : ResponseEnd) :
    List (Str × Bool) → List CallbackCall
  | [] => ending.calls "Ollama stream ended before completion"
  | (line, cancelled) :: lines =>
    if cancelled then []
    else
      let (calls, done) := ollamaLine repr reasoningEnabled line
      calls ++ if done then [.onComplete] else readOllamaLines repr reasoningEnabled ending lines

/-- `OllamaChatModelClient._run_ollama_stream` -/
def runOllamaStream (repr : Value → Str) (reasoningEnabled : Bool) (response : StreamResponse) :
    List CallbackCall :=
  readOllamaLines repr reasoningEnabled response.ending response.lines

end Ollama

section OpenAI

/-- `StreamEvent` of the client. -/
structure StreamEvent where
  content : Option Str := none
  reasoning : Option Str := none
  completed : Bool := false

/-- A text, if it is not empty. -/
def nonempty (text : Str) : Option Str := if text = [] then none else some text

/-- A field of the `delta` or the `message` of a choice. -/
def containerField (choice : List (Str × Value)) (containerName fieldName : String) : Value :=
  match Value.get choice containerName with
  | .obj container => Value.get container fieldName
  | _ => .null

/-- `_extract_stream_text`; an empty text in the `delta` is not looked for in the `message`. -/
def extractStreamText (repr : Value → Str) (choice : List (Str × Value)) (fieldName : String) :
    Option Str :=
  match containerField choice "delta" fieldName with
  | .null =>
    match containerField choice "message" fieldName with
    | .null => none
    | value => nonempty (str repr value)
  | value => nonempty (str repr value)

/-- The payload of a line without its field name. -/
def ssePayload (line : Str) : Str :=
  let payload := Str.strip line
  if (Str.lit "data:").isPrefixOf payload then Str.strip (payload.drop 5) else payload

/-- Only these ASCII letters have one of `[done]` as their lower case. -/
def isDone (payload : Str) : Bool :=
  payload.map (fun c => if 65 ≤ c ∧ c ≤ 90 then c + 32 else c) = Str.lit "[done]"

/-- `parse_sse_line`; none where it raises. -/
def parseSseLine (repr : Value → Str) (reasoningEnabled : Bool) (line : Str) : Option StreamEvent :=
  if Str.strip line = [] then some {}
  else if isDone (ssePayload line) then some { completed := true }
  else
    match loads (ssePayload line) with
    | none => none
    | some (.obj data) =>
      match Value.get data "choices" with
      | .arr (.obj choice0 :: _) =>
        some {
          content := extractStreamText repr choice0 "content"
          reasoning :=
            if reasoningEnabled then extractStreamText repr choice0 "reasoning_content" else none
          completed := match Value.get choice0 "finish_reason" with
            | .null => false
            | _ => true }
      | _ => some {}
    | some _ => some {}

def StreamEvent.calls (event : StreamEvent) : List CallbackCall :=
  (event.reasoning.map CallbackCall.onThinking).toList ++
    (event.content.map CallbackCall.onContent).toList

/-- The loop of `_run_stream`; a line that raises is skipped. -/
def readLines (repr : Value → Str) (reasoningEnabled : Bool) (ending : ResponseEnd) :
    List (Str × Bool) → List CallbackCall
  | [] => ending.calls "chat stream ended before completion"
  | (line, cancelled) :: lines =>
    if cancelled then []
    else
      match parseSseLine repr reasoningEnabled line with
      | none => readLines repr reasoningEnabled ending lines
      | some event =>
        event.calls ++
          if event.completed then [.onComplete]
          else readLines repr reasoningEnabled ending lines

/-- `AbstractOpenAIStyleChatModelClient._run_stream` -/
def runStream (repr : Value → Str) (reasoningEnabled : Bool) (response : StreamResponse) :
    List CallbackCall :=
  readLines repr reasoningEnabled response.ending response.lines

end OpenAI

end HeyeeAgent.InfraAi
