import HeyeeAgent.Python.Object
import HeyeeAgent.Python.StrMethods

/-! # The responses of an MCP server

`StreamableHttpMcpClient._decode_response` with its reader of event streams. The response comes with
its header, its text and the text of its bytes, which `httpx` makes.
-/

namespace HeyeeAgent.Mcp

open Python

inductive ClientError where
  /-- `McpProtocolError` -/
  | protocol (message : String)
  /-- what `json.loads` raises for a number with too many digits -/
  | valueError
deriving DecidableEq

/-- `json.loads`, where the program catches `JSONDecodeError`. -/
def loadsOr (message : String) (text : Str) : Except ClientError Object :=
  match JsonDecoder.loads text with
  | none => .error (.protocol message)
  | some value =>
    match Object.ofValue value with
    | none => .error .valueError
    | some object => .ok object

/-- The variables of the loop of `_parse_sse`. -/
structure SseState where
  dataLines : List Str := []
  payloads : List (Dict Str Object) := []

def sseLine (s : SseState) (line : Str) : Except ClientError SseState :=
  if (Str.lit "data:").isPrefixOf line then
    .ok { s with dataLines := s.dataLines ++ [Str.lstrip (line.drop 5)] }
  else if line = [] ∧ s.dataLines ≠ [] then
    match loadsOr "MCP SSE data is not valid JSON" (Str.join (Str.lit "\n") s.dataLines) with
    | .error error => .error error
    | .ok (.dict payload) => .ok { dataLines := [], payloads := s.payloads ++ [payload] }
    | .ok _ => .ok { s with dataLines := [] }
  else .ok s

/-- `_parse_sse` -/
def parseSse (body : Str) : Except ClientError (List (Dict Str Object)) :=
  ((Str.splitlines body ++ [[]]).foldlM sseLine {}).map SseState.payloads

structure HttpResponse where
  statusCode : ℕ
  contentType : Str
  /-- of the bytes of the body, for `response.json()` -/
  content : Str
  text : Str

/-- `part in text` -/
def isPart (part : Str) : Str → Bool
  | [] => part.isPrefixOf []
  | c :: text => part.isPrefixOf (c :: text) || isPart part text

/-- `"text/event-stream" in content_type.lower()`; only ASCII letters have its letters as their lower
case. -/
def isEventStream (contentType : Str) : Bool :=
  isPart (Str.lit "text/event-stream")
    (contentType.map fun c => if 65 ≤ c ∧ c ≤ 90 then c + 32 else c)

/-- `payload.get("id") == expected_id` -/
def hasId (expectedId : ℤ) (payload : Dict Str Object) : Bool :=
  (Object.get payload (Str.lit "id")).same (.int expectedId)

/-- `_decode_response` -/
def decodeResponse (response : HttpResponse) (expectedId : ℤ) :
    Except ClientError (Dict Str Object) :=
  if response.statusCode = 202 ∨ response.statusCode = 204 ∨ response.content = [] then
    .error (.protocol "MCP request returned no response body")
  else if isEventStream response.contentType then
    match parseSse response.text with
    | .error error => .error error
    | .ok payloads =>
      match payloads.find? (hasId expectedId) with
      | some payload => .ok payload
      | none => .error (.protocol "MCP SSE response did not contain the request ID")
  else
    match loadsOr "MCP response is not valid JSON" response.content with
    | .error error => .error error
    | .ok (.dict payload) =>
      if hasId expectedId payload then .ok payload
      else .error (.protocol "MCP response ID does not match the request")
    | .ok _ => .error (.protocol "MCP response must be a JSON object")

section Fold

variable {s : SseState} {line : Str}

/-- A line that is neither data nor empty changes nothing. -/
theorem sseLine_other (field : (Str.lit "data:").isPrefixOf line = false) (nonempty : line ≠ []) :
    sseLine s line = .ok s := by
  rw [sseLine, if_neg (by simp [field]), if_neg (by simp [nonempty])]

theorem sseLine_data (s : SseState) (value : Str) :
    sseLine s (Str.lit "data:" ++ value) =
      .ok { s with dataLines := s.dataLines ++ [Str.lstrip value] } := by
  have begins : (Str.lit "data:").isPrefixOf (Str.lit "data:" ++ value) = true :=
    List.isPrefixOf_iff_prefix.mpr (List.prefix_append _ _)
  rw [sseLine, if_pos begins]
  rfl

/-- An empty line without data before it. -/
theorem sseLine_idle (idle : s.dataLines = []) : sseLine s [] = .ok s := by
  rw [sseLine, if_neg (by decide), if_neg (by simp [idle])]

theorem sseLine_ends {payload : Dict Str Object} (waiting : s.dataLines ≠ [])
    (loaded : Object.loads (Str.join (Str.lit "\n") s.dataLines) = some (.dict payload)) :
    sseLine s [] = .ok { dataLines := [], payloads := s.payloads ++ [payload] } := by
  obtain ⟨value, decoded, made⟩ := Option.bind_eq_some_iff.mp loaded
  rw [sseLine, if_neg (by decide), if_pos ⟨rfl, waiting⟩, loadsOr, decoded]
  dsimp only
  rw [made]

/-- What an empty line raises where the data is no JSON. -/
theorem sseLine_raises (waiting : s.dataLines ≠ [])
    (refused : JsonDecoder.loads (Str.join (Str.lit "\n") s.dataLines) = none) :
    sseLine s [] = .error (.protocol "MCP SSE data is not valid JSON") := by
  rw [sseLine, if_neg (by decide), if_pos ⟨rfl, waiting⟩, loadsOr, refused]

/-- No text with these lines at its beginning is JSON. -/
def Poisoned (dataLines : List Str) : Prop :=
  ∀ more, JsonDecoder.loads (Str.join (Str.lit "\n") (dataLines ++ more)) = none

theorem Poisoned.append {dataLines : List Str} (poisoned : Poisoned dataLines) (later : List Str) :
    Poisoned (dataLines ++ later) := by
  intro more
  rw [List.append_assoc]
  exact poisoned _

theorem poisoned_ends (waiting : s.dataLines ≠ []) (poisoned : Poisoned s.dataLines) :
    sseLine s [] = .error (.protocol "MCP SSE data is not valid JSON") := by
  refine sseLine_raises waiting ?_
  have refused := poisoned []
  rwa [List.append_nil] at refused

/-- Such data makes the reader raise, whatever follows it. -/
theorem poisoned_raises {lines : List Str} (waiting : s.dataLines ≠ [])
    (poisoned : Poisoned s.dataLines) :
    (lines ++ [[]]).foldlM sseLine s = .error (.protocol "MCP SSE data is not valid JSON") := by
  induction lines generalizing s with
  | nil =>
    rw [List.nil_append, List.foldlM_cons, poisoned_ends waiting poisoned]
    rfl
  | cons line lines ih =>
    rw [List.cons_append, List.foldlM_cons]
    by_cases field : (Str.lit "data:").isPrefixOf line = true
    · obtain ⟨value, rfl⟩ := List.isPrefixOf_iff_prefix.mp field
      rw [sseLine_data]
      exact ih (by simp) (poisoned.append _)
    · by_cases empty : line = []
      · rw [empty, poisoned_ends waiting poisoned]
        rfl
      · rw [sseLine_other (Bool.eq_false_iff.mpr field) empty]
        exact ih waiting poisoned

end Fold

end HeyeeAgent.Mcp
