import HeyeeAgent.Python.JsonEncoder
import HeyeeAgent.Python.Object

/-! # Turns of a chat model

What an answer in the style of OpenAI asks for. Entries of its tool calls that are no objects, have
no function or a blank name are passed by, and a call without an id gets one by its place. The raw
message is kept as it came.
-/

namespace HeyeeAgent.FunctionCall

open Python

structure ToolCallRequest where
  callId : Str
  name : Str
  arguments : Dict Str Object

structure ChatTurn where
  content : Option Str
  toolCalls : List ToolCallRequest
  assistantMessage : Dict Str Object

section Extraction

/-- `_normalize_arguments`; none where the integers of a text are too long for `int`. -/
def normalizeArguments : Object → Option (Dict Str Object)
  | .dict arguments => some arguments
  | .none => some []
  | .str text =>
    match JsonDecoder.loads text with
    | none => some [(Str.lit "input", .str text.strip)]
    | some decoded => (Object.ofValue decoded).map fun decoded =>
      match decoded with
      | .dict arguments => arguments
      | other => [(Str.lit "input", other)]
  | other => some [(Str.lit "input", other)]

variable (repr : Object → Str)

/-- `_optional_text` -/
def optionalText : Object → Option Str
  | .none => none
  | value =>
    let text := (value.text repr).strip
    if text = [] then none else some text

/-- `raw_call.get("function") or {}` -/
def callFunction (rawCall : Dict Str Object) : Object :=
  (Object.get rawCall (Str.lit "function")).orElse (.dict [])

def functionName (function : Dict Str Object) : Str :=
  (((Object.get function (Str.lit "name")).orElse (.str [])).text repr).strip

/-- The id that a call without one gets. -/
def placeId (index : ℕ) : Str := Str.lit "tool_call_" ++ JsonEncoder.decimal index

/-- What one entry adds to the calls; none where the arguments raise. -/
def toolCallRequest (index : ℕ) : Object → Option (List ToolCallRequest)
  | .dict rawCall =>
    match callFunction rawCall with
    | .dict function =>
      if functionName repr function = [] then some []
      else (normalizeArguments (Object.get function (Str.lit "arguments"))).map fun arguments => [{
        callId := ((Object.get rawCall (Str.lit "id")).orElse (.str (placeId index))).text repr
        name := functionName repr function
        arguments }]
    | _ => some []
  | _ => some []

/-- The calls of the entries from the one at an index on. -/
def toolCallRequests : ℕ → List Object → Option (List ToolCallRequest)
  | _, [] => some []
  | index, entry :: entries =>
    match toolCallRequest repr index entry, toolCallRequests (index + 1) entries with
    | some calls, some later => some (calls ++ later)
    | _, _ => none

/-- `message.get("tool_calls") or []` -/
def rawToolCalls (message : Dict Str Object) : Object :=
  (Object.get message (Str.lit "tool_calls")).orElse (.list [])

/-- `extract_chat_turn`; none where it raises. -/
def extractChatTurn (data : Object) : Option ChatTurn :=
  match data with
  | .dict data =>
    match Object.get data (Str.lit "choices") with
    | .list (.dict choice :: _) =>
      match Object.get choice (Str.lit "message") with
      | .dict message =>
        ((rawToolCalls message).iter.bind (toolCallRequests repr 0)).map fun calls =>
          { content := optionalText repr (Object.get message (Str.lit "content"))
            toolCalls := calls
            assistantMessage := message }
      | _ => none
    | _ => none
  | _ => none

end Extraction

section Calls

variable {repr : Object → Str} {index : ℕ} {entry : Object} {entries : List Object}
  {calls : List ToolCallRequest}

/-- The id of an entry. -/
def entryId : Object → Option Object
  | .dict rawCall => Dict.get rawCall (Str.lit "id")
  | _ => none

/-- The entry is an object with a named function and a text as its id. -/
def WellFormed (repr : Object → Str) (entry : Object) : Prop :=
  ∃ rawCall function id, entry = .dict rawCall ∧ callFunction rawCall = .dict function ∧
    functionName repr function ≠ [] ∧ Dict.get rawCall (Str.lit "id") = some (.str id) ∧ id ≠ []

theorem placeId_ne_nil (index : ℕ) : placeId index ≠ [] := by
  have start : Str.lit "tool_call_" ≠ [] := by decide
  exact fun empty => start (List.append_eq_nil_iff.mp empty).1

/-- The id of a call is the id of its entry exactly if that is a text and not empty. -/
theorem callId_iff (rawCall : Dict Str Object) :
    Dict.get rawCall (Str.lit "id") = some (.str
      (((Object.get rawCall (Str.lit "id")).orElse (.str (placeId index))).text repr)) ↔
    ∃ id, Dict.get rawCall (Str.lit "id") = some (.str id) ∧ id ≠ [] := by
  unfold Object.get
  cases found : Dict.get rawCall (Str.lit "id") with
  | none => simp
  | some value =>
    rw [Option.getD_some]
    cases value with
    | str id =>
      by_cases empty : id = []
      · subst empty
        have replaced : (Object.str []).orElse (.str (placeId index)) = .str (placeId index) := rfl
        rw [replaced]
        constructor
        · intro same
          exact absurd (Object.str.inj (Option.some.inj same)).symm (placeId_ne_nil index)
        · rintro ⟨id, same, shown⟩
          exact absurd (Object.str.inj (Option.some.inj same)).symm shown
      · have kept : (Object.str id).orElse (.str (placeId index)) = .str id :=
          if_pos (bne_iff_ne.mpr empty)
        rw [kept]
        exact ⟨fun _ => ⟨id, rfl, empty⟩, fun _ => rfl⟩
    | _ => simp [Object.orElse, Object.text, Object.truthy]

/-- An entry is passed by, or its call has the entry's id exactly if the entry is well formed. -/
theorem toolCallRequest_cases (result : toolCallRequest repr index entry = some calls) :
    calls = [] ∧ ¬ WellFormed repr entry ∨
    ∃ call, calls = [call] ∧ (entryId entry = some (.str call.callId) ↔ WellFormed repr entry) := by
  unfold toolCallRequest at result
  split at result
  case h_2 other =>
    cases result
    refine .inl ⟨rfl, ?_⟩
    rintro ⟨rawCall, function, id, rfl, -⟩
    exact other rawCall rfl
  case h_1 rawCall =>
    split at result
    case h_2 other =>
      cases result
      refine .inl ⟨rfl, ?_⟩
      rintro ⟨rawCall, function, id, same, called, -⟩
      cases same
      exact other function called
    case h_1 function called =>
      split_ifs at result with blank
      · cases result
        refine .inl ⟨rfl, ?_⟩
        rintro ⟨rawCall, function, id, same, called', named, -⟩
        cases same
        cases called.symm.trans called'
        exact named blank
      · obtain ⟨arguments, -, rfl⟩ := Option.map_eq_some_iff.mp result
        refine .inr ⟨_, rfl, (callId_iff rawCall).trans ?_⟩
        constructor
        · rintro ⟨id, found, shown⟩
          exact ⟨rawCall, function, id, rfl, called, blank, found, shown⟩
        · rintro ⟨rawCall, function, id, same, -, -, found, shown⟩
          cases same
          exact ⟨id, found, shown⟩

theorem toolCallRequests_cons {rest : List Object}
    (result : toolCallRequests repr index (entry :: rest) = some calls) :
    ∃ first later, toolCallRequest repr index entry = some first ∧
      toolCallRequests repr (index + 1) rest = some later ∧ calls = first ++ later := by
  unfold toolCallRequests at result
  split at result
  case h_1 first later here there =>
    cases result
    exact ⟨first, later, here, there, rfl⟩
  case h_2 => cases result

theorem length_toolCallRequests (result : toolCallRequests repr index entries = some calls) :
    calls.length ≤ entries.length := by
  induction entries generalizing index calls with
  | nil =>
    cases result
    exact le_rfl
  | cons entry entries ih =>
    obtain ⟨first, later, here, there, rfl⟩ := toolCallRequests_cons result
    have bound := ih there
    rw [List.length_append, List.length_cons]
    rcases toolCallRequest_cases here with ⟨rfl, -⟩ | ⟨call, rfl, -⟩
    · rw [List.length_nil]
      omega
    · rw [List.length_singleton]
      omega

/-- Each call answers to its own entry exactly if all entries are well formed. -/
theorem forall₂_toolCallRequests (result : toolCallRequests repr index entries = some calls) :
    List.Forall₂ (fun call entry => entryId entry = some (.str call.callId)) calls entries ↔
      ∀ entry ∈ entries, WellFormed repr entry := by
  induction entries generalizing index calls with
  | nil =>
    cases result
    exact ⟨fun _ entry member => absurd member List.not_mem_nil, fun _ => .nil⟩
  | cons entry entries ih =>
    obtain ⟨first, later, here, there, rfl⟩ := toolCallRequests_cons result
    rw [List.forall_mem_cons]
    rcases toolCallRequest_cases here with ⟨rfl, malformed⟩ | ⟨call, rfl, same⟩
    · refine ⟨fun matched => ?_, fun formed => absurd formed.1 malformed⟩
      -- an entry without a call leaves fewer calls than entries
      have lengths := matched.length_eq
      have bound := length_toolCallRequests there
      rw [List.nil_append, List.length_cons] at lengths
      omega
    · rw [List.singleton_append, List.forall₂_cons, same, ih there]

end Calls

section Turns

variable {repr : Object → Str} {data : Object} {turn : ChatTurn} {entries : List Object}

/-- The entries of a message's tool calls. -/
def entriesOf (message : Dict Str Object) : List Object :=
  match Object.get message (Str.lit "tool_calls") with
  | .list entries => entries
  | _ => []

/-- What is no object asks for nothing. -/
theorem toolCallRequests_of_texts {index : ℕ} {texts : List Str} {calls : List ToolCallRequest}
    (result : toolCallRequests repr index (texts.map .str) = some calls) : calls = [] := by
  induction texts generalizing index calls with
  | nil =>
    cases result
    rfl
  | cons text texts ih =>
    obtain ⟨first, later, here, there, rfl⟩ := toolCallRequests_cons result
    cases here
    exact ih there

/-- What is run through are the entries, or texts. -/
theorem items_of_iter {message : Dict Str Object} {items : List Object}
    (iterated : (rawToolCalls message).iter = some items) :
    items = entriesOf message ∨ ∃ texts : List Str, items = texts.map .str := by
  unfold rawToolCalls Object.orElse at iterated
  unfold entriesOf
  split_ifs at iterated with there
  · cases found : Object.get message (Str.lit "tool_calls") with
    | list entries =>
      rw [found] at iterated
      cases iterated
      exact .inl rfl
    | str text =>
      rw [found] at iterated
      cases iterated
      exact .inr ⟨text.map fun c => [c], List.map_map.symm⟩
    | dict fields =>
      rw [found] at iterated
      cases iterated
      exact .inr ⟨fields.map Prod.fst, List.map_map.symm⟩
    | _ =>
      rw [found] at iterated
      cases iterated
  · cases iterated
    exact .inr ⟨[], rfl⟩

/-- The calls of a turn come from the entries of the message that it keeps. -/
theorem toolCalls_of_extract (extracted : extractChatTurn repr data = some turn)
    (calls : turn.toolCalls ≠ []) :
    toolCallRequests repr 0 (entriesOf turn.assistantMessage) = some turn.toolCalls := by
  unfold extractChatTurn at extracted
  split at extracted <;> try cases extracted
  split at extracted <;> try cases extracted
  split at extracted <;> try cases extracted
  obtain ⟨requests, read, rfl⟩ := Option.map_eq_some_iff.mp extracted
  obtain ⟨items, iterated, read⟩ := Option.bind_eq_some_iff.mp read
  rcases items_of_iter iterated with rfl | ⟨texts, rfl⟩
  · exact read
  · exact absurd (toolCallRequests_of_texts read) calls

end Turns

end HeyeeAgent.FunctionCall
