import HeyeeAgent.FunctionCall.ChatTurn
import HeyeeAgent.Python.StrMethods
import HeyeeAgent.Tools.Registry

/-! # The loop of function calls

`FunctionCallService.complete` asks the model until it answers without a tool call or the steps are
used up. The raw message of a turn stays in the conversation, and an observation follows it for each
call that was read from it. One call of the model is one call routed to the candidates; its answer
and what the handlers give are of the outside.
-/

namespace HeyeeAgent.FunctionCall

open Python Tools

/-- A message of the conversation, with where it comes from. -/
inductive Message where
  /-- by the caller, or the policy of the tools -/
  | given (fields : Dict Str Str)
  /-- the raw message of a turn -/
  | assistant (fields : Dict Str Object)
  /-- an observation -/
  | tool (fields : Dict Str Object)

/-- What a model is asked. -/
structure ModelCall where
  messages : List Message
  schemas : List Object

inductive Ending where
  | returned (reply : Str) (toolCalls : List Str)
  /-- `ModelUnavailableError` -/
  | unavailable (message : String)
  /-- The call of the model raised. -/
  | raised

structure FunctionCallService where
  registry : ToolRegistry
  /-- `ai_provider` is `ollama`. -/
  ollama : Bool
  /-- `repr`, of what is no text -/
  repr : Object → Str
  /-- `json.dumps` with sorted keys -/
  dumps : Dict Str Object → Str

/-- What the outside gives: the data of each answer of the model, unless the call fails, and what the
handlers give or the text of their errors. -/
structure Outside where
  response : ℕ → Option Object
  handled : ℕ → Except Str Str

/-- The conversation, the summaries of the calls so far, and the number of calls of the model. -/
structure State where
  conversation : List Message
  summaries : List Str
  made : ℕ

def toolPolicy : Str := Str.lit <|
  "\n\nUse the provided tools whenever the answer depends on current, " ++
  "user-specific, shop, voucher, review, or other external business data. " ++
  "After each tool result, reassess the remaining task and call any " ++
  "additional tool needed before answering. Never guess or fabricate " ++
  "data that a tool can retrieve."

def role : Str := Str.lit "role"

def content : Str := Str.lit "content"

/-- The conversation before the first call; with tools, their policy is in the system message. -/
def opening (messages : List (Dict Str Str)) (schemas : List Object) : List Message :=
  if schemas.isEmpty then messages.map .given
  else
    match messages with
    | first :: rest =>
      if Dict.get first role = some (Str.lit "system") then
        .given (first.set content (((Dict.get first content).getD []) ++ toolPolicy)) ::
          rest.map .given
      else
        .given [(role, Str.lit "system"), (content, toolPolicy.strip)] :: messages.map .given
    | [] => [.given [(role, Str.lit "system"), (content, toolPolicy.strip)]]

/-- What the content of a turn comes to, unless it is blank. -/
def ChatTurn.reply (turn : ChatTurn) : Option Str :=
  turn.content.bind fun content => if content.strip = [] then none else some content.strip

namespace FunctionCallService

variable (service : FunctionCallService) (outside : Outside)

/-- `_execute`: the observation and the summary of a call. -/
def execute (call : ToolCallRequest) (handled : Except Str Str) : Str × Str :=
  let called := call.name ++ Str.lit "(" ++ service.dumps call.arguments ++ Str.lit ") -> "
  match service.registry.get call.name with
  | none =>
    let names := Str.join (Str.lit ", ") service.registry.listNames
    let available := if names = [] then Str.lit "none" else names
    (Str.lit "Tool '" ++ call.name ++ Str.lit "' is unavailable. Available tools: " ++ available ++
      Str.lit ".", called ++ Str.lit "unavailable")
  | some _ =>
    match handled with
    | .ok observation => (observation, called ++ observation)
    | .error error =>
      (Str.lit "Tool '" ++ call.name ++ Str.lit "' failed: " ++ error, called ++ Str.lit "failed")

/-- `_observation_message` -/
def observationMessage (call : ToolCallRequest) (observation : Str) : Message :=
  .tool <|
    if service.ollama then
      [(role, .str (Str.lit "tool")), (content, .str observation),
        (Str.lit "tool_name", .str call.name)]
    else
      [(role, .str (Str.lit "tool")), (content, .str observation),
        (Str.lit "tool_call_id", .str call.callId)]

/-- The calls of a turn are executed in order; a handler is told by the number of calls so far. -/
def observe : State → List ToolCallRequest → State
  | s, [] => s
  | s, call :: calls =>
    let (observation, summary) := service.execute call (outside.handled s.summaries.length)
    observe
      { s with
        conversation := s.conversation ++ [service.observationMessage call observation]
        summaries := s.summaries ++ [summary] } calls

/-- The turn of a call of the model; none where the call fails or its data is refused. -/
def turn (call : ℕ) : Option ChatTurn := (outside.response call).bind (extractChatTurn service.repr)

/-- The state after a turn with tool calls. -/
def answered (s : State) (turn : ChatTurn) : State :=
  service.observe outside
    { s with
      conversation := s.conversation ++ [.assistant turn.assistantMessage]
      made := s.made + 1 } turn.toolCalls

/-- The rest of `complete` with a number of steps left: the calls of the model, and how it ends. -/
def steps (schemas : List Object) : ℕ → State → List ModelCall × Ending
  | 0, s => ([⟨s.conversation, []⟩],
    match service.turn outside s.made with
    | none => .raised
    | some turn =>
      match turn.reply with
      | some reply => .returned reply s.summaries
      | none => .unavailable "function call loop reached its limit")
  | left + 1, s =>
    let call : ModelCall := ⟨s.conversation, schemas⟩
    match service.turn outside s.made with
    | none => ([call], .raised)
    | some turn =>
      if turn.toolCalls.isEmpty then ([call],
        match turn.reply with
        | some reply => .returned reply s.summaries
        | none => .unavailable "function call model returned empty reply")
      else
        let (calls, ending) := steps schemas left (service.answered outside s turn)
        (call :: calls, ending)

/-- `complete` -/
def complete (messages : List (Dict Str Str)) (maxSteps : ℕ) (useTools : Bool) :
    List ModelCall × Ending :=
  let schemas := if useTools then service.registry.functionSchemas else []
  service.steps outside schemas maxSteps ⟨opening messages schemas, [], 0⟩

end FunctionCallService

section Specification

namespace Message

def isAssistant : Message → Bool
  | .given fields => Dict.get fields role = some (Str.lit "assistant")
  | .assistant _ => true
  | .tool _ => false

def isTool : Message → Bool
  | .given fields => Dict.get fields role = some (Str.lit "tool")
  | .assistant _ => false
  | .tool _ => true

def toolCallId : Message → Option Object
  | .given fields => (Dict.get fields (Str.lit "tool_call_id")).map .str
  | .assistant fields | .tool fields => Dict.get fields (Str.lit "tool_call_id")

/-- The entries of the tool calls; a caller's message has texts only. -/
def entries : Message → List Object
  | .assistant fields => entriesOf fields
  | _ => []

end Message

/-- The message carries the id of the entry. -/
def Answers (message : Message) (entry : Object) : Prop :=
  ∃ id, entryId entry = some id ∧ message.toolCallId = some id

/-- The tool messages directly after an assistant message are one for each entry, in their order. -/
def Answered : List Message → Prop
  | [] => True
  | message :: rest =>
    (message.isAssistant = true →
      List.Forall₂ Answers (rest.takeWhile Message.isTool) message.entries) ∧ Answered rest

end Specification

section Conversation

variable {before after : List Message} {message : Message}

/-- What comes before a message that is no observation does not depend on it. -/
theorem answered_append (plain : message.isTool = false) :
    Answered (before ++ message :: after) ↔ Answered before ∧ Answered (message :: after) := by
  induction before with
  | nil => exact ⟨fun answered => ⟨trivial, answered⟩, And.right⟩
  | cons first before ih =>
    have stops : (message :: after).takeWhile Message.isTool = [] := by
      rw [List.takeWhile_cons_of_neg (by simp [plain])]
    have unread : (before ++ message :: after).takeWhile Message.isTool =
        before.takeWhile Message.isTool := by
      rw [List.takeWhile_append, stops, List.append_nil]
      split_ifs with all
      · exact ((List.takeWhile_prefix _).eq_of_length all).symm
      · rfl
    rw [List.cons_append, Answered, Answered, unread, ih, and_assoc]

/-- A first message that asks for nothing does not matter. -/
theorem answered_cons_of_plain (plain : message.isAssistant = false) :
    Answered (message :: after) ↔ Answered after := by
  rw [Answered, plain]
  exact ⟨And.right, fun answered => ⟨fun assistant => absurd assistant Bool.false_ne_true, answered⟩⟩

theorem not_isAssistant_of_isTool (tool : message.isTool = true) : message.isAssistant = false := by
  cases message with
  | given fields =>
    have named := of_decide_eq_true tool
    rw [Message.isAssistant, named]
    decide
  | assistant fields => cases tool
  | tool fields => rfl

theorem answered_of_tools (tools : ∀ message ∈ after, message.isTool = true) : Answered after := by
  induction after with
  | nil => trivial
  | cons first after ih =>
    obtain ⟨tool, tools⟩ := List.forall_mem_cons.mp tools
    exact (answered_cons_of_plain (not_isAssistant_of_isTool tool)).mpr (ih tools)

/-- The policy of the tools does not change what is answered. -/
theorem answered_opening (messages : List (Dict Str Str)) (schemas : List Object) :
    Answered (opening messages schemas) ↔ Answered (messages.map .given) := by
  have system {fields : Dict Str Str} (named : Dict.get fields role = some (Str.lit "system")) :
      (Message.given fields).isAssistant = false := by
    rw [Message.isAssistant, named]
    decide
  unfold opening
  split_ifs
  · rfl
  · cases messages with
    | nil => exact answered_cons_of_plain (system rfl)
    | cons first rest =>
      dsimp only
      split_ifs with named
      · have kept : Dict.get (first.set content (((Dict.get first content).getD []) ++ toolPolicy))
            role = some (Str.lit "system") := (Dict.get_set_of_ne (by decide)).trans named
        rw [answered_cons_of_plain (system kept), List.map_cons,
          answered_cons_of_plain (system named)]
      · exact answered_cons_of_plain (system rfl)

end Conversation

section Loop

variable {service : FunctionCallService} {outside : Outside}

/-- An observation carries the id of its call, unless the provider is Ollama. -/
theorem toolCallId_observationMessage (call : ToolCallRequest) (observation : Str) :
    (service.observationMessage call observation).toolCallId =
      if service.ollama then none else some (.str call.callId) := by
  unfold FunctionCallService.observationMessage
  split_ifs <;> rfl

/-- The message is what became of the call. -/
def Observes (service : FunctionCallService) (message : Message) (call : ToolCallRequest) : Prop :=
  ∃ observation, message = service.observationMessage call observation

/-- The observations follow the conversation, one for each call. -/
theorem conversation_observe (service : FunctionCallService) (outside : Outside)
    (calls : List ToolCallRequest) (s : State) : ∃ observations,
      (service.observe outside s calls).conversation = s.conversation ++ observations ∧
        List.Forall₂ (Observes service) observations calls := by
  induction calls generalizing s with
  | nil => exact ⟨[], (List.append_nil _).symm, .nil⟩
  | cons call calls ih =>
    let executed := service.execute call (outside.handled s.summaries.length)
    obtain ⟨observations, appended, each⟩ := ih
      { s with
        conversation := s.conversation ++ [service.observationMessage call executed.1]
        summaries := s.summaries ++ [executed.2] }
    refine ⟨service.observationMessage call executed.1 :: observations, ?_, .cons ⟨_, rfl⟩ each⟩
    rw [List.append_cons]
    exact appended

theorem made_observe (calls : List ToolCallRequest) (s : State) :
    (service.observe outside s calls).made = s.made := by
  induction calls generalizing s with
  | nil => rfl
  | cons call calls ih => exact ih _

theorem isTool_of_observes {observations : List Message} {calls : List ToolCallRequest}
    (each : List.Forall₂ (Observes service) observations calls) :
    ∀ message ∈ observations, message.isTool = true := by
  induction each with
  | nil => exact fun message member => absurd member List.not_mem_nil
  | cons observed each ih =>
    obtain ⟨observation, rfl⟩ := observed
    exact List.forall_mem_cons.mpr ⟨rfl, ih⟩

theorem forall₂_answers {observations : List Message} {calls : List ToolCallRequest}
    {entries : List Object} (provider : service.ollama = false)
    (each : List.Forall₂ (Observes service) observations calls) :
    List.Forall₂ Answers observations entries ↔
      List.Forall₂ (fun call entry => entryId entry = some (.str call.callId)) calls entries := by
  induction each generalizing entries with
  | nil => cases entries <;> simp
  | @cons message call observations calls observed each ih =>
    obtain ⟨observation, rfl⟩ := observed
    cases entries with
    | nil => simp
    | cons entry entries =>
      have carries : Answers (service.observationMessage call observation) entry ↔
          entryId entry = some (.str call.callId) := by
        unfold Answers
        rw [toolCallId_observationMessage, provider, if_neg Bool.false_ne_true]
        constructor
        · rintro ⟨id, found, same⟩
          rw [found, same]
        · exact fun found => ⟨_, found, rfl⟩
      rw [List.forall₂_cons, List.forall₂_cons, carries, ih]

/-- Without ids the observations answer to nothing. -/
theorem not_answers_of_ollama {observations : List Message} {calls : List ToolCallRequest}
    {entries : List Object} (provider : service.ollama = true)
    (each : List.Forall₂ (Observes service) observations calls) (asks : calls ≠ []) :
    ¬ List.Forall₂ Answers observations entries := by
  intro answers
  cases each with
  | nil => exact asks rfl
  | cons observed each =>
    obtain ⟨observation, rfl⟩ := observed
    cases answers with
    | cons first answers =>
      obtain ⟨id, -, carried⟩ := first
      rw [toolCallId_observationMessage, provider, if_pos rfl] at carried
      cases carried

/-- What the observations of a turn need: their ids are those of the entries. -/
def Answerable (service : FunctionCallService) (turn : ChatTurn) : Prop :=
  service.ollama = false ∧ ∀ entry ∈ entriesOf turn.assistantMessage, WellFormed service.repr entry

theorem answered_answered {s : State} {call : ℕ} {turn : ChatTurn}
    (taken : service.turn outside call = some turn) (asks : turn.toolCalls ≠ []) :
    Answered (service.answered outside s turn).conversation ↔
      Answered s.conversation ∧ Answerable service turn := by
  obtain ⟨data, -, extracted⟩ := Option.bind_eq_some_iff.mp taken
  have read := toolCalls_of_extract extracted asks
  obtain ⟨observations, appended, each⟩ := conversation_observe service outside turn.toolCalls
    { s with
      conversation := s.conversation ++ [.assistant turn.assistantMessage]
      made := s.made + 1 }
  have tools := isTool_of_observes each
  have matched : List.Forall₂ Answers observations (entriesOf turn.assistantMessage) ↔
      Answerable service turn := by
    cases provider : service.ollama with
    | false =>
      rw [forall₂_answers provider each, forall₂_toolCallRequests read]
      exact ⟨fun formed => ⟨provider, formed⟩, And.right⟩
    | true =>
      refine ⟨fun answers => absurd answers (not_answers_of_ollama provider each asks),
        fun answerable => ?_⟩
      exact absurd (provider.symm.trans answerable.1) (by decide)
  have conversation : (service.answered outside s turn).conversation =
      s.conversation ++ .assistant turn.assistantMessage :: observations := by
    rw [List.append_cons]
    exact appended
  rw [conversation, answered_append rfl, Answered, List.takeWhile_eq_self_iff.mpr tools]
  refine and_congr_right fun _ => ?_
  rw [← matched]
  exact ⟨fun both => both.1 rfl, fun each => ⟨fun _ => each, answered_of_tools tools⟩⟩

theorem made_answered (s : State) (turn : ChatTurn) :
    (service.answered outside s turn).made = s.made + 1 := made_observe _ _

/-- The answer to a call of the model is a turn with tool calls. -/
def FunctionCallService.Asks (service : FunctionCallService) (outside : Outside) (call : ℕ) : Prop :=
  ∃ turn, service.turn outside call = some turn ∧ turn.toolCalls ≠ []

/-- What holds while a loop goes on, at its first round and from its second on. -/
theorem while_succ (goes holds : ℕ → Prop) {first left : ℕ} (here : goes first) :
    (∀ i < left + 1, (∀ j ≤ i, goes (first + j)) → holds (first + i)) ↔
      holds first ∧ ∀ i < left, (∀ j ≤ i, goes (first + 1 + j)) → holds (first + 1 + i) := by
  have shift (i : ℕ) : first + 1 + i = first + (i + 1) := by omega
  simp only [shift]
  constructor
  · intro all
    refine ⟨all 0 (by omega) fun j bound => ?_, fun i below went => ?_⟩
    · obtain rfl := Nat.le_zero.mp bound
      exact here
    · refine all (i + 1) (by omega) fun j bound => ?_
      cases j with
      | zero => exact here
      | succ j => exact went j (by omega)
  · rintro ⟨now, later⟩ i below went
    cases i with
    | zero => exact now
    | succ i => exact later i (by omega) fun j bound => went (j + 1) (by omega)

/-- What the calls of the model are sent is answered exactly if the turns before them are
answerable. -/
theorem steps_answered_iff {schemas : List Object} (left : ℕ) (s : State) :
    (∀ call ∈ (service.steps outside schemas left s).1, Answered call.messages) ↔
      Answered s.conversation ∧ ∀ i < left, (∀ j ≤ i, service.Asks outside (s.made + j)) →
        ∀ turn, service.turn outside (s.made + i) = some turn → Answerable service turn := by
  induction left generalizing s with
  | zero =>
    rw [FunctionCallService.steps, List.forall_mem_singleton]
    exact ⟨fun answered => ⟨answered, fun i below => absurd below (Nat.not_lt_zero i)⟩, And.left⟩
  | succ left ih =>
    -- where the loop ends here, no later turn is reached
    have ends (quiet : ¬ service.Asks outside s.made) :
        Answered s.conversation ↔ Answered s.conversation ∧ ∀ i < left + 1,
          (∀ j ≤ i, service.Asks outside (s.made + j)) →
          ∀ turn, service.turn outside (s.made + i) = some turn → Answerable service turn :=
      ⟨fun answered => ⟨answered, fun i _ asks => absurd (asks 0 (Nat.zero_le i)) quiet⟩, And.left⟩
    unfold FunctionCallService.steps
    cases taken : service.turn outside s.made with
    | none =>
      rw [List.forall_mem_singleton]
      refine ends ?_
      rintro ⟨turn, some, -⟩
      cases taken.symm.trans some
    | some turn =>
      dsimp only
      split_ifs with empty
      · rw [List.forall_mem_singleton]
        refine ends ?_
        rintro ⟨turn', some, asks⟩
        cases taken.symm.trans some
        exact asks (List.isEmpty_iff.mp empty)
      · have asks : turn.toolCalls ≠ [] := fun none => empty (List.isEmpty_iff.mpr none)
        have here : service.Asks outside s.made := ⟨turn, taken, asks⟩
        have this_turn : Answerable service turn ↔
            ∀ turn, service.turn outside s.made = some turn → Answerable service turn := by
          simp only [taken, Option.some.injEq, forall_eq']
        rw [List.forall_mem_cons, ih, answered_answered taken asks, made_answered,
          while_succ (service.Asks outside) (fun call =>
            ∀ turn, service.turn outside call = some turn → Answerable service turn) here,
          this_turn]
        exact ⟨fun ⟨answered, ⟨_, now⟩, later⟩ => ⟨answered, now, later⟩,
          fun ⟨answered, now, later⟩ => ⟨answered, ⟨answered, now⟩, later⟩⟩

theorem length_steps {schemas : List Object} (left : ℕ) (s : State) :
    (service.steps outside schemas left s).1.length ≤ left + 1 := by
  induction left generalizing s with
  | zero => exact le_rfl
  | succ left ih =>
    unfold FunctionCallService.steps
    cases service.turn outside s.made with
    | none => exact Nat.le_add_left 1 _
    | some turn =>
      dsimp only
      split_ifs
      · exact Nat.le_add_left 1 _
      · exact Nat.succ_le_succ (ih _)

/-- Every tool call is answered in what each call of the model is sent, and there are no more calls
than steps and one. -/
def Conversed (service : FunctionCallService) (outside : Outside) (messages : List (Dict Str Str))
    (maxSteps : ℕ) (useTools : Bool) : Prop :=
  (∀ call ∈ (service.complete outside messages maxSteps useTools).1, Answered call.messages) ∧
    (service.complete outside messages maxSteps useTools).1.length ≤ maxSteps + 1

/-- The caller's messages must be answered, the provider not be Ollama, and the entries of every turn
that the loop goes on from be well formed. -/
theorem complete_conversed_iff {messages : List (Dict Str Str)} {maxSteps : ℕ} {useTools : Bool} :
    Conversed service outside messages maxSteps useTools ↔
      Answered (messages.map .given) ∧
      ∀ i < maxSteps, (∀ j ≤ i, service.Asks outside j) →
        ∀ turn, service.turn outside i = some turn → Answerable service turn := by
  unfold Conversed FunctionCallService.complete
  dsimp only
  rw [steps_answered_iff, answered_opening]
  simp only [Nat.zero_add]
  exact ⟨And.left, fun answered => ⟨answered, length_steps maxSteps _⟩⟩

end Loop

section Sample

def searchTool : ToolDefinition where
  name := Str.lit "search_shops"
  description := Str.lit "Search platform shops."
  inputSchema := []

def searchService : FunctionCallService where
  registry := ToolRegistry.register [] searchTool
  ollama := false
  repr := fun _ => []
  dumps := fun _ => []

def question : Dict Str Str := [(role, Str.lit "user"), (content, Str.lit "Find a hotpot shop.")]

def sampleCall (id name : String) : Object := .dict [
  (Str.lit "id", .str (Str.lit id)),
  (Str.lit "type", .str (Str.lit "function")),
  (Str.lit "function", .dict [(Str.lit "name", .str (Str.lit name)),
    (Str.lit "arguments", .dict [])])]

/-- The second of the calls has a blank name. -/
def sampleData : Object := .dict [(Str.lit "choices", .list [.dict [(Str.lit "message", .dict [
  (role, .str (Str.lit "assistant")),
  (content, .none),
  (Str.lit "tool_calls", .list [sampleCall "call_1" "search_shops", sampleCall "call_2" " "])])]])]

def sampleOutside : Outside where
  response := fun _ => some sampleData
  handled := fun _ => .ok []

/-- The next call of the model is sent two calls and one observation. -/
theorem blankName_not_conversed : ¬ Conversed searchService sampleOutside [question] 1 true := by
  rintro ⟨answered, -⟩
  have second := answered _ (List.mem_cons_of_mem _ List.mem_cons_self)
  have observed := second.2.2.1 rfl
  exact absurd observed.length_eq (by decide)

end Sample

end HeyeeAgent.FunctionCall
