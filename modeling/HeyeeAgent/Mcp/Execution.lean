import HeyeeAgent.Mcp.ParameterExtractor
import HeyeeAgent.Rag.IntentModels
import HeyeeAgent.Tools.Registry

/-! # Tool calls of recognised intents

Every intent of a tool is a request of its own: the tool's arguments are extracted from the
sub-question, and the handler is called with them if they are ready. What the model replies and what
the handler gives are of the outside, and the requests do not share anything, so their order does
not matter.
-/

namespace HeyeeAgent.Mcp

open Python Rag Tools

inductive Status where
  | unavailable
  | invalid
  | needsClarification
  | failed
  | success
deriving DecidableEq

structure McpToolExecution where
  toolId : Str
  subQuestion : Str
  status : Status
  content : Str := []
  missingRequired : List Str := []

/-- What the outside gives to a request; none where the model or the handler raises. -/
structure Outside where
  reply : Option Str
  content : Option Str

/-- What a request does: the arguments that the handler was called with, and its execution. -/
structure Outcome where
  invoked : Option Arguments := none
  execution : McpToolExecution

structure McpExecutionService where
  registry : ToolRegistry
  maxContextChars : ℕ
  /-- `repr`, of what is no text -/
  repr : Object → Str

/-- The sub-question and the node of an intent with a tool. -/
structure Request where
  question : Str
  node : IntentNode
  toolId : Str

/-- The intents of a tool that have one, each with its sub-question. -/
def requests (subIntents : List SubQuestionIntent) : List Request :=
  subIntents.flatMap fun subIntent => subIntent.nodeScores.filterMap fun score =>
    match score.node.mcpToolId with
    | some toolId =>
      if score.node.kind = .mcp ∧ toolId ≠ [] then some ⟨subIntent.subQuestion, score.node, toolId⟩
      else none
    | none => none

namespace McpExecutionService

variable (service : McpExecutionService) (outside : Outside) (request : Request)

/-- `_execute_one` -/
def executeOne : Outcome :=
  let execution (status : Status) : McpToolExecution :=
    { toolId := request.toolId, subQuestion := request.question, status }
  match service.registry.get request.toolId with
  | none => { execution := execution .unavailable }
  | some tool =>
    let extracted := extract service.repr tool.inputSchema outside.reply
    if extracted.invalidFields ≠ [] then { execution := execution .invalid }
    else if extracted.missingRequired ≠ [] then
      { execution :=
          { execution .needsClarification with missingRequired := extracted.missingRequired } }
    else
      { invoked := some extracted.arguments
        execution := match outside.content with
          | none => execution .failed
          | some content =>
            { execution .success with content := content.take service.maxContextChars } }

/-- `execute`, with what the outside gives to each request. -/
def execute (subIntents : List SubQuestionIntent) (outside : ℕ → Outside) : List Outcome :=
  (requests subIntents).mapIdx fun i request => service.executeOne (outside i) request

end McpExecutionService

section Bound

variable (service : McpExecutionService) {subIntents : List SubQuestionIntent}
  {outside : ℕ → Outside} {request : Request} {tool : ToolDefinition}

/-- The handler is called exactly with ready arguments. -/
theorem invoked_executeOne {arguments : Arguments} {given : Outside}
    (registered : service.registry.get request.toolId = some tool) :
    (service.executeOne given request).invoked = some arguments ↔
      (extract service.repr tool.inputSchema given.reply).invalidFields = [] ∧
      (extract service.repr tool.inputSchema given.reply).missingRequired = [] ∧
      (extract service.repr tool.inputSchema given.reply).arguments = arguments := by
  unfold McpExecutionService.executeOne
  rw [registered]
  dsimp only
  split_ifs with invalid missing
  · exact ⟨fun call => absurd call (by simp), fun ready => absurd ready.1 invalid⟩
  · exact ⟨fun call => absurd call (by simp), fun ready => absurd ready.2.1 missing⟩
  · rw [not_not] at invalid missing
    exact ⟨fun call => ⟨invalid, missing, Option.some.inj call⟩,
      fun ready => congrArg some ready.2.2⟩

/-- Every handler is called with arguments that its tool's schema and the reply allow. -/
def CallsBound (subIntents : List SubQuestionIntent) (outside : ℕ → Outside) : Prop :=
  ∀ i request outcome arguments, (requests subIntents)[i]? = some request →
    (service.execute subIntents outside)[i]? = some outcome → outcome.invoked = some arguments →
    ∃ tool, service.registry.get request.toolId = some tool ∧
      Bound service.repr tool.inputSchema ((rawArguments (outside i).reply).getD []) arguments

theorem getElem?_execute {i : ℕ} (listed : (requests subIntents)[i]? = some request) :
    (service.execute subIntents outside)[i]? = some (service.executeOne (outside i) request) := by
  rw [McpExecutionService.execute, List.getElem?_mapIdx, listed]
  rfl

/-- Only a registered tool is called. -/
theorem registered_of_invoked {arguments : Arguments} {given : Outside}
    (call : (service.executeOne given request).invoked = some arguments) :
    ∃ tool, service.registry.get request.toolId = some tool := by
  unfold McpExecutionService.executeOne at call
  cases registered : service.registry.get request.toolId with
  | none =>
    rw [registered] at call
    cases call
  | some tool => exact ⟨tool, rfl⟩

/-- Every tool must declare a property or require nothing: without properties, its handler is called
with no arguments. -/
theorem execute_bound_iff : CallsBound service subIntents outside ↔
    ∀ request ∈ requests subIntents, ∀ tool, service.registry.get request.toolId = some tool →
      schemaProperties tool.inputSchema ≠ [] ∨ requiredNames tool.inputSchema = [] := by
  constructor
  · intro bound request member tool registered
    by_contra neither
    rw [not_or, not_not] at neither
    obtain ⟨undeclared, required⟩ := neither
    obtain ⟨i, bounds, rfl⟩ := List.mem_iff_getElem.mp member
    have listed := List.getElem?_eq_getElem bounds
    have call : (service.executeOne (outside i) (requests subIntents)[i]).invoked = some [] := by
      rw [invoked_executeOne service registered, extract_of_no_properties undeclared]
      exact ⟨rfl, rfl, rfl⟩
    obtain ⟨tool', registered', bound⟩ :=
      bound i _ _ [] listed (getElem?_execute service listed) call
    cases registered.symm.trans registered'
    obtain ⟨name, first⟩ := List.exists_mem_of_ne_nil _ required
    exact absurd (bound.required name first) List.not_mem_nil
  · intro declares i request outcome arguments listed result call
    cases (getElem?_execute service listed).symm.trans result
    obtain ⟨tool, registered⟩ := registered_of_invoked service call
    refine ⟨tool, registered, ?_⟩
    obtain ⟨valid, complete, rfl⟩ := (invoked_executeOne service registered).mp call
    by_cases undeclared : schemaProperties tool.inputSchema = []
    · have optional := (declares request (List.mem_of_getElem? listed) tool registered).resolve_left
        (not_not_intro undeclared)
      rw [extract_of_no_properties undeclared]
      constructor
      · exact fun name value member => absurd member List.not_mem_nil
      · rw [optional]
        exact fun name member => absurd member List.not_mem_nil
      · rw [undeclared]
        exact fun name definition member => absurd member List.not_mem_nil
    · exact bound_extract undeclared valid complete

/-- A tool of one order that describes no property. -/
def orderTool : ToolDefinition where
  name := Str.lit "order_query"
  description := Str.lit "Query one order."
  inputSchema := [(Str.lit "type", .str (Str.lit "object")),
    (Str.lit "required", .list [.str (Str.lit "orderNo")])]

def orderNode : IntentNode where
  id := Str.lit "order-progress"
  name := Str.lit "order progress"
  level := .topic
  kind := .mcp
  mcpToolId := some orderTool.name

def orderIntent : SubQuestionIntent := ⟨Str.lit "Where is my order?", [⟨orderNode, .finite 1, none⟩]⟩

def orderService : McpExecutionService where
  registry := ToolRegistry.register [] orderTool
  maxContextChars := 6000
  repr := fun _ => []

/-- The order's number is required, and the handler is called without it. -/
theorem orderService_not_bound : ¬ CallsBound orderService [orderIntent] fun _ =>
    ⟨some (Str.lit "\x7b\x7d"), some []⟩ := by
  intro bound
  obtain ⟨tool, registered, bound⟩ := bound 0 ⟨orderIntent.subQuestion, orderNode, orderTool.name⟩
    _ [] rfl rfl rfl
  have same : some orderTool = some tool := registered
  cases same
  exact absurd (bound.required (Str.lit "orderNo") (by decide)) List.not_mem_nil

end Bound

end HeyeeAgent.Mcp
