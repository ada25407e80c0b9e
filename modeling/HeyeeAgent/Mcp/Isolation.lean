import HeyeeAgent.Machine.Parallel
import HeyeeAgent.Mcp.Execution

/-! # Concurrent tool calls

The requests of one execution run side by side, and each waits for the model and for its handler on
its own. What they come to is collected in the order of the requests, and an exception that a
request does not handle stands for a failed call. Whatever their order, each gives what it gives
alone.
-/

namespace HeyeeAgent.Mcp

open Machine Python Rag Tools

/-- What a handler gives: a text, a value that has no slices, or an exception. -/
inductive HandlerResult where
  | text (content : Str)
  | unsliced
  | raised

inductive Phase where
  | created
  /-- The model is asked for the arguments of the tool. -/
  | extracting (tool : ToolDefinition)
  /-- The handler is awaited. -/
  | calling
  /-- The execution; none for an exception. -/
  | ended (result : Option McpToolExecution)

/-- The task of a request, with the arguments of every call of a handler. -/
structure Task where
  phase : Phase := .created
  calls : List Arguments := []

inductive Event where
  | started
  /-- The reply of the model; none where it raises. -/
  | replied (reply : Option Str)
  | handled (result : HandlerResult)

/-- What a task waits for. -/
inductive Await where
  | start
  | reply
  | handler
deriving DecidableEq

def Event.await : Event → Await
  | .started => .start
  | .replied _ => .reply
  | .handled _ => .handler

def Phase.await : Phase → Option Await
  | .created => some .start
  | .extracting _ => some .reply
  | .calling => some .handler
  | .ended _ => none

/-- What the task ended with; none also before its end. -/
def Phase.result : Phase → Option McpToolExecution
  | .ended result => result
  | _ => none

structure McpExecutionResult where
  executions : List McpToolExecution

namespace McpExecutionResult

def empty : McpExecutionResult := ⟨[]⟩

def toolCalls (result : McpExecutionResult) : List Str :=
  (result.executions.filter fun item => item.status = .success).map (·.toolId)

end McpExecutionResult

/-- An execution of the request without a content -/
def Request.execution (request : Request) (status : Status) : McpToolExecution :=
  { toolId := request.toolId, subQuestion := request.question, status }

/-- The execution that is listed for what the task of a request ended with. -/
def Request.listed (request : Request) (result : Option McpToolExecution) : McpToolExecution :=
  result.getD (request.execution .failed)

namespace McpExecutionService

variable (service : McpExecutionService)

/-- After the extraction, up to where the handler is awaited. -/
def extracted (request : Request) (task : Task) (extracted : ParameterExtractionResult) : Task :=
  if extracted.invalidFields ≠ [] then
    { task with phase := .ended (some (request.execution .invalid)) }
  else if extracted.missingRequired ≠ [] then
    { task with
      phase := .ended (some
        { request.execution .needsClarification with
          missingRequired := extracted.missingRequired }) }
  else { phase := .calling, calls := task.calls ++ [extracted.arguments] }

/-- What a task does until it waits again. A schema without properties needs no reply, and the slice
of the content is not guarded. -/
def step (request : Request) (task : Task) (event : Event) : Option Task :=
  match task.phase, event with
  | .created, .started =>
    match service.registry.get request.toolId with
    | none => some { task with phase := .ended (some (request.execution .unavailable)) }
    | some tool =>
      if (schemaProperties tool.inputSchema).isEmpty then
        some (extracted request task (extract service.repr tool.inputSchema none))
      else some { task with phase := .extracting tool }
  | .extracting tool, .replied reply =>
    some (extracted request task (extract service.repr tool.inputSchema reply))
  | .calling, .handled (.text content) =>
    some { task with
      phase := .ended (some
        { request.execution .success with content := content.take service.maxContextChars }) }
  | .calling, .handled .unsliced => some { task with phase := .ended none }
  | .calling, .handled .raised =>
    some { task with phase := .ended (some (request.execution .failed)) }
  | _, _ => none

/-- The tasks of the requests, one step of one of them at a time -/
def stepAll (requests : List Request) : (ℕ → Task) → ℕ × Event → Option (ℕ → Task) :=
  together fun i task event => requests[i]?.bind fun request => service.step request task event

/-- What `execute` returns, once all its tasks have ended. -/
def returned (requests : List Request) (tasks : ℕ → Task) : Option McpExecutionResult :=
  if requests.isEmpty then some .empty
  else if ∀ i < requests.length, (tasks i).phase.await = none then
    some ⟨requests.mapIdx fun i request => request.listed (tasks i).phase.result⟩
  else none

end McpExecutionService

section Trace

/-- What the events of a task gave to it -/
def Event.reply : Event → Option (Option Str)
  | .replied reply => some reply
  | _ => none

def Event.content : Event → Option Str
  | .handled (.text content) => some content
  | _ => none

def outsideOf (events : List Event) : Outside where
  reply := (events.findSome? Event.reply).join
  content := events.findSome? Event.content

variable {service : McpExecutionService} {request : Request} {task next : Task} {event : Event}
  {past : List Event} {tool : ToolDefinition}

/-- The execution of a request whose handler is called. -/
def Request.called (service : McpExecutionService) (request : Request) :
    Option Str → McpToolExecution
  | none => request.execution .failed
  | some content =>
    { request.execution .success with content := content.take service.maxContextChars }

/-- How far the events have brought a task, in terms of the request on its own. -/
def Traced (service : McpExecutionService) (request : Request) (past : List Event) (task : Task) :
    Prop :=
  match task.phase with
  | .created => past = [] ∧ task.calls = []
  | .extracting tool => past = [.started] ∧ task.calls = [] ∧
    service.registry.get request.toolId = some tool
  | .calling => past.length ≤ 2 ∧ (outsideOf past).content = none ∧ ∃ arguments,
    task.calls = [arguments] ∧ ∀ content, service.executeOne ⟨(outsideOf past).reply, content⟩ request =
      ⟨some arguments, request.called service content⟩
  | .ended result => past.length ≤ 3 ∧
    ((request.listed result).status = .success ↔ (outsideOf past).content.isSome) ∧
    service.executeOne (outsideOf past) request = ⟨task.calls.head?, request.listed result⟩ ∧
    task.calls.length ≤ 1

theorem reply_append_handled (past : List Event) (result : HandlerResult) :
    (outsideOf (past ++ [.handled result])).reply = (outsideOf past).reply := by
  have silent : Event.reply (.handled result) = none := rfl
  simp only [outsideOf, List.findSome?_append, List.findSome?_singleton, silent, Option.or_none]

theorem content_append (none_yet : (outsideOf past).content = none) (event : Event) :
    (outsideOf (past ++ [event])).content = event.content := by
  have none_yet : past.findSome? Event.content = none := none_yet
  simp only [outsideOf, List.findSome?_append, List.findSome?_singleton]
  rw [none_yet, Option.none_or]

/-- A task may end before its handler is called. -/
theorem traced_unhandled {execution : McpToolExecution} (unsuccessful : execution.status ≠ .success)
    (alone : service.executeOne (outsideOf past) request = { execution }) (short : past.length ≤ 2)
    (unhandled : (outsideOf past).content = none) :
    Traced service request past { phase := .ended (some execution) } := by
  refine ⟨by omega, iff_of_false unsuccessful ?_, alone, Nat.zero_le 1⟩
  rw [unhandled]
  exact Bool.false_ne_true

/-- An extraction ends the task or brings it to its handler. -/
theorem traced_extracted (registered : service.registry.get request.toolId = some tool)
    (fresh : task.calls = []) (short : past.length ≤ 2) (unhandled : (outsideOf past).content = none) :
    Traced service request past (McpExecutionService.extracted request task
      (extract service.repr tool.inputSchema (outsideOf past).reply)) := by
  have alone (content : Option Str) :
      service.executeOne ⟨(outsideOf past).reply, content⟩ request =
        let extracted := extract service.repr tool.inputSchema (outsideOf past).reply
        if extracted.invalidFields ≠ [] then { execution := request.execution .invalid }
        else if extracted.missingRequired ≠ [] then
          { execution :=
            { request.execution .needsClarification with
              missingRequired := extracted.missingRequired } }
        else ⟨some extracted.arguments, request.called service content⟩ := by
    rw [McpExecutionService.executeOne, registered]
    cases content <;> rfl
  obtain ⟨phase, calls⟩ := task
  subst fresh
  generalize extract service.repr tool.inputSchema (outsideOf past).reply = extracted at alone ⊢
  have here := alone (outsideOf past).content
  rw [McpExecutionService.extracted]
  split_ifs with invalid missing
  · rw [if_pos invalid] at here
    exact traced_unhandled (by decide : Status.invalid ≠ .success) here short unhandled
  · rw [if_neg invalid, if_pos missing] at here
    exact traced_unhandled (by decide : Status.needsClarification ≠ .success) here short
      unhandled
  · refine ⟨short, unhandled, extracted.arguments, ?_, fun content => ?_⟩
    · rfl
    · rw [alone content]
      simp only [if_neg invalid, if_neg missing]

/-- A handler's result ends the task. -/
theorem traced_handled {result : HandlerResult} {ended : Option McpToolExecution}
    (same : request.listed ended = request.called service (Event.content (.handled result)))
    (calling : task.phase = .calling) (traced : Traced service request past task) :
    Traced service request (past ++ [.handled result]) { task with phase := .ended ended } := by
  obtain ⟨phase, calls⟩ := task
  subst calling
  obtain ⟨short, unhandled, arguments, rfl, alone⟩ := traced
  have content := content_append unhandled (.handled result)
  refine ⟨?_, ?_, ?_, le_rfl⟩
  · rw [List.length_append]
    exact Nat.add_le_add_right short 1
  · rw [content, same]
    cases Event.content (.handled result) with
    | none => exact iff_of_false (by decide : Status.failed ≠ .success) Bool.false_ne_true
    | some content => exact iff_of_true rfl rfl
  · have given := alone (Event.content (.handled result))
    rw [← reply_append_handled past result, ← content] at given
    rw [given, same, content]
    rfl

/-- What a step adds to the trace -/
theorem traced_step (traced : Traced service request past task)
    (taken : service.step request task event = some next) :
    Traced service request (past ++ [event]) next := by
  obtain ⟨phase, calls⟩ := task
  cases phase with
  | created =>
    cases event with
    | started =>
      obtain ⟨rfl, rfl⟩ := traced
      simp only [McpExecutionService.step] at taken
      cases registered : service.registry.get request.toolId with
      | none =>
        rw [registered] at taken
        cases taken
        have alone : service.executeOne (outsideOf [.started]) request =
            { execution := request.execution .unavailable } := by
          rw [McpExecutionService.executeOne, registered]
          rfl
        exact traced_unhandled (by decide : Status.unavailable ≠ .success) alone
          (Nat.le_succ 1) rfl
      | some tool =>
        rw [registered] at taken
        dsimp only at taken
        split_ifs at taken with undeclared <;> cases taken
        · rw [List.isEmpty_iff] at undeclared
          rw [extract_of_no_properties undeclared service.repr none,
            ← extract_of_no_properties undeclared service.repr (outsideOf [.started]).reply]
          exact traced_extracted registered rfl (Nat.le_succ 1) rfl
        · exact ⟨rfl, rfl, registered⟩
    | replied reply => cases taken
    | handled result => cases taken
  | extracting tool =>
    cases event with
    | started => cases taken
    | replied reply =>
      obtain ⟨rfl, rfl, registered⟩ := traced
      cases taken
      exact traced_extracted registered rfl le_rfl rfl
    | handled result => cases taken
  | calling =>
    cases event with
    | started => cases taken
    | replied reply => cases taken
    | handled result =>
      cases result with
      | text content =>
        cases taken
        exact traced_handled rfl rfl traced
      | unsliced =>
        cases taken
        exact traced_handled rfl rfl traced
      | raised =>
        cases taken
        exact traced_handled rfl rfl traced
  | ended result => cases event <;> cases taken

theorem traced_run {events : List Event}
    (run : runFrom (service.step request) {} events = some task) :
    Traced service request events task :=
  have initial : Traced service request [] {} := ⟨rfl, rfl⟩
  history_runFrom (fun _ _ _ _ => traced_step) initial run

theorem length_le_of_traced (traced : Traced service request past task) :
    past.length ≤ 3 ∧ task.calls.length ≤ 1 := by
  obtain ⟨phase, calls⟩ := task
  cases phase with
  | created =>
    obtain ⟨rfl, rfl⟩ := traced
    exact ⟨Nat.zero_le 3, Nat.zero_le 1⟩
  | extracting tool =>
    obtain ⟨rfl, rfl, -⟩ := traced
    exact ⟨Nat.le_add_left 1 2, Nat.zero_le 1⟩
  | calling =>
    obtain ⟨short, -, arguments, rfl, -⟩ := traced
    exact ⟨Nat.le_succ_of_le short, le_rfl⟩
  | ended result => exact ⟨traced.1, traced.2.2.2⟩

/-- What a task ended with is what the request gives on its own. -/
theorem listed_of_ended (traced : Traced service request past task) (ended : task.phase.await = none) :
    request.listed task.phase.result =
      (service.executeOne (outsideOf past) request).execution ∧
    ((request.listed task.phase.result).status = .success ↔ (outsideOf past).content.isSome) := by
  obtain ⟨phase, calls⟩ := task
  cases phase with
  | created => cases ended
  | extracting tool => cases ended
  | calling => cases ended
  | ended result => exact ⟨by rw [traced.2.2.1]; rfl, traced.2.1⟩

theorem step_of_await (awaited : task.phase.await = some event.await) :
    (service.step request task event).isSome := by
  obtain ⟨phase, calls⟩ := task
  cases phase with
  | created =>
    cases event with
    | started =>
      simp only [McpExecutionService.step]
      cases service.registry.get request.toolId with
      | none => rfl
      | some tool =>
        dsimp only
        split_ifs <;> rfl
    | replied reply => cases awaited
    | handled result => cases awaited
  | extracting tool =>
    cases event with
    | replied reply => rfl
    | started => cases awaited
    | handled result => cases awaited
  | calling =>
    cases event with
    | handled result => cases result <;> rfl
    | started => cases awaited
    | replied reply => cases awaited
  | ended result => cases awaited

theorem executeOne_of_request (service : McpExecutionService) (outside : Outside)
    (request : Request) : (service.executeOne outside request).execution.toolId = request.toolId ∧
      (service.executeOne outside request).execution.subQuestion = request.question := by
  unfold McpExecutionService.executeOne
  cases service.registry.get request.toolId with
  | none => exact ⟨rfl, rfl⟩
  | some tool =>
    dsimp only
    split_ifs
    · exact ⟨rfl, rfl⟩
    · exact ⟨rfl, rfl⟩
    · cases outside.content <;> exact ⟨rfl, rfl⟩

end Trace

section Scores

/-- The scores of tool nodes that have a tool, each with its sub-question. -/
def mcpScores (subIntents : List SubQuestionIntent) : List (Str × NodeScore) :=
  subIntents.flatMap fun subIntent =>
    (subIntent.nodeScores.filter fun score =>
      score.node.kind == .mcp && score.node.mcpToolId.any fun toolId => !toolId.isEmpty).map
        (Prod.mk subIntent.subQuestion)

def Request.fields (request : Request) : Str × IntentNode × Option Str :=
  (request.question, request.node, some request.toolId)

theorem Request.fields_injective : Function.Injective Request.fields := by
  rintro ⟨question, node, toolId⟩ ⟨question', node', toolId'⟩ same
  cases same
  rfl

/-- Every such score makes a request. -/
theorem requests_fields (subIntents : List SubQuestionIntent) :
    (requests subIntents).map Request.fields =
      (mcpScores subIntents).map fun scored => (scored.1, scored.2.node, scored.2.node.mcpToolId) := by
  induction subIntents with
  | nil => rfl
  | cons subIntent subIntents ih =>
    rw [requests, mcpScores, List.flatMap_cons, List.flatMap_cons, List.map_append, List.map_append,
      ← requests, ← mcpScores, ih]
    congr 1
    induction subIntent.nodeScores with
    | nil => rfl
    | cons score scores ih =>
      rw [List.filterMap_cons, List.filter_cons]
      cases tool : score.node.mcpToolId with
      | none => simpa using ih
      | some toolId =>
        by_cases made : score.node.kind = .mcp ∧ toolId ≠ []
        · simp [made, Request.fields, tool, ih]
        · have unmade : ¬ (score.node.kind = .mcp ∧ ¬ toolId = []) := made
          simp [unmade, ih]

/-- A score of a tool node makes one request alone. -/
theorem mcpScores_single {subIntents : List SubQuestionIntent} {question : Str} {score : NodeScore}
    (member : (question, score) ∈ mcpScores subIntents) :
    mcpScores [⟨question, [score]⟩] = [(question, score)] := by
  obtain ⟨subIntent, -, scored⟩ := List.mem_flatMap.mp member
  obtain ⟨score', kept, same⟩ := List.mem_map.mp scored
  cases same
  rw [mcpScores, List.flatMap_singleton, List.filter_singleton, (List.mem_filter.mp kept).2]
  rfl

theorem requests_single {subIntents : List SubQuestionIntent} {question : Str} {score : NodeScore}
    {request : Request} {i : ℕ} (scored : (mcpScores subIntents)[i]? = some (question, score))
    (made : (requests subIntents)[i]? = some request) :
    requests [⟨question, [score]⟩] = [request] := by
  apply List.map_injective_iff.mpr Request.fields_injective
  rw [requests_fields, mcpScores_single (List.mem_of_getElem? scored)]
  have same := congrArg (·[i]?) (requests_fields subIntents)
  simp only [List.getElem?_map, scored, made, Option.map_some, Option.some.injEq] at same
  rw [List.map_singleton, List.map_singleton, same]

end Scores

section Isolation

variable {service : McpExecutionService} {subIntents : List SubQuestionIntent}
  {events : List (ℕ × Event)} {tasks : ℕ → Task} {result : McpExecutionResult} {request : Request}
  {i : ℕ}

/-- The tasks before their first steps -/
def unstarted : ℕ → Task := fun _ => {}

/-- The handler of a request has given a text. -/
def succeeded (events : List (ℕ × Event)) (i : ℕ) : Bool :=
  (eventsOf i events).any fun event => event.content.isSome

/-- A run in which no request sees another -/
structure IsolatedRun (service : McpExecutionService) (subIntents : List SubQuestionIntent)
    (events : List (ℕ × Event)) (tasks : ℕ → Task) : Prop where
  once : ∀ i < (requests subIntents).length, (tasks i).calls.length ≤ 1
  /-- Until the execution returns, a task takes whatever it waits for, three events at most. -/
  goes_on : McpExecutionService.returned (requests subIntents) tasks = none →
    ∃ i await, ∀ event : Event, event.await = await →
      (service.stepAll (requests subIntents) tasks (i, event)).isSome
  ends : ∀ i < (requests subIntents).length, (eventsOf i events).length ≤ 3
  one_each : ∀ result, McpExecutionService.returned (requests subIntents) tasks = some result →
    result.executions.map (fun item => (item.subQuestion, some item.toolId)) =
      (mcpScores subIntents).map fun scored => (scored.1, scored.2.node.mcpToolId)
  /-- The score of an entry gives the same execution alone, with the same events. -/
  alone : ∀ result i question score,
    McpExecutionService.returned (requests subIntents) tasks = some result →
    (mcpScores subIntents)[i]? = some (question, score) →
    ∃ execution ended, result.executions[i]? = some execution ∧
      runFrom (service.stepAll (requests [⟨question, [score]⟩])) unstarted
        ((eventsOf i events).map (Prod.mk 0)) = some ended ∧
      McpExecutionService.returned (requests [⟨question, [score]⟩]) ended = some ⟨[execution]⟩
  tool_calls : ∀ result, McpExecutionService.returned (requests subIntents) tasks = some result →
    result.toolCalls = ((requests subIntents).zipIdx.filter fun made => succeeded events made.2).map
      fun made => made.1.toolId

/-- Whatever the order of the events, the requests are kept apart. -/
def Isolated (service : McpExecutionService) (subIntents : List SubQuestionIntent) : Prop :=
  ∀ events tasks, runFrom (service.stepAll (requests subIntents)) unstarted events = some tasks →
    IsolatedRun service subIntents events tasks

/-- The task of a request runs by its own events. -/
theorem run_task (run : runFrom (service.stepAll (requests subIntents)) unstarted events = some tasks)
    (made : (requests subIntents)[i]? = some request) :
    runFrom (service.step request) {} (eventsOf i events) = some (tasks i) := by
  have own := runFrom_together.mp run i
  rw [made] at own
  exact own

theorem returned_eq_some_iff {requests : List Request} :
    McpExecutionService.returned requests tasks = some result ↔
      (∀ i < requests.length, (tasks i).phase.await = none) ∧
      result.executions = requests.mapIdx fun i request =>
        request.listed (tasks i).phase.result := by
  obtain ⟨executions⟩ := result
  unfold McpExecutionService.returned
  cases requests with
  | nil =>
    rw [List.isEmpty_nil, if_pos rfl]
    constructor
    · intro same
      cases same
      exact ⟨fun i bound => absurd bound (Nat.not_lt_zero i), rfl⟩
    · rintro ⟨-, rfl⟩
      rfl
  | cons request requests =>
    rw [List.isEmpty_cons, if_neg Bool.false_ne_true]
    split_ifs with ended
    · rw [Option.some.injEq, McpExecutionResult.mk.injEq, eq_comm]
      exact (and_iff_right ended).symm
    · exact iff_of_false id fun same => ended same.1

/-- Every entry is what its request gives on its own, with what its events gave to it. -/
theorem executions_eq
    (run : runFrom (service.stepAll (requests subIntents)) unstarted events = some tasks)
    (ended : McpExecutionService.returned (requests subIntents) tasks = some result) :
    result.executions =
      (service.execute subIntents fun i => outsideOf (eventsOf i events)).map (·.execution) := by
  obtain ⟨all, same⟩ := returned_eq_some_iff.mp ended
  rw [same, McpExecutionService.execute]
  apply List.ext_getElem?
  intro i
  rw [List.getElem?_map, List.getElem?_mapIdx, List.getElem?_mapIdx]
  cases made : (requests subIntents)[i]? with
  | none => rfl
  | some request =>
    obtain ⟨bound, -⟩ := List.getElem?_eq_some_iff.mp made
    rw [Option.map_some, Option.map_some, Option.map_some,
      (listed_of_ended (traced_run (run_task run made)) (all i bound)).1]

theorem goes_on_of_returned
    (unended : McpExecutionService.returned (requests subIntents) tasks = none) :
    ∃ i await, ∀ event : Event, event.await = await →
      (service.stepAll (requests subIntents) tasks (i, event)).isSome := by
  have awaited : ∃ i < (requests subIntents).length, (tasks i).phase.await ≠ none := by
    by_contra none_awaits
    push Not at none_awaits
    have ended : McpExecutionService.returned (requests subIntents) tasks = some ⟨_⟩ :=
      returned_eq_some_iff.mpr ⟨none_awaits, rfl⟩
    rw [unended] at ended
    cases ended
  obtain ⟨i, bound, awaits⟩ := awaited
  obtain ⟨await, awaits⟩ := Option.ne_none_iff_exists'.mp awaits
  refine ⟨i, await, fun event same => ?_⟩
  subst same
  rw [McpExecutionService.stepAll, together, Option.isSome_map, List.getElem?_eq_getElem bound]
  exact step_of_await awaits

/-- The entry at a place is what the request made there gives alone. -/
theorem returned_single (run : runFrom (service.step request) {} (eventsOf i events) = some (tasks i))
    (ended : (tasks i).phase.await = none) :
    ∃ tasks', runFrom (service.stepAll [request]) unstarted ((eventsOf i events).map (Prod.mk 0)) =
        some tasks' ∧
      McpExecutionService.returned [request] tasks' =
        some ⟨[request.listed (tasks i).phase.result]⟩ := by
  refine ⟨Function.update unstarted 0 (tasks i), runFrom_together_map run, ?_⟩
  refine returned_eq_some_iff.mpr ⟨fun j bound => ?_, ?_⟩
  · obtain rfl : j = 0 := Nat.lt_one_iff.mp bound
    rw [Function.update_self, ended]
  · rw [List.mapIdx_cons, List.mapIdx_nil, Function.update_self]

theorem toolCalls_eq
    (run : runFrom (service.stepAll (requests subIntents)) unstarted events = some tasks)
    (ended : McpExecutionService.returned (requests subIntents) tasks = some result) :
    result.toolCalls = ((requests subIntents).zipIdx.filter fun made => succeeded events made.2).map
      fun made => made.1.toolId := by
  obtain ⟨all, same⟩ := returned_eq_some_iff.mp ended
  rw [McpExecutionResult.toolCalls, same, List.mapIdx_eq_zipIdx_map, List.filter_map, List.map_map]
  have each (made : Request × ℕ) (member : made ∈ (requests subIntents).zipIdx) :
      (made.1.listed (tasks made.2).phase.result).toolId = made.1.toolId ∧
      ((made.1.listed (tasks made.2).phase.result).status = .success ↔
        succeeded events made.2 = true) := by
    have here := List.mem_zipIdx_iff_getElem?.mp member
    obtain ⟨bound, -⟩ := List.getElem?_eq_some_iff.mp here
    obtain ⟨listed, success⟩ := listed_of_ended (traced_run (run_task run here)) (all _ bound)
    refine ⟨?_, success.trans ?_⟩
    · rw [listed]
      exact (executeOne_of_request service _ made.1).1
    · rw [outsideOf, List.findSome?_isSome_iff, succeeded, List.any_eq_true]
  have kept : ((requests subIntents).zipIdx.filter fun made =>
      decide ((made.1.listed (tasks made.2).phase.result).status = .success)) =
      (requests subIntents).zipIdx.filter fun made => succeeded events made.2 := by
    apply List.filter_congr
    intro made member
    rw [Bool.eq_iff_iff, decide_eq_true_iff]
    exact (each made member).2
  rw [← kept]
  apply List.map_congr_left
  intro made member
  exact (each made (List.mem_of_mem_filter member)).1

theorem execute_isolated (service : McpExecutionService) (subIntents : List SubQuestionIntent) :
    Isolated service subIntents := by
  intro events tasks run
  have traced (i : ℕ) (bound : i < (requests subIntents).length) :=
    traced_run (run_task run (List.getElem?_eq_getElem bound))
  constructor
  · exact fun i bound => (length_le_of_traced (traced i bound)).2
  · exact goes_on_of_returned
  · exact fun i bound => (length_le_of_traced (traced i bound)).1
  · intro result ended
    have fields := congrArg (List.map fun made => (made.1, made.2.2)) (requests_fields subIntents)
    rw [List.map_map, List.map_map] at fields
    rw [executions_eq run ended]
    refine Eq.trans ?_ fields
    apply List.ext_getElem?
    intro i
    rw [List.getElem?_map, List.getElem?_map, List.getElem?_map, McpExecutionService.execute,
      List.getElem?_mapIdx, Option.map_map, Option.map_map]
    congr 1
    funext request
    have same := executeOne_of_request service (outsideOf (eventsOf i events)) request
    exact congrArg₂ Prod.mk same.2 (congrArg some same.1)
  · intro result i question score ended scored
    have length := congrArg List.length (requests_fields subIntents)
    rw [List.length_map, List.length_map] at length
    obtain ⟨bound, -⟩ := List.getElem?_eq_some_iff.mp scored
    rw [← length] at bound
    have made := List.getElem?_eq_getElem bound
    obtain ⟨all, same⟩ := returned_eq_some_iff.mp ended
    obtain ⟨tasks', alone, returned⟩ := returned_single (run_task run made) (all i bound)
    rw [requests_single scored made]
    refine ⟨_, tasks', ?_, alone, returned⟩
    rw [same, List.getElem?_mapIdx, made, Option.map_some]
  · exact fun result => toolCalls_eq run

end Isolation

end HeyeeAgent.Mcp
