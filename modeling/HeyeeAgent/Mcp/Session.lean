import HeyeeAgent.Machine.Run
import HeyeeAgent.Mcp.Adapter
import HeyeeAgent.Mcp.HttpClient
import HeyeeAgent.Python.JsonEncoder

/-! # The session of an MCP client

`StreamableHttpMcpClient` with any number of calls at once over the same attributes. Each call waits
for the answers to its own posts; another call may run in between, so several may shake hands. The
server answers as it likes, the transport may fail, and a waiting call may be cancelled.
-/

namespace HeyeeAgent.Mcp.Session

open Python Machine

def mcpProtocolVersion : Str := .lit "2025-03-26"

/-- What a call of the client raises. -/
inductive CallError where
  /-- `McpProtocolError` -/
  | protocol (message : Str)
  /-- `McpToolCallError` -/
  | toolCall (message : Str)
  /-- what `json.loads` raises for a number with too many digits -/
  | valueError
  /-- an error of the transport or of the status -/
  | http
  | cancelled
deriving DecidableEq

def raised : ClientError → CallError
  | .protocol message => .protocol (.lit message)
  | .valueError => .valueError

/-- `str()` of the objects that are no texts, and of the floats in JSON. -/
structure Interpreter where
  repr : Object → Str
  float : JsonEncoder.FloatRepr

section Texts

variable (py : Interpreter)

mutual

/-- `json.dumps(object, ensure_ascii=False, separators=(",", ":"))` -/
def dumps : Object → Str
  | .none => .lit "null"
  | .bool true => .lit "true"
  | .bool false => .lit "false"
  | .int value => JsonEncoder.intstr value
  | .float value => JsonEncoder.floatstr py.float value
  | .str value => JsonEncoder.encodeString value
  | .list items => .lit "[" ++ dumpsItems items ++ .lit "]"
  | .dict entries => .lit "\x7b" ++ dumpsEntries entries ++ .lit "\x7d"

def dumpsItems : List Object → Str
  | [] => []
  | [item] => dumps item
  | item :: items => dumps item ++ .lit "," ++ dumpsItems items

def dumpsEntries : List (Str × Object) → Str
  | [] => []
  | [(key, item)] => JsonEncoder.encodeString key ++ .lit ":" ++ dumps item
  | (key, item) :: entries =>
    JsonEncoder.encodeString key ++ .lit ":" ++ dumps item ++ .lit "," ++ dumpsEntries entries

end

/-- `str(object or "")` -/
def textOr (object : Object) : Str := (object.orElse (.str [])).text py.repr

def isTextItem : Object → Bool
  | .dict item => (Object.get item (.lit "type")).same (.str (.lit "text")) &&
      !(Object.get item (.lit "text")).same .none
  | _ => false

def itemText : Object → Str
  | .dict item => (Object.get item (.lit "text")).text py.repr
  | _ => []

/-- `_tool_result_text` -/
def toolResultText (result : Dict Str Object) : Str :=
  let content :=
    match Object.get result (.lit "content") with
    | .list items => Str.join (.lit "\n") ((items.filter isTextItem).map (itemText py))
    | _ => []
  match Object.get result (.lit "structuredContent") with
  | .dict structured =>
    match Dict.get structured (.lit "data") with
    | some data => dumps py data
    | none => content
  | _ => content

end Texts

section Requests

inductive Call where
  | initializeClient
  | listTools
  | callTool (name : Str) (arguments : Dict Str Object)

inductive Method where
  | initializeRequest
  | initializedNotification
  | toolsList
  | toolsCall (name : Str) (arguments : Dict Str Object)

def Method.text : Method → Str
  | initializeRequest => .lit "initialize"
  | initializedNotification => .lit "notifications/initialized"
  | toolsList => .lit "tools/list"
  | toolsCall _ _ => .lit "tools/call"

def Method.isTools : Method → Bool
  | toolsList | toolsCall _ _ => true
  | _ => false

/-- The request of a call, behind the handshake. -/
def Call.method : Call → Method
  | initializeClient => .initializeRequest
  | listTools => .toolsList
  | callTool name arguments => .toolsCall name arguments

/-- What is sent to the server: a notification has no `id`. -/
structure Post where
  method : Method
  id : Option ℕ := none
  /-- the header `Mcp-Session-Id` -/
  sessionId : Option Str

/-- A response that `raise_for_status` lets through, with its header `Mcp-Session-Id`. -/
structure Answer where
  response : HttpResponse
  sessionId : Option Str

variable (py : Interpreter)

/-- `_request` with the response to its post. -/
def requestResult (method : Method) (id : ℕ) (response : HttpResponse) :
    Except CallError (Dict Str Object) :=
  match decodeResponse response id with
  | .error error => .error (raised error)
  | .ok payload =>
    match Object.get payload (.lit "error") with
    | .dict error => .error (.protocol (.lit "MCP error " ++
        (Object.get error (.lit "code")).text py.repr ++ .lit ": " ++
          (Object.get error (.lit "message")).text py.repr))
    | _ =>
      match Object.get payload (.lit "result") with
      | .dict result => .ok result
      | _ => .error (.protocol (.lit "MCP method " ++ method.text ++
          .lit " returned no result object"))

/-- `initialize` up to its notification. -/
def agreed (id : ℕ) (response : HttpResponse) : Except CallError (Dict Str Object) :=
  match requestResult py .initializeRequest id response with
  | .error error => .error error
  | .ok result =>
    let protocolVersion := textOr py (Object.get result (.lit "protocolVersion"))
    if protocolVersion ≠ mcpProtocolVersion then
      .error (.protocol (.lit "Unsupported MCP protocol version: " ++
        if protocolVersion = [] then .lit "missing" else protocolVersion))
    else .ok result

def emptySchema : Dict Str Object := [
  (.lit "type", .str (.lit "object")),
  (.lit "properties", .dict []),
  (.lit "additionalProperties", .bool false)]

/-- One turn of the loop of `list_tools`. -/
def toolDefinition : Object → Option McpToolDefinition
  | .dict rawTool =>
    let name := Str.strip (textOr py (Object.get rawTool (.lit "name")))
    if name = [] then none
    else some {
      name := name
      description := textOr py (Object.get rawTool (.lit "description"))
      inputSchema :=
        match Object.get rawTool (.lit "inputSchema") with
        | .dict inputSchema => inputSchema
        | _ => emptySchema }
  | _ => none

/-- What a call returns. -/
inductive Value where
  | serverInfo (result : Dict Str Object)
  | tools (tools : List McpToolDefinition)
  | text (text : Str)

/-- What a call makes of its result. -/
def Call.finish (call : Call) (result : Dict Str Object) : Except CallError Value :=
  match call with
  | .initializeClient => .ok (.serverInfo result)
  | .listTools =>
    match Object.get result (.lit "tools") with
    | .list rawTools => .ok (.tools (rawTools.filterMap (toolDefinition py)))
    | _ => .error (.protocol (.lit "tools/list result does not contain a tools array"))
  | .callTool name _ =>
    let text := toolResultText py result
    if (Object.get result (.lit "isError")).truthy then
      .error (.toolCall (if text = [] then .lit "MCP tool failed: " ++ name else text))
    else if text = [] then
      .error (.protocol (.lit "MCP tool returned no content: " ++ name))
    else .ok (.text text)

end Requests

section Client

/-- The attributes of a client that its calls change. -/
structure Client where
  /-- `_request_ids` -/
  nextId : ℕ := 1
  sessionId : Option Str := none
  initialized : Bool := false

inductive Phase where
  /-- `initialize` is posted. -/
  | initializing (id : ℕ)
  /-- `notifications/initialized` is posted, after this result. -/
  | notifying (result : Dict Str Object)
  /-- The request of the call is posted. -/
  | requesting (id : ℕ)
  | ended (outcome : Except CallError Value)

structure Task where
  call : Call
  phase : Phase

/-- What has been sent and received, in its order. -/
inductive Entry (N : Type) where
  | posted (n : N) (post : Post)
  | received (n : N) (answer : Answer)

structure State (N : Type) where
  client : Client := {}
  tasks : N → Option Task := fun _ => none
  log : List (Entry N) := []

inductive Event (N : Type) where
  | start (n : N) (call : Call)
  | answer (n : N) (answer : Answer)
  /-- The transport fails, or the status is an error. -/
  | fail (n : N)
  | cancel (n : N)

variable {N : Type} [DecidableEq N]

namespace State

def setTask (s : State N) (n : N) (call : Call) (phase : Phase) : State N :=
  { s with tasks := Function.update s.tasks n (some ⟨call, phase⟩) }

/-- The post of a request, under the next `id`. -/
def request (s : State N) (n : N) (call : Call) (method : Method) (phase : ℕ → Phase) : State N :=
  { client := { s.client with nextId := s.client.nextId + 1 }
    tasks := Function.update s.tasks n (some ⟨call, phase s.client.nextId⟩)
    log := s.log ++ [.posted n ⟨method, some s.client.nextId, s.client.sessionId⟩] }

/-- The post of the notification. -/
def notify (s : State N) (n : N) (call : Call) (result : Dict Str Object) : State N :=
  { s with
    tasks := Function.update s.tasks n (some ⟨call, .notifying result⟩)
    log := s.log ++ [.posted n ⟨.initializedNotification, none, s.client.sessionId⟩] }

/-- `_post` behind its response: a session that is named replaces the one before. -/
def receive (s : State N) (n : N) (answer : Answer) : State N :=
  { s with
    client := { s.client with
      sessionId :=
        match answer.sessionId with
        | some (c :: sessionId) => some (c :: sessionId)
        | _ => s.client.sessionId }
    log := s.log ++ [.received n answer] }

/-- The call behind the handshake. -/
def proceed (s : State N) (n : N) (call : Call) : State N :=
  s.request n call call.method .requesting

variable (py : Interpreter)

/-- A response comes to a call. -/
def resume (s : State N) (n : N) (task : Task) (answer : Answer) : Option (State N) :=
  let s := s.receive n answer
  match task.phase with
  | .initializing id =>
    match agreed py id answer.response with
    | .error error => some (s.setTask n task.call (.ended (.error error)))
    | .ok result => some (s.notify n task.call result)
  | .notifying result =>
    let s := { s with client := { s.client with initialized := true } }
    match task.call with
    | .initializeClient => some (s.setTask n .initializeClient (.ended (.ok (.serverInfo result))))
    | call => some (s.proceed n call)
  | .requesting id =>
    match requestResult py task.call.method id answer.response with
    | .error error => some (s.setTask n task.call (.ended (.error error)))
    | .ok result => some (s.setTask n task.call (.ended (task.call.finish py result)))
  | .ended _ => none

/-- An exception comes to a call that waits. -/
def interrupt (s : State N) (n : N) (error : CallError) : Option (State N) :=
  match s.tasks n with
  | none | some ⟨_, .ended _⟩ => none
  | some task => some (s.setTask n task.call (.ended (.error error)))

def step (s : State N) : Event N → Option (State N)
  | .start n call =>
    match s.tasks n with
    | some _ => none
    | none =>
      match call with
      | .initializeClient =>
        some (s.request n .initializeClient .initializeRequest .initializing)
      | call =>
        if s.client.initialized then some (s.proceed n call)
        else some (s.request n call .initializeRequest .initializing)
  | .answer n answer => (s.tasks n).bind fun task => s.resume py n task answer
  | .fail n => s.interrupt n .http
  | .cancel n => s.interrupt n .cancelled

end State

end Client

section Log

variable {N : Type} {log before after : List (Entry N)} {e : Entry N} {n : N} {post : Post}

def Entry.id : Entry N → Option ℕ
  | posted _ post => post.id
  | received _ _ => none

/-- The session that a response names. -/
def Entry.sessionId : Entry N → Option Str
  | posted _ _ => none
  | received _ answer => answer.sessionId.filter (· ≠ [])

/-- The `id`s of the requests, in the order of their posts. -/
def ids (log : List (Entry N)) : List ℕ := log.filterMap Entry.id

/-- The session that the last response with one names. -/
def lastSession (log : List (Entry N)) : Option Str := (log.filterMap Entry.sessionId).getLast?

/-- A call has agreed on the version with the server and has had its notification accepted. -/
def Handshake (py : Interpreter) (log : List (Entry N)) : Prop :=
  ∃ n id sessionId sessionId' result answer answer',
    agreed py id answer.response = .ok result ∧
    [.posted n ⟨.initializeRequest, some id, sessionId⟩, .received n answer,
      .posted n ⟨.initializedNotification, none, sessionId'⟩, .received n answer'].Sublist log

/-- What holds of a post and what was sent and received before it, of every post. -/
def EveryPost (P : List (Entry N) → Post → Prop) (log : List (Entry N)) : Prop :=
  ∀ before n post after, log = before ++ .posted n post :: after → P before post

/-- A post carries the last session, its `id` is the next one, and a request about tools comes after a
handshake. -/
structure WellPosted (py : Interpreter) (before : List (Entry N)) (post : Post) : Prop where
  sessionId : post.sessionId = lastSession before
  id : ∀ id ∈ post.id, id = (ids before).length + 1
  handshake : post.method.isTools = true → Handshake py before

/-- The value of a call is made of the result in a response to its own request, under the `id` of that
request. -/
def FromOwn (py : Interpreter) (log : List (Entry N)) (n : N) (call : Call) (value : Value) : Prop :=
  ∃ id sessionId answer result,
    [.posted n ⟨call.method, some id, sessionId⟩, .received n answer].Sublist log ∧
    requestResult py call.method id answer.response = .ok result ∧ call.finish py result = .ok value

theorem everyPost_nil (P : List (Entry N) → Post → Prop) : EveryPost P [] := by
  intro before n post after same
  simp at same

theorem EveryPost.append {P : List (Entry N) → Post → Prop} (every : EveryPost P log)
    (last : ∀ n post, e = .posted n post → P log post) : EveryPost P (log ++ [e]) := by
  intro before n post after same
  rcases List.eq_nil_or_concat after with rfl | ⟨rest, last', rfl⟩
  · obtain ⟨rfl, ends⟩ := List.append_inj' same rfl
    obtain ⟨rfl, -⟩ := List.cons.inj ends
    exact last n post rfl
  · rw [List.concat_eq_append, ← List.cons_append, ← List.append_assoc] at same
    exact every before n post rest (List.append_inj' same rfl).1

theorem ids_append (log : List (Entry N)) (e : Entry N) :
    ids (log ++ [e]) = ids log ++ e.id.toList := by
  cases given : e.id <;> simp [ids, given]

theorem ids_posted (log : List (Entry N)) (n : N) (post : Post) :
    ids (log ++ [.posted n post]) = ids log ++ post.id.toList := ids_append log _

theorem ids_received (log : List (Entry N)) (n : N) (answer : Answer) :
    ids (log ++ [.received n answer]) = ids log := by
  rw [ids_append]
  exact List.append_nil _

theorem lastSession_posted (log : List (Entry N)) (n : N) (post : Post) :
    lastSession (log ++ [.posted n post]) = lastSession log := by
  rw [lastSession, List.filterMap_append]
  exact congrArg List.getLast? (List.append_nil _)

theorem lastSession_received (log : List (Entry N)) (n : N) (answer : Answer) :
    lastSession (log ++ [.received n answer]) =
      match answer.sessionId with
      | some (c :: sessionId) => some (c :: sessionId)
      | _ => lastSession log := by
  have named : (Entry.received n answer).sessionId = answer.sessionId.filter (· ≠ []) := rfl
  rw [lastSession, List.filterMap_append]
  split
  · next c sessionId given =>
    rw [List.filterMap_cons_some (b := c :: sessionId) (by rw [named, given]; rfl)]
    simp
  · next other =>
    have unnamed : (Entry.received n answer).sessionId = none := by
      rw [named]
      cases given : answer.sessionId with
      | none => rfl
      | some sessionId =>
        cases sessionId with
        | nil => rfl
        | cons c sessionId => exact absurd given (other c sessionId)
    rw [List.filterMap_cons_none unnamed]
    exact congrArg List.getLast? (List.append_nil _)

theorem Handshake.append {py : Interpreter} (handshake : Handshake py log) (e : Entry N) :
    Handshake py (log ++ [e]) := by
  obtain ⟨n, id, sessionId, sessionId', result, answer, answer', agrees, listed⟩ := handshake
  exact ⟨n, id, sessionId, sessionId', result, answer, answer', agrees,
    listed.trans (List.sublist_append_left ..)⟩

/-- A version that is agreed on is in a result. -/
theorem requestResult_of_agreed {py : Interpreter} {id : ℕ} {response : HttpResponse}
    {result : Dict Str Object} (agrees : agreed py id response = .ok result) :
    requestResult py .initializeRequest id response = .ok result := by
  unfold agreed at agrees
  split at agrees
  · cases agrees
  · next result' given =>
    dsimp only at agrees
    split_ifs at agrees
    rw [given]
    exact agrees

end Log

section Runs

variable {N : Type} {py : Interpreter} {s t : State N} {log : List (Entry N)} {n : N} {call : Call}
  {phase : Phase} {task : Task}

/-- How far the log has brought a call. -/
def Stands (py : Interpreter) (log : List (Entry N)) (n : N) (task : Task) : Prop :=
  match task.phase with
  | .initializing id => ∃ sessionId, .posted n ⟨.initializeRequest, some id, sessionId⟩ ∈ log
  | .notifying result => ∃ id sessionId sessionId' answer,
    agreed py id answer.response = .ok result ∧
    [.posted n ⟨.initializeRequest, some id, sessionId⟩, .received n answer,
      .posted n ⟨.initializedNotification, none, sessionId'⟩].Sublist log
  | .requesting id => ∃ sessionId, .posted n ⟨task.call.method, some id, sessionId⟩ ∈ log
  | .ended (.ok value) => FromOwn py log n task.call value
  | .ended (.error _) => True

theorem Stands.append (stands : Stands py log n task) (e : Entry N) :
    Stands py (log ++ [e]) n task := by
  have later : log.Sublist (log ++ [e]) := List.sublist_append_left log [e]
  unfold Stands at stands ⊢
  split at stands
  · obtain ⟨sessionId, member⟩ := stands
    exact ⟨sessionId, later.subset member⟩
  · obtain ⟨id, sessionId, sessionId', answer, agrees, listed⟩ := stands
    exact ⟨id, sessionId, sessionId', answer, agrees, listed.trans later⟩
  · obtain ⟨sessionId, member⟩ := stands
    exact ⟨sessionId, later.subset member⟩
  · obtain ⟨id, sessionId, answer, result, listed, given, finished⟩ := stands
    exact ⟨id, sessionId, answer, result, listed.trans later, given, finished⟩
  · trivial

structure Inv (py : Interpreter) (s : State N) : Prop where
  posts : EveryPost (WellPosted py) s.log
  nextId : s.client.nextId = (ids s.log).length + 1
  sessionId : s.client.sessionId = lastSession s.log
  handshake : s.client.initialized = true → Handshake py s.log
  tasks : ∀ n task, s.tasks n = some task → Stands py s.log n task

theorem inv_initial : Inv py ({} : State N) where
  posts := everyPost_nil _
  nextId := rfl
  sessionId := rfl
  handshake started := by cases started
  tasks n task found := by cases found

theorem Inv.receive (inv : Inv py s) (n : N) (answer : Answer) : Inv py (s.receive n answer) where
  posts := by
    apply inv.posts.append
    intro m post same
    cases same
  nextId := by
    rw [State.receive, ids_received]
    exact inv.nextId
  sessionId := by
    rw [State.receive, lastSession_received, inv.sessionId]
  handshake started := (inv.handshake started).append _
  tasks m task found := (inv.tasks m task found).append _

variable [DecidableEq N]

theorem stands_update (tasks : ∀ m task, s.tasks m = some task → Stands py log m task)
    (stands : Stands py log n ⟨call, phase⟩) (m : N) (task : Task)
    (found : Function.update s.tasks n (some ⟨call, phase⟩) m = some task) :
    Stands py log m task := by
  by_cases same : m = n
  · subst same
    rw [Function.update_self] at found
    cases found
    exact stands
  · rw [Function.update_of_ne same] at found
    exact tasks m task found

theorem Inv.setTask (inv : Inv py s) (stands : Stands py s.log n ⟨call, phase⟩) :
    Inv py (s.setTask n call phase) :=
  { inv with tasks := stands_update inv.tasks stands }

theorem Inv.request {method : Method} {phase : ℕ → Phase} (inv : Inv py s)
    (tools : method.isTools = true → Handshake py s.log)
    (stands : Stands py
      (s.log ++ [.posted n ⟨method, some s.client.nextId, s.client.sessionId⟩]) n
        ⟨call, phase s.client.nextId⟩) : Inv py (s.request n call method phase) where
  posts := by
    apply inv.posts.append
    intro m post same
    cases same
    exact ⟨inv.sessionId, fun id given => by cases given; exact inv.nextId, tools⟩
  nextId := by
    rw [State.request, ids_posted, List.length_append, inv.nextId]
    rfl
  sessionId := by
    rw [State.request, lastSession_posted]
    exact inv.sessionId
  handshake started := (inv.handshake started).append _
  tasks := stands_update (fun m task found => (inv.tasks m task found).append _) stands

theorem Inv.notify {result : Dict Str Object} (inv : Inv py s)
    (stands : Stands py
      (s.log ++ [.posted n ⟨.initializedNotification, none, s.client.sessionId⟩]) n
        ⟨call, .notifying result⟩) : Inv py (s.notify n call result) where
  posts := by
    apply inv.posts.append
    intro m post same
    cases same
    exact ⟨inv.sessionId, fun id given => (Option.not_mem_none id given).elim,
      fun tools => Bool.noConfusion tools⟩
  nextId := by
    rw [State.notify, ids_posted]
    exact inv.nextId.trans (by rw [Option.toList_none, List.append_nil])
  sessionId := by
    rw [State.notify, lastSession_posted]
    exact inv.sessionId
  handshake started := (inv.handshake started).append _
  tasks := stands_update (fun m task found => (inv.tasks m task found).append _) stands

/-- A call goes on behind a handshake, its own or an earlier one. -/
theorem Inv.proceed (inv : Inv py s) (handshake : Handshake py s.log) :
    Inv py (s.proceed n call) := by
  apply inv.request (fun _ => handshake)
  exact ⟨s.client.sessionId, by simp⟩

theorem Inv.resume {answer : Answer} (inv : Inv py s) (found : s.tasks n = some task)
    (resumed : s.resume py n task answer = some t) : Inv py t := by
  have stands := inv.tasks n task found
  have received := inv.receive n answer
  obtain ⟨call, phase⟩ := task
  rw [State.resume] at resumed
  cases phase with
  | initializing id =>
    obtain ⟨sessionId, member⟩ := stands
    dsimp only at resumed
    split at resumed
    · cases resumed
      exact received.setTask trivial
    · next result agrees =>
      cases resumed
      apply received.notify
      refine ⟨id, sessionId, (s.receive n answer).client.sessionId, answer, agrees, ?_⟩
      exact ((List.singleton_sublist.mpr member).append
        (List.Sublist.refl [Entry.received n answer])).append (List.Sublist.refl _)
  | notifying result =>
    obtain ⟨id, sessionId, sessionId', answer', agrees, listed⟩ := stands
    have handshake : Handshake py (s.log ++ [.received n answer]) :=
      ⟨n, id, sessionId, sessionId', result, answer', answer, agrees,
        listed.append (List.Sublist.refl [Entry.received n answer])⟩
    have marked : Inv py { s.receive n answer with
        client := { (s.receive n answer).client with initialized := true } } :=
      { received with handshake := fun _ => handshake }
    cases call with
    | initializeClient =>
      cases resumed
      apply marked.setTask
      refine ⟨id, sessionId, answer', result, ?_, requestResult_of_agreed agrees, rfl⟩
      have shaken : [Entry.posted n ⟨.initializeRequest, some id, sessionId⟩,
          .received n answer'].Sublist s.log :=
        (List.sublist_append_left [_, _] [_]).trans listed
      exact shaken.trans (List.sublist_append_left ..)
    | listTools =>
      cases resumed
      exact marked.proceed handshake
    | callTool name arguments =>
      cases resumed
      exact marked.proceed handshake
  | requesting id =>
    obtain ⟨sessionId, member⟩ := stands
    dsimp only at resumed
    split at resumed
    · cases resumed
      exact received.setTask trivial
    · next result given =>
      cases resumed
      apply received.setTask
      cases finished : call.finish py result with
      | error error => trivial
      | ok value =>
        exact ⟨id, sessionId, answer, result,
          (List.singleton_sublist.mpr member).append (List.Sublist.refl [Entry.received n answer]),
          given, finished⟩
  | ended outcome => cases resumed

theorem Inv.interrupt {error : CallError} (inv : Inv py s)
    (interrupted : s.interrupt n error = some t) : Inv py t := by
  rw [State.interrupt] at interrupted
  split at interrupted
  · cases interrupted
  · cases interrupted
  · cases interrupted
    exact inv.setTask trivial

theorem Inv.step {event : Event N} (inv : Inv py s) (taken : s.step py event = some t) :
    Inv py t := by
  cases event with
  | start n call =>
    have shaking : Inv py (s.request n call .initializeRequest .initializing) :=
      inv.request (fun tools => by cases tools) ⟨s.client.sessionId, by simp⟩
    cases found : s.tasks n with
    | some task => simp only [State.step, found, reduceCtorEq] at taken
    | none =>
      cases call with
      | initializeClient =>
        simp only [State.step, found, Option.some.injEq] at taken
        exact taken ▸ shaking
      | listTools | callTool =>
        simp only [State.step, found] at taken
        split_ifs at taken with ready
        · cases taken
          exact inv.proceed (inv.handshake ready)
        · cases taken
          exact shaking
  | answer n answer =>
    obtain ⟨task, found, resumed⟩ := Option.bind_eq_some_iff.mp taken
    exact inv.resume found resumed
  | fail n => exact inv.interrupt taken
  | cancel n => exact inv.interrupt taken

theorem always_inv (py : Interpreter) (es : List (Event N)) :
    Always (State.step py) (Inv py) {} es :=
  always_of_preserved (fun _ _ _ inv taken => inv.step taken) inv_initial es

/-- In every interleaving of calls over one client, with any answers, failures and cancellations: a
post carries the session of the last response with one, the requests are numbered one by one, and
nothing is asked of the tools before a handshake is complete. -/
theorem posts_follow_protocol (py : Interpreter) (es : List (Event N)) :
    Always (State.step py) (fun s => EveryPost (WellPosted py) s.log) {} es :=
  (always_inv py es).mono fun _ inv => inv.posts

/-- What a call returns is read from a response to the request it posted itself, under the `id` of that
request, whatever the other calls do in between. -/
theorem values_from_own_responses (py : Interpreter) (es : List (Event N)) :
    Always (State.step py) (fun s => ∀ n call value,
      s.tasks n = some ⟨call, .ended (.ok value)⟩ → FromOwn py s.log n call value) {} es :=
  (always_inv py es).mono fun _ inv n call value found =>
    inv.tasks n ⟨call, .ended (.ok value)⟩ found

end Runs

end HeyeeAgent.Mcp.Session
