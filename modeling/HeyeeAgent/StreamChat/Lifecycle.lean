import HeyeeAgent.Coroutine.Basic
import HeyeeAgent.Python.Text
import HeyeeAgent.StreamQueueLimiter.Types
import HeyeeAgent.StreamTaskManager

/-! # The world of one stream

What `StreamChatService.stream` shares with the rest of the program: the task registry, its own
child tasks, the callback queue and the clients it awaits. An action of the world is a step of a
child, of a model callback, of another request on the registry, or of the clock. A child is an
asyncio task; asking it to cancel is separate from its end. The result of an ended task and the
items of the queue are read from the state, so those awaits have no reply of their own.
-/

namespace HeyeeAgent.StreamChat.Lifecycle

open Python StreamQueueLimiter Coroutine

inductive Raised where
  | cancelledError
  | generatorExit
  | timeoutError
  | exception (message : String)
deriving DecidableEq

/-- `except Exception` catches it. -/
def Raised.isException : Raised → Bool
  | .timeoutError | .exception _ => true
  | _ => false

/-- What the stream reads of a `ChatPreparation`; the sources are their JSON dumps. -/
structure ChatPreparation where
  conversationId : Str
  ragIntent : Option Json := none
  retrievedSources : List Json := []
  toolCalls : List Str := []
  memoryEnabled : Bool := true
  memoryService : Bool := false
  memoryAsyncCompress : Bool := true

structure ChatRequest where
  userId : Option ℤ := none
  conversationId : Option Str := none
  message : Str

structure ChatResponse where
  conversationId : Str
  messageId : Option Str
  interrupted : Bool
  reply : Str
  sources : List Json
  toolCalls : List Str
  ragIntent : Option Json

/-- The request, and the settings that the stream reads. -/
structure Config where
  request : ChatRequest
  taskId : String
  traceId : String
  /-- `is_disconnected` is given -/
  watched : Bool := false
  limiterEnabled : Bool := true
  callbackQueueMaxEvents : ℕ := 256
  memoryEnabled : Bool := true
  memoryAsyncCompress : Bool := true
  /-- the id drawn for a conversation without one -/
  newConversationId : Str := []
  /-- `str()` of the pydantic model built from a `ragIntent` dictionary -/
  ragIntentStr : Json → Str := fun _ => []
  /-- pydantic accepts the fields of the response -/
  responseValidates : ChatResponse → Bool := fun _ => true

def Config.ownerId (cfg : Config) : String :=
  match cfg.request.userId with
  | some userId => toString userId
  | none => "0"

/-- An asyncio task, or the model stream behind its handle. -/
inductive Child (α : Type) where
  | running (cancelRequested : Bool)
  | ended (result : Except Raised α)

/-- `cancel()`; it does nothing to a task that is done. -/
def Child.cancel {α : Type} : Child α → Child α
  | .running _ => .running true
  | .ended result => .ended result

/-- The task is there and not done. -/
def Child.isRunning {α : Type} : Option (Child α) → Bool
  | some (.running _) => true
  | _ => false

/-- The handles that a registry entry can hold; `foreign` stands for those of other streams. -/
inductive ChildRef where
  | preparation
  | modelStart
  | modelStream
  | foreign
deriving DecidableEq

/-- A model callback on its way to the stream. -/
inductive StreamEvent where
  | thinking (delta : Str)
  | content (delta : Str)
  | complete
  | error (message : Str)
deriving DecidableEq

/-- One event as it is sent to the client. -/
structure SseEvent where
  name : String
  data : Json

/-- `own` tells whether the entry under the task id is the one this stream has registered;
`zremInFlight` that Redis has not yet executed the release; `called` lists the events of all the
callbacks, and `taken` those that the stream took from its queue; `stopped` tells whether the stream
has acted on a cancellation or a disconnect. -/
structure State where
  now : ℚ := 0
  tasks : StreamTaskManager ChildRef := {}
  own : Bool := false
  registered : Bool := false
  limiterClient : Bool := true
  zremInFlight : Bool := false
  removed : List String := []
  preparationTask : Option (Child ChatPreparation) := none
  leaseTask : Option (Child Unit) := none
  modelStartTask : Option (Child Unit) := none
  modelStream : Option (Child Unit) := none
  scheduled : List StreamEvent := []
  queue : List StreamEvent := []
  called : List StreamEvent := []
  taken : List StreamEvent := []
  overflowed : Bool := false
  callbackHandle : Bool := false
  preparation : Option ChatPreparation := none
  answerStartedAt : Option ℚ := none
  responseParts : List Str := []
  handle : Bool := false
  queuePermit : Option StreamQueuePermit := none
  stopped : Bool := false
  cancellationPersisted : Bool := false
  memory : List Str := []
  emitted : List SseEvent := []

namespace State

/-- The `cancel()` of a handle. -/
def cancelChild (s : State) : ChildRef → State
  | .preparation => { s with preparationTask := s.preparationTask.map Child.cancel }
  | .modelStart => { s with modelStartTask := s.modelStartTask.map Child.cancel }
  | .modelStream => { s with modelStream := s.modelStream.map Child.cancel }
  | .foreign => s

def cancelHandle (s : State) : Option ChildRef → State
  | some ref => s.cancelChild ref
  | none => s

/-- `StreamTaskManager.cancel_local` with the handle's `cancel()`. -/
def cancelLocal (s : State) (taskId : String) : State :=
  let (tasks, _, handle) := s.tasks.cancelLocal s.now taskId
  { s with tasks }.cancelHandle handle

/-- `_QueueStreamCallback._schedule` -/
def schedule (s : State) (event : StreamEvent) : State :=
  if s.overflowed then s else { s with scheduled := s.scheduled ++ [event] }

/-- `_QueueStreamCallback._push` of the next scheduled event; a bound of 0 is no bound. -/
def push (cfg : Config) (s : State) : Option State :=
  match s.scheduled with
  | [] => none
  | event :: scheduled =>
    let s := { s with scheduled }
    if s.overflowed then some s
    else if 0 < cfg.callbackQueueMaxEvents ∧ cfg.callbackQueueMaxEvents ≤ s.queue.length then
      let s := { s with overflowed := true }
      some (if s.callbackHandle then s.cancelChild .modelStream else s)
    else some { s with queue := s.queue ++ [event] }

end State

inductive Action where
  | elapse (seconds : ℚ)
  /-- another request writes the registry: under another id, or under this one once it is free -/
  | entry (taskId : String) (info : Option (StreamTaskInfo ChildRef))
  | purge
  /-- a stop request, a broadcast or the lost lease cancels this task -/
  | cancel
  | preparationEnds (result : Except Raised ChatPreparation)
  | leaseEnds (cancelled : Bool)
  /-- `StreamLLMService.start` returns the handle of a running model stream, or raises -/
  | modelStartEnds (result : Except Raised Unit)
  | modelStreamEnds
  /-- the stream's own task is cancelled while it awaits the model start, which passes it on -/
  | interruptModelStart
  | callback (event : StreamEvent)
  | push
  | closeLimiter
  | executeZrem

/-- One action of the world. -/
def act (cfg : Config) (s : State) : Action → Option State
  | .elapse seconds => if 0 ≤ seconds then some { s with now := s.now + seconds } else none
  | .entry taskId info =>
    if taskId = cfg.taskId ∧ s.own = true ∧ taskId ∈ s.tasks.tasks then none
    else
      let entries := match info with
        | some info => s.tasks.tasks.insert taskId info
        | none => s.tasks.tasks.erase taskId
      some { s with
        tasks := { s.tasks with tasks := entries }
        own := s.own && taskId != cfg.taskId }
  | .purge => some { s with tasks := s.tasks.purgeExpired s.now }
  | .cancel => some (s.cancelLocal cfg.taskId)
  | .preparationEnds result =>
    match s.preparationTask with
    | some (.running _) => some { s with preparationTask := some (.ended result) }
    | _ => none
  | .leaseEnds cancelled =>
    match s.leaseTask with
    | some (.running _) =>
      let result := if cancelled then .error .cancelledError else .ok ()
      some { s with leaseTask := some (.ended result) }
    | _ => none
  | .modelStartEnds result =>
    match s.modelStartTask, result with
    | some (.running false), .ok () =>
      some { s with modelStartTask := some (.ended (.ok ())), modelStream := some (.running false) }
    | some (.running _), .error x => some { s with modelStartTask := some (.ended (.error x)) }
    | _, _ => none
  | .modelStreamEnds =>
    match s.modelStream with
    | some (.running _) => some { s with modelStream := some (.ended (.ok ())) }
    | _ => none
  | .interruptModelStart => some (s.cancelChild .modelStart)
  | .callback event =>
    if s.modelStartTask.isSome then some ({ s with called := s.called ++ [event] }.schedule event)
    else none
  | .push => s.push cfg
  | .closeLimiter => some { s with limiterClient := false }
  | .executeZrem =>
    match s.zremInFlight, s.queuePermit with
    | true, some permit =>
      some { s with zremInFlight := false, removed := permit.permitId :: s.removed }
    | _, _ => none

/-- Where the stream waits. -/
inductive Point where
  | yielding
  /-- at the registry's Redis backend -/
  | backend
  | acquire
  | isDisconnected
  | resolveMemory
  | loadAndAppend
  | memoryAppend
  | compressIfNeeded
  | compression
  /-- at `wait_for(shield(task))` -/
  | preparation
  | modelStart
  /-- at `wait_for(queue.get())` -/
  | queueGet
  | lease
  /-- at the condition of the limiter in `release` -/
  | conditionLock
  | zrem
  | publish
deriving DecidableEq

@[reducible] def Reply : Point → Type
  | .backend | .isDisconnected | .resolveMemory | .compressIfNeeded => Bool
  | .acquire => QueueAcquireResult
  | .memoryAppend => Option Str
  | _ => Unit

/-- The signals a point can be resumed with. Cancelling the stream while it awaits the model start
cancels that task, so an exception comes out of this await only once the task has ended. -/
def admits (s : State) : (p : Point) → Except Raised (Reply p) → Bool
  | .yielding, .ok _ => true
  | .yielding, .error x => x = .generatorExit
  | .backend, .ok _ => true
  | .backend, .error x => x = .cancelledError
  | .acquire, .ok _ => true
  | .acquire, .error x => x ≠ .generatorExit
  | .isDisconnected, .ok _ => true
  | .isDisconnected, .error x => x ≠ .generatorExit
  | .resolveMemory, .ok _ => true
  | .resolveMemory, .error x => x.isException
  | .loadAndAppend, .ok _ => true
  | .loadAndAppend, .error x => x.isException
  | .memoryAppend, .ok _ => true
  | .memoryAppend, .error x => x.isException
  | .compressIfNeeded, .ok _ => true
  | .compressIfNeeded, .error x => x.isException
  | .compression, .ok _ => true
  | .compression, .error x => x ≠ .generatorExit
  | .preparation, .ok _ =>
    match s.preparationTask with
    | some (.ended (.ok _)) => true
    | _ => false
  | .preparation, .error x =>
    match s.preparationTask with
    | some (.ended (.error x')) => x = x' || x = .timeoutError || x = .cancelledError
    | _ => x = .timeoutError || x = .cancelledError
  | .modelStart, .ok _ =>
    match s.modelStartTask with
    | some (.ended (.ok _)) => true
    | _ => false
  | .modelStart, .error x =>
    match s.modelStartTask with
    | some (.ended (.error x')) => x = x' || x = .cancelledError
    | some (.ended (.ok _)) => x = .cancelledError
    | _ => false
  | .queueGet, .ok _ => !s.queue.isEmpty
  | .queueGet, .error x => x = .timeoutError || x = .cancelledError
  | .lease, .ok _ =>
    match s.leaseTask with
    | some (.ended (.ok _)) => true
    | _ => false
  | .lease, .error x =>
    match s.leaseTask with
    | some (.ended _) => x = .cancelledError
    | _ => false
  | .conditionLock, .ok _ => true
  | .conditionLock, .error x => x = .cancelledError
  | .zrem, .ok _ => !s.zremInFlight
  | .zrem, .error x => x ≠ .generatorExit
  | .publish, .ok _ => true
  | .publish, .error x => x ≠ .generatorExit

def world (cfg : Config) : World State Action Point Raised Reply where
  act := act cfg
  admits p s := admits s p

abbrev StreamCo := Co State Action Point Raised Reply

end HeyeeAgent.StreamChat.Lifecycle
