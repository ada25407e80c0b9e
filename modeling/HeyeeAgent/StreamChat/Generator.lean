import HeyeeAgent.StreamChat.Lifecycle

/-! # The generator `StreamChatService.stream`

The async generator as a coroutine over the world of one stream, with its `try`, its two handlers
and its `finally` block. A `return` inside the `try` is the end of its block here, since nothing
follows the cleanup. Tracing and logging are left out.
-/

namespace HeyeeAgent.StreamChat.Lifecycle

open Python StreamQueueLimiter Coroutine Co

variable (cfg : Config)

def queueTimeoutReply : Str := Str.lit "系统繁忙，请稍后重试。"

def await (p : Point) : StreamCo (Reply p) := Co.await (world cfg) p

/-- An external call that does not suspend. -/
def callOut (p : Point) : StreamCo (Reply p) := Co.call (world cfg) p

/-- `yield _encode_event(name, data)`; the encoding fails on a lone surrogate. -/
def yieldEvent (name : String) (data : Json) : StreamCo Unit := do
  if data.encodes then
    modify fun s => { s with emitted := s.emitted ++ [⟨name, data⟩] }
    await cfg .yielding
  else raise (.exception "UnicodeEncodeError")

/-- `except Exception` with a value instead. -/
def orElse {α : Type} (body : StreamCo α) (other : StreamCo α) : StreamCo α :=
  body.tryCatch fun x => if x.isException then other else raise x

/-- `except asyncio.CancelledError: pass` -/
def passCancelled (body : StreamCo Unit) : StreamCo Unit :=
  body.tryCatch fun x => if x = .cancelledError then pure () else raise x

section Registry

/-- `StreamTaskManager.register` -/
def register : StreamCo Bool := do
  let s ← get
  let (tasks, free) := s.tasks.register s.now cfg.taskId (some cfg.ownerId)
  modify fun s => { s with tasks, own := free }
  if !free then pure false
  else if !s.tasks.distributedEnabled then pure true
  else
    let ownerStored ← await cfg .backend
    if !ownerStored then
      modify fun s => { s with tasks := (s.tasks.registerAnswered s.now cfg.taskId false false).1 }
      pure false
    else
      let remotelyCancelled ← await cfg .backend
      modify fun s =>
        { s with tasks := (s.tasks.registerAnswered s.now cfg.taskId true remotelyCancelled).1 }
      pure true

/-- `StreamTaskManager.is_cancelled` -/
def isCancelled : StreamCo Bool := do
  let s ← get
  modify fun s => { s with tasks := s.tasks.purgeExpired s.now }
  pure (s.tasks.isCancelled s.now cfg.taskId)

/-- `StreamTaskManager.bind`; a refused handle of a cancelled entry is cancelled. -/
def bind (ref : ChildRef) : StreamCo Bool := do
  let s ← get
  let (tasks, bound, handle) := s.tasks.bind cfg.taskId ref
  modify fun s => { s with tasks }.cancelHandle handle
  pure bound

/-- `StreamTaskManager.cancel` without an owner. -/
def taskManagerCancel : StreamCo Unit := do
  let s ← get
  if s.tasks.distributedEnabled then
    let _ ← await cfg .backend
    let _ ← await cfg .backend
    modify fun s => s.cancelLocal cfg.taskId
  else modify fun s => s.cancelLocal cfg.taskId

/-- `StreamTaskManager.finalize` -/
def finalize : StreamCo Unit := do
  let s ← get
  let info := (s.tasks.purgeExpired s.now).tasks.lookup cfg.taskId
  modify fun s => { s with tasks := s.tasks.finalize s.now cfg.taskId }
  if info.any (!·.cancelled) && s.tasks.distributedEnabled then
    let _ ← await cfg .backend
    let _ ← await cfg .backend
    pure ()
  else pure ()

end Registry

/-- `StreamQueueLimiter.release` -/
def release : StreamCo Unit := do
  let s ← get
  match s.queuePermit with
  | none => pure ()
  | some permit =>
    if !cfg.limiterEnabled then pure ()
    else if permit.distributed then
      if !s.limiterClient then pure ()
      else orElse (do
          modify fun s => { s with zremInFlight := true }
          await cfg .zrem
          await cfg .publish) (pure ())
    else do
      await cfg .conditionLock
      modify fun s => { s with removed := permit.permitId :: s.removed }

section Persistence

/-- `ChatService._persist_memory_reply` -/
def persistMemoryReply (asyncCompress : Bool) (reply : Str) : StreamCo (Option Str) := do
  let messageId ← callOut cfg .memoryAppend
  modify fun s => { s with memory := s.memory ++ [reply] }
  let awaitable ← callOut cfg .compressIfNeeded
  -- a background compression is a task of its own
  if awaitable && !asyncCompress then
    await cfg .compression
    pure (messageId.filter (· ≠ []))
  else pure (messageId.filter (· ≠ []))

/-- `ChatService._persist_assistant_reply` -/
def persistAssistantReply (preparation : ChatPreparation) (reply : Str) :
    StreamCo (Option Str) :=
  if !preparation.memoryEnabled || !preparation.memoryService then pure none
  else persistMemoryReply cfg preparation.memoryAsyncCompress reply

/-- `ChatService.complete_preparation` -/
def completePreparation (preparation : ChatPreparation) (reply : Str) (toolCalls : List Str)
    (interrupted : Bool) : StreamCo ChatResponse := do
  let messageId ← persistAssistantReply cfg preparation reply
  let response : ChatResponse := {
    conversationId := preparation.conversationId
    messageId, interrupted, reply
    sources := preparation.retrievedSources
    toolCalls := preparation.toolCalls ++ toolCalls
    ragIntent := preparation.ragIntent }
  if cfg.responseValidates response then pure response else raise (.exception "ValidationError")

structure QueueRejection where
  conversationId : Option Str
  messageId : Option Str
  title : Str

def title : Str := cfg.request.message.take 128

/-- `ChatService.record_queue_rejection` -/
def chatRecordQueueRejection (reply : Str) : StreamCo QueueRejection := do
  let conversationId := (cfg.request.conversationId.filter (· ≠ [])).getD cfg.newConversationId
  let memoryService ← callOut cfg .resolveMemory
  if cfg.memoryEnabled && memoryService then
    let messageId ← orElse (do
        callOut cfg .loadAndAppend
        persistMemoryReply cfg cfg.memoryAsyncCompress reply) (pure none)
    pure ⟨some conversationId, messageId, title cfg⟩
  else pure ⟨some conversationId, none, title cfg⟩

/-- `_record_queue_rejection` -/
def recordQueueRejection : StreamCo QueueRejection :=
  orElse (chatRecordQueueRejection cfg queueTimeoutReply)
    (pure ⟨cfg.request.conversationId, none, title cfg⟩)

end Persistence

section Events

def taskData : Json := .obj [("taskId", .text cfg.taskId)]

def errorData (message : String) : Json := .obj [("message", .text message)]

/-- `default=str` makes a string of a pydantic model. -/
def ragIntentData (ragIntent : Option Json) : Json :=
  .ofOption (ragIntent.map fun dict => .str (cfg.ragIntentStr dict))

def responseFields (response : ChatResponse) : List (String × Json) :=
  [("sources", .arr response.sources), ("toolCalls", .arr (response.toolCalls.map .str)),
    ("ragIntent", ragIntentData cfg response.ragIntent)]

/-- The dictionary of `cancelled_payload`. -/
def cancelData (conversationId messageId : Option Str) (partially : Bool)
    (more : List (String × Json)) : Json :=
  .obj ([("taskId", .text cfg.taskId), ("conversationId", .ofOption (conversationId.map .str)),
    ("messageId", .ofOption (messageId.map .str)), ("title", .str (title cfg)),
    ("partial", .bool partially)] ++ more)

def finishData (response : ChatResponse) : Json :=
  .obj ([("conversationId", .str response.conversationId),
    ("messageId", .ofOption (response.messageId.map .str)), ("title", .str (title cfg))] ++
    responseFields cfg response)

end Events

/-- `cancelled_payload` -/
def cancelledPayload : StreamCo Json := do
  modify fun s => { s with stopped := true }
  let s ← get
  let reply := Str.strip s.responseParts.flatten
  let payload := cancelData cfg (s.preparation.map (·.conversationId)) none false []
  match s.preparation, s.answerStartedAt with
  | some preparation, some _ =>
    if reply ≠ [] ∧ s.cancellationPersisted = false then
      modify fun s => { s with cancellationPersisted := true }
      orElse (do
          let response ← completePreparation cfg preparation reply [] true
          pure (cancelData cfg (some response.conversationId) response.messageId true
            (responseFields cfg response))) (pure payload)
    else pure payload
  | _, _ => pure payload

/-- `cancel` and `done` -/
def yieldCancel : StreamCo Unit := do
  let payload ← cancelledPayload cfg
  yieldEvent cfg "cancel" payload
  yieldEvent cfg "done" (taskData cfg)

/-- `is_disconnected is not None and await is_disconnected()` -/
def disconnected : StreamCo Bool :=
  if cfg.watched then await cfg .isDisconnected else pure false

/-- One round of `_await_preparation`. -/
def awaitPreparationRound : StreamCo (Option ChatPreparation) := do
  let gone ← disconnected cfg
  onlyIf gone (taskManagerCancel cfg)
  let cancelled ← isCancelled cfg
  onlyIf cancelled (modify fun s => s.cancelChild .preparation)
  Co.tryCatch (do
      await cfg .preparation
      let s ← get
      match s.preparationTask with
      | some (.ended (.ok preparation)) => pure (some preparation)
      | _ => raise (.exception "InvalidStateError"))
    fun x => if x = .timeoutError then pure none else raise x

/-- `_await_preparation` -/
def awaitPreparation : StreamCo ChatPreparation := repeatUntil (awaitPreparationRound cfg)

/-- `asyncio.wait_for(queue.get(), timeout=0.15)`, or none at a timeout. -/
def queueGet : StreamCo (Option StreamEvent) :=
  Co.tryCatch (do
      await cfg .queueGet
      let s ← get
      match s.queue with
      | event :: queue =>
        modify fun s => { s with queue, taken := s.taken ++ [event] }
        pure (some event)
      | [] => raise (.exception "QueueEmpty"))
    fun x => if x = .timeoutError then pure none else raise x

/-- The branch of `complete`. -/
def answerComplete (preparation : ChatPreparation) : StreamCo Unit := do
  let s ← get
  let reply := Str.strip s.responseParts.flatten
  if reply = [] then
    yieldEvent cfg "error" (errorData "model returned empty stream")
    yieldEvent cfg "done" (taskData cfg)
  else
    let response ← completePreparation cfg preparation reply [] false
    yieldEvent cfg "finish" (finishData cfg response)
    yieldEvent cfg "done" (taskData cfg)

/-- The branch of `error`. -/
def answerError : StreamCo Unit := do
  let cancelled ← isCancelled cfg
  if cancelled then
    let payload ← cancelledPayload cfg
    yieldEvent cfg "cancel" payload
    yieldEvent cfg "done" (taskData cfg)
  else
    yieldEvent cfg "error" (errorData "AI stream is unavailable")
    yieldEvent cfg "done" (taskData cfg)

def deltaData (kind : String) (delta : Str) : Json :=
  .obj [("type", .text kind), ("delta", .str delta)]

/-- What the loop does with an event; a value ends it. -/
def consumeEvent (preparation : ChatPreparation) : StreamEvent → StreamCo (Option Unit)
  | .thinking delta => do
    yieldEvent cfg "message" (deltaData "think" delta)
    pure none
  | .content delta => do
    modify fun s => { s with responseParts := s.responseParts ++ [delta] }
    yieldEvent cfg "message" (deltaData "response" delta)
    pure none
  | .error _ => some <$> answerError cfg
  | .complete => some <$> answerComplete cfg preparation

/-- One round of the loop over the callback queue. -/
def consumeRound (preparation : ChatPreparation) : StreamCo (Option Unit) := do
  let s ← get
  if s.overflowed then
    modify fun s => s.cancelChild .modelStream
    yieldEvent cfg "error" (.obj [
      ("message", .text "AI stream output exceeded the delivery buffer."),
      ("code", .text "stream_backpressure")])
    yieldEvent cfg "done" (taskData cfg)
    pure (some ())
  else
    let gone ← disconnected cfg
    if gone then
      taskManagerCancel cfg
      let _ ← cancelledPayload cfg
      pure (some ())
    else
      let cancelled ← isCancelled cfg
      if cancelled then
        yieldCancel cfg
        pure (some ())
      else
        let event ← queueGet cfg
        match event with
        | none => pure none
        | some event => consumeEvent cfg preparation event

/-- `callback.bind_handle(handle)` after `handle = await model_start_task` -/
def bindHandle : StreamCo Unit :=
  modify fun s =>
    let s := { s with handle := true, callbackHandle := true }
    if s.overflowed then s.cancelChild .modelStream else s

/-- From the answering event to the end of the `try` block. -/
def answer (preparation : ChatPreparation) : StreamCo Unit := do
  yieldEvent cfg "meta" (.obj [("taskId", .text cfg.taskId), ("phase", .text "answering"),
    ("conversationId", .str preparation.conversationId),
    ("ragIntent", .ofOption preparation.ragIntent), ("sources", .arr preparation.retrievedSources)])
  modify fun s => { s with
    answerStartedAt := some s.now
    modelStartTask := some (.running false) }
  let bound ← bind cfg .modelStart
  if !bound then
    modify fun s => s.cancelChild .modelStart
    passCancelled (await cfg .modelStart)
    yieldCancel cfg
  else
    await cfg .modelStart
    bindHandle
    let bound ← bind cfg .modelStream
    if !bound then yieldCancel cfg
    else repeatUntil (consumeRound cfg preparation)

/-- From the permit to the prepared prompt. -/
def prepare (permit : StreamQueuePermit) : StreamCo Unit := do
  modify fun s => { s with queuePermit := some permit, leaseTask := some (.running false) }
  yieldEvent cfg "meta" (.obj [("taskId", .text cfg.taskId), ("phase", .text "preparing")])
  modify fun s => { s with preparationTask := some (.running false) }
  let bound ← bind cfg .preparation
  if !bound then yieldCancel cfg
  else
    let preparation ← awaitPreparation cfg
    modify fun s => { s with preparation := some preparation }
    let cancelled ← isCancelled cfg
    if cancelled then yieldCancel cfg else answer cfg preparation

/-- The events of a queue timeout. -/
def yieldRejection : StreamCo Unit := do
  let rejection ← recordQueueRejection cfg
  yieldEvent cfg "reject" (.obj [("type", .text "response"), ("delta", .str queueTimeoutReply),
    ("code", .text "queue_timeout")])
  yieldEvent cfg "finish" (.obj [
    ("conversationId", .ofOption (rejection.conversationId.map .str)),
    ("messageId", .ofOption (rejection.messageId.map .str)), ("title", .str rejection.title),
    ("rejected", .bool true)])
  yieldEvent cfg "done" (taskData cfg)

def yieldUnavailable : StreamCo Unit := do
  yieldEvent cfg "error" (.obj [("message", .text "Stream admission service is unavailable."),
    ("code", .text "queue_unavailable")])
  yieldEvent cfg "done" (taskData cfg)

/-- The `try` block. -/
def tryBlock : StreamCo Unit := do
  yieldEvent cfg "meta" (.obj [("taskId", .text cfg.taskId), ("traceId", .text cfg.traceId),
    ("phase", .text "queued")])
  let cancelled ← isCancelled cfg
  if cancelled then yieldCancel cfg
  else
    let admission ← await cfg .acquire
    match admission.status, admission.permit with
    | .cancelled, _ => yieldCancel cfg
    | .timedOut, _ => yieldRejection cfg
    | .granted, some permit => prepare cfg permit
    | _, _ => yieldUnavailable cfg

/-- The two `except` clauses. -/
def handleRaised (x : Raised) : StreamCo Unit := do
  if x = .cancelledError then
    let cancelled ← isCancelled cfg
    if cancelled then yieldCancel cfg else raise x
  else if x.isException then
    let cancelled ← isCancelled cfg
    let s ← get
    if cancelled then
      let payload ← cancelledPayload cfg
      yieldEvent cfg "cancel" payload
      yieldEvent cfg "done" (taskData cfg)
    else if s.preparation.isSome && s.answerStartedAt.isSome then
      yieldEvent cfg "error" (errorData "AI stream is unavailable")
      yieldEvent cfg "done" (taskData cfg)
    else
      yieldEvent cfg "error" (errorData "AI stream preparation failed")
      yieldEvent cfg "done" (taskData cfg)
  else raise x

/-- Cancels the children that the block cancels itself. -/
def stopChildren : StreamCo Unit := do
  let s ← get
  onlyIf (Child.isRunning s.modelStartTask) do
    modify fun s => s.cancelChild .modelStart
    passCancelled (await cfg .modelStart)
  let s ← get
  onlyIf s.handle do
    let cancelled ← isCancelled cfg
    onlyIf cancelled (modify fun s => s.cancelChild .modelStream)
  let s ← get
  onlyIf s.leaseTask.isSome do
    modify fun s => { s with leaseTask := s.leaseTask.map Child.cancel }
    passCancelled (await cfg .lease)

/-- The `finally` block. -/
def cleanup : StreamCo Unit := do
  stopChildren cfg
  release cfg
  finalize cfg

/-- `StreamChatService.stream` -/
def stream : StreamCo Unit := do
  let registered ← register cfg
  if !registered then
    yieldEvent cfg "error" (errorData "taskId is already active")
    yieldEvent cfg "done" (taskData cfg)
  else
    modify fun s => { s with registered := true }
    ((tryBlock cfg).tryCatch (handleRaised cfg)).tryFinally (cleanup cfg)

/-- The world before the call: other streams may be registered, and nothing of this one is. -/
def initial (now : ℚ) (tasks : StreamTaskManager ChildRef) : State := { now, tasks }

end HeyeeAgent.StreamChat.Lifecycle
