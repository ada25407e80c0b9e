import HeyeeAgent.StreamQueueLimiter.Local
import HeyeeAgent.StreamTaskManager

/-! # Streams, the task registry and the in-process queue together

`StreamChatService.stream` from `register` to `finalize`, its callback `_should_cancel`, and the
requests that call `cancel` or `close`, over one registry and one in-process queue. A step resumes
one asyncio task and runs it to its next await inside the three classes. Preparation and answering
appear as the span between `acquire` and `release`, with what they do to the registry. A cancelled
child comes back to its stream as an interruption. Of the registry's backend only the answers are
read.
-/

namespace HeyeeAgent.StreamChat

open StreamQueueLimiter

abbrev StreamId := ℕ
abbrev RequestId := ℕ

/-- Where `_should_cancel` is suspended, while its caller holds the condition lock. -/
inductive PollPc where
  /-- at `await is_disconnected()` -/
  | disconnect
  /-- inside `StreamTaskManager.cancel`, at the backend -/
  | marking
  /-- inside `StreamQueueLimiter.cancel` -/
  | cancelling (c : CallId)
deriving DecidableEq

inductive StreamPc where
  /-- inside `register`, at the backend -/
  | registering
  /-- at the first `yield` -/
  | queued
  /-- from the call of `acquire` to the `finally` block -/
  | acquiring (c : CallId) (poll : Option PollPc)
  /-- inside `release` in the `finally` block -/
  | releasing (c : CallId)
  | finished
deriving DecidableEq

/-- `watched` when `is_disconnected` is not `None`. -/
structure Stream where
  taskId : String
  watched : Bool
  pc : StreamPc

/-- The task in which a limiter call runs: a stream, or a request for `cancel` or `close`. -/
inductive TaskRef where
  | stream (i : StreamId)
  | request (r : RequestId)
deriving DecidableEq

inductive RequestPc where
  /-- inside `StreamTaskManager.cancel`, at the backend -/
  | marking (taskId : String)
  /-- inside the limiter's `cancel` or `close` -/
  | inLimiter (c : CallId)
  | finished

structure ServiceState (H : Type*) where
  limiter : LocalState := {}
  tasks : StreamTaskManager H := {}
  streams : StreamId → Option Stream := fun _ => none
  requests : RequestId → Option RequestPc := fun _ => none
  caller : CallId → Option TaskRef := fun _ => none

variable {H : Type*}

namespace ServiceState

def setStream (s : ServiceState H) (i : StreamId) (st : Stream) : ServiceState H :=
  { s with streams := Function.update s.streams i (some st) }

def setRequest (s : ServiceState H) (r : RequestId) (pc : RequestPc) : ServiceState H :=
  { s with requests := Function.update s.requests r (some pc) }

/-- A task starts a limiter method. -/
def call (s : ServiceState H) (cfg : Config) (task : TaskRef) (c : CallId) (e : LocalEvent) :
    Option (ServiceState H) :=
  (localStep cfg s.limiter e).map fun limiter =>
    { s with limiter, caller := Function.update s.caller c (some task) }

/-- A suspended limiter method goes on. -/
def resume (s : ServiceState H) (cfg : Config) (e : LocalEvent) : Option (ServiceState H) :=
  (localStep cfg s.limiter e).map fun limiter => { s with limiter }

/-- `should_cancel()` has returned and `_acquire_local` goes on. -/
def answerPoll (s : ServiceState H) (cfg : Config) (i : StreamId) (st : Stream) (c : CallId)
    (answer : Bool) (now : ℚ) (uuid : String) : Option (ServiceState H) :=
  (s.resume cfg (.polled c answer now uuid)).map fun s =>
    s.setStream i { st with pc := .acquiring c none }

/-- `_should_cancel` up to its first suspension. -/
def shouldCancel (s : ServiceState H) (cfg : Config) (i : StreamId) (st : Stream) (c : CallId)
    (now : ℚ) (uuid : String) : Option (ServiceState H) :=
  let s := { s with tasks := s.tasks.purgeExpired now }
  if s.tasks.isCancelled now st.taskId then s.answerPoll cfg i st c true now uuid
  else if st.watched then some (s.setStream i { st with pc := .acquiring c (some .disconnect) })
  else s.answerPoll cfg i st c false now uuid

/-- `self.cancel(task_id)` inside `_should_cancel`, from the backend's answers on. -/
def cancelPolled (s : ServiceState H) (cfg : Config) (i : StreamId) (st : Stream) (c : CallId)
    (persisted published : Bool) (c' : CallId) (now : ℚ) (uuid : String) :
    Option (ServiceState H) :=
  let (tasks, cancelled, _) := s.tasks.cancel now st.taskId persisted published
  let s := { s with tasks }
  if cancelled then
    (s.call cfg (.stream i) c' (.cancel c' st.taskId)).map fun s =>
      s.setStream i { st with pc := .acquiring c (some (.cancelling c')) }
  else s.answerPoll cfg i st c true now uuid

/-- `StreamChatService.cancel` of a request, from the backend's answers on. -/
def cancelRequested (s : ServiceState H) (cfg : Config) (r : RequestId) (taskId : String)
    (persisted published : Bool) (c : CallId) (now : ℚ) : Option (ServiceState H) :=
  let (tasks, cancelled, _) := s.tasks.cancel now taskId persisted published
  let s := { s with tasks }
  if cancelled then
    (s.call cfg (.request r) c (.cancel c taskId)).map fun s => s.setRequest r (.inLimiter c)
  else some (s.setRequest r .finished)

/-- `CancelledError` at the innermost await of a stream, or an exception of its callback. -/
def interruptStream (s : ServiceState H) (cfg : Config) (i : StreamId) (st : Stream) :
    Option (ServiceState H) :=
  match st.pc with
  | .registering => some (s.setStream i { st with pc := .finished })
  | .acquiring c none | .releasing c => s.resume cfg (.interrupt c)
  | .acquiring c (some (.cancelling c')) =>
    ((s.resume cfg (.interrupt c')).bind fun s => s.resume cfg (.interrupt c)).map fun s =>
      s.setStream i { st with pc := .acquiring c none }
  | .acquiring c (some _) =>
    (s.resume cfg (.interrupt c)).map fun s => s.setStream i { st with pc := .acquiring c none }
  | .queued | .finished => none

end ServiceState

/-- The permit with which the `finally` block calls `release`, once no limiter call is running. -/
def Stream.queuePermit (st : Stream) (l : LocalState) : Option (Option StreamQueuePermit) :=
  match st.pc with
  | .queued => some none
  | .acquiring c none =>
    match l.calls c with
    | some (.acquire _ _ (.returned result)) => some result.permit
    | some (.acquire _ _ .raised) => some none
    | _ => none
  | _ => none

/-- One resumption of a task. The identifiers `c` name the limiter calls that a step starts;
`now` and `uuid` are what the clock and `uuid4` give in it. -/
inductive ServiceEvent (H : Type*) where
  | register (i : StreamId) (taskId : String) (ownerId : Option String) (watched : Bool) (now : ℚ)
  | registered (i : StreamId) (ownerStored remotelyCancelled : Bool) (now : ℚ)
  | acquire (i : StreamId) (c : CallId) (now : ℚ)
  /-- a limiter call gets the free condition lock -/
  | lock (c : CallId) (now : ℚ) (uuid : String)
  | wake (c : CallId)
  | disconnected (i : StreamId) (answer : Bool) (c : CallId) (now : ℚ) (uuid : String)
  | marked (i : StreamId) (persisted published : Bool) (c : CallId) (now : ℚ) (uuid : String)
  /-- the limiter's `cancel` has returned to `_should_cancel` -/
  | withdrawn (i : StreamId) (now : ℚ) (uuid : String)
  | bind (i : StreamId) (handle : H)
  /-- the answering stream sees a disconnect -/
  | stop (i : StreamId) (persisted published : Bool) (now : ℚ)
  | release (i : StreamId) (c : CallId)
  | finalize (i : StreamId) (now : ℚ)
  | cancel (r : RequestId) (c : CallId) (taskId : String) (ownerId remoteOwner : Option String)
      (now : ℚ)
  | cancelMarked (r : RequestId) (c : CallId) (persisted published : Bool) (now : ℚ)
  | close (r : RequestId) (c : CallId)
  | interrupt (i : StreamId)
  | interruptRequest (r : RequestId)

open ServiceState

def serviceStep (cfg : Config) (s : ServiceState H) : ServiceEvent H → Option (ServiceState H)
  | .register i taskId ownerId watched now =>
    if (s.streams i).isSome then none
    else
      let (tasks, free) := s.tasks.register now taskId ownerId
      let pc := if !free then .finished else if tasks.distributedEnabled then .registering else .queued
      some ({ s with tasks }.setStream i ⟨taskId, watched, pc⟩)
  | .registered i ownerStored remotelyCancelled now =>
    match s.streams i with
    | some ⟨taskId, watched, .registering⟩ =>
      let (tasks, registered) := s.tasks.registerAnswered now taskId ownerStored remotelyCancelled
      let pc := if registered then .queued else .finished
      some ({ s with tasks }.setStream i ⟨taskId, watched, pc⟩)
    | _ => none
  | .acquire i c now =>
    match s.streams i with
    | some ⟨taskId, watched, .queued⟩ =>
      let s := { s with tasks := s.tasks.purgeExpired now }
      if s.tasks.isCancelled now taskId then none
      else (s.call cfg (.stream i) c (.acquire c taskId now)).map fun s =>
        s.setStream i ⟨taskId, watched, .acquiring c none⟩
    | _ => none
  | .lock c now uuid =>
    (s.resume cfg (.lock c)).bind fun s =>
      match s.limiter.calls c, s.caller c with
      | some (.acquire _ _ .polling), some (.stream i) =>
        (s.streams i).bind fun st => s.shouldCancel cfg i st c now uuid
      | _, _ => some s
  | .wake c => s.resume cfg (.wake c)
  | .disconnected i answer c' now uuid =>
    match s.streams i with
    | some ⟨taskId, watched, .acquiring c (some .disconnect)⟩ =>
      let st := ⟨taskId, watched, .acquiring c (some .disconnect)⟩
      if !answer then s.answerPoll cfg i st c false now uuid
      else if s.tasks.distributedEnabled then
        some (s.setStream i { st with pc := .acquiring c (some .marking) })
      else s.cancelPolled cfg i st c false false c' now uuid
    | _ => none
  | .marked i persisted published c' now uuid =>
    match s.streams i with
    | some ⟨taskId, watched, .acquiring c (some .marking)⟩ =>
      let st := ⟨taskId, watched, .acquiring c (some .marking)⟩
      s.cancelPolled cfg i st c persisted published c' now uuid
    | _ => none
  | .withdrawn i now uuid =>
    match s.streams i with
    | some ⟨taskId, watched, .acquiring c (some (.cancelling c'))⟩ =>
      if s.limiter.calls c' = some (.cancel taskId .returned) then
        s.answerPoll cfg i ⟨taskId, watched, .acquiring c (some (.cancelling c'))⟩ c true now uuid
      else none
    | _ => none
  | .bind i handle =>
    (s.streams i).bind fun st =>
      match st.queuePermit s.limiter with
      | some (some _) => some { s with tasks := (s.tasks.bind st.taskId handle).1 }
      | _ => none
  | .stop i persisted published now =>
    (s.streams i).bind fun st =>
      match st.queuePermit s.limiter with
      | some (some _) =>
        some { s with tasks := (s.tasks.cancel now st.taskId persisted published).1 }
      | _ => none
  | .release i c =>
    (s.streams i).bind fun st => (st.queuePermit s.limiter).bind fun permit =>
      (s.call cfg (.stream i) c (.release c permit)).map fun s =>
        s.setStream i { st with pc := .releasing c }
  | .finalize i now =>
    match s.streams i with
    | some ⟨taskId, watched, .releasing c⟩ =>
      match s.limiter.calls c with
      | some (.release _ .returned) =>
        some ({ s with tasks := s.tasks.finalize now taskId }.setStream i ⟨taskId, watched, .finished⟩)
      | some (.release _ .raised) => some (s.setStream i ⟨taskId, watched, .finished⟩)
      | _ => none
    | _ => none
  | .cancel r c taskId ownerId remoteOwner now =>
    if (s.requests r).isSome then none
    else
      let s := if ownerId.isSome then { s with tasks := s.tasks.purgeExpired now } else s
      if ownerId.all fun ownerId => s.tasks.isOwnedBy now taskId ownerId remoteOwner then
        if s.tasks.distributedEnabled then some (s.setRequest r (.marking taskId))
        else s.cancelRequested cfg r taskId false false c now
      else some (s.setRequest r .finished)
  | .cancelMarked r c persisted published now =>
    match s.requests r with
    | some (.marking taskId) => s.cancelRequested cfg r taskId persisted published c now
    | _ => none
  | .close r c =>
    if (s.requests r).isSome then none
    else (s.call cfg (.request r) c (.close c)).map fun s => s.setRequest r (.inLimiter c)
  | .interrupt i => (s.streams i).bind fun st => s.interruptStream cfg i st
  | .interruptRequest r =>
    match s.requests r with
    | some (.marking _) => some (s.setRequest r .finished)
    | some (.inLimiter c) => s.resume cfg (.interrupt c)
    | _ => none

end HeyeeAgent.StreamChat
