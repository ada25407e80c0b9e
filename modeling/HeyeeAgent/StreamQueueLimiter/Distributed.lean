import HeyeeAgent.StreamQueueLimiter.RedisScripts
import Mathlib.Logic.Function.Basic

/-! # Redis mode: calls of several limiters over one server

A call is suspended at one of its awaits. At the await of a Redis command the command is in flight;
the server may execute it at any later moment, and the call resumes with the reply, with a client
error or with `CancelledError`. A command that its call no longer waits for stays an orphan that
the server may still execute. The claim lock, the notification tokens, the timers and the callback
answer at any moment, and an await that is skipped when there is nothing to wait for is kept as one
that is passed. The last two fields are never read by the code.
-/

namespace HeyeeAgent.StreamQueueLimiter.Distributed

open Machine Redis

abbrev InstanceId := ℕ

/-- One limiter; `client` tells whether `_client` is set. -/
structure Instance where
  client : Bool := true
  distributed : Bool := true
  unavailable : Bool := false
  closing : Bool := false
  distributedWaiting : List String := []
  claimLock : Option CallId := none

/-- The arguments of an acquire, with the permit id that it draws before it is queued. -/
structure AcquireArgs where
  inst : InstanceId
  taskId : String
  permitId : String
deriving DecidableEq

def AcquireArgs.permit (a : AcquireArgs) : StreamQueuePermit := ⟨a.taskId, a.permitId, true⟩

/-- How `_acquire_distributed` goes on once its waiter is removed. -/
inductive Ending where
  | returns (result : QueueAcquireResult)
  | reraises
deriving DecidableEq

/-- Where `_acquire_distributed` is suspended. -/
inductive AcquirePc where
  /-- at the `eval` of the enqueue script -/
  | enqueueing
  /-- at `await should_cancel()` -/
  | polling
  /-- at `async with self._claim_lock` -/
  | locking
  /-- at the `eval` of the claim script -/
  | claiming
  /-- at the notification token -/
  | waiting
  /-- in `_remove_distributed_waiter`; `rest` is still to be sent -/
  | removing (rest : List Command) (ending : Ending)
  | returned (result : QueueAcquireResult)
  | raised
deriving DecidableEq

inductive CancelPc where
  | removing (rest : List Command)
  | returned
  | raised
deriving DecidableEq

inductive ReleasePc where
  /-- at the `zrem` -/
  | removing
  /-- at the `publish` -/
  | publishing
  | returned
  | raised
deriving DecidableEq

inductive ClosePc where
  | condition
  | removing (rest : List Command)
  | listener
  | pubsub
  | aclose
  | returned
  | raised
deriving DecidableEq

inductive Body where
  | acquire (args : AcquireArgs) (pc : AcquirePc)
  | cancel (inst : InstanceId) (pc : CancelPc)
  | release (permit : StreamQueuePermit) (pc : ReleasePc)
  | close (inst : InstanceId) (pc : ClosePc)
deriving DecidableEq

/-- A command that was sent, with the reply once the server has executed it. -/
structure Flight where
  command : Command
  reply : Option ℕ := none
deriving DecidableEq

structure Call where
  body : Body
  flight : Option Flight := none
deriving DecidableEq

/-- `released` are the permits whose `release` has ended. -/
structure State where
  redis : RedisState := {}
  instances : InstanceId → Instance := fun _ => {}
  calls : CallId → Option Call := fun _ => none
  orphans : List Command := []
  permitIds : List String := []
  released : List String := []

namespace State

def put (s : State) (c : CallId) (body : Body) : State :=
  { s with calls := Function.update s.calls c (some { body }) }

/-- The call sends a command and waits for its reply. -/
def send (s : State) (c : CallId) (body : Body) (command : Command) : State :=
  { s with calls := Function.update s.calls c (some { body, flight := some { command } }) }

def modify (s : State) (inst : InstanceId) (change : Instance → Instance) : State :=
  { s with instances := Function.update s.instances inst (change (s.instances inst)) }

/-- The call leaves an await without its reply. -/
def abandon (s : State) (call : Call) : State :=
  match call.flight with
  | some ⟨command, none⟩ => { s with orphans := s.orphans ++ [command] }
  | _ => s

/-- `self._distributed_waiting.discard(task_id)` -/
def discard (s : State) (inst : InstanceId) (taskId : String) : State :=
  s.modify inst fun i => { i with distributedWaiting := i.distributedWaiting.erase taskId }

/-- The end of the claim's `async with` block. -/
def unlock (s : State) (inst : InstanceId) : State :=
  s.modify inst fun i => { i with claimLock := none }

/-- The commands of `_remove_distributed_waiter` after the first. -/
def removal (taskId : String) (notify : Bool) : List Command :=
  .deleteEntries [taskId] :: if notify then [.publish "queue-change"] else []

/-- An acquire ends; its `finally` block discards the task id. -/
def leave (s : State) (c : CallId) (a : AcquireArgs) : Ending → State
  | .returns result => (s.discard a.inst a.taskId).put c (.acquire a (.returned result))
  | .reraises => (s.discard a.inst a.taskId).put c (.acquire a .raised)

/-- `_remove_distributed_waiter` in an acquire, up to its first await. -/
def removeWaiter (s : State) (c : CallId) (a : AcquireArgs) (notify : Bool) (ending : Ending) :
    State :=
  let s := s.discard a.inst a.taskId
  if (s.instances a.inst).client then
    s.send c (.acquire a (.removing (removal a.taskId notify) ending)) (.removeWaiters [a.taskId])
  else s.leave c a ending

/-- The top of the loop of `_acquire_distributed`. -/
def acquireLoop (s : State) (c : CallId) (a : AcquireArgs) : State :=
  if (s.instances a.inst).closing then s.removeWaiter c a true (.returns ⟨.unavailable, none⟩)
  else if (s.instances a.inst).unavailable then
    s.removeWaiter c a false (.returns ⟨.unavailable, none⟩)
  else s.put c (.acquire a .polling)

/-- `close` after the waiters are removed, down to `await listener`. -/
def stopListening (s : State) (c : CallId) (inst : InstanceId) : State :=
  (s.modify inst fun i => { i with distributed := false }).put c (.close inst .listener)

/-- `close` once it has the local condition. -/
def clearWaiters (s : State) (c : CallId) (inst : InstanceId) : State :=
  let waitingTaskIds := (s.instances inst).distributedWaiting
  let s := s.modify inst fun i => { i with distributedWaiting := [] }
  if (s.instances inst).client && !waitingTaskIds.isEmpty then
    s.send c (.close inst (.removing [.deleteEntries waitingTaskIds, .publish "shutdown"]))
      (.removeWaiters waitingTaskIds)
  else s.stopListening c inst

/-- `self._client = None`, down to `await client.aclose()`. -/
def dropClient (s : State) (c : CallId) (inst : InstanceId) : State :=
  (s.modify inst fun i => { i with client := false }).put c (.close inst .aclose)

/-- A release is over, with or without its effect. -/
def endRelease (s : State) (c : CallId) (permit : StreamQueuePermit) (pc : ReleasePc) : State :=
  { s.put c (.release permit pc) with released := permit.permitId :: s.released }

end State

open State

/-- The synchronous start of `acquire`. `uuid4` never repeats a value. -/
def startAcquire (s : State) (c : CallId) (a : AcquireArgs) : Option State :=
  if a.permitId ∈ s.permitIds then none else
  let s := { s with permitIds := a.permitId :: s.permitIds }
  let i := s.instances a.inst
  match StreamQueueLimiter.acquire true i.closing i.unavailable i.distributed a.taskId with
  | .answered result => some (s.put c (.acquire a (.returned result)))
  | .acquireLocal => none
  | .acquireDistributed =>
    if !i.client then some (s.put c (.acquire a (.returned ⟨.unavailable, none⟩)))
    else
      let s := s.modify a.inst fun i =>
        { i with distributedWaiting := i.distributedWaiting.insert a.taskId }
      some (s.send c (.acquire a .enqueueing) (.enqueue a.taskId))

/-- The synchronous start of `cancel`; the local body sends nothing. -/
def startCancel (s : State) (c : CallId) (inst : InstanceId) (taskId : String) : State :=
  if (s.instances inst).distributed then
    let s := s.discard inst taskId
    if (s.instances inst).client then
      s.send c (.cancel inst (.removing (removal taskId true))) (.removeWaiters [taskId])
    else s.put c (.cancel inst .returned)
  else s.put c (.cancel inst .returned)

/-- The synchronous start of `release` with the permit that the acquire `acquired` returned. -/
def startRelease (s : State) (c acquired : CallId) : Option State :=
  match s.calls acquired with
  | some ⟨.acquire a (.returned ⟨_, some permit⟩), _⟩ =>
    if !permit.distributed then none
    else if !(s.instances a.inst).client then some (s.endRelease c permit .returned)
    else some (s.send c (.release permit .removing) (.release permit.permitId))
  | _ => none

/-- The reply of the command in flight is read. -/
def replied (s : State) (c : CallId) (reply : ℕ) : Body → Option State
  | .acquire a .enqueueing =>
    some (if reply = 1 then s.acquireLoop c a else s.leave c a (.returns ⟨.unavailable, none⟩))
  | .acquire a .claiming =>
    let s := s.unlock a.inst
    some (if reply = 1 then s.leave c a (.returns ⟨.granted, some a.permit⟩)
      else s.put c (.acquire a .waiting))
  | .acquire a (.removing [] ending) => some (s.leave c a ending)
  | .acquire a (.removing (command :: rest) ending) =>
    some (s.send c (.acquire a (.removing rest ending)) command)
  | .cancel inst (.removing []) => some (s.put c (.cancel inst .returned))
  | .cancel inst (.removing (command :: rest)) =>
    some (s.send c (.cancel inst (.removing rest)) command)
  | .release permit .removing =>
    some (s.send c (.release permit .publishing) (.publish "release"))
  | .release permit .publishing => some (s.endRelease c permit .returned)
  | .close inst (.removing []) => some (s.stopListening c inst)
  | .close inst (.removing (command :: rest)) =>
    some (s.send c (.close inst (.removing rest)) command)
  | _ => none

/-- An `Exception` is raised at the await: by the client, or by `should_cancel`. -/
def failed (s : State) (c : CallId) : Body → Option State
  | .acquire a .enqueueing => some (s.leave c a (.returns ⟨.unavailable, none⟩))
  | .acquire a .polling => some (s.leave c a .reraises)
  | .acquire a .claiming =>
    some ((s.unlock a.inst).removeWaiter c a false (.returns ⟨.unavailable, none⟩))
  | .acquire a (.removing _ ending) => some (s.leave c a ending)
  | .cancel inst (.removing _) => some (s.put c (.cancel inst .returned))
  | .release permit .removing => some (s.endRelease c permit .returned)
  | .release permit .publishing => some (s.endRelease c permit .returned)
  | .close inst (.removing _) => some (s.stopListening c inst)
  | .close inst .pubsub => some (s.dropClient c inst)
  | .close inst .aclose => some (s.put c (.close inst .returned))
  | _ => none

/-- `CancelledError` is raised at the await. -/
def interrupted (s : State) (c : CallId) : Body → Option State
  -- the enqueue stands before the `try` whose handler removes the waiter
  | .acquire a .enqueueing => some (s.put c (.acquire a .raised))
  | .acquire a .polling => some (s.removeWaiter c a true .reraises)
  | .acquire a .locking => some (s.removeWaiter c a true .reraises)
  | .acquire a .claiming => some ((s.unlock a.inst).removeWaiter c a true .reraises)
  | .acquire a .waiting => some (s.removeWaiter c a true .reraises)
  | .acquire a (.removing _ (.returns _)) => some (s.removeWaiter c a true .reraises)
  | .acquire a (.removing _ .reraises) => some (s.leave c a .reraises)
  | .cancel inst (.removing _) => some (s.put c (.cancel inst .raised))
  | .release permit .removing => some (s.endRelease c permit .raised)
  | .release permit .publishing => some (s.endRelease c permit .raised)
  -- `close` takes it for the listener's
  | .close inst .listener => some (s.put c (.close inst .pubsub))
  | .close inst .condition => some (s.put c (.close inst .raised))
  | .close inst (.removing _) => some (s.put c (.close inst .raised))
  | .close inst .pubsub => some (s.put c (.close inst .raised))
  | .close inst .aclose => some (s.put c (.close inst .raised))
  | _ => none

/-- An await of something else than a command is over. -/
def woken (s : State) (c : CallId) : Body → Option State
  | .acquire a .waiting => some (s.acquireLoop c a)
  | .close inst .condition => some (s.clearWaiters c inst)
  | .close inst .listener => some (s.put c (.close inst .pubsub))
  | .close inst .pubsub => some (s.dropClient c inst)
  | .close inst .aclose => some (s.put c (.close inst .returned))
  | _ => none

/-- `should_cancel()` has answered; `late` tells whether the deadline is over. -/
def polled (s : State) (c : CallId) (shouldCancel late : Bool) : Body → Option State
  | .acquire a .polling =>
    some (if shouldCancel then s.removeWaiter c a true (.returns ⟨.cancelled, none⟩)
      else if late then s.removeWaiter c a true (.returns ⟨.timedOut, none⟩)
      else s.put c (.acquire a .locking))
  | _ => none

/-- The acquire has the claim lock and sends the claim. -/
def locked (s : State) (c : CallId) (nowMs leaseUntilMs : ℤ) : Body → Option State
  | .acquire a .locking =>
    if (s.instances a.inst).claimLock.isSome then none
    else some ((s.modify a.inst fun i => { i with claimLock := some c }).send c
      (.acquire a .claiming) (.claim a.taskId a.permitId nowMs leaseUntilMs))
  | _ => none

inductive Event where
  | acquire (c : CallId) (args : AcquireArgs)
  | cancel (c : CallId) (inst : InstanceId) (taskId : String)
  | release (c acquired : CallId)
  | close (c : CallId) (inst : InstanceId)
  /-- the server executes the command that the call has in flight -/
  | execute (c : CallId)
  /-- the server executes a command that nobody waits for -/
  | executeOrphan (index : ℕ)
  | renew (permitId : String) (leaseUntilMs : ℤ)
  | expireEntry (taskId : String)
  | reply (c : CallId)
  | fail (c : CallId)
  | interrupt (c : CallId)
  | wake (c : CallId)
  | poll (c : CallId) (shouldCancel late : Bool)
  | lock (c : CallId) (nowMs leaseUntilMs : ℤ)

/-- One resumption of a call, or one command at the server; `n` is `max_concurrent`. -/
def distributedStep (n : ℕ) (s : State) : Event → Option State
  | .acquire c a => if (s.calls c).isSome then none else startAcquire s c a
  | .cancel c inst taskId => if (s.calls c).isSome then none else some (startCancel s c inst taskId)
  | .release c acquired => if (s.calls c).isSome then none else startRelease s c acquired
  | .close c inst =>
    if (s.calls c).isSome then none
    else some ((s.modify inst fun i => { i with closing := true }).put c (.close inst .condition))
  | .execute c =>
    match s.calls c with
    | some ⟨body, some ⟨command, none⟩⟩ =>
      let (redis, reply) := StreamQueueLimiter.execute n s.redis command
      let call : Call := ⟨body, some ⟨command, some reply⟩⟩
      some { s with redis, calls := Function.update s.calls c (some call) }
    | _ => none
  | .executeOrphan index =>
    s.orphans[index]?.map fun command =>
      { s with
        redis := (StreamQueueLimiter.execute n s.redis command).1
        orphans := s.orphans.eraseIdx index }
  | .renew permitId leaseUntilMs =>
    some { s with redis := (StreamQueueLimiter.execute n s.redis (.renew permitId leaseUntilMs)).1 }
  | .expireEntry taskId =>
    some { s with redis := (StreamQueueLimiter.execute n s.redis (.expireEntry taskId)).1 }
  | .reply c =>
    match s.calls c with
    | some ⟨body, some ⟨_, some reply⟩⟩ => replied s c reply body
    | _ => none
  | .fail c => (s.calls c).bind fun call => failed (s.abandon call) c call.body
  | .interrupt c => (s.calls c).bind fun call => interrupted (s.abandon call) c call.body
  | .wake c => (s.calls c).bind fun call => woken s c call.body
  | .poll c shouldCancel late =>
    (s.calls c).bind fun call => polled s c shouldCancel late call.body
  | .lock c nowMs leaseUntilMs =>
    (s.calls c).bind fun call => locked s c nowMs leaseUntilMs call.body

end HeyeeAgent.StreamQueueLimiter.Distributed
