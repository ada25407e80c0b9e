import HeyeeAgent.Machine.Run
import HeyeeAgent.StreamQueueLimiter.Types
import Mathlib.Data.List.AList
import Mathlib.Logic.Function.Basic

/-! # The in-process queue: suspended calls over one condition lock

Every call of `acquire`, `cancel`, `release` and `close` is a coroutine that is suspended at one of
its awaits; a step resumes one of them and runs it to its next suspension. `asyncio.Condition` is
kept as its lock: `Condition.wait` gives the lock up and takes it back before it returns or
re-raises, and a wait may end at any moment (`notify_all` or the `wait_for` timer), so notifying
is not recorded. Which waiting call gets the free lock is arbitrary. The callback `should_cancel`
may answer anything or raise. The history at the end of the state is never read by the code.
-/

namespace HeyeeAgent.StreamQueueLimiter

/-- `_LocalWaiter`; `owner` is the identity of the object, the acquire call that built it. -/
structure LocalWaiter where
  owner : CallId
  taskId : String
  deadline : ℚ

/-- Where `_acquire_local` is suspended. -/
inductive AcquirePc where
  /-- at `async with self._local_condition` -/
  | entering
  /-- at `await should_cancel()`, holding the lock -/
  | polling
  /-- inside `Condition.wait`, the lock is given up -/
  | waiting
  /-- inside `Condition.wait`, taking the lock back; `cancelled` when it will then re-raise -/
  | waking (cancelled : Bool)
  | returned (result : QueueAcquireResult)
  /-- left by `CancelledError` or by an exception of the callback -/
  | raised
deriving DecidableEq

/-- Where a method that only enters the condition is suspended. -/
inductive LockPc where
  | entering
  | returned
  | raised
deriving DecidableEq

inductive Call where
  | acquire (taskId : String) (deadline : ℚ) (pc : AcquirePc)
  | cancel (taskId : String) (pc : LockPc)
  | release (permit : Option StreamQueuePermit) (pc : LockPc)
  | close (pc : LockPc)
deriving DecidableEq

structure History where
  tasks : List String := []
  joined : List CallId := []
  granted : List (CallId × String) := []
  released : List String := []

/-- `lock` is the call inside `async with self._local_condition` at a suspension point. -/
structure LocalState where
  closing : Bool := false
  localWaiting : List LocalWaiter := []
  localActive : AList fun _ : String => StreamQueuePermit := ∅
  lock : Option CallId := none
  calls : CallId → Option Call := fun _ => none
  history : History := {}

namespace LocalState

def setCall (s : LocalState) (c : CallId) (call : Call) : LocalState :=
  { s with calls := Function.update s.calls c (some call) }

/-- The call leaves the `async with` block. -/
def finish (s : LocalState) (c : CallId) (call : Call) : LocalState :=
  { s.setCall c call with lock := none }

/-- The call is suspended inside the `async with` block. -/
def hold (s : LocalState) (c : CallId) (call : Call) : LocalState :=
  { s.setCall c call with lock := some c }

def removeLocalWaiter (s : LocalState) (taskId : String) : LocalState :=
  { s with localWaiting := s.localWaiting.filter fun item => item.taskId != taskId }

/-- `uuid4` never repeats a value. -/
def Fresh (s : LocalState) (uuid : String) : Prop :=
  uuid ∉ s.history.granted.map Prod.snd ∧ uuid ∉ s.history.released

instance (s : LocalState) (uuid : String) : Decidable (s.Fresh uuid) :=
  inferInstanceAs (Decidable (_ ∧ _))

def appendWaiter (s : LocalState) (c : CallId) (taskId : String) (deadline : ℚ) : LocalState :=
  { s with
    localWaiting := s.localWaiting ++ [⟨c, taskId, deadline⟩]
    history.joined := s.history.joined ++ [c] }

/-- The head leaves the queue with a permit. -/
def grant (s : LocalState) (c : CallId) (taskId uuid : String) : LocalState :=
  { s with
    localWaiting := s.localWaiting.tail
    localActive := s.localActive.insert uuid ⟨taskId, uuid, false⟩
    history.granted := s.history.granted ++ [(c, uuid)] }

/-- The top of the loop of `_acquire_local`, down to `await should_cancel()`. -/
def acquireLocalLoop (s : LocalState) (c : CallId) (taskId : String) (deadline : ℚ) : LocalState :=
  if s.closing then
    (s.removeLocalWaiter taskId).finish c (.acquire taskId deadline (.returned ⟨.unavailable, none⟩))
  else s.hold c (.acquire taskId deadline .polling)

/-- The rest of the loop of `_acquire_local`, from the callback's answer to the wait. -/
def acquireLocalPolled (s : LocalState) (maxConcurrent : ℕ) (c : CallId) (taskId : String)
    (deadline : ℚ) (shouldCancel : Bool) (now : ℚ) (uuid : String) : LocalState :=
  if shouldCancel then
    (s.removeLocalWaiter taskId).finish c (.acquire taskId deadline (.returned ⟨.cancelled, none⟩))
  else if s.localWaiting.head?.map LocalWaiter.owner = some c ∧
      s.localActive.entries.length < maxConcurrent then
    (s.grant c taskId uuid).finish c
      (.acquire taskId deadline (.returned ⟨.granted, some ⟨taskId, uuid, false⟩⟩))
  else if deadline - now ≤ 0 then
    (s.removeLocalWaiter taskId).finish c (.acquire taskId deadline (.returned ⟨.timedOut, none⟩))
  else s.finish c (.acquire taskId deadline .waiting)

/-- The body of `release` inside the condition. -/
def releaseLocal (s : LocalState) (permit : Option StreamQueuePermit) : LocalState :=
  match permit with
  | none => s
  | some permit =>
    { s with
      localActive := s.localActive.erase permit.permitId
      history.released := s.history.released ++ [permit.permitId] }

end LocalState

/-- One resumption. `now` is the clock reading of the resumed segment, `uuid` the value that
`uuid4` would return in it. -/
inductive LocalEvent where
  | acquire (c : CallId) (taskId : String) (now : ℚ)
  | cancel (c : CallId) (taskId : String)
  | release (c : CallId) (permit : Option StreamQueuePermit)
  | close (c : CallId)
  /-- the call gets the free condition lock -/
  | lock (c : CallId)
  /-- `should_cancel()` has answered -/
  | polled (c : CallId) (shouldCancel : Bool) (now : ℚ) (uuid : String)
  /-- a wait is notified or its `wait_for` timer fires -/
  | wake (c : CallId)
  /-- `CancelledError` is delivered at the await of the call, or its callback raises -/
  | interrupt (c : CallId)

open LocalState

/-- The synchronous start of `acquire`, up to its first await. Task ids are never reused. -/
def startAcquire (cfg : Config) (s : LocalState) (c : CallId) (taskId : String) (now : ℚ) :
    Option LocalState :=
  if taskId ∈ s.history.tasks then none else
  let s := { s with history.tasks := s.history.tasks ++ [taskId] }
  let deadline := now + cfg.maxWaitSeconds
  match StreamQueueLimiter.acquire cfg.enabled s.closing false false taskId with
  | .answered result => some (s.setCall c (.acquire taskId deadline (.returned result)))
  | .acquireLocal => some (s.setCall c (.acquire taskId deadline .entering))
  | .acquireDistributed => none

/-- The synchronous start of `cancel`. -/
def startCancel (cfg : Config) : LockPc := if cfg.enabled then .entering else .returned

/-- The synchronous start of `release`. A Redis permit has no client to be released with. -/
def startRelease (cfg : Config) (permit : Option StreamQueuePermit) : LockPc :=
  if permit.all (·.distributed) || !cfg.enabled then .returned else .entering

/-- The call runs from the acquisition of the lock to its next suspension. -/
def enterLock (s : LocalState) (c : CallId) : Call → Option LocalState
  | .acquire taskId deadline .entering =>
    some ((s.appendWaiter c taskId deadline).acquireLocalLoop c taskId deadline)
  | .acquire taskId deadline (.waking false) => some (s.acquireLocalLoop c taskId deadline)
  | .acquire taskId deadline (.waking true) => some (s.finish c (.acquire taskId deadline .raised))
  | .cancel taskId .entering =>
    some ((s.removeLocalWaiter taskId).finish c (.cancel taskId .returned))
  | .release permit .entering => some ((s.releaseLocal permit).finish c (.release permit .returned))
  | .close .entering => some (s.finish c (.close .returned))
  | _ => none

/-- What `CancelledError` does at the call's await. `Condition.wait` first takes its lock back. -/
def interruptCall (s : LocalState) (c : CallId) : Call → Option LocalState
  | .acquire taskId deadline .entering => some (s.setCall c (.acquire taskId deadline .raised))
  | .acquire taskId deadline .polling => some (s.finish c (.acquire taskId deadline .raised))
  | .acquire taskId deadline .waiting => some (s.setCall c (.acquire taskId deadline (.waking true)))
  | .acquire taskId deadline (.waking _) =>
    some (s.setCall c (.acquire taskId deadline (.waking true)))
  | .cancel taskId .entering => some (s.setCall c (.cancel taskId .raised))
  | .release permit .entering => some (s.setCall c (.release permit .raised))
  | .close .entering => some (s.setCall c (.close .raised))
  | _ => none

def localStep (cfg : Config) (s : LocalState) : LocalEvent → Option LocalState
  | .acquire c taskId now =>
    if (s.calls c).isSome then none else startAcquire cfg s c taskId now
  | .cancel c taskId =>
    if (s.calls c).isSome then none
    else some (s.setCall c (.cancel taskId (startCancel cfg)))
  | .release c permit =>
    if (s.calls c).isSome then none
    else some (s.setCall c (.release permit (startRelease cfg permit)))
  | .close c =>
    if (s.calls c).isSome then none
    else some ({ s with closing := true }.setCall c (.close .entering))
  | .lock c => if s.lock.isSome then none else (s.calls c).bind (enterLock s c)
  | .polled c shouldCancel now uuid =>
    match s.calls c with
    | some (.acquire taskId deadline .polling) =>
      if s.Fresh uuid then
        some (s.acquireLocalPolled cfg.maxConcurrent c taskId deadline shouldCancel now uuid)
      else none
    | _ => none
  | .wake c =>
    match s.calls c with
    | some (.acquire taskId deadline .waiting) =>
      some (s.setCall c (.acquire taskId deadline (.waking false)))
    | _ => none
  | .interrupt c => (s.calls c).bind (interruptCall s c)

end HeyeeAgent.StreamQueueLimiter
