import Mathlib.Data.Rat.Defs

/-! # Permits, acquire results and the choice of a coordination mode

`acquire` answers at once when admission control is disabled, closing or unavailable, and
otherwise runs the local or the Redis body. Times are the values of the float clock.
-/

namespace HeyeeAgent.StreamQueueLimiter

/-- An in-flight coroutine of one limiter method. -/
abbrev CallId := ℕ

inductive QueueAcquireStatus where
  | granted
  | cancelled
  | timedOut
  | unavailable
deriving DecidableEq, Repr

structure StreamQueuePermit where
  taskId : String
  permitId : String
  distributed : Bool
deriving DecidableEq, Repr

structure QueueAcquireResult where
  status : QueueAcquireStatus
  permit : Option StreamQueuePermit := none
deriving DecidableEq, Repr

/-- The settings of `__init__` and `start` that both modes read. -/
structure Config where
  enabled : Bool := true
  maxConcurrent : ℕ := 3
  maxWaitSeconds : ℚ := 20
  leaseSeconds : ℚ := 600

/-- How `acquire` goes on: with an answer, or in one of the two bodies. -/
inductive AcquireRoute where
  | answered (result : QueueAcquireResult)
  | acquireDistributed
  | acquireLocal
deriving DecidableEq, Repr

def acquire (enabled closing unavailable distributed : Bool) (taskId : String) : AcquireRoute :=
  if !enabled then .answered ⟨.granted, some ⟨taskId, "bypass:" ++ taskId, false⟩⟩
  else if closing || unavailable then .answered ⟨.unavailable, none⟩
  else if distributed then .acquireDistributed
  else .acquireLocal

/-- Only the disabled limiter grants without a queue. -/
theorem acquire_answered {enabled closing unavailable distributed : Bool} {taskId : String}
    {result : QueueAcquireResult}
    (answer : acquire enabled closing unavailable distributed taskId = .answered result) :
    enabled = false ∨ result.status = .unavailable := by
  unfold acquire at answer
  split_ifs at answer with off shut dist
  · exact .inl (by simpa using off)
  · cases answer; exact .inr rfl

theorem acquire_acquireLocal {enabled closing unavailable distributed : Bool} {taskId : String}
    (route : acquire enabled closing unavailable distributed taskId = .acquireLocal) :
    enabled = true := by
  cases enabled with
  | true => rfl
  | false => simp [acquire] at route

end HeyeeAgent.StreamQueueLimiter
