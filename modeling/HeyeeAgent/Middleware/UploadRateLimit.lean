import HeyeeAgent.Machine.Run
import HeyeeAgent.Redis.ExpiringSet
import Mathlib.Algebra.Order.Floor.Ring
import Mathlib.Data.Rat.Floor
import Mathlib.Data.String.Basic

/-! # The semaphore of uploads

The requests here are those that `_should_limit` sends through the limiter. All of them and the
server read one clock. A command is on its way between the time at which its client has read the
clock and the time at which the server runs it, and it may still arrive when its client has given
up.
-/

namespace HeyeeAgent.Middleware

open Machine Redis

/-- The settings of the limiter, with the bounds of their fields. -/
structure Settings where
  permits : ℕ
  leaseSeconds : ℕ
  acquireTimeoutMs : ℕ
  permits_pos : 1 ≤ permits
  lease_pos : 1 ≤ leaseSeconds

def Settings.leaseMs (settings : Settings) : ℤ := settings.leaseSeconds * 1000

theorem Settings.leaseMs_nonneg (settings : Settings) : 0 ≤ settings.leaseMs := by
  have seconds := settings.lease_pos
  rw [Settings.leaseMs]
  omega

abbrev Key := ExpiringSet String ℤ

/-- `ACQUIRE_SCRIPT` at a time of the server, with whether it returns the token. -/
def acquireScript (key : Key) (serverMs nowMs leaseMs : ℤ) (limit : ℕ) (token : String) :
    Key × Bool :=
  let key := (key.live serverMs).zremrangebyscore nowMs
  if key.set.zcard < limit then
    ((key.zadd (nowMs + leaseMs) token).pexpire (serverMs + leaseMs), true)
  else (key, false)

/-- How a handler ends. -/
inductive Ending where
  | returned
  | raised
  | cancelled
deriving DecidableEq

/-- Where a request is in `dispatch`. -/
inductive Phase where
  | absent
  | evaluating (deadline : ℚ)
  /-- The script has run, and its reply is on the way. -/
  | answered (deadline : ℚ) (acquired : Bool)
  | sleeping (deadline wakeAt : ℚ)
  /-- 429 -/
  | refused
  /-- 503 -/
  | unavailable
  /-- Cancelled before its handler -/
  | abandoned
  | running
  | releasing (ending : Ending)
  | closed (ending : Ending)
  /-- The release has failed. -/
  | unreleased (ending : Ending)

inductive Command where
  | acquire (nowMs : ℤ)
  | release
deriving DecidableEq

structure State where
  key : Key := {}
  now : ℚ
  /-- The command of a request that the server has not run -/
  sent : String → Option Command := fun _ => none
  phase : String → Phase := fun _ => .absent

inductive Event where
  | elapse (seconds : ℚ)
  /-- The server removes the key if it has expired. -/
  | expire
  | arrive (token : String)
  | serve (token : String) (command : Command)
  | receive (token : String)
  | wake (token : String)
  | finish (token : String) (ending : Ending)
  /-- The request is cancelled before its handler starts. -/
  | cancel (token : String)
  /-- Redis does not answer, or the release is cancelled. -/
  | fail (token : String)
deriving DecidableEq

namespace State

/-- `int(time.time() * 1000)` -/
def nowMs (s : State) : ℤ := ⌊s.now * 1000⌋

/-- The permits, as a command would find them. -/
def zset (s : State) : SortedSet String ℤ := (s.key.live s.nowMs).set

def goTo (s : State) (token : String) (phase : Phase) : State :=
  { s with phase := Function.update s.phase token phase }

def send (s : State) (token : String) (phase : Phase) (command : Command) : State :=
  { s.goTo token phase with sent := Function.update s.sent token (some command) }

end State

/-- What a reply is to a client that still waits for one. -/
def Phase.replied (acquired : Bool) : Phase → Phase
  | .evaluating deadline => .answered deadline acquired
  | .releasing ending => .closed ending
  | phase => phase

/-- The server runs a command of the request. -/
def execute (settings : Settings) (s : State) (token : String) : Command → Key × Bool
  | .acquire nowMs =>
    acquireScript s.key s.nowMs nowMs settings.leaseMs settings.permits token
  | .release => ((s.key.live s.nowMs).zrem token, true)

def step (settings : Settings) (s : State) : Event → Option State
  | .elapse seconds => if 0 ≤ seconds then some { s with now := s.now + seconds } else none
  | .expire => some { s with key := s.key.live s.nowMs }
  | .arrive token =>
    match s.phase token with
    | .absent =>
      let deadline := s.now + settings.acquireTimeoutMs / 1000
      some (s.send token (.evaluating deadline) (.acquire s.nowMs))
    | _ => none
  | .serve token command =>
    if s.sent token = some command then
      let (key, acquired) := execute settings s token command
      some { s.goTo token ((s.phase token).replied acquired) with
        key
        sent := Function.update s.sent token none }
    else none
  | .receive token =>
    match s.phase token with
    | .answered _ true => some (s.goTo token .running)
    | .answered deadline false =>
      if settings.acquireTimeoutMs = 0 then some (s.goTo token .refused)
      else if deadline ≤ s.now then some (s.goTo token .refused)
      else some (s.goTo token (.sleeping deadline (s.now + 1 / 20)))
    | _ => none
  | .wake token =>
    match s.phase token with
    | .sleeping deadline wakeAt =>
      if wakeAt ≤ s.now then some (s.send token (.evaluating deadline) (.acquire s.nowMs)) else none
    | _ => none
  | .finish token ending =>
    match s.phase token with
    | .running => some (s.send token (.releasing ending) .release)
    | _ => none
  | .cancel token =>
    match s.phase token with
    | .evaluating _ | .answered _ _ | .sleeping _ _ => some (s.goTo token .abandoned)
    | _ => none
  | .fail token =>
    match s.phase token with
    | .evaluating _ | .answered _ _ => some (s.goTo token .unavailable)
    | .releasing ending => some (s.goTo token (.unreleased ending))
    | _ => none

/-- No request has come, and there is no key. -/
def initial (now : ℚ) : State := { now }

end HeyeeAgent.Middleware
