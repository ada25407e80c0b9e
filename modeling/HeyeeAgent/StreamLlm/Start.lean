import HeyeeAgent.InfraAi.HealthStore
import HeyeeAgent.Machine.Run
import Mathlib.Logic.Function.Basic

/-! # Starting a model stream with first-token fallback

`StreamLLMService.start` over its candidates, each behind a `_FirstTokenStreamCallback`. The clients
call back from tasks of their own, at any time after `do_stream_chat` has been called and also after
their handle was cancelled. `wait_for` turns into `TimeoutError` once its timer has fired, even when
the event is set before `start` resumes. Mock mode is left out.
-/

namespace HeyeeAgent.StreamLlm

open InfraAi

/-- A candidate; `streams` when its client has a callable `do_stream_chat`. -/
structure StreamTarget where
  id : String
  streams : Bool

inductive FirstPacketStatus where
  | firstToken
  | empty
  | error
deriving DecidableEq, Repr

def FirstPacketStatus.text : FirstPacketStatus → String
  | .firstToken => "first_token"
  | .empty => "empty"
  | .error => "error"

/-- A method of `StreamCallback` with its argument. -/
inductive CallbackEvent where
  | content (content : String)
  | thinking (content : String)
  | complete
  | error (error : String)
deriving DecidableEq, Repr

/-- `_FirstTokenStreamCallback`; the event `_first_packet` is set once there is a status. -/
structure FirstTokenStreamCallback where
  firstPacketStatus : Option FirstPacketStatus := none
  firstPacketError : Option String := none
  visibleOutput : Bool := false
  suppressed : Bool := false
  completed : Bool := false
  failedAfterOutput : Bool := false

namespace FirstTokenStreamCallback

def markFirstPacket (r : FirstTokenStreamCallback) (status : FirstPacketStatus)
    (error : Option String) : FirstTokenStreamCallback :=
  if r.firstPacketStatus.isSome then r
  else
    { r with
      firstPacketStatus := some status
      firstPacketError := error
      visibleOutput := r.visibleOutput || status == .firstToken }

/-- One callback: the new state, whether the delegate is called, and whether a failure of the target
is recorded. -/
def receive (r : FirstTokenStreamCallback) : CallbackEvent → FirstTokenStreamCallback × Bool × Bool
  | .content content | .thinking content =>
    if content.isEmpty then (r, false, false)
    else
      let r := r.markFirstPacket .firstToken none
      (r, !r.suppressed, false)
  | .complete =>
    let r := { r with completed := true }
    if !r.visibleOutput then (r.markFirstPacket .empty none, false, false)
    else (r, !r.suppressed, false)
  | .error error =>
    if !r.visibleOutput then (r.markFirstPacket .error (some error), false, false)
    else if !r.completed && !r.failedAfterOutput then
      ({ r with failedAfterOutput := true }, !r.suppressed, true)
    else (r, !r.suppressed, false)

def suppress (r : FirstTokenStreamCallback) : FirstTokenStreamCallback :=
  { r with suppressed := true }

end FirstTokenStreamCallback

/-- Where `start` is suspended or how it has ended. -/
inductive StartPc where
  /-- at `await stream(...)` of a candidate -/
  | streaming (i : ℕ)
  /-- inside `await_first_packet`; `timedOut` once the timer of `wait_for` has fired -/
  | awaitingFirstPacket (i : ℕ) (timedOut : Bool)
  /-- has returned the handle of the candidate -/
  | returned (i : ℕ)
  /-- left by `CancelledError` at the candidate -/
  | cancelled (i : ℕ)
  | modelUnavailable (message : String)
deriving DecidableEq

/-- The candidate that `start` is at or has chosen. -/
def StartPc.candidate : StartPc → Option ℕ
  | .streaming i | .awaitingFirstPacket i _ | .returned i | .cancelled i => some i
  | .modelUnavailable _ => none

/-- The candidate whose first packet is still awaited. -/
def StartPc.attempt : StartPc → Option ℕ
  | .streaming i | .awaitingFirstPacket i _ => some i
  | _ => none

/-- `routed` holds the callback of each candidate that has been tried, `forwarded` the calls that
the delegate received, each with the candidate they came from. -/
structure StartState where
  health : ModelHealthStore
  routed : ℕ → Option FirstTokenStreamCallback := fun _ => none
  handles : List ℕ := []
  cancelledHandles : List ℕ := []
  lastError : Option String := none
  forwarded : List (ℕ × CallbackEvent) := []
  pc : StartPc

inductive StartEvent where
  /-- a client calls back -/
  | callback (i : ℕ) (event : CallbackEvent) (now : ℚ)
  /-- `stream(...)` returns a handle -/
  | streamReturns (now : ℚ)
  /-- `stream(...)` raises an `Exception` -/
  | streamRaises (error : String) (now : ℚ)
  | timer
  /-- `start` resumes from `await_first_packet` -/
  | resume (now : ℚ)
  | cancel

namespace StartState

def setRouted (s : StartState) (i : ℕ) (r : FirstTokenStreamCallback) : StartState :=
  { s with routed := Function.update s.routed i (some r) }

theorem setRouted_self (s : StartState) (i : ℕ) (r : FirstTokenStreamCallback) :
    (s.setRouted i r).routed i = some r :=
  Function.update_self _ _ _

theorem setRouted_of_ne (s : StartState) {i j : ℕ} (r : FirstTokenStreamCallback) (other : j ≠ i) :
    (s.setRouted i r).routed j = s.routed j :=
  Function.update_of_ne other _ _

/-- A callback is the one that was set, or another candidate's. -/
theorem setRouted_cases {s : StartState} {i j : ℕ} {r r' : FirstTokenStreamCallback}
    (found : (s.setRouted i r).routed j = some r') :
    j = i ∧ r' = r ∨ j ≠ i ∧ s.routed j = some r' := by
  by_cases same : j = i
  · subst same
    rw [setRouted_self, Option.some_inj] at found
    exact .inl ⟨rfl, found.symm⟩
  · rw [setRouted_of_ne s r same] at found
    exact .inr ⟨same, found⟩

/-- The loop goes on with the first candidate from `k` on that can stream. -/
def tryFrom (targets : List StreamTarget) (s : StartState) (k : ℕ) : StartState :=
  match (List.range targets.length).find? fun i =>
      decide (k ≤ i) && (targets[i]?.any fun target => target.streams) with
  | some i => { s.setRouted i {} with pc := .streaming i }
  | none =>
    let message := match s.lastError with
      | some error => "all chat stream candidates failed: " ++ error
      | none => "no stream-capable chat model candidates available"
    { s with pc := .modelUnavailable message }

def suppress (s : StartState) (i : ℕ) : StartState :=
  { s with routed := Function.update s.routed i ((s.routed i).map (·.suppress)) }

/-- `if handle is not None: handle.cancel()` -/
def cancelHandle (s : StartState) (i : ℕ) : StartState :=
  if i ∈ s.handles then { s with cancelledHandles := s.cancelledHandles ++ [i] } else s

@[simp] theorem cancelHandle_routed (s : StartState) (i : ℕ) :
    (s.cancelHandle i).routed = s.routed := by unfold cancelHandle; split_ifs <;> rfl

@[simp] theorem cancelHandle_forwarded (s : StartState) (i : ℕ) :
    (s.cancelHandle i).forwarded = s.forwarded := by unfold cancelHandle; split_ifs <;> rfl

@[simp] theorem suppress_forwarded (s : StartState) (i : ℕ) :
    (s.suppress i).forwarded = s.forwarded := rfl

def targetId (targets : List StreamTarget) (i : ℕ) : String :=
  (targets[i]?.map StreamTarget.id).getD ""

/-- Give the candidate up with an error and go on with the next. -/
def fallBack (targets : List StreamTarget) (s : StartState) (i : ℕ) (now : ℚ) (error : String) :
    StartState :=
  let s := (s.suppress i).cancelHandle i
  let s := { s with
    health := s.health.recordFailure now (targetId targets i)
    lastError := some error }
  s.tryFrom targets (i + 1)

/-- What follows `await_first_packet`, with its status, `none` for `"timeout"`. -/
def decided (targets : List StreamTarget) (s : StartState) (i : ℕ) (now : ℚ)
    (status : Option FirstPacketStatus) (error : Option String) : StartState :=
  match status with
  | some .firstToken =>
    let failed := (s.routed i).any (·.failedAfterOutput)
    let health := if failed then s.health else s.health.recordSuccess (targetId targets i)
    { s with health, pc := .returned i }
  | status =>
    let text := (status.map FirstPacketStatus.text).getD "timeout"
    s.fallBack targets i now (error.getD ("stream ended before first token (" ++ text ++ ")"))

end StartState

open StartState

def startStep (targets : List StreamTarget) (s : StartState) : StartEvent → Option StartState
  | .callback i event now =>
    (s.routed i).map fun r =>
      let (r, forwards, fails) := r.receive event
      let s := s.setRouted i r
      let health := if fails then s.health.recordFailure now (targetId targets i) else s.health
      { s with
        health
        forwarded := if forwards then s.forwarded ++ [(i, event)] else s.forwarded }
  | .streamReturns now =>
    match s.pc with
    | .streaming i =>
      let s := { s with handles := s.handles ++ [i] }
      match (s.routed i).bind (·.firstPacketStatus) with
      -- the event is already set, so `wait_for` does not suspend
      | some status =>
        some (s.decided targets i now (some status) ((s.routed i).bind (·.firstPacketError)))
      | none => some { s with pc := .awaitingFirstPacket i false }
    | _ => none
  | .streamRaises error now =>
    match s.pc with
    | .streaming i => some (s.fallBack targets i now error)
    | _ => none
  | .timer =>
    match s.pc with
    | .awaitingFirstPacket i false => some { s with pc := .awaitingFirstPacket i true }
    | _ => none
  | .resume now =>
    match s.pc with
    | .awaitingFirstPacket i true => some (s.decided targets i now none none)
    | .awaitingFirstPacket i false =>
      ((s.routed i).bind (·.firstPacketStatus)).map fun status =>
        s.decided targets i now (some status) ((s.routed i).bind (·.firstPacketError))
    | _ => none
  | .cancel =>
    match s.pc with
    | .streaming i | .awaitingFirstPacket i _ =>
      some { (s.suppress i).cancelHandle i with pc := .cancelled i }
    | _ => none

/-- `start` up to its first await. -/
def startInitial (targets : List StreamTarget) (health : ModelHealthStore) : StartState :=
  tryFrom targets { health, pc := .modelUnavailable "" } 0

end HeyeeAgent.StreamLlm
