import HeyeeAgent.InfraAi.RoutingExecutor
import HeyeeAgent.StreamLlm.Start

/-! # Streaming and non-streaming callers on one circuit breaker

Any number of `execute_with_fallback` and `StreamLLMService.start` coroutines over one store and one
clock that does not go back. The first ask `allow_call` before each call; the second have their
candidates filtered by `is_unavailable` when they start and call them without asking. A stream is
outstanding until `start` has its first packet or gives it up: with a first packet a success is
recorded.
-/

namespace HeyeeAgent.StreamLlm

open InfraAi Machine

variable {T : Type*}

inductive Task (T : Type*) where
  | execution (x : Execution T)
  | stream (targets : List StreamTarget) (start : StartState)

namespace Task

def isStream : Task T → Bool
  | .execution _ => false
  | .stream .. => true

/-- The call that a task waits for, with its place in the loop over the targets. -/
def call : Task T → Option (ℕ × String)
  | .execution x =>
    match x.pc with
    | .calling modelId _ rest => some (rest.length, modelId)
    | _ => none
  | .stream targets start => start.pc.attempt.map fun i => (i, StartState.targetId targets i)

end Task

/-- A task with the time of its last call. -/
structure Caller (T : Type*) where
  task : Task T
  issuedAt : ℚ

namespace Caller

/-- A call of the model, issued after the end of its last pause. -/
def outstanding (store : ModelHealthStore) (modelId : String) (caller : Caller T) : Bool :=
  caller.task.call.any (fun call => call.2 == modelId) &&
    decide ((store.health modelId).openUntil ≤ caller.issuedAt)

/-- The same, of a stream. -/
def streaming (store : ModelHealthStore) (modelId : String) (caller : Caller T) : Bool :=
  caller.task.isStream && caller.outstanding store modelId

end Caller

/-- The model of a call that was not waited for before. -/
def begun (before after : Option (ℕ × String)) : Option String :=
  if before = after then none else after.map Prod.snd

/-- `early` has the models that were called during a pause. -/
structure BreakerState (T : Type*) where
  store : ModelHealthStore
  clock : ℚ := 0
  callers : List (Caller T) := []
  early : List String := []

inductive BreakerEvent (T : Type*) where
  | advance (now : ℚ)
  | execute (label : String) (targets : List String)
  | next (n : ℕ) (client : Bool)
  | finish (n : ℕ) (outcome : CallOutcome T)
  | start (candidates : List StreamTarget)
  | stream (n : ℕ) (event : StartEvent)

/-- An event of `start` at the time of the clock. -/
def StartEvent.at (now : ℚ) : StartEvent → StartEvent
  | .callback i event _ => .callback i event now
  | .streamReturns _ => .streamReturns now
  | .streamRaises error _ => .streamRaises error now
  | .timer => .timer
  | .resume _ => .resume now
  | .cancel => .cancel

/-- `_select_candidates` on the candidates that the configuration leaves. -/
def selectCandidates (store : ModelHealthStore) (now : ℚ) (candidates : List StreamTarget) :
    List StreamTarget :=
  candidates.filter fun target => !store.isUnavailable now target.id

namespace BreakerState

/-- One turn of an execution by itself. -/
def executionTurn (s : BreakerState T) (n : ℕ) (event : RouterEvent T) :
    Option (ModelHealthStore × Task T) :=
  match s.callers[n]? with
  | some ⟨.execution x, _⟩ =>
    (routerStep { store := s.store, executions := [x] } event).bind fun router =>
      router.executions.head?.map fun y => (router.store, .execution y)
  | _ => none

/-- The task that an event moves or adds, with the store and the task after it. -/
def turn (s : BreakerState T) : BreakerEvent T → Option (ℕ × ModelHealthStore × Task T)
  | .advance _ => none
  | .execute label targets =>
    (routerStep { store := s.store } (.execute label targets)).bind fun router =>
      router.executions.head?.map fun x => (s.callers.length, router.store, .execution x)
  | .next n client =>
    (s.executionTurn n (.next 0 client s.clock)).map fun (store, task) => (n, store, task)
  | .finish n outcome =>
    (s.executionTurn n (.finish 0 outcome s.clock)).map fun (store, task) => (n, store, task)
  | .start candidates =>
    let targets := selectCandidates s.store s.clock candidates
    let start := startInitial targets s.store
    some (s.callers.length, start.health, .stream targets start)
  | .stream n event =>
    match s.callers[n]? with
    | some ⟨.stream targets start, _⟩ =>
      (startStep targets { start with health := s.store } (event.at s.clock)).map fun start =>
        (n, start.health, .stream targets start)
    | _ => none

/-- The callers but one. -/
def others (s : BreakerState T) (n : ℕ) : List (Caller T) :=
  s.callers.take n ++ s.callers.drop (n + 1)

/-- The model that a caller begins to call when its task becomes the one given. -/
def begins (s : BreakerState T) (n : ℕ) (task : Task T) : Option String :=
  begun (s.callers[n]?.bind fun caller => caller.task.call) task.call

/-- The caller after a turn; a call that begins is issued now. -/
def turned (s : BreakerState T) (n : ℕ) (task : Task T) : Caller T where
  task := task
  issuedAt := if (s.begins n task).isSome then s.clock
    else (s.callers[n]?.map Caller.issuedAt).getD s.clock

/-- A model is called during its pause. -/
def isEarly (s : BreakerState T) (store : ModelHealthStore) (modelId : String) : Bool :=
  decide ((store.health modelId).state ≠ .closed ∧ s.clock < (store.health modelId).openUntil)

def settle (s : BreakerState T) (n : ℕ) (store : ModelHealthStore) (task : Task T) :
    BreakerState T where
  store := store
  clock := s.clock
  callers := s.callers.take n ++ s.turned n task :: s.callers.drop (n + 1)
  early := s.early ++ (s.begins n task).toList.filter fun modelId => s.isEarly store modelId

def step (s : BreakerState T) : BreakerEvent T → Option (BreakerState T)
  | .advance now => if s.clock ≤ now then some { s with clock := now } else none
  | event => (s.turn event).map fun (n, store, task) => s.settle n store task

/-- No model was called during a pause, and while its circuit is not closed, so from its opening to
the next success recorded, the outstanding calls issued after the pause are at most the limit. -/
structure Limited (s : BreakerState T) : Prop where
  punctual : s.early = []
  limited : ∀ modelId, (s.store.health modelId).state ≠ .closed →
    s.callers.countP (Caller.outstanding s.store modelId) ≤ s.store.halfOpenMaxInFlight

/-- A stream that calls a model whose circuit is not closed finds the pause over and room beside the
outstanding calls; an execution that is admitted to it finds room beside the streams, if any. -/
def Meets (s : BreakerState T) (event : BreakerEvent T) : Prop :=
  match s.turn event with
  | none => True
  | some (n, store, task) =>
    match s.begins n task with
    | none => True
    | some modelId =>
      (store.health modelId).state = .closed ∨
        ((task.isStream = true → (store.health modelId).openUntil ≤ s.clock) ∧
          (task.isStream = false ∧ (s.others n).countP (Caller.streaming store modelId) = 0 ∨
            (s.others n).countP (Caller.outstanding store modelId) < store.halfOpenMaxInFlight))

instance (s : BreakerState T) (event : BreakerEvent T) : Decidable (s.Meets event) := by
  unfold Meets
  split
  · infer_instance
  · split <;> infer_instance

end BreakerState

end HeyeeAgent.StreamLlm
