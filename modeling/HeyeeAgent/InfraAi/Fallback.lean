import HeyeeAgent.InfraAi.ModelSelector

/-! # The fallback law

`execute_with_fallback` with the store that its own turns change. What it asks of its surroundings is
given turn by turn: the resolver, the clock, and a provider call with what other tasks do to the store
while it runs. The law describes the calls and the records by the turns alone, without the loop.
-/

namespace HeyeeAgent.InfraAi

open Machine

variable {C T : Type*}

/-- How a provider call ends, by a value or an `Exception`. -/
structure ProviderCall (T : Type*) where
  reply : Except String T
  endedAt : ℚ
  meanwhile : ModelHealthStore → ModelHealthStore := id

structure Surroundings (C T : Type*) where
  clientResolver : ℕ → ModelTarget → Option C
  askedAt : ℕ → ℚ
  caller : ℕ → C → ModelTarget → ProviderCall T

inductive FallbackEffect (C : Type*) where
  | called (client : C) (target : ModelTarget)
  | recordedSuccess (modelId : String)
  | recordedFailure (modelId : String)
deriving DecidableEq

/-- The end of an execution; an error is the text of `ModelUnavailableError`. -/
structure FallbackRun (C T : Type*) where
  result : Except String T
  store : ModelHealthStore
  effects : List (FallbackEffect C) := []

def FallbackRun.after (effects : List (FallbackEffect C)) (run : FallbackRun C T) :
    FallbackRun C T :=
  { run with effects := effects ++ run.effects }

namespace Surroundings

/-- The loop over the targets from a turn on. -/
def tryTargets (around : Surroundings C T) (label : String) :
    ℕ → ModelHealthStore → Option String → List ModelTarget → FallbackRun C T
  | _, store, lastError, [] => { result := .error (exhausted label lastError), store }
  | turn, store, lastError, target :: rest =>
    match around.clientResolver turn target with
    | none => around.tryTargets label (turn + 1) store lastError rest
    | some client =>
      let (store, allowed) := store.allowCall (around.askedAt turn) target.id
      if !allowed then around.tryTargets label (turn + 1) store lastError rest
      else
        let call := around.caller turn client target
        let store := call.meanwhile store
        match call.reply with
        | .error error =>
          (around.tryTargets label (turn + 1) (store.recordFailure call.endedAt target.id)
            (some error) rest).after [.called client target, .recordedFailure target.id]
        | .ok result =>
          { result := .ok result
            store := store.recordSuccess target.id
            effects := [.called client target, .recordedSuccess target.id] }

def executeWithFallback (around : Surroundings C T) (label : String) (store : ModelHealthStore)
    (targets : List ModelTarget) : FallbackRun C T :=
  if targets.isEmpty then
    { result := .error ("no " ++ label ++ " model candidates available"), store }
  else around.tryTargets label 0 store none targets

end Surroundings

/-! ### The turns of an execution -/

/-- A turn of the loop with the store that it meets. -/
structure FallbackTurn where
  turn : ℕ
  store : ModelHealthStore
  target : ModelTarget

namespace FallbackTurn

/-- The call of the turn, if the target has a client and is admitted. -/
def call (here : FallbackTurn) (around : Surroundings C T) : Option (C × ProviderCall T) :=
  (around.clientResolver here.turn here.target).bind fun client =>
    if (here.store.allowCall (around.askedAt here.turn) here.target.id).2 then
      some (client, around.caller here.turn client here.target)
    else none

/-- The call with its record. -/
def effects (here : FallbackTurn) (around : Surroundings C T) : List (FallbackEffect C) :=
  match here.call around with
  | none => []
  | some (client, call) =>
    [.called client here.target,
      match call.reply with
      | .ok _ => .recordedSuccess here.target.id
      | .error _ => .recordedFailure here.target.id]

def answer (here : FallbackTurn) (around : Surroundings C T) : Option T :=
  (here.call around).bind fun (_, call) => call.reply.toOption

def error (here : FallbackTurn) (around : Surroundings C T) : Option String :=
  (here.call around).bind fun (_, call) =>
    match call.reply with
    | .ok _ => none
    | .error error => some error

/-- The store that the turn leaves. -/
def after (here : FallbackTurn) (around : Surroundings C T) : ModelHealthStore :=
  match around.clientResolver here.turn here.target with
  | none => here.store
  | some _ =>
    let asked := (here.store.allowCall (around.askedAt here.turn) here.target.id).1
    match here.call around with
    | none => asked
    | some (_, call) =>
      match call.reply with
      | .ok _ => (call.meanwhile asked).recordSuccess here.target.id
      | .error _ => (call.meanwhile asked).recordFailure call.endedAt here.target.id

end FallbackTurn

namespace Surroundings

/-- One turn for each target, each with the store that the earlier ones leave. -/
def turns (around : Surroundings C T) : ℕ → ModelHealthStore → List ModelTarget → List FallbackTurn
  | _, _, [] => []
  | turn, store, target :: rest =>
    let here : FallbackTurn := ⟨turn, store, target⟩
    here :: around.turns (turn + 1) (here.after around) rest

end Surroundings

section Loop

variable {around : Surroundings C T} {label : String} {store : ModelHealthStore}
  {lastError : Option String} {turn : ℕ} {target : ModelTarget} {rest : List ModelTarget}

/-- One turn of the loop: the execution ends with an answer, or goes on with what the turn left. -/
theorem tryTargets_cons {here : FallbackTurn} (meets : here = ⟨turn, store, target⟩) :
    around.tryTargets label turn store lastError (target :: rest) =
      match here.answer around with
      | some result => ⟨.ok result, here.after around, here.effects around⟩
      | none =>
        (around.tryTargets label (turn + 1) (here.after around)
          ((here.error around).or lastError) rest).after (here.effects around) := by
  subst meets
  simp only [Surroundings.tryTargets, FallbackTurn.answer, FallbackTurn.after, FallbackTurn.error,
    FallbackTurn.effects, FallbackTurn.call]
  cases around.clientResolver turn target with
  | none => rfl
  | some client =>
    by_cases allowed : (store.allowCall (around.askedAt turn) target.id).2 = true
    · cases reply : (around.caller turn client target).reply with
      | error error => simp [allowed, reply, Except.toOption]
      | ok result => simp [allowed, reply, Except.toOption]
    · simp [allowed, FallbackRun.after]

end Loop

namespace Surroundings

/-- The turns up to and including the first that succeeds. -/
def turnsTaken (around : Surroundings C T) (turns : List FallbackTurn) : List FallbackTurn :=
  turns.take (turns.findIdx (fun here => (here.answer around).isSome) + 1)

variable {around : Surroundings C T} {here : FallbackTurn} {turns : List FallbackTurn}

theorem turnsTaken_of_answer {result : T} (answer : here.answer around = some result) :
    around.turnsTaken (here :: turns) = [here] := by
  simp [turnsTaken, List.findIdx_cons, answer]

theorem turnsTaken_of_none (answer : here.answer around = none) :
    around.turnsTaken (here :: turns) = here :: around.turnsTaken turns := by
  simp [turnsTaken, List.findIdx_cons, answer]

/-- The last error of the turns, or the one from before. -/
def lastError (around : Surroundings C T) (turns : List FallbackTurn) (before : Option String) :
    Option String :=
  turns.foldl (fun last here => (here.error around).or last) before

/-- The loop does what its turns say. -/
theorem tryTargets_turns (around : Surroundings C T) (label : String) (turn : ℕ)
    (store : ModelHealthStore) (before : Option String) (targets : List ModelTarget) :
    let run := around.tryTargets label turn store before targets
    let turns := around.turns turn store targets
    run.effects = (around.turnsTaken turns).flatMap (·.effects around) ∧
      run.result = match turns.findSome? (·.answer around) with
        | some result => .ok result
        | none => .error (exhausted label (around.lastError turns before)) := by
  dsimp only
  induction targets generalizing turn store before with
  | nil => exact ⟨rfl, rfl⟩
  | cons target rest ih =>
    rw [tryTargets_cons rfl, turns]
    cases answer : FallbackTurn.answer ⟨turn, store, target⟩ around with
    | some result =>
      rw [turnsTaken_of_answer answer, List.findSome?_cons_of_isSome (by simp [answer])]
      simp [answer]
    | none =>
      obtain ⟨effects, result⟩ := ih (turn + 1)
        (FallbackTurn.after ⟨turn, store, target⟩ around)
        ((FallbackTurn.error ⟨turn, store, target⟩ around).or before)
      rw [turnsTaken_of_none answer, List.findSome?_cons_of_isNone (by simp [answer]),
        List.flatMap_cons]
      exact ⟨congrArg (_ ++ ·) effects, result⟩

end Surroundings

/-- The text of the error: which of the three ways the execution came to no result. -/
theorem executeWithFallback_error (around : Surroundings C T) (label : String)
    (store : ModelHealthStore) (targets : List ModelTarget) {message : String}
    (raised : (around.executeWithFallback label store targets).result = .error message) :
    message = if targets = [] then "no " ++ label ++ " model candidates available"
      else exhausted label (around.lastError (around.turns 0 store targets) none) := by
  cases targets with
  | nil => exact (Except.error.inj raised).symm
  | cons target rest =>
    simp only [Surroundings.executeWithFallback, List.isEmpty_cons, Bool.false_eq_true,
      ↓reduceIte] at raised
    rw [(around.tryTargets_turns label 0 store none (target :: rest)).2] at raised
    rw [if_neg (List.cons_ne_nil target rest)]
    split at raised
    · cases raised
    · exact (Except.error.inj raised).symm

/-! ### The other two models of an execution -/

/-- What a turn meets. -/
def FallbackTurn.meets (here : FallbackTurn) (around : Surroundings C T) : Encounter T where
  store := here.store
  now := around.askedAt here.turn
  client := (around.clientResolver here.turn here.target).isSome
  reply := match around.clientResolver here.turn here.target with
    | none => .error ""
    | some client => (around.caller here.turn client here.target).reply

theorem FallbackTurn.answers_meets (here : FallbackTurn) (around : Surroundings C T) :
    (here.meets around).answers here.target = here.answer around := by
  unfold Encounter.answers Encounter.admits meets answer call
  cases around.clientResolver here.turn here.target with
  | none => rfl
  | some client =>
    by_cases allowed :
        (here.store.allowCall (around.askedAt here.turn) here.target.id).2 = true
    · simp [allowed]
    · simp [allowed]

/-- The execution gives what the first target gives that answers in its turn. -/
theorem executeWithFallback_turns (around : Surroundings C T) (turn : ℕ) (store : ModelHealthStore)
    (targets : List ModelTarget) {meets : ℕ → Encounter T}
    (met : ∀ n here, (around.turns turn store targets)[n]? = some here →
      meets n = here.meets around) :
    (executeWithFallback targets meets).map Prod.snd =
      (around.turns turn store targets).findSome? (·.answer around) := by
  induction targets generalizing turn store meets with
  | nil => rfl
  | cons target rest ih =>
    have answers := FallbackTurn.answers_meets ⟨turn, store, target⟩ around
    rw [executeWithFallback, met 0 ⟨turn, store, target⟩ rfl, answers, Surroundings.turns,
      List.findSome?_cons]
    cases FallbackTurn.answer ⟨turn, store, target⟩ around with
    | some result => rfl
    | none => exact ih (turn + 1) _ fun n here found => met (n + 1) here found

/-- No other task uses the store while a call runs. -/
def Surroundings.Undisturbed (around : Surroundings C T) : Prop :=
  ∀ turn client target, (around.caller turn client target).meanwhile = id

def FallbackRun.outcome (run : FallbackRun C T) : ExecuteOutcome T :=
  match run.result with
  | .ok result => .returned result
  | .error message => .modelUnavailable message

section Coroutine

variable {store : ModelHealthStore} {label modelId : String} {before : Option String}
  {rest : List String} {now : ℚ}

theorem routerStep_admitted (allowed : (store.allowCall now modelId).2 = true) :
    routerStep (T := T) ⟨store, [⟨label, before, .choosing (modelId :: rest)⟩]⟩ (.next 0 true now) =
      some ⟨(store.allowCall now modelId).1, [⟨label, before, .calling modelId
        (decide (((store.allowCall now modelId).1.health modelId).state = HealthState.halfOpen))
        rest⟩]⟩ := by
  simp [routerStep, RouterState.setExecution, allowed]

theorem routerStep_refused (refused : (store.allowCall now modelId).2 = false) :
    routerStep (T := T) ⟨store, [⟨label, before, .choosing (modelId :: rest)⟩]⟩ (.next 0 true now) =
      some ⟨(store.allowCall now modelId).1, [⟨label, before, .choosing rest⟩]⟩ := by
  simp [routerStep, RouterState.setExecution, refused]

end Coroutine

/-- The loop alone in the program is a run of the executor's coroutines. -/
theorem routerStep_tryTargets {around : Surroundings C T} (undisturbed : around.Undisturbed)
    (label : String) (turn : ℕ) (store : ModelHealthStore) (before : Option String)
    (targets : List ModelTarget) :
    ∃ events last,
      runFrom routerStep ⟨store, [⟨label, before, .choosing (targets.map (·.id))⟩]⟩ events =
        some ⟨(around.tryTargets label turn store before targets).store,
          [⟨label, last, .finished (around.tryTargets label turn store before targets).outcome⟩]⟩ := by
  induction targets generalizing turn store before with
  | nil => exact ⟨[.next 0 false 0], before, rfl⟩
  | cons target rest ih =>
    cases resolved : around.clientResolver turn target with
    | none =>
      obtain ⟨events, last, run⟩ := ih (turn + 1) store before
      refine ⟨.next 0 false 0 :: events, last, runFrom_cons_some.mpr ⟨_, rfl, ?_⟩⟩
      simp only [Surroundings.tryTargets, resolved]
      exact run
    | some client =>
      cases allowed : (store.allowCall (around.askedAt turn) target.id).2 with
      | false =>
        obtain ⟨events, last, run⟩ := ih (turn + 1)
          (store.allowCall (around.askedAt turn) target.id).1 before
        refine ⟨.next 0 true (around.askedAt turn) :: events, last,
          runFrom_cons_some.mpr ⟨_, routerStep_refused allowed, ?_⟩⟩
        simp only [Surroundings.tryTargets, resolved, allowed, Bool.not_false, ↓reduceIte]
        exact run
      | true =>
        cases reply : (around.caller turn client target).reply with
        | ok result =>
          refine ⟨[.next 0 true (around.askedAt turn), .finish 0 (.returned result) 0], before,
            runFrom_cons_some.mpr ⟨_, routerStep_admitted allowed, ?_⟩⟩
          simp only [Surroundings.tryTargets, resolved, allowed, Bool.not_true, reply,
            undisturbed turn client target, id_eq, Bool.false_eq_true, ↓reduceIte]
          rfl
        | error error =>
          obtain ⟨events, last, run⟩ := ih (turn + 1)
            ((store.allowCall (around.askedAt turn) target.id).1.recordFailure
              (around.caller turn client target).endedAt target.id) (some error)
          refine ⟨.next 0 true (around.askedAt turn) ::
            .finish 0 (.raised error) (around.caller turn client target).endedAt :: events, last,
            runFrom_cons_some.mpr ⟨_, routerStep_admitted allowed,
              runFrom_cons_some.mpr ⟨_, rfl, ?_⟩⟩⟩
          simp only [Surroundings.tryTargets, resolved, allowed, Bool.not_true, reply,
            undisturbed turn client target, id_eq, Bool.false_eq_true, ↓reduceIte]
          exact run

end HeyeeAgent.InfraAi
