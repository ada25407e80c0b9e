import HeyeeAgent.InfraAi.HealthStore
import HeyeeAgent.Machine.Run

/-! # Overlapping calls with fallback on one circuit breaker

Any number of `execute_with_fallback` coroutines over one store. A step is one turn of the loop
over the targets up to the call, or the end of a call; turns that asyncio runs without a pause
appear as consecutive steps. A target is its model id, and `client` tells whether the resolver
found a client for it. A call remembers whether it was admitted half-open, which the code does not.
-/

namespace HeyeeAgent.InfraAi

open Machine

/-- How the provider call of one target ends. -/
inductive CallOutcome (T : Type*) where
  | returned (result : T)
  | raised (error : String)
  /-- `CancelledError`, which is no `Exception` -/
  | cancelled

inductive ExecuteOutcome (T : Type*) where
  | returned (result : T)
  | modelUnavailable (message : String)
  | cancelled

inductive ExecutePc (T : Type*) where
  /-- at the head of the loop over the remaining targets -/
  | choosing (rest : List String)
  /-- at `await caller(client, target)` -/
  | calling (modelId : String) (halfOpen : Bool) (rest : List String)
  | finished (outcome : ExecuteOutcome T)

structure Execution (T : Type*) where
  label : String
  lastError : Option String
  pc : ExecutePc T

structure RouterState (T : Type*) where
  store : ModelHealthStore
  executions : List (Execution T) := []

inductive RouterEvent (T : Type*) where
  | execute (label : String) (targets : List String)
  | next (e : ℕ) (client : Bool) (now : ℚ)
  | finish (e : ℕ) (outcome : CallOutcome T) (now : ℚ)

variable {T : Type*}

def RouterState.setExecution (s : RouterState T) (e : ℕ) (x : Execution T) : RouterState T :=
  { s with executions := s.executions.set e x }

/-- The error after the last target. -/
def exhausted (label : String) : Option String → String
  | some error => "all " ++ label ++ " model candidates failed: " ++ error
  | none => "no available " ++ label ++ " model targets"

def routerStep (s : RouterState T) : RouterEvent T → Option (RouterState T)
  | .execute label targets =>
    let pc := if targets.isEmpty then
        .finished (.modelUnavailable ("no " ++ label ++ " model candidates available"))
      else .choosing targets
    some { s with executions := s.executions ++ [⟨label, none, pc⟩] }
  | .next e client now =>
    match s.executions[e]? with
    | some ⟨label, lastError, .choosing []⟩ =>
      some (s.setExecution e
        ⟨label, lastError, .finished (.modelUnavailable (exhausted label lastError))⟩)
    | some ⟨label, lastError, .choosing (modelId :: rest)⟩ =>
      if !client then some (s.setExecution e ⟨label, lastError, .choosing rest⟩)
      else
        let (store, allowed) := s.store.allowCall now modelId
        let halfOpen := decide ((store.health modelId).state = .halfOpen)
        let pc := if allowed then .calling modelId halfOpen rest else .choosing rest
        some ({ s with store }.setExecution e ⟨label, lastError, pc⟩)
    | _ => none
  | .finish e outcome now =>
    match s.executions[e]? with
    | some ⟨label, lastError, .calling modelId _ rest⟩ =>
      match outcome with
      | .returned result =>
        some ({ s with store := s.store.recordSuccess modelId }.setExecution e
          ⟨label, lastError, .finished (.returned result)⟩)
      | .raised error =>
        some ({ s with store := s.store.recordFailure now modelId }.setExecution e
          ⟨label, some error, .choosing rest⟩)
      | .cancelled => some (s.setExecution e ⟨label, lastError, .finished .cancelled⟩)
    | _ => none

/-! ### Running calls -/

def ExecutePc.callTo (modelId : String) : ExecutePc T → Bool
  | .calling called _ _ => called == modelId
  | _ => false

def ExecutePc.halfOpenCallTo (modelId : String) : ExecutePc T → Bool
  | .calling called halfOpen _ => halfOpen && called == modelId
  | _ => false

/-- The calls of a model that are running. -/
def RouterState.inFlight (s : RouterState T) (modelId : String) : ℕ :=
  s.executions.countP fun x => x.pc.callTo modelId

/-- Those of them that were admitted while the model was half-open. -/
def RouterState.halfOpenRunning (s : RouterState T) (modelId : String) : ℕ :=
  s.executions.countP fun x => x.pc.halfOpenCallTo modelId

theorem RouterState.halfOpenRunning_le (s : RouterState T) (modelId : String) :
    s.halfOpenRunning modelId ≤ s.inFlight modelId := by
  refine List.countP_mono_left fun x _ running => ?_
  cases pc : x.pc <;> simp_all [ExecutePc.halfOpenCallTo, ExecutePc.callTo]

theorem countP_set_add {α : Type*} {p : α → Bool} {l : List α} {i : ℕ} {x y : α}
    (found : l[i]? = some x) :
    (l.set i y).countP p + (if p x then 1 else 0) = l.countP p + (if p y then 1 else 0) := by
  obtain ⟨inside, rfl⟩ := List.getElem?_eq_some_iff.mp found
  rw [List.countP_set inside]
  by_cases counted : p l[i] = true
  · have positive : 0 < l.countP p := List.countP_pos_iff.mpr ⟨_, List.getElem_mem inside, counted⟩
    simp only [counted, ↓reduceIte]
    omega
  · simp [counted]

/-- A model that is half-open counts its running half-open calls, and a model without running calls
can be selected once its pause is over. -/
structure Accounted (s : RouterState T) : Prop where
  counted : ∀ modelId, (s.store.health modelId).state = .halfOpen →
    (s.store.health modelId).halfOpenInFlight = s.halfOpenRunning modelId
  selectable : ∀ modelId now, s.inFlight modelId = 0 →
    (s.store.health modelId).openUntil ≤ now → s.store.isUnavailable now modelId = false

theorem accounted_iff {s : RouterState T} :
    Accounted s ↔ ∀ modelId, (s.store.health modelId).state = .halfOpen →
      (s.store.health modelId).halfOpenInFlight = s.halfOpenRunning modelId := by
  refine ⟨Accounted.counted, fun counted => ⟨counted, fun modelId now idle passed => ?_⟩⟩
  refine ModelHealthStore.not_isUnavailable passed fun probing => ?_
  have running := s.halfOpenRunning_le modelId
  rw [counted modelId probing]
  omega

/-- Neither is a half-open call cancelled while its model is half-open, nor does a model become
half-open while calls of an earlier half-open phase still run. -/
def KeepsCount (s : RouterState T) : RouterEvent T → Prop
  | .finish e .cancelled _ => ∀ label lastError modelId rest,
      s.executions[e]? = some ⟨label, lastError, .calling modelId true rest⟩ →
        (s.store.health modelId).state ≠ .halfOpen
  | .next e true now => ∀ label lastError modelId rest,
      s.executions[e]? = some ⟨label, lastError, .choosing (modelId :: rest)⟩ →
        (s.store.health modelId).state = .opened → (s.store.health modelId).openUntil ≤ now →
          s.halfOpenRunning modelId = 0
  | _ => True

/-- What a step does to the accounts: one execution goes from `x` to `y`, and the record of at most
one model is rewritten. -/
theorem accounted_set {s : RouterState T} {e : ℕ} {x y : Execution T} {modelId : String}
    {health : ModelHealth} (found : s.executions[e]? = some x)
    (others : ∀ other ≠ modelId, x.pc.halfOpenCallTo other = false ∧
      y.pc.halfOpenCallTo other = false) (accounted : Accounted s) :
    Accounted ({ s with store := s.store.set modelId health }.setExecution e y) ↔
      (health.state = .halfOpen →
        health.halfOpenInFlight + (if x.pc.halfOpenCallTo modelId then 1 else 0) =
          s.halfOpenRunning modelId + (if y.pc.halfOpenCallTo modelId then 1 else 0)) := by
  have moved (other : String) := countP_set_add
    (p := fun x : Execution T => x.pc.halfOpenCallTo other) (y := y) found
  rw [accounted_iff]
  constructor
  · intro counted probing
    have own := counted modelId
    simp only [RouterState.setExecution, ModelHealthStore.health_set] at own
    have total := moved modelId
    simp only [RouterState.halfOpenRunning] at own ⊢
    rw [own probing]
    exact total
  · intro own other
    by_cases same : other = modelId
    · subst same
      simp only [RouterState.setExecution, ModelHealthStore.health_set]
      intro probing
      have total := moved other
      have balance := own probing
      simp only [RouterState.halfOpenRunning] at balance ⊢
      omega
    · simp only [RouterState.setExecution, ModelHealthStore.health_set_ne s.store same]
      intro probing
      have total := moved other
      simp only [others other same, Bool.false_eq_true, ↓reduceIte, Nat.add_zero] at total
      rw [accounted.counted other probing]
      exact total.symm

/-- An execution that runs no half-open call before or after changes no account. -/
theorem accounted_move {s : RouterState T} {e : ℕ} {x y : Execution T} (accounted : Accounted s)
    (found : s.executions[e]? = some x) (before : ∀ modelId, x.pc.halfOpenCallTo modelId = false)
    (after : ∀ modelId, y.pc.halfOpenCallTo modelId = false) : Accounted (s.setExecution e y) := by
  refine accounted_iff.mpr fun modelId probing => ?_
  have total := countP_set_add (p := fun x : Execution T => x.pc.halfOpenCallTo modelId)
    (y := y) found
  simp only [before, after, Bool.false_eq_true, ↓reduceIte, Nat.add_zero] at total
  exact (accounted.counted modelId probing).trans total.symm

theorem halfOpenCallTo_choosing {label : String} {lastError : Option String} {rest : List String}
    (modelId : String) :
    (Execution.mk (T := T) label lastError (.choosing rest)).pc.halfOpenCallTo modelId = false := rfl

theorem halfOpenCallTo_finished {label : String} {lastError : Option String}
    {outcome : ExecuteOutcome T} (modelId : String) :
    (Execution.mk label lastError (.finished outcome)).pc.halfOpenCallTo modelId = false := rfl

/-- One turn of the loop: only a model that goes from open to half-open can lose its count. -/
theorem allowCall_accounted_iff {s : RouterState T} {e : ℕ} {label modelId : String}
    {lastError : Option String} {rest : List String} {now : ℚ} (accounted : Accounted s)
    (found : s.executions[e]? = some ⟨label, lastError, .choosing (modelId :: rest)⟩) :
    Accounted ({ s with store := (s.store.allowCall now modelId).1 }.setExecution e
      ⟨label, lastError,
        if (s.store.allowCall now modelId).2 then
          .calling modelId
            (decide (((s.store.allowCall now modelId).1.health modelId).state = HealthState.halfOpen))
            rest
        else .choosing rest⟩) ↔
      ((s.store.health modelId).state = .opened → (s.store.health modelId).openUntil ≤ now →
        s.halfOpenRunning modelId = 0) := by
  have answer := s.store.allowCall_allowed now modelId
  generalize s.store.allowCall now modelId = result at answer
  have idle (other : String) : (Execution.mk (T := T) label lastError
      (.choosing (modelId :: rest))).pc.halfOpenCallTo other = false := rfl
  have counted := accounted.counted modelId
  cases answer with
  | refused paused =>
    refine iff_of_true ((accounted_set found (by simp [ExecutePc.halfOpenCallTo]) accounted).mpr ?_) ?_
    · simpa [ExecutePc.halfOpenCallTo] using counted
    · exact fun state passed => absurd (paused state) (Rat.not_lt.mpr passed)
  | closed state =>
    refine iff_of_true ((accounted_set found (by simp [ExecutePc.halfOpenCallTo, state]) accounted).mpr
      ?_) ?_
    · simp [state]
    · simp [state]
  | halfOpens state passed =>
    rw [accounted_set found (fun other distinct => ⟨rfl, by
      simp [ExecutePc.halfOpenCallTo, Ne.symm distinct]⟩) accounted]
    simp [ExecutePc.halfOpenCallTo, state, passed]
  | joins state room =>
    refine iff_of_true ((accounted_set found (fun other distinct => ⟨rfl, by
      simp [ExecutePc.halfOpenCallTo, Ne.symm distinct]⟩) accounted).mpr ?_) ?_
    · simp [ExecutePc.halfOpenCallTo, state, counted]
    · simp [state]

/-- The end of a half-open call by cancellation is not counted. -/
theorem cancelled_accounted_iff {s : RouterState T} {e : ℕ} {label modelId : String}
    {lastError : Option String} {rest : List String} {now : ℚ} (accounted : Accounted s)
    (found : s.executions[e]? = some ⟨label, lastError, .calling modelId true rest⟩) :
    Accounted (s.setExecution e ⟨label, lastError, .finished .cancelled⟩) ↔
      KeepsCount s (.finish e .cancelled now) := by
  have moved (other : String) := countP_set_add
    (p := fun x : Execution T => x.pc.halfOpenCallTo other)
    (y := ⟨label, lastError, .finished .cancelled⟩) found
  constructor
  · rintro after _ _ _ _ found' probing
    rw [found] at found'
    cases found'
    have total := moved modelId
    have now_counted : (s.store.health modelId).halfOpenInFlight =
        (s.executions.set e _).countP _ := after.counted modelId probing
    have was_counted : (s.store.health modelId).halfOpenInFlight =
        s.executions.countP _ := accounted.counted modelId probing
    rw [if_pos (by simp [ExecutePc.halfOpenCallTo]), if_neg (by simp [ExecutePc.halfOpenCallTo])]
      at total
    omega
  · intro keeps
    refine accounted_iff.mpr fun other probing => ?_
    have total := moved other
    have distinct : modelId ≠ other := by
      rintro rfl
      exact keeps label lastError modelId rest found probing
    simp only [ExecutePc.halfOpenCallTo, beq_eq_false_iff_ne.mpr distinct, Bool.and_false,
      Bool.false_eq_true, ↓reduceIte, Nat.add_zero] at total
    exact (accounted.counted other probing).trans total.symm

/-- While the accounts are right, a step keeps them exactly under the condition. -/
theorem routerStep_accounted_iff {s t : RouterState T} {ev : RouterEvent T}
    (accounted : Accounted s) (taken : routerStep s ev = some t) : Accounted t ↔ KeepsCount s ev := by
  cases ev with
  | execute label targets =>
    cases taken
    refine iff_of_true (accounted_iff.mpr fun modelId probing => ?_) trivial
    simp only [RouterState.halfOpenRunning, List.countP_append, List.countP_singleton]
    rw [accounted.counted modelId probing]
    split_ifs with none running <;> simp_all [ExecutePc.halfOpenCallTo, RouterState.halfOpenRunning]
  | next e client now =>
    simp only [routerStep] at taken
    split at taken
    · next label lastError found =>
      cases taken
      refine iff_of_true
        (accounted_move accounted found halfOpenCallTo_choosing halfOpenCallTo_finished) ?_
      cases client <;> simp [KeepsCount, found]
    · next label lastError modelId rest found =>
      cases client with
      | false =>
        cases taken
        exact iff_of_true
          (accounted_move accounted found halfOpenCallTo_choosing halfOpenCallTo_choosing) trivial
      | true =>
        cases taken
        rw [allowCall_accounted_iff accounted found]
        constructor
        · rintro keeps _ _ _ _ found'
          rw [found] at found'
          cases found'
          exact keeps
        · exact fun keeps => keeps label lastError modelId rest found
    · cases taken
  | finish e outcome now =>
    simp only [routerStep] at taken
    split at taken
    · next label lastError modelId halfOpen rest found =>
      have others : ∀ other ≠ modelId, (Execution.mk (T := T) label lastError
          (.calling modelId halfOpen rest)).pc.halfOpenCallTo other = false := by
        intro other distinct
        simp [ExecutePc.halfOpenCallTo, Ne.symm distinct]
      cases outcome with
      | returned result =>
        cases taken
        refine iff_of_true ((accounted_set found (fun other distinct =>
          ⟨others other distinct, rfl⟩) accounted).mpr (by simp)) trivial
      | raised error =>
        cases taken
        obtain ⟨health, recorded, state⟩ := s.store.recordFailure_set now modelId
        rw [recorded]
        exact iff_of_true ((accounted_set found (fun other distinct =>
          ⟨others other distinct, rfl⟩) accounted).mpr fun probing => absurd probing state) trivial
      | cancelled =>
        cases taken
        cases halfOpen with
        | false =>
          refine iff_of_true (accounted_move accounted found ?_ halfOpenCallTo_finished) ?_
          · simp [ExecutePc.halfOpenCallTo]
          · simp [KeepsCount, found]
        | true => exact cancelled_accounted_iff accounted found
    · cases taken

/-- The store that `__init__` builds with the settings of a given one. -/
def ModelHealthStore.fresh (settings : ModelHealthStore) : ModelHealthStore :=
  { settings with healthById := ∅ }

theorem accounted_initial (settings : ModelHealthStore) :
    Accounted (T := T) { store := settings.fresh } := by
  refine accounted_iff.mpr fun modelId probing => ?_
  simp [ModelHealthStore.health, ModelHealthStore.get, ModelHealthStore.fresh] at probing

/-- In every run, all half-open models count their running half-open calls and no idle model stays
excluded after its pause, exactly when each step of the run meets the condition. -/
theorem always_accounted_iff (settings : ModelHealthStore) (es : List (RouterEvent T)) :
    Always routerStep Accounted { store := settings.fresh } es ↔
      Along routerStep KeepsCount { store := settings.fresh } es :=
  always_iff_along (I := fun _ => True) (fun _ _ _ _ _ => trivial)
    (fun _ _ _ _ accounted taken => routerStep_accounted_iff accounted taken) trivial
    (accounted_initial settings)

/-- The only model fails three times, and after the pause its first call is cancelled by a user
stop. -/
def cancelledProbeRun : List (RouterEvent Unit) :=
  [.execute "chat" ["m", "m", "m"], .next 0 true 0, .finish 0 (.raised "down") 0, .next 0 true 0,
    .finish 0 (.raised "down") 0, .next 0 true 0, .finish 0 (.raised "down") 0,
    .execute "chat" ["m"], .next 1 true 60, .finish 1 .cancelled 61]

/-- The model stays half-open with a counted call that no longer runs. -/
theorem cancelledProbeRun_miscounts :
    ¬ Always routerStep Accounted { store := getModelHealthStore.fresh } cancelledProbeRun := by
  intro always
  have ends : (runFrom routerStep { store := getModelHealthStore.fresh } cancelledProbeRun).map
      (fun s => ((s.store.health "m").state, (s.store.health "m").halfOpenInFlight,
        s.halfOpenRunning "m")) = some (.halfOpen, 1, 0) := by decide +kernel
  obtain ⟨s, run, observed⟩ := Option.map_eq_some_iff.mp ends
  obtain ⟨state, counted, running⟩ := by simpa only [Prod.mk.injEq] using observed
  have equal := (always.last run).counted "m" state
  rw [counted, running] at equal
  exact absurd equal (by decide)

end HeyeeAgent.InfraAi
