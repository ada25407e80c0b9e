import HeyeeAgent.InfraAi.RoutingExecutor

/-! # The candidates of a model and the fallback among them

`ModelSelector` over a configuration, and `execute_with_fallback` as one function of what each turn
of its loop meets. The circuit breaker is that of the moment, which other calls change while one
waits.
-/

namespace HeyeeAgent.InfraAi

open Machine

inductive ModelCapability where
  | chat
  | embedding
  | rerank
deriving DecidableEq

structure ProviderConfig where
  name : String
deriving DecidableEq

structure ModelCandidate where
  provider : String
  model : String
  id : Option String := none
  priority : Option ℤ := none
  enabled : Bool := true
  supportsTools : Bool := false
  supportsThinking : Bool := false
  dimension : Option ℤ := none
deriving DecidableEq

structure ModelGroup where
  defaultModel : Option String := none
  deepThinkingModel : Option String := none
  candidates : List ModelCandidate := []

structure AIModelConfig where
  providers : List (String × ProviderConfig)
  chat : ModelGroup
  embedding : ModelGroup
  rerank : ModelGroup := {}

structure ModelTarget where
  id : String
  capability : ModelCapability
  candidate : ModelCandidate
  provider : ProviderConfig
deriving DecidableEq

/-- `first or second` of a text. -/
def orString (first second : String) : String := if first = "" then second else first

def resolveId (candidate : ModelCandidate) : String :=
  orString (candidate.id.getD "")
    (orString candidate.provider "unknown" ++ "::" ++ orString candidate.model "unknown")

/-- The order of the keys of `sorted`: the first choice, then the priorities, then the rest, by
their ids. -/
def compareCandidates (firstChoiceModelId : Option String) (candidate other : ModelCandidate) :
    Ordering :=
  (compare (decide (some (resolveId candidate) ≠ firstChoiceModelId))
    (decide (some (resolveId other) ≠ firstChoiceModelId))).then <|
  (compare candidate.priority.isNone other.priority.isNone).then <|
  (compare (candidate.priority.getD 0) (other.priority.getD 0)).then <|
  compare (resolveId candidate) (resolveId other)

def filterAndSortCandidates (candidates : List ModelCandidate) (firstChoiceModelId : Option String)
    (deepThinking requireTools : Bool) : List ModelCandidate :=
  let enabled := candidates.filter fun candidate =>
    candidate.enabled && (!deepThinking || candidate.supportsThinking) &&
      (!requireTools || candidate.supportsTools)
  enabled.mergeSort fun candidate other =>
    (compareCandidates firstChoiceModelId candidate other).isLE

def buildModelTarget (config : AIModelConfig) (store : ModelHealthStore) (now : ℚ)
    (capability : ModelCapability) (candidate : ModelCandidate) : Option ModelTarget :=
  let modelId := resolveId candidate
  if store.isUnavailable now modelId then none
  else (config.providers.lookup candidate.provider).map fun provider =>
    { id := modelId, capability, candidate, provider }

def selectCandidates (config : AIModelConfig) (store : ModelHealthStore) (now : ℚ)
    (group : ModelGroup) (capability : ModelCapability) (firstChoiceModelId : Option String)
    (deepThinking requireTools : Bool) : List ModelTarget :=
  (filterAndSortCandidates group.candidates firstChoiceModelId deepThinking requireTools).filterMap
    (buildModelTarget config store now capability)

def selectEmbeddingCandidates (config : AIModelConfig) (store : ModelHealthStore) (now : ℚ) :
    List ModelTarget :=
  selectCandidates config store now config.embedding .embedding config.embedding.defaultModel false
    false

/-- What one turn of the loop meets: the circuit breaker with its clock, whether there is a client
for the target, and how a call ends. -/
structure Encounter (T : Type*) where
  store : ModelHealthStore
  now : ℚ
  client : Bool
  reply : Except String T

variable {T : Type*}

namespace Encounter

/-- The target is called. -/
def admits (meets : Encounter T) (target : ModelTarget) : Bool :=
  meets.client && (meets.store.allowCall meets.now target.id).2

/-- The target is called and returns. -/
def answers (meets : Encounter T) (target : ModelTarget) : Option T :=
  if meets.admits target then meets.reply.toOption else none

end Encounter

/-- `execute_with_fallback` with what its turns meet; the result comes with its target, and there is
none if the call raises. -/
def executeWithFallback : List ModelTarget → (ℕ → Encounter T) → Option (ModelTarget × T)
  | [], _ => none
  | target :: rest, meets =>
    match (meets 0).answers target with
    | some result => some (target, result)
    | none => executeWithFallback rest fun turn => meets (turn + 1)

/-- A turn calls the target exactly if the executor of the coroutines does. -/
theorem calling_iff_admits {s : RouterState T} {e : ℕ} {label : String} {lastError : Option String}
    {target : ModelTarget} {rest : List String} (meets : Encounter T) (same : s.store = meets.store)
    (found : s.executions[e]? = some ⟨label, lastError, .choosing (target.id :: rest)⟩) :
    (∃ t halfOpen, routerStep s (.next e meets.client meets.now) = some t ∧
        t.executions[e]? = some ⟨label, lastError, .calling target.id halfOpen rest⟩) ↔
      meets.admits target = true := by
  obtain ⟨inside, -⟩ := List.getElem?_eq_some_iff.mp found
  rw [Encounter.admits, ← same]
  simp only [routerStep, found]
  cases client : meets.client with
  | false =>
    simp only [Bool.not_false, ↓reduceIte, RouterState.setExecution, Bool.false_and,
      Bool.false_eq_true, iff_false]
    rintro ⟨t, halfOpen, taken, calling⟩
    cases taken
    rw [List.getElem?_set_self inside] at calling
    cases calling
  | true =>
    simp only [Bool.not_true, Bool.false_eq_true, ↓reduceIte, RouterState.setExecution,
      Bool.true_and]
    constructor
    · rintro ⟨t, halfOpen, taken, calling⟩
      cases taken
      rw [List.getElem?_set_self inside] at calling
      by_contra refused
      rw [if_neg refused] at calling
      cases calling
    · intro allowed
      refine ⟨_, decide (((s.store.allowCall meets.now target.id).1.health target.id).state =
        .halfOpen), rfl, ?_⟩
      rw [if_pos allowed, List.getElem?_set_self inside]

/-- A target answers before any that stands after it, and none that stands before it answers. -/
def Served (meets : ℕ → Encounter T) (targets : List ModelTarget) (target : ModelTarget)
    (result : T) : Prop :=
  ∃ turn, targets[turn]? = some target ∧ (meets turn).answers target = some result ∧
    ∀ earlier < turn, ∀ other, targets[earlier]? = some other → (meets earlier).answers other = none

/-- The result is that of the first target that answers. -/
theorem executeWithFallback_eq_some_iff {meets : ℕ → Encounter T} {targets : List ModelTarget}
    {target : ModelTarget} {result : T} :
    executeWithFallback targets meets = some (target, result) ↔
      Served meets targets target result := by
  induction targets generalizing meets with
  | nil =>
    constructor
    · rintro ⟨⟩
    · rintro ⟨turn, found, -⟩
      cases found
  | cons first rest ih =>
    rw [executeWithFallback]
    cases answer : (meets 0).answers first with
    | some returned =>
      constructor
      · rintro ⟨⟩
        exact ⟨0, rfl, answer, nofun⟩
      · rintro ⟨turn, found, answered, before⟩
        cases turn with
        | zero =>
          cases found
          rw [answer] at answered
          cases answered
          rfl
        | succ turn =>
          have refused := before 0 turn.succ_pos first rfl
          rw [answer] at refused
          cases refused
    | none =>
      dsimp only
      rw [ih]
      constructor
      · rintro ⟨turn, found, answered, before⟩
        refine ⟨turn + 1, found, answered, ?_⟩
        intro earlier less other earlier_found
        cases earlier with
        | zero =>
          cases earlier_found
          exact answer
        | succ earlier => exact before earlier (Nat.lt_of_succ_lt_succ less) other earlier_found
      · rintro ⟨turn, found, answered, before⟩
        cases turn with
        | zero =>
          cases found
          rw [answer] at answered
          cases answered
        | succ turn =>
          refine ⟨turn, found, answered, ?_⟩
          exact fun earlier less => before (earlier + 1) (Nat.succ_lt_succ less)

theorem Served.unique {meets : ℕ → Encounter T} {targets : List ModelTarget}
    {target other : ModelTarget} {result again : T} (served : Served meets targets target result)
    (served_again : Served meets targets other again) : target = other ∧ result = again := by
  have same := (executeWithFallback_eq_some_iff.mpr served).symm.trans
    (executeWithFallback_eq_some_iff.mpr served_again)
  exact Prod.mk.inj (Option.some_inj.mp same)

end HeyeeAgent.InfraAi
