import HeyeeAgent.InfraAi.RoutingExecutor
import Mathlib.Data.List.Induction

/-! # The laws of the circuit breaker

The methods of `ModelHealthStore` in any order, on any models and at any times, also outcomes that no
`allow_call` came before. The record of a model obeys its state, and its state tells how many
failures came since the last success.
-/

namespace HeyeeAgent.InfraAi

/-- A call of a method that writes, with its clock reading. -/
inductive HealthCall where
  | allowCall (modelId : String) (now : ℚ)
  | recordSuccess (modelId : String)
  | recordFailure (modelId : String) (now : ℚ)
deriving DecidableEq

namespace HealthCall

def isSuccess (modelId : String) : HealthCall → Bool
  | .recordSuccess recorded => recorded == modelId
  | _ => false

def isFailure (modelId : String) : HealthCall → Bool
  | .recordFailure recorded _ => recorded == modelId
  | _ => false

end HealthCall

/-- The failures of a model that were recorded after its last success. -/
def failuresSinceSuccess (modelId : String) (calls : List HealthCall) : ℕ :=
  (calls.reverse.takeWhile fun call => !call.isSuccess modelId).countP (·.isFailure modelId)

theorem failuresSinceSuccess_concat (modelId : String) (calls : List HealthCall)
    (call : HealthCall) :
    failuresSinceSuccess modelId (calls ++ [call]) =
      if call.isSuccess modelId then 0
      else failuresSinceSuccess modelId calls + if call.isFailure modelId then 1 else 0 := by
  simp only [failuresSinceSuccess, List.reverse_append, List.reverse_singleton,
    List.singleton_append, List.takeWhile_cons]
  by_cases success : call.isSuccess modelId = true
  · simp [success]
  · simp [success, List.countP_cons]

namespace ModelHealthStore

variable {store : ModelHealthStore} {modelId : String} {now : ℚ}

/-- The store after a call. -/
def perform (store : ModelHealthStore) : HealthCall → ModelHealthStore
  | .allowCall modelId now => (store.allowCall now modelId).1
  | .recordSuccess modelId => store.recordSuccess modelId
  | .recordFailure modelId now => store.recordFailure now modelId

/-- The store after calls from the first to the last. -/
def performAll (store : ModelHealthStore) (calls : List HealthCall) : ModelHealthStore :=
  calls.foldl perform store

@[simp] theorem performAll_nil : store.performAll [] = store := rfl

theorem performAll_concat (calls : List HealthCall) (call : HealthCall) :
    store.performAll (calls ++ [call]) = (store.performAll calls).perform call := by
  simp only [performAll, List.foldl_append, List.foldl_cons, List.foldl_nil]

/-- What a call does to the record of a model, as one case for each way through the methods. -/
inductive Performed (store : ModelHealthStore) (modelId : String) (health : ModelHealth) :
    HealthCall → ModelHealth → Prop
  | unchanged {call : HealthCall} (noSuccess : call.isSuccess modelId = false)
      (noFailure : call.isFailure modelId = false) : Performed store modelId health call health
  | halfOpens {now : ℚ} (state : health.state = .opened) :
      Performed store modelId health (.allowCall modelId now)
        { health with state := .halfOpen, halfOpenInFlight := 1 }
  | joins {now : ℚ} (state : health.state = .halfOpen)
      (room : health.halfOpenInFlight < store.halfOpenMaxInFlight) :
      Performed store modelId health (.allowCall modelId now)
        { health with halfOpenInFlight := health.halfOpenInFlight + 1 }
  | succeeds : Performed store modelId health (.recordSuccess modelId) {}
  | reopens {now : ℚ} (state : health.state = .halfOpen) :
      Performed store modelId health (.recordFailure modelId now) (store.opens now health)
  | counts {now : ℚ} (state : health.state ≠ .halfOpen)
      (few : health.failureCount + 1 < store.failureThreshold) :
      Performed store modelId health (.recordFailure modelId now)
        { health with failureCount := health.failureCount + 1 }
  | trips {now : ℚ} (state : health.state ≠ .halfOpen)
      (many : store.failureThreshold ≤ health.failureCount + 1) :
      Performed store modelId health (.recordFailure modelId now)
        (store.opens now { health with failureCount := health.failureCount + 1 })

/-- A call for another model leaves the record. -/
theorem performed_other {call : HealthCall} {other : String} {health : ModelHealth}
    (rewritten : store.perform call = store.set other health) (distinct : modelId ≠ other)
    (noSuccess : call.isSuccess modelId = false) (noFailure : call.isFailure modelId = false) :
    Performed store modelId (store.health modelId) call ((store.perform call).health modelId) := by
  rw [rewritten, health_set_ne store distinct]
  exact .unchanged noSuccess noFailure

theorem performed_allowCall (store : ModelHealthStore) (modelId asked : String) (now : ℚ) :
    Performed store modelId (store.health modelId) (.allowCall asked now)
      ((store.perform (.allowCall asked now)).health modelId) := by
  have answer := store.allowCall_allowed now asked
  have performs : store.perform (.allowCall asked now) = (store.allowCall now asked).1 := rfl
  generalize store.allowCall now asked = result at answer performs
  by_cases same : modelId = asked
  · subst same
    rw [performs]
    cases answer with
    | refused =>
      rw [health_set]
      exact .unchanged rfl rfl
    | closed =>
      rw [health_set]
      exact .unchanged rfl rfl
    | halfOpens state =>
      rw [health_set]
      exact .halfOpens state
    | joins state room =>
      rw [health_set]
      exact .joins state room
  · cases answer <;> exact performed_other performs same rfl rfl

theorem performed_recordFailure (store : ModelHealthStore) (modelId recorded : String) (now : ℚ) :
    Performed store modelId (store.health modelId) (.recordFailure recorded now)
      ((store.perform (.recordFailure recorded now)).health modelId) := by
  by_cases same : modelId = recorded
  · subst same
    simp only [perform, recordFailure]
    split_ifs with probing many
    · rw [health_set]
      exact .reopens probing
    · rw [health_set]
      exact .trips probing many
    · rw [health_set]
      exact .counts probing (by omega)
  · obtain ⟨health, rewritten, -⟩ := store.recordFailure_set now recorded
    refine performed_other rewritten same rfl ?_
    exact beq_eq_false_iff_ne.mpr (Ne.symm same)

theorem performed (store : ModelHealthStore) (modelId : String) (call : HealthCall) :
    Performed store modelId (store.health modelId) call ((store.perform call).health modelId) := by
  cases call with
  | allowCall asked now => exact performed_allowCall store modelId asked now
  | recordFailure recorded now => exact performed_recordFailure store modelId recorded now
  | recordSuccess recorded =>
    by_cases same : modelId = recorded
    · subst same
      simp only [perform, recordSuccess, health_set]
      exact .succeeds
    · exact performed_other rfl same (beq_eq_false_iff_ne.mpr (Ne.symm same)) rfl

theorem recordFailure_settings (store : ModelHealthStore) (now : ℚ) (modelId : String) :
    (store.recordFailure now modelId).failureThreshold = store.failureThreshold ∧
      (store.recordFailure now modelId).halfOpenMaxInFlight = store.halfOpenMaxInFlight := by
  obtain ⟨health, rewritten, -⟩ := store.recordFailure_set now modelId
  rw [rewritten]
  exact ⟨rfl, rfl⟩

theorem allowCall_settings (store : ModelHealthStore) (now : ℚ) (modelId : String) :
    (store.allowCall now modelId).1.failureThreshold = store.failureThreshold ∧
      (store.allowCall now modelId).1.halfOpenMaxInFlight = store.halfOpenMaxInFlight := by
  have answer := store.allowCall_allowed now modelId
  generalize store.allowCall now modelId = result at answer
  cases answer <;> exact ⟨rfl, rfl⟩

theorem perform_settings (store : ModelHealthStore) (call : HealthCall) :
    (store.perform call).failureThreshold = store.failureThreshold ∧
      (store.perform call).halfOpenMaxInFlight = store.halfOpenMaxInFlight := by
  cases call with
  | allowCall modelId now => exact allowCall_settings store now modelId
  | recordSuccess modelId => exact ⟨rfl, rfl⟩
  | recordFailure modelId now => exact recordFailure_settings store now modelId

/-- What the record of a model says in each state, after the failures since its last success. -/
structure Lawful (store : ModelHealthStore) (failures : ℕ) (health : ModelHealth) : Prop where
  closed : health.state = .closed →
    health.failureCount = failures ∧ failures < store.failureThreshold ∧
      health.halfOpenInFlight = 0
  halfOpen : health.state = .halfOpen → health.halfOpenInFlight ≤ store.halfOpenMaxInFlight
  opened : health.state = .opened → health.halfOpenInFlight = 0

namespace Lawful

variable {failures : ℕ} {health : ModelHealth}

theorem of_closed (state : health.state = .closed) (counted : health.failureCount = failures)
    (few : failures < store.failureThreshold) (idle : health.halfOpenInFlight = 0) :
    Lawful store failures health where
  closed := fun _ => ⟨counted, few, idle⟩
  halfOpen := fun probing => absurd (state.symm.trans probing) (by decide)
  opened := fun opened => absurd (state.symm.trans opened) (by decide)

theorem of_halfOpen (state : health.state = .halfOpen)
    (limit : health.halfOpenInFlight ≤ store.halfOpenMaxInFlight) :
    Lawful store failures health where
  closed := fun closed => absurd (state.symm.trans closed) (by decide)
  halfOpen := fun _ => limit
  opened := fun opened => absurd (state.symm.trans opened) (by decide)

theorem of_opened (state : health.state = .opened) (idle : health.halfOpenInFlight = 0) :
    Lawful store failures health where
  closed := fun closed => absurd (state.symm.trans closed) (by decide)
  halfOpen := fun probing => absurd (state.symm.trans probing) (by decide)
  opened := fun _ => idle

end Lawful

/-- A call keeps the laws of every record. -/
theorem Lawful.performed {calls : List HealthCall} {call : HealthCall} {health after : ModelHealth}
    (positive : 0 < store.failureThreshold)
    (lawful : Lawful store (failuresSinceSuccess modelId calls) health)
    (performed : Performed store modelId health call after) :
    Lawful store (failuresSinceSuccess modelId (calls ++ [call])) after := by
  rw [failuresSinceSuccess_concat]
  have limit := store.half_open_max_pos
  cases performed with
  | unchanged noSuccess noFailure =>
    rw [if_neg (by simp [noSuccess]), if_neg (by simp [noFailure])]
    exact lawful
  | halfOpens state => exact .of_halfOpen rfl limit
  | joins state room => exact .of_halfOpen state room
  | succeeds =>
    rw [if_pos (by simp [HealthCall.isSuccess])]
    exact .of_closed rfl rfl positive rfl
  | reopens state => exact .of_opened rfl rfl
  | counts state few =>
    rw [if_neg (by simp [HealthCall.isSuccess]), if_pos (by simp [HealthCall.isFailure])]
    refine ⟨fun closed => ?_, fun probing => absurd probing state, lawful.opened⟩
    obtain ⟨counted, -, idle⟩ := lawful.closed closed
    exact ⟨congrArg (· + 1) counted, by omega, idle⟩
  | trips state many => exact .of_opened rfl rfl

theorem performAll_settings (store : ModelHealthStore) (calls : List HealthCall) :
    (store.performAll calls).failureThreshold = store.failureThreshold ∧
      (store.performAll calls).halfOpenMaxInFlight = store.halfOpenMaxInFlight := by
  induction calls using List.reverseRecOn with
  | nil => exact ⟨rfl, rfl⟩
  | append_singleton calls call ih =>
    obtain ⟨threshold, limit⟩ := perform_settings (store.performAll calls) call
    rw [performAll_concat]
    exact ⟨threshold.trans ih.1, limit.trans ih.2⟩

theorem health_fresh (settings : ModelHealthStore) (modelId : String) :
    settings.fresh.health modelId = {} := by
  simp [ModelHealthStore.health, ModelHealthStore.get, fresh]

/-- The record of every model is lawful after any calls. -/
theorem lawful_performAll (settings : ModelHealthStore) (positive : 0 < settings.failureThreshold)
    (calls : List HealthCall) (modelId : String) :
    Lawful (settings.fresh.performAll calls) (failuresSinceSuccess modelId calls)
      ((settings.fresh.performAll calls).health modelId) := by
  induction calls using List.reverseRecOn with
  | nil =>
    rw [performAll_nil, health_fresh]
    exact .of_closed rfl rfl positive rfl
  | append_singleton calls call ih =>
    have threshold := (performAll_settings settings.fresh calls).1
    have kept := ih.performed (threshold ▸ positive) (performed _ modelId call)
    obtain ⟨same_threshold, same_limit⟩ := perform_settings (settings.fresh.performAll calls) call
    rw [performAll_concat]
    exact ⟨same_threshold ▸ kept.closed, same_limit ▸ kept.halfOpen, kept.opened⟩

/-- The admission and the query that the selection uses agree in every store. -/
theorem allowCall_iff_not_isUnavailable (store : ModelHealthStore) (now : ℚ) (modelId : String) :
    (store.allowCall now modelId).2 = true ↔ store.isUnavailable now modelId = false := by
  unfold isUnavailable allowCall
  cases found : store.get modelId with
  | none => simp [ModelHealthStore.health, found]
  | some health =>
    have limit := store.half_open_max_pos
    cases state : health.state with
    | closed => simp [ModelHealthStore.health, found, state]
    | opened =>
      by_cases paused : now < health.openUntil
      · simp [ModelHealthStore.health, found, state, paused]
      · simp [ModelHealthStore.health, found, state, paused, limit.ne']
    | halfOpen =>
      by_cases full : store.halfOpenMaxInFlight ≤ health.halfOpenInFlight
      · simp [ModelHealthStore.health, found, state, full]
      · simp [ModelHealthStore.health, found, state, full]

/-- From closed, exactly the failure that fills the threshold opens the circuit. -/
theorem Performed.opens_closed {health after : ModelHealth} {call : HealthCall}
    (performed : Performed store modelId health call after) (state : health.state = .closed)
    (few : health.failureCount < store.failureThreshold) :
    after.state = .opened ↔
      call.isFailure modelId = true ∧ health.failureCount + 1 = store.failureThreshold := by
  cases performed with
  | unchanged noSuccess noFailure => simp [state, noFailure]
  | halfOpens opened => exact absurd (state.symm.trans opened) (by decide)
  | joins probing => exact absurd (state.symm.trans probing) (by decide)
  | succeeds => simp [HealthCall.isFailure]
  | reopens probing => exact absurd (state.symm.trans probing) (by decide)
  | counts other fewer =>
    refine iff_of_false ?_ ?_
    · simp [state]
    · rintro ⟨-, filled⟩
      omega
  | trips other many =>
    refine iff_of_true rfl ⟨by simp [HealthCall.isFailure], ?_⟩
    omega

/-- From half-open, exactly a failure opens the circuit. -/
theorem Performed.opens_halfOpen {health after : ModelHealth} {call : HealthCall}
    (performed : Performed store modelId health call after) (state : health.state = .halfOpen) :
    after.state = .opened ↔ call.isFailure modelId = true := by
  cases performed with
  | unchanged noSuccess noFailure => simp [state, noFailure]
  | halfOpens opened => exact absurd (state.symm.trans opened) (by decide)
  | joins => simp [state, HealthCall.isFailure]
  | succeeds => simp [HealthCall.isFailure]
  | reopens => exact iff_of_true rfl (by simp [HealthCall.isFailure])
  | counts other => exact absurd state other
  | trips other => exact absurd state other

end ModelHealthStore

open ModelHealthStore in
/-- After any calls on a fresh store: the record of each state, the agreement of admission and
query, and when the next call opens the circuit. -/
theorem circuit_laws (settings : ModelHealthStore) (positive : 1 ≤ settings.failureThreshold)
    (calls : List HealthCall) (modelId : String) {store : ModelHealthStore} {health : ModelHealth}
    (reached : settings.fresh.performAll calls = store) (record : store.health modelId = health) :
    (health.state = .closed →
      health.failureCount < settings.failureThreshold ∧ health.halfOpenInFlight = 0) ∧
    (health.state = .halfOpen → 0 ≤ health.halfOpenInFlight ∧
      health.halfOpenInFlight ≤ settings.halfOpenMaxInFlight) ∧
    (health.state = .opened → health.halfOpenInFlight = 0) ∧
    (∀ now, (store.allowCall now modelId).2 = true ↔ store.isUnavailable now modelId = false) ∧
    (health.state = .closed → ∀ call, ((store.perform call).health modelId).state = .opened ↔
      call.isFailure modelId = true ∧
        failuresSinceSuccess modelId calls + 1 = settings.failureThreshold) ∧
    (health.state = .halfOpen → ∀ call, ((store.perform call).health modelId).state = .opened ↔
      call.isFailure modelId = true) := by
  have lawful := lawful_performAll settings positive calls modelId
  obtain ⟨threshold, limit⟩ := performAll_settings settings.fresh calls
  rw [reached] at lawful threshold limit
  have next (call : HealthCall) := performed store modelId call
  rw [record] at lawful next
  change store.failureThreshold = settings.failureThreshold at threshold
  change store.halfOpenMaxInFlight = settings.halfOpenMaxInFlight at limit
  rw [← threshold, ← limit]
  refine ⟨fun closed => ?_, fun probing => ⟨Nat.zero_le _, lawful.halfOpen probing⟩, lawful.opened,
    fun now => store.allowCall_iff_not_isUnavailable now modelId, fun closed call => ?_,
    fun probing call => (next call).opens_halfOpen probing⟩
  · obtain ⟨counted, few, idle⟩ := lawful.closed closed
    exact ⟨counted ▸ few, idle⟩
  · obtain ⟨counted, few, -⟩ := lawful.closed closed
    rw [← counted] at few ⊢
    exact (next call).opens_closed closed few

/-- Two failures under the default threshold of three: the third opens the circuit. -/
theorem circuit_laws_two_failures :
    ((getModelHealthStore.fresh.performAll [.recordFailure "m" 0, .recordFailure "m" 1]).health
      "m").state = .closed ∧
    (((getModelHealthStore.fresh.performAll [.recordFailure "m" 0, .recordFailure "m" 1]).perform
      (.recordFailure "m" 2)).health "m").state = .opened := by
  have closed : ((getModelHealthStore.fresh.performAll
      [.recordFailure "m" 0, .recordFailure "m" 1]).health "m").state = .closed := by
    decide +kernel
  have laws := circuit_laws getModelHealthStore (by decide)
    [.recordFailure "m" 0, .recordFailure "m" 1] "m" rfl rfl
  exact ⟨closed, (laws.2.2.2.2.1 closed (.recordFailure "m" 2)).mpr ⟨by decide, by decide⟩⟩

end HeyeeAgent.InfraAi
