import Mathlib.Data.List.AList
import Mathlib.Data.Rat.Defs

/-! # Circuit breaker records of the models

`ModelHealthStore` with the clock reading of each method as an argument. The admission limit of a
half-open model is positive, as the settings require. An entry that a method creates by
`setdefault` is the default record, so reading a model without an entry gives that record.
-/

namespace HeyeeAgent.InfraAi

inductive HealthState where
  | closed
  | opened
  | halfOpen
deriving DecidableEq, Repr

structure ModelHealth where
  state : HealthState := .closed
  failureCount : ℕ := 0
  openUntil : ℚ := 0
  halfOpenInFlight : ℕ := 0
deriving DecidableEq

structure ModelHealthStore where
  failureThreshold : ℕ
  openSeconds : ℚ
  halfOpenMaxInFlight : ℕ
  half_open_max_pos : 0 < halfOpenMaxInFlight
  healthById : AList fun _ : String => ModelHealth := ∅

/-- `get_model_health_store` under the default settings. -/
def getModelHealthStore : ModelHealthStore where
  failureThreshold := 3
  openSeconds := 60
  halfOpenMaxInFlight := 1
  half_open_max_pos := by decide

namespace ModelHealthStore

def get (store : ModelHealthStore) (modelId : String) : Option ModelHealth :=
  store.healthById.lookup modelId

def set (store : ModelHealthStore) (modelId : String) (health : ModelHealth) : ModelHealthStore :=
  { store with healthById := store.healthById.insert modelId health }

@[simp] theorem get_set (store : ModelHealthStore) (modelId : String) (health : ModelHealth) :
    (store.set modelId health).get modelId = some health := AList.lookup_insert _

theorem get_set_ne (store : ModelHealthStore) {modelId other : String} (distinct : other ≠ modelId)
    (health : ModelHealth) : (store.set modelId health).get other = store.get other :=
  AList.lookup_insert_ne distinct

/-- The entry, or the one that `setdefault` creates. -/
def health (store : ModelHealthStore) (modelId : String) : ModelHealth :=
  (store.get modelId).getD {}

@[simp] theorem health_set (store : ModelHealthStore) (modelId : String) (health : ModelHealth) :
    (store.set modelId health).health modelId = health := by simp [ModelHealthStore.health]

theorem health_set_ne (store : ModelHealthStore) {modelId other : String}
    (distinct : other ≠ modelId) (health : ModelHealth) :
    (store.set modelId health).health other = store.health other := by
  simp only [ModelHealthStore.health, get_set_ne store distinct]

def isUnavailable (store : ModelHealthStore) (now : ℚ) (modelId : String) : Bool :=
  match store.get modelId with
  | none => false
  | some health =>
    if health.state = .opened then decide (now < health.openUntil)
    else decide (health.state = .halfOpen ∧ store.halfOpenMaxInFlight ≤ health.halfOpenInFlight)

/-- `_open` -/
def opens (store : ModelHealthStore) (now : ℚ) (health : ModelHealth) : ModelHealth :=
  { health with state := .opened, openUntil := now + store.openSeconds, halfOpenInFlight := 0 }

def allowCall (store : ModelHealthStore) (now : ℚ) (modelId : String) : ModelHealthStore × Bool :=
  let health := store.health modelId
  if health.state = .opened ∧ now < health.openUntil then (store.set modelId health, false)
  else
    let health :=
      if health.state = .opened then { health with state := .halfOpen, halfOpenInFlight := 0 }
      else health
    if health.state = .halfOpen then
      if store.halfOpenMaxInFlight ≤ health.halfOpenInFlight then (store.set modelId health, false)
      else
        (store.set modelId { health with halfOpenInFlight := health.halfOpenInFlight + 1 }, true)
    else (store.set modelId health, true)

def recordSuccess (store : ModelHealthStore) (modelId : String) : ModelHealthStore :=
  store.set modelId {}

def recordFailure (store : ModelHealthStore) (now : ℚ) (modelId : String) : ModelHealthStore :=
  let health := store.health modelId
  if health.state = .halfOpen then store.set modelId (store.opens now health)
  else
    let health := { health with failureCount := health.failureCount + 1 }
    if store.failureThreshold ≤ health.failureCount then
      store.set modelId (store.opens now health)
    else store.set modelId health

/-- The ways `allow_call` answers, and the record it leaves. -/
inductive Allowed (store : ModelHealthStore) (now : ℚ) (modelId : String) :
    ModelHealthStore × Bool → Prop
  | refused (paused : (store.health modelId).state = .opened →
      now < (store.health modelId).openUntil) :
      Allowed store now modelId (store.set modelId (store.health modelId), false)
  | closed (state : (store.health modelId).state = .closed) :
      Allowed store now modelId (store.set modelId (store.health modelId), true)
  /-- the first call after the pause -/
  | halfOpens (state : (store.health modelId).state = .opened)
      (passed : (store.health modelId).openUntil ≤ now) :
      Allowed store now modelId
        (store.set modelId { store.health modelId with state := .halfOpen, halfOpenInFlight := 1 },
          true)
  | joins (state : (store.health modelId).state = .halfOpen)
      (room : (store.health modelId).halfOpenInFlight < store.halfOpenMaxInFlight) :
      Allowed store now modelId
        (store.set modelId
          { store.health modelId with
            halfOpenInFlight := (store.health modelId).halfOpenInFlight + 1 }, true)

theorem allowCall_allowed (store : ModelHealthStore) (now : ℚ) (modelId : String) :
    Allowed store now modelId (store.allowCall now modelId) := by
  unfold allowCall
  dsimp only
  by_cases paused : (store.health modelId).state = .opened ∧ now < (store.health modelId).openUntil
  · rw [if_pos paused]
    exact .refused fun _ => paused.2
  · rw [if_neg paused]
    by_cases opened : (store.health modelId).state = .opened
    · have passed : (store.health modelId).openUntil ≤ now :=
        Rat.not_lt.mp fun early => paused ⟨opened, early⟩
      rw [if_pos opened, if_pos rfl, if_neg (by simpa using store.half_open_max_pos.ne')]
      exact .halfOpens opened passed
    · rw [if_neg opened]
      by_cases probing : (store.health modelId).state = .halfOpen
      · rw [if_pos probing]
        by_cases full : store.halfOpenMaxInFlight ≤ (store.health modelId).halfOpenInFlight
        · rw [if_pos full]
          exact .refused fun state => absurd state opened
        · rw [if_neg full]
          exact .joins probing (not_le.mp full)
      · rw [if_neg probing]
        refine .closed ?_
        cases state : (store.health modelId).state <;> simp_all

/-- A failure leaves the model closed or open, and other models alone. -/
theorem recordFailure_set (store : ModelHealthStore) (now : ℚ) (modelId : String) :
    ∃ health, store.recordFailure now modelId = store.set modelId health ∧
      health.state ≠ .halfOpen := by
  unfold recordFailure opens
  dsimp only
  split_ifs with probing many
  · exact ⟨_, rfl, by simp⟩
  · exact ⟨_, rfl, by simp⟩
  · exact ⟨_, rfl, probing⟩

/-- A model whose pause is over and that has no half-open call counted can be selected. -/
theorem not_isUnavailable {store : ModelHealthStore} {now : ℚ} {modelId : String}
    (passed : (store.health modelId).openUntil ≤ now)
    (idle : (store.health modelId).state = .halfOpen →
      (store.health modelId).halfOpenInFlight = 0) :
    store.isUnavailable now modelId = false := by
  unfold isUnavailable
  cases found : store.get modelId with
  | none => rfl
  | some health =>
    simp only [ModelHealthStore.health, found, Option.getD_some] at passed idle
    have positive := store.half_open_max_pos
    dsimp only
    split_ifs with state
    · simpa [Rat.not_lt] using passed
    · simp only [decide_eq_false_iff_not, not_and, not_le]
      intro probing
      have none := idle probing
      omega

end ModelHealthStore

end HeyeeAgent.InfraAi
