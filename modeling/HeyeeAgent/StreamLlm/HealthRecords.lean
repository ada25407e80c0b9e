import HeyeeAgent.StreamLlm.HalfOpenLimit
import HeyeeAgent.StreamLlm.OneAnswer

/-! # What an attempt leaves in the health store

Every call of `record_failure` and `record_success` that `start` or a callback makes, with the
candidate on whose account it is made. A run keeps them in a log beside the state, and the store is
what the log makes of it. Each step of `start` is one of five turns.
-/

namespace HeyeeAgent.StreamLlm

open InfraAi Machine StartState

/-- A call of `record_failure` or `record_success` on account of a candidate. -/
structure HealthRecord where
  candidate : ℕ
  failed : Bool
  now : ℚ
deriving DecidableEq

def HealthRecord.apply (targets : List StreamTarget) (store : ModelHealthStore)
    (record : HealthRecord) : ModelHealthStore :=
  if record.failed then store.recordFailure record.now (targetId targets record.candidate)
  else store.recordSuccess (targetId targets record.candidate)

namespace StartState

/-- The record of what follows `await_first_packet`. -/
def waitRecords (s : StartState) (i : ℕ) (now : ℚ) :
    Option FirstPacketStatus → List HealthRecord
  | some .firstToken => if (s.routed i).any (·.failedAfterOutput) then [] else [⟨i, false, now⟩]
  | _ => [⟨i, true, now⟩]

/-- The records that a step makes. -/
def records (s : StartState) : StartEvent → List HealthRecord
  | .callback i event now =>
    if (s.routed i).any fun r => (r.receive event).2.2 then [⟨i, true, now⟩] else []
  | .streamReturns now =>
    match s.pc, s.pc.attempt.bind s.firstPacketStatus with
    | .streaming i, some status => s.waitRecords i now (some status)
    | _, _ => []
  | .streamRaises _ now =>
    match s.pc with
    | .streaming i => [⟨i, true, now⟩]
    | _ => []
  | .resume now =>
    match s.pc with
    | .awaitingFirstPacket i timedOut =>
      s.waitRecords i now (if timedOut then none else s.firstPacketStatus i)
    | _ => []
  | .timer | .cancel => []

end StartState

/-- A step, with the log of the records. -/
def loggedStep (targets : List StreamTarget) (s : StartState × List HealthRecord) (e : StartEvent) :
    Option (StartState × List HealthRecord) :=
  (startStep targets s.1 e).map fun t => (t, s.2 ++ s.1.records e)

variable {targets : List StreamTarget} {s t : StartState}

/-- A step of `start`: a callback runs, or `start` goes on waiting for its candidate, falls back from
it, returns its handle, or is cancelled. -/
inductive Turn (targets : List StreamTarget) (s : StartState) :
    StartEvent → StartState → List HealthRecord → Prop
  | callback {i : ℕ} {event : CallbackEvent} {now : ℚ} {r : FirstTokenStreamCallback}
      (found : s.routed i = some r) {health : ModelHealthStore} :
      Turn targets s (.callback i event now)
        { s.setRouted i (r.receive event).1 with
          health
          forwarded := if (r.receive event).2.1 then s.forwarded ++ [(i, event)] else s.forwarded }
        (if (r.receive event).2.2 then [⟨i, true, now⟩] else [])
  | waits {e : StartEvent} {i : ℕ} {handles : List ℕ} {pc : StartPc}
      (current : s.pc.attempt = some i) (obtained : handles ⊆ s.handles ++ [i])
      (next : pc.attempt = some i) : Turn targets s e { s with handles, pc } []
  | fallsBack {e : StartEvent} {i : ℕ} {handles : List ℕ} {pc : StartPc} {now : ℚ} {error : String}
      (current : s.pc.attempt = some i) (obtained : handles ⊆ s.handles ++ [i]) :
      Turn targets s e (fallBack targets { s with handles, pc } i now error) [⟨i, true, now⟩]
  | returns {e : StartEvent} {i : ℕ} {handles : List ℕ} {health : ModelHealthStore}
      {records : List HealthRecord} (current : s.pc.attempt = some i)
      (obtained : handles ⊆ s.handles ++ [i]) (own : ∀ record ∈ records, record.candidate = i) :
      Turn targets s e { s with handles, health, pc := .returned i } records
  | cancels {e : StartEvent} {i : ℕ} (current : s.pc.attempt = some i) :
      Turn targets s e { (s.suppress i).cancelHandle i with pc := .cancelled i } []

/-- A wait without a first token records a failure. -/
theorem waitRecords_failed (i : ℕ) (now : ℚ) {status : Option FirstPacketStatus}
    (failed : status ≠ some .firstToken) : s.waitRecords i now status = [⟨i, true, now⟩] := by
  unfold waitRecords
  split
  · exact absurd rfl failed
  · rfl

theorem turn_decided {e : StartEvent} {i : ℕ} {handles : List ℕ} {pc : StartPc} (now : ℚ)
    (status : Option FirstPacketStatus) (error : Option String) (current : s.pc.attempt = some i)
    (obtained : handles ⊆ s.handles ++ [i]) :
    Turn targets s e (decided targets { s with handles, pc } i now status error)
      (s.waitRecords i now status) := by
  unfold decided
  split
  · refine .returns current obtained fun record member => ?_
    simp only [waitRecords] at member
    split_ifs at member
    · cases member
    · rw [List.mem_singleton.mp member]
  · next other =>
    rw [waitRecords_failed i now other]
    exact .fallsBack current obtained

theorem health_fallBack (i : ℕ) (now : ℚ) (error : String) :
    (s.fallBack targets i now error).health = s.health.recordFailure now (targetId targets i) := by
  rw [fallBack, health_tryFrom]
  change ((s.suppress i).cancelHandle i).health.recordFailure now _ = _
  rw [health_cancelHandle]
  rfl

theorem health_decided (i : ℕ) (now : ℚ) (status : Option FirstPacketStatus)
    (error : Option String) :
    (s.decided targets i now status error).health =
      (s.waitRecords i now status).foldl (HealthRecord.apply targets) s.health := by
  unfold decided
  split
  · simp only [waitRecords]
    split_ifs <;> rfl
  · next other =>
    rw [waitRecords_failed i now other, health_fallBack]
    rfl

/-- A step is one of the kinds of turns, and does to the store what its records say. -/
theorem step_turn {e : StartEvent} (taken : startStep targets s e = some t) :
    Turn targets s e t (s.records e) ∧
      t.health = (s.records e).foldl (HealthRecord.apply targets) s.health := by
  cases e with
  | callback i event now =>
    obtain ⟨r, found, rfl⟩ := Option.map_eq_some_iff.mp taken
    simp only [StartState.records, found, Option.any_some]
    refine ⟨.callback found, ?_⟩
    split_ifs <;> rfl
  | streamReturns now =>
    simp only [startStep] at taken
    split at taken
    · next i place =>
      have current : s.pc.attempt = some i := by rw [place]; rfl
      have more : s.handles ++ [i] ⊆ s.handles ++ [i] := List.Subset.refl _
      split at taken
      · next status marked =>
        cases taken
        have known : s.firstPacketStatus i = some status := marked
        simp only [StartState.records, place, StartPc.attempt, Option.bind_some, known]
        exact ⟨turn_decided now _ _ current more, health_decided i now _ _⟩
      · next marked =>
        cases taken
        have unknown : s.firstPacketStatus i = none := marked
        simp only [StartState.records, place, StartPc.attempt, Option.bind_some, unknown]
        exact ⟨.waits current more rfl, rfl⟩
    · cases taken
  | streamRaises error now =>
    simp only [startStep] at taken
    split at taken
    · next i place =>
      cases taken
      simp only [StartState.records, place]
      exact ⟨.fallsBack (by rw [place]; rfl) (List.subset_append_left _ _),
        health_fallBack i now error⟩
    · cases taken
  | timer =>
    simp only [startStep] at taken
    split at taken
    · next i place =>
      cases taken
      exact ⟨.waits (by rw [place]; rfl) (List.subset_append_left _ _) rfl, rfl⟩
    · cases taken
  | resume now =>
    simp only [startStep] at taken
    split at taken
    · next i place =>
      cases taken
      simp only [StartState.records, place, if_true]
      exact ⟨turn_decided now none none (by rw [place]; rfl) (List.subset_append_left _ _),
        health_decided i now none none⟩
    · next i place =>
      obtain ⟨status, marked, rfl⟩ := Option.map_eq_some_iff.mp taken
      have known : s.firstPacketStatus i = some status := marked
      simp only [StartState.records, place, Bool.false_eq_true, if_false, known]
      exact ⟨turn_decided now _ _ (by rw [place]; rfl) (List.subset_append_left _ _),
        health_decided i now _ _⟩
    · cases taken
  | cancel =>
    simp only [startStep] at taken
    split at taken
    · next i place =>
      cases taken
      exact ⟨.cancels (by rw [place]; rfl), health_cancelHandle _⟩
    · next i timedOut place =>
      cases taken
      exact ⟨.cancels (by rw [place]; rfl), health_cancelHandle _⟩
    · cases taken

/-- The store is what the log makes of the store at the start. -/
theorem health_logged {health : ModelHealthStore} {es : List StartEvent}
    {s : StartState × List HealthRecord}
    (run : runFrom (loggedStep targets) (startInitial targets health, []) es = some s) :
    s.1.health = s.2.foldl (HealthRecord.apply targets) health := by
  apply invariant_runFrom (I := fun s => s.1.health = s.2.foldl (HealthRecord.apply targets) health)
    ?_ ?_ run
  · intro s e t kept taken
    obtain ⟨next, moved, rfl⟩ := Option.map_eq_some_iff.mp taken
    dsimp only
    rw [List.foldl_append, ← kept]
    exact (step_turn moved).2
  · exact health_tryFrom 0

theorem turn_of_logged {s t : StartState × List HealthRecord} {e : StartEvent}
    (taken : loggedStep targets s e = some t) :
    ∃ records, Turn targets s.1 e t.1 records ∧ t.2 = s.2 ++ records := by
  obtain ⟨next, moved, rfl⟩ := Option.map_eq_some_iff.mp taken
  exact ⟨_, (step_turn moved).1, rfl⟩

end HeyeeAgent.StreamLlm
