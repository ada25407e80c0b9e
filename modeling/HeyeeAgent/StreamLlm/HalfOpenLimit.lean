import HeyeeAgent.StreamLlm.SharedBreaker
import Mathlib.Algebra.Order.Ring.Rat

/-! # The half-open limit over all callers

What an execution begins, `allow_call` has admitted and counted, and an opening puts every call that
is outstanding before its pause. So executions alone keep to the pause and to the limit, and a run
loses it exactly at a call of a stream that `allow_call` was not asked about, or at an execution that
is admitted beside streams that it did not count.
-/

namespace HeyeeAgent.StreamLlm

open InfraAi Machine

variable {T : Type*}

/-- A record is left as it was but for its failures, closed, or opened for a pause. -/
def RecordedHealth (now : ℚ) (before after : ModelHealth) : Prop :=
  (after.state = before.state ∧ after.openUntil = before.openUntil ∧
      after.halfOpenInFlight = before.halfOpenInFlight) ∨
    after.state = .closed ∨ (after.state = .opened ∧ now < after.openUntil)

/-- What the outcome of calls does to the store. -/
structure Recorded (now : ℚ) (before after : ModelHealthStore) : Prop where
  seconds : after.openSeconds = before.openSeconds
  limit : after.halfOpenMaxInFlight = before.halfOpenMaxInFlight
  health : ∀ modelId, RecordedHealth now (before.health modelId) (after.health modelId)

namespace Recorded

variable {now : ℚ} {store : ModelHealthStore}

theorem refl (now : ℚ) (store : ModelHealthStore) : Recorded now store store :=
  ⟨rfl, rfl, fun _ => .inl ⟨rfl, rfl, rfl⟩⟩

theorem set {modelId : String} {health : ModelHealth}
    (recorded : RecordedHealth now (store.health modelId) health) :
    Recorded now store (store.set modelId health) := by
  refine ⟨rfl, rfl, fun other => ?_⟩
  by_cases same : other = modelId
  · rw [same, ModelHealthStore.health_set]
    exact recorded
  · rw [ModelHealthStore.health_set_ne store same]
    exact .inl ⟨rfl, rfl, rfl⟩

theorem recordSuccess (modelId : String) : Recorded now store (store.recordSuccess modelId) :=
  set (.inr (.inl rfl))

theorem recordFailure (seconds : 0 < store.openSeconds) (modelId : String) :
    Recorded now store (store.recordFailure now modelId) := by
  have paused : now < now + store.openSeconds := lt_add_of_pos_right now seconds
  unfold ModelHealthStore.recordFailure
  dsimp only
  split_ifs
  · exact set (.inr (.inr ⟨rfl, paused⟩))
  · exact set (.inr (.inr ⟨rfl, paused⟩))
  · exact set (.inl ⟨rfl, rfl, rfl⟩)

end Recorded

section Start

variable {targets : List StreamTarget} {s : StartState} {now : ℚ}

@[simp] theorem health_tryFrom (k : ℕ) : (s.tryFrom targets k).health = s.health := by
  unfold StartState.tryFrom
  split <;> rfl

@[simp] theorem health_cancelHandle (i : ℕ) : (s.cancelHandle i).health = s.health := by
  unfold StartState.cancelHandle
  split <;> rfl

theorem recorded_fallBack (seconds : 0 < s.health.openSeconds) (i : ℕ) (error : String) :
    Recorded now s.health (s.fallBack targets i now error).health := by
  rw [StartState.fallBack, health_tryFrom]
  change Recorded now s.health (((s.suppress i).cancelHandle i).health.recordFailure now _)
  rw [health_cancelHandle]
  exact Recorded.recordFailure seconds _

theorem recorded_decided (seconds : 0 < s.health.openSeconds) (i : ℕ)
    (status : Option FirstPacketStatus) (error : Option String) :
    Recorded now s.health (s.decided targets i now status error).health := by
  unfold StartState.decided
  split
  · dsimp only
    split_ifs
    · exact Recorded.refl now s.health
    · exact Recorded.recordSuccess _
  · exact recorded_fallBack seconds i _

/-- A turn of `start` records outcomes and asks nothing. -/
theorem recorded_startStep {t : StartState} {event : StartEvent} (seconds : 0 < s.health.openSeconds)
    (taken : startStep targets s (event.at now) = some t) : Recorded now s.health t.health := by
  cases event with
  | callback i event time =>
    obtain ⟨r, -, rfl⟩ := Option.map_eq_some_iff.mp taken
    dsimp only
    split_ifs
    · exact Recorded.recordFailure seconds _
    · exact Recorded.refl now s.health
  | streamReturns time =>
    simp only [StartEvent.at, startStep] at taken
    split at taken
    · rename_i i _
      split at taken
      · rename_i status _
        cases taken
        exact recorded_decided (s := { s with handles := s.handles ++ [i] }) seconds i (some status) _
      · cases taken
        exact Recorded.refl now s.health
    · cases taken
  | streamRaises error time =>
    simp only [StartEvent.at, startStep] at taken
    split at taken
    · cases taken
      exact recorded_fallBack seconds _ error
    · cases taken
  | timer =>
    simp only [StartEvent.at, startStep] at taken
    split at taken
    · cases taken
      exact Recorded.refl now s.health
    · cases taken
  | resume time =>
    simp only [StartEvent.at, startStep] at taken
    split at taken
    · cases taken
      exact recorded_decided seconds _ _ _
    · obtain ⟨status, -, rfl⟩ := Option.map_eq_some_iff.mp taken
      exact recorded_decided seconds _ _ _
    · cases taken
  | cancel =>
    simp only [StartEvent.at, startStep] at taken
    split at taken
    · cases taken
      dsimp only
      rw [health_cancelHandle]
      exact Recorded.refl now s.health
    · cases taken
      dsimp only
      rw [health_cancelHandle]
      exact Recorded.refl now s.health
    · cases taken

end Start

namespace BreakerState

/-- What a turn leaves: outcomes that were recorded, with a call of a stream perhaps; or the answer of
`allow_call` for the call that an execution begins. -/
inductive Turned (s : BreakerState T) (n : ℕ) : ModelHealthStore → Task T → Prop
  | recorded {store : ModelHealthStore} {task : Task T} (recorded : Recorded s.clock s.store store)
      (asked : task.isStream = true ∨ task.call = none) : Turned s n store task
  | admitted {modelId : String} {store : ModelHealthStore} {x : Execution T}
      (answer : s.store.Allowed s.clock modelId (store, true))
      (begins : s.begins n (.execution x) = some modelId) : Turned s n store (.execution x)

/-- The calls of executions, issued after the pause. -/
def executing (store : ModelHealthStore) (modelId : String) (caller : Caller T) : Bool :=
  !caller.task.isStream && caller.outstanding store modelId

/-- What `allow_call` counts bounds the outstanding calls of executions. -/
structure Inv (s : BreakerState T) : Prop where
  seconds : 0 < s.store.openSeconds
  issued : ∀ caller ∈ s.callers, caller.issuedAt ≤ s.clock
  opened : ∀ modelId, (s.store.health modelId).state = .opened →
    s.callers.countP (executing s.store modelId) = 0
  halfOpen : ∀ modelId, (s.store.health modelId).state = .halfOpen →
    (s.store.health modelId).openUntil ≤ s.clock ∧
      s.callers.countP (executing s.store modelId) ≤ (s.store.health modelId).halfOpenInFlight ∧
      (s.store.health modelId).halfOpenInFlight ≤ s.store.halfOpenMaxInFlight

section Turns

variable {s : BreakerState T} {n : ℕ} {store : ModelHealthStore} {task : Task T}

theorem turned_next {client : Bool}
    (taken : s.executionTurn n (.next 0 client s.clock) = some (store, task)) :
    s.Turned n store task := by
  unfold executionTurn at taken
  split at taken
  · rename_i x issuedAt found
    obtain ⟨label, lastError, pc⟩ := x
    cases pc with
    | choosing rest =>
      cases rest with
      | nil =>
        cases taken
        exact .recorded (Recorded.refl _ _) (.inr rfl)
      | cons modelId rest =>
        cases client with
        | false =>
          cases taken
          exact .recorded (Recorded.refl _ _) (.inr rfl)
        | true =>
          have answer := s.store.allowCall_allowed s.clock modelId
          simp only [routerStep, List.getElem?_cons_zero, Bool.not_true, Bool.false_eq_true,
            ↓reduceIte, RouterState.setExecution, List.set_cons_zero, Option.bind_some,
            List.head?_cons, Option.map_some, Option.some.injEq, Prod.mk.injEq] at taken
          obtain ⟨rfl, rfl⟩ := taken
          generalize s.store.allowCall s.clock modelId = result at answer ⊢
          obtain ⟨store, allowed⟩ := result
          cases allowed with
          | false =>
            cases answer
            exact .recorded (Recorded.set (.inl ⟨rfl, rfl, rfl⟩)) (.inr rfl)
          | true =>
            apply Turned.admitted answer
            rw [begins, found]
            rfl
    | calling => cases taken
    | finished => cases taken
  · cases taken

theorem turned_finish (seconds : 0 < s.store.openSeconds) {outcome : CallOutcome T}
    (taken : s.executionTurn n (.finish 0 outcome s.clock) = some (store, task)) :
    s.Turned n store task := by
  unfold executionTurn at taken
  split at taken
  · rename_i x issuedAt found
    obtain ⟨label, lastError, pc⟩ := x
    cases pc with
    | calling modelId halfOpen rest =>
      cases outcome with
      | returned result =>
        cases taken
        exact .recorded (Recorded.recordSuccess modelId) (.inr rfl)
      | raised error =>
        cases taken
        exact .recorded (Recorded.recordFailure seconds modelId) (.inr rfl)
      | cancelled =>
        cases taken
        exact .recorded (Recorded.refl _ _) (.inr rfl)
    | choosing => cases taken
    | finished => cases taken
  · cases taken

theorem turned_turn {event : BreakerEvent T} (seconds : 0 < s.store.openSeconds)
    (taken : s.turn event = some (n, store, task)) : s.Turned n store task := by
  cases event with
  | advance now => cases taken
  | execute label targets =>
    cases targets with
    | nil =>
      cases taken
      exact .recorded (Recorded.refl _ _) (.inr rfl)
    | cons modelId rest =>
      cases taken
      exact .recorded (Recorded.refl _ _) (.inr rfl)
  | next m client =>
    obtain ⟨⟨store, task⟩, moved, same⟩ := Option.map_eq_some_iff.mp taken
    cases same
    exact turned_next moved
  | finish m outcome =>
    obtain ⟨⟨store, task⟩, moved, same⟩ := Option.map_eq_some_iff.mp taken
    cases same
    exact turned_finish seconds moved
  | start candidates =>
    cases taken
    refine .recorded ?_ (.inl rfl)
    rw [startInitial, health_tryFrom]
    exact Recorded.refl _ _
  | stream m event =>
    simp only [turn] at taken
    split at taken
    · rename_i targets start _ _
      obtain ⟨after, moved, same⟩ := Option.map_eq_some_iff.mp taken
      cases same
      exact .recorded (recorded_startStep (s := { start with health := s.store }) seconds moved)
        (.inl rfl)
    · cases taken

/-! ### Counts -/

theorem others_sublist (s : BreakerState T) (n : ℕ) : (s.others n).Sublist s.callers := by
  have split := List.take_append_drop n s.callers
  conv_rhs => rw [← split]
  apply List.Sublist.append (List.Sublist.refl _)
  rw [← List.drop_drop]
  exact List.drop_sublist 1 _

theorem countP_settle (p : Caller T → Bool) :
    (s.settle n store task).callers.countP p =
      (s.others n).countP p + if p (s.turned n task) then 1 else 0 := by
  rw [settle, others, List.countP_append, List.countP_append, List.countP_cons]
  omega

theorem countP_callers (p : Caller T → Bool) {caller : Caller T}
    (found : s.callers[n]? = some caller) :
    s.callers.countP p = (s.others n).countP p + if p caller then 1 else 0 := by
  obtain ⟨inside, rfl⟩ := List.getElem?_eq_some_iff.mp found
  have split := List.take_append_drop n s.callers
  rw [List.drop_eq_getElem_cons inside] at split
  conv_lhs => rw [← split]
  rw [others, List.countP_append, List.countP_append, List.countP_cons]
  omega

/-- The counted calls are those of streams and of executions. -/
theorem countP_outstanding (store : ModelHealthStore) (modelId : String) (callers : List (Caller T)) :
    callers.countP (Caller.outstanding store modelId) =
      callers.countP (Caller.streaming store modelId) +
        callers.countP (executing store modelId) := by
  induction callers with
  | nil => rfl
  | cons caller callers ih =>
    simp only [List.countP_cons, ih, Caller.streaming, executing]
    rcases Bool.eq_false_or_eq_true caller.task.isStream with stream | stream
    · simp only [stream, Bool.true_and, Bool.not_true, Bool.false_and, Bool.false_eq_true,
        ↓reduceIte]
      omega
    · simp only [stream, Bool.true_and, Bool.not_false, Bool.false_and, Bool.false_eq_true,
        ↓reduceIte]
      omega

/-- Only the end of the pause matters for what is outstanding. -/
theorem outstanding_congr {before after : ModelHealthStore} {modelId : String}
    (same : (after.health modelId).openUntil = (before.health modelId).openUntil) :
    Caller.outstanding (T := T) after modelId = Caller.outstanding before modelId := by
  funext caller
  rw [Caller.outstanding, same, Caller.outstanding]

theorem executing_congr {before after : ModelHealthStore} {modelId : String}
    (same : (after.health modelId).openUntil = (before.health modelId).openUntil) :
    executing (T := T) after modelId = executing before modelId := by
  funext caller
  rw [executing, outstanding_congr same, executing]

/-- An opening puts what is outstanding before its pause. -/
theorem countP_eq_zero_of_paused {callers : List (Caller T)} {modelId : String} {now : ℚ}
    (issued : ∀ caller ∈ callers, caller.issuedAt ≤ now)
    (paused : now < (store.health modelId).openUntil) :
    callers.countP (Caller.outstanding store modelId) = 0 := by
  rw [List.countP_eq_zero]
  intro caller member outstanding
  simp only [Caller.outstanding, Bool.and_eq_true, decide_eq_true_eq] at outstanding
  exact absurd (outstanding.2.trans (issued caller member)) (not_le_of_gt paused)

theorem executing_le (store : ModelHealthStore) (modelId : String) (callers : List (Caller T)) :
    callers.countP (executing store modelId) ≤
      callers.countP (Caller.outstanding store modelId) := by
  rw [countP_outstanding]
  exact Nat.le_add_left _ _

/-- A call that is outstanding after a turn begins with it or was outstanding before. -/
theorem outstanding_turned {modelId : String}
    (outstanding : (s.turned n task).outstanding store modelId = true) :
    s.begins n task = some modelId ∨ s.begins n task = none ∧ ∃ caller, s.callers[n]? = some caller ∧
      caller.outstanding store modelId = true := by
  simp only [Caller.outstanding, Bool.and_eq_true, decide_eq_true_eq] at outstanding
  obtain ⟨calls, after⟩ := outstanding
  obtain ⟨call, calling, same⟩ := (Option.any_eq_true _ _).mp calls
  change task.call = some call at calling
  unfold begins begun
  split
  · rename_i unchanged
    right
    obtain ⟨caller, found, before⟩ := Option.bind_eq_some_iff.mp (unchanged.trans calling)
    refine ⟨rfl, caller, found, ?_⟩
    have none : s.begins n task = .none := by rw [begins, begun, if_pos unchanged]
    simp only [turned, none, Option.isSome_none, Bool.false_eq_true, ↓reduceIte, found,
      Option.map_some, Option.getD_some] at after
    simp only [Caller.outstanding, before, Option.any_some, same, Bool.true_and, decide_eq_true_eq]
    exact after
  · left
    rw [calling, Option.map_some, beq_iff_eq.mp same]

/-- Only the model that is called has more calls outstanding. -/
theorem countP_settle_le {modelId : String} (unbegun : s.begins n task ≠ some modelId) :
    (s.settle n store task).callers.countP (Caller.outstanding store modelId) ≤
      s.callers.countP (Caller.outstanding store modelId) := by
  rw [countP_settle]
  split
  · rename_i outstanding
    rcases outstanding_turned outstanding with begins | ⟨-, caller, found, before⟩
    · exact absurd begins unbegun
    · rw [countP_callers _ found, if_pos before]
  · exact (others_sublist s n).countP_le

theorem call_of_begins {modelId : String} (begins : s.begins n task = some modelId) :
    ∃ place, task.call = some (place, modelId) := by
  unfold BreakerState.begins begun at begins
  split at begins
  · cases begins
  · obtain ⟨call, calling, rfl⟩ := Option.map_eq_some_iff.mp begins
    exact ⟨call.1, calling⟩

/-- The model that is called has its new call beside the other callers. -/
theorem countP_settle_begins {modelId : String} (begins : s.begins n task = some modelId)
    (passed : (store.health modelId).openUntil ≤ s.clock) :
    (s.settle n store task).callers.countP (Caller.outstanding store modelId) =
      (s.others n).countP (Caller.outstanding store modelId) + 1 := by
  obtain ⟨place, calling⟩ := call_of_begins begins
  rw [countP_settle, if_pos]
  simp only [Caller.outstanding, turned, calling, begins, Option.any_some, Option.isSome_some,
    ↓reduceIte, beq_self_eq_true, Bool.true_and, decide_eq_true_eq]
  exact passed

/-- A turn that asks nothing adds no call of an execution. -/
theorem executing_settle_le (asked : task.isStream = true ∨ task.call = none) (modelId : String) :
    (s.settle n store task).callers.countP (executing store modelId) ≤
      s.callers.countP (executing store modelId) := by
  rw [countP_settle, if_neg]
  · exact (others_sublist s n).countP_le
  · intro executes
    simp only [executing, Bool.and_eq_true, Bool.not_eq_true', turned, Caller.outstanding] at executes
    obtain ⟨execution, calls, -⟩ := executes
    rcases asked with stream | none
    · rw [stream] at execution
      cases execution
    · rw [none] at calls
      cases calls

/-- An execution adds at most one call, to the model that it was admitted to. -/
theorem executing_settle_begins_le (modelId : String) :
    (s.settle n store task).callers.countP (executing store modelId) ≤
      s.callers.countP (executing store modelId) + 1 := by
  rw [countP_settle]
  have fewer := (others_sublist s n).countP_le (p := executing store modelId)
  split <;> omega

theorem executing_settle_other_le {modelId other : String}
    (begins : s.begins n task = some modelId) (distinct : other ≠ modelId) :
    (s.settle n store task).callers.countP (executing store other) ≤
      s.callers.countP (executing store other) := by
  rw [countP_settle, if_neg]
  · exact (others_sublist s n).countP_le
  · intro executes
    simp only [executing, Bool.and_eq_true] at executes
    rcases outstanding_turned executes.2 with same | ⟨none, -⟩
    · rw [begins, Option.some_inj] at same
      exact distinct same.symm
    · rw [begins] at none
      cases none

/-- Nor for one model when the record of another one is replaced. -/
theorem executing_set_other_le {modelId other : String} (health : ModelHealth)
    (begins : s.begins n task = some modelId) (distinct : other ≠ modelId) :
    (s.settle n (s.store.set modelId health) task).callers.countP
        (executing (s.store.set modelId health) other) ≤
      s.callers.countP (executing s.store other) := by
  have fewer : (s.settle n (s.store.set modelId health) task).callers.countP
      (executing (s.store.set modelId health) other) ≤
        s.callers.countP (executing (s.store.set modelId health) other) :=
    executing_settle_other_le begins distinct
  have congr : executing (T := T) (s.store.set modelId health) other = executing s.store other :=
    executing_congr (by rw [ModelHealthStore.health_set_ne s.store distinct health])
  rwa [congr] at fewer ⊢

theorem issued_settle (inv : Inv s) (n : ℕ) (store : ModelHealthStore) (task : Task T) :
    ∀ caller ∈ (s.settle n store task).callers, caller.issuedAt ≤ s.clock := by
  intro caller member
  rcases List.mem_append.mp member with before | turned
  · exact inv.issued caller (List.mem_of_mem_take before)
  · rcases List.mem_cons.mp turned with rfl | after
    · unfold BreakerState.turned
      dsimp only
      split
      · exact le_rfl
      · cases found : s.callers[n]? with
        | none => exact le_rfl
        | some caller => exact inv.issued caller (List.mem_of_getElem? found)
    · exact inv.issued caller (List.mem_of_mem_drop after)

/-- The calls of executions stay counted when outcomes are recorded. -/
theorem inv_recorded (inv : Inv s) (recorded : Recorded s.clock s.store store)
    (asked : task.isStream = true ∨ task.call = none) : Inv (s.settle n store task) where
  seconds := by
    change 0 < store.openSeconds
    rw [recorded.seconds]
    exact inv.seconds
  issued := issued_settle inv n store task
  opened := by
    intro modelId opened
    rcases recorded.health modelId with ⟨state, until_, -⟩ | closed | ⟨-, paused⟩
    · have fewer : (s.settle n store task).callers.countP (executing store modelId) ≤
          s.callers.countP (executing store modelId) := executing_settle_le asked modelId
      rw [executing_congr until_, inv.opened modelId (state.symm.trans opened)] at fewer
      change (s.settle n store task).callers.countP (executing store modelId) = 0
      rw [executing_congr until_]
      exact Nat.le_zero.mp fewer
    · cases closed.symm.trans opened
    · have none := countP_eq_zero_of_paused (issued_settle inv n store task) paused
      exact Nat.le_zero.mp ((executing_le _ _ _).trans none.le)
  halfOpen := by
    intro modelId halfOpen
    rcases recorded.health modelId with ⟨state, until_, inFlight⟩ | closed | ⟨opened, -⟩
    · obtain ⟨passed, counted, bounded⟩ := inv.halfOpen modelId (state.symm.trans halfOpen)
      have fewer : (s.settle n store task).callers.countP (executing store modelId) ≤
          s.callers.countP (executing store modelId) := executing_settle_le asked modelId
      rw [executing_congr until_] at fewer
      change (store.health modelId).openUntil ≤ s.clock ∧
        (s.settle n store task).callers.countP (executing store modelId) ≤
          (store.health modelId).halfOpenInFlight ∧
        (store.health modelId).halfOpenInFlight ≤ store.halfOpenMaxInFlight
      rw [until_, inFlight, recorded.limit, executing_congr until_]
      exact ⟨passed, fewer.trans counted, bounded⟩
    · cases closed.symm.trans halfOpen
    · cases opened.symm.trans halfOpen

/-- They stay counted when a call begins that its record counts. -/
theorem inv_set (inv : Inv s) {modelId : String} {health : ModelHealth}
    (begins : s.begins n task = some modelId)
    (until_ : health.openUntil = (s.store.health modelId).openUntil)
    (unopened : health.state ≠ .opened)
    (counts : health.state = .halfOpen → health.openUntil ≤ s.clock ∧
      s.callers.countP (executing s.store modelId) + 1 ≤ health.halfOpenInFlight ∧
      health.halfOpenInFlight ≤ s.store.halfOpenMaxInFlight) :
    Inv (s.settle n (s.store.set modelId health) task) where
  seconds := inv.seconds
  issued := issued_settle inv n (s.store.set modelId health) task
  opened := by
    intro other opened
    change ((s.store.set modelId health).health other).state = .opened at opened
    by_cases same : other = modelId
    · rw [same, ModelHealthStore.health_set] at opened
      exact absurd opened unopened
    · rw [ModelHealthStore.health_set_ne s.store same health] at opened
      have fewer := executing_set_other_le health begins same
      rw [inv.opened other opened] at fewer
      exact Nat.le_zero.mp fewer
  halfOpen := by
    intro other halfOpen
    change ((s.store.set modelId health).health other).state = .halfOpen at halfOpen
    change ((s.store.set modelId health).health other).openUntil ≤ s.clock ∧
      (s.settle n (s.store.set modelId health) task).callers.countP
        (executing (s.store.set modelId health) other) ≤
          ((s.store.set modelId health).health other).halfOpenInFlight ∧
      ((s.store.set modelId health).health other).halfOpenInFlight ≤ s.store.halfOpenMaxInFlight
    by_cases same : other = modelId
    · subst same
      rw [ModelHealthStore.health_set] at halfOpen ⊢
      obtain ⟨passed, counted, bounded⟩ := counts halfOpen
      have more : (s.settle n (s.store.set other health) task).callers.countP
          (executing (s.store.set other health) other) ≤
            s.callers.countP (executing (s.store.set other health) other) + 1 :=
        executing_settle_begins_le other
      have congr : executing (T := T) (s.store.set other health) other =
          executing s.store other :=
        executing_congr (by rw [ModelHealthStore.health_set, until_])
      rw [congr] at more ⊢
      exact ⟨passed, more.trans counted, bounded⟩
    · have fewer := executing_set_other_le health begins same
      rw [ModelHealthStore.health_set_ne s.store same health] at halfOpen ⊢
      obtain ⟨passed, counted, bounded⟩ := inv.halfOpen other halfOpen
      exact ⟨passed, fewer.trans counted, bounded⟩

theorem inv_turned (inv : Inv s) (turned : s.Turned n store task) :
    Inv (s.settle n store task) := by
  cases turned with
  | recorded recorded asked => exact inv_recorded inv recorded asked
  | @admitted modelId _ x answer begins =>
    have positive := s.store.half_open_max_pos
    cases answer with
    | closed state =>
      apply inv_set inv begins
      · rfl
      · rw [state]
        decide
      · rw [state]
        rintro ⟨⟩
    | halfOpens state passed =>
      apply inv_set inv begins
      · rfl
      · rintro ⟨⟩
      · rintro -
        rw [inv.opened modelId state]
        exact ⟨passed, le_rfl, positive⟩
    | joins state room =>
      obtain ⟨passed, counted, -⟩ := inv.halfOpen modelId state
      apply inv_set inv begins
      · rfl
      · rw [state]
        decide
      · rintro -
        exact ⟨passed, Nat.succ_le_succ counted, room⟩

end Turns

/-! ### The limit -/

/-- What a turn does to every model but the one that is called. -/
theorem limited_settle_of_ne {s : BreakerState T} {n : ℕ} {store : ModelHealthStore} {task : Task T}
    (inv : Inv s) (limited : s.Limited) {modelId : String}
    (recorded : RecordedHealth s.clock (s.store.health modelId) (store.health modelId))
    (same : store.halfOpenMaxInFlight = s.store.halfOpenMaxInFlight)
    (unbegun : s.begins n task ≠ some modelId) (unclosed : (store.health modelId).state ≠ .closed) :
    (s.settle n store task).callers.countP (Caller.outstanding store modelId) ≤
      store.halfOpenMaxInFlight := by
  rcases recorded with ⟨state, until_, -⟩ | closed | ⟨-, paused⟩
  · have fewer : (s.settle n store task).callers.countP (Caller.outstanding store modelId) ≤
        s.callers.countP (Caller.outstanding store modelId) := countP_settle_le unbegun
    rw [outstanding_congr until_] at fewer ⊢
    rw [same]
    exact fewer.trans (limited.limited modelId (state ▸ unclosed))
  · exact absurd closed unclosed
  · rw [countP_eq_zero_of_paused (issued_settle inv n store task) paused]
    exact Nat.zero_le _

/-- A turn keeps the limit exactly if the call that it begins, if any, is neither early nor one too
many. -/
theorem limited_settle_iff {s : BreakerState T} {n : ℕ} {store : ModelHealthStore} {task : Task T}
    (inv : Inv s) (limited : s.Limited)
    (recorded : ∀ modelId, s.begins n task ≠ some modelId →
      RecordedHealth s.clock (s.store.health modelId) (store.health modelId))
    (same : store.halfOpenMaxInFlight = s.store.halfOpenMaxInFlight) :
    (s.settle n store task).Limited ↔ ∀ modelId, s.begins n task = some modelId →
      (store.health modelId).state ≠ .closed → (store.health modelId).openUntil ≤ s.clock ∧
        (s.others n).countP (Caller.outstanding store modelId) < store.halfOpenMaxInFlight := by
  have early : (s.settle n store task).early = [] ↔ ∀ modelId, s.begins n task = some modelId →
      s.isEarly store modelId = false := by
    rw [settle, limited.punctual, List.nil_append, List.filter_eq_nil_iff]
    simp only [Option.mem_toList, Bool.not_eq_true]
  constructor
  · intro after modelId begins unclosed
    have punctual := early.mp after.punctual modelId begins
    have passed : (store.health modelId).openUntil ≤ s.clock := by
      by_contra paused
      rw [isEarly, decide_eq_true ⟨unclosed, not_le.mp paused⟩] at punctual
      cases punctual
    have within : (s.settle n store task).callers.countP (Caller.outstanding store modelId) ≤
        store.halfOpenMaxInFlight := after.limited modelId unclosed
    rw [countP_settle_begins begins passed] at within
    exact ⟨passed, within⟩
  · intro meets
    constructor
    · rw [early]
      intro modelId begins
      apply decide_eq_false
      rintro ⟨unclosed, paused⟩
      exact absurd (meets modelId begins unclosed).1 (not_le_of_gt paused)
    · intro modelId unclosed
      change (s.settle n store task).callers.countP (Caller.outstanding store modelId) ≤
        store.halfOpenMaxInFlight
      by_cases begins : s.begins n task = some modelId
      · obtain ⟨passed, room⟩ := meets modelId begins unclosed
        rw [countP_settle_begins begins passed]
        exact room
      · exact limited_settle_of_ne inv limited (recorded modelId begins) same begins unclosed

/-- What `allow_call` admits is not early, and beside executions alone it has room. -/
theorem room_of_admitted {s : BreakerState T} {store : ModelHealthStore} {modelId : String} (n : ℕ)
    (inv : Inv s) (answer : s.store.Allowed s.clock modelId (store, true))
    (unclosed : (store.health modelId).state ≠ .closed) :
    (store.health modelId).openUntil ≤ s.clock ∧
      ((s.others n).countP (Caller.streaming store modelId) = 0 →
        (s.others n).countP (Caller.outstanding store modelId) < store.halfOpenMaxInFlight) := by
  have until_ : (store.health modelId).openUntil = (s.store.health modelId).openUntil := by
    cases answer <;> rw [ModelHealthStore.health_set]
  have limit : store.halfOpenMaxInFlight = s.store.halfOpenMaxInFlight := by
    cases answer <;> rfl
  have fewer : (s.others n).countP (executing s.store modelId) ≤
      s.callers.countP (executing s.store modelId) := (others_sublist s n).countP_le
  have admitted : (s.store.health modelId).openUntil ≤ s.clock ∧
      (s.others n).countP (executing s.store modelId) < s.store.halfOpenMaxInFlight := by
    cases answer with
    | closed state =>
      rw [ModelHealthStore.health_set] at unclosed
      exact absurd state unclosed
    | halfOpens state passed =>
      rw [inv.opened modelId state] at fewer
      exact ⟨passed, fewer.trans_lt s.store.half_open_max_pos⟩
    | joins state room =>
      obtain ⟨passed, counted, -⟩ := inv.halfOpen modelId state
      exact ⟨passed, (fewer.trans counted).trans_lt room⟩
  rw [until_, limit]
  refine ⟨admitted.1, fun none => ?_⟩
  rw [countP_outstanding, none, executing_congr until_, Nat.zero_add]
  exact admitted.2

/-- An admission that a record counts leaves the other records. -/
theorem recordedHealth_of_admitted {store after : ModelHealthStore} {modelId other : String} {now : ℚ}
    (answer : store.Allowed now modelId (after, true)) (distinct : other ≠ modelId) :
    RecordedHealth now (store.health other) (after.health other) := by
  cases answer <;> rw [ModelHealthStore.health_set_ne store distinct] <;> exact .inl ⟨rfl, rfl, rfl⟩

theorem inv_step {s t : BreakerState T} {event : BreakerEvent T} (inv : Inv s)
    (taken : s.step event = some t) : Inv t := by
  by_cases advances : ∃ now, event = .advance now
  · obtain ⟨now, rfl⟩ := advances
    rw [step] at taken
    split at taken
    · rename_i later
      cases taken
      constructor
      · exact inv.seconds
      · exact fun caller member => (inv.issued caller member).trans later
      · exact inv.opened
      · intro modelId halfOpen
        obtain ⟨passed, counted⟩ := inv.halfOpen modelId halfOpen
        exact ⟨passed.trans later, counted⟩
    · cases taken
  · rw [step] at taken
    · obtain ⟨⟨n, store, task⟩, moved, rfl⟩ := Option.map_eq_some_iff.mp taken
      exact inv_turned inv (turned_turn inv.seconds moved)
    · exact fun now same => advances ⟨now, same⟩

/-- One step keeps the limit exactly if it meets the condition. -/
theorem limited_step_iff {s t : BreakerState T} {event : BreakerEvent T} (inv : Inv s)
    (limited : s.Limited) (taken : s.step event = some t) : t.Limited ↔ s.Meets event := by
  by_cases advances : ∃ now, event = .advance now
  · obtain ⟨now, rfl⟩ := advances
    rw [step] at taken
    split at taken
    · cases taken
      exact iff_of_true ⟨limited.punctual, limited.limited⟩ trivial
    · cases taken
  · rw [step] at taken
    · obtain ⟨⟨n, store, task⟩, moved, rfl⟩ := Option.map_eq_some_iff.mp taken
      have turned := turned_turn inv.seconds moved
      rw [Meets, moved]
      dsimp only
      cases turned with
      | recorded recorded asked =>
        rw [limited_settle_iff inv limited (fun modelId _ => recorded.health modelId) recorded.limit]
        cases begins : s.begins n task with
        | none => exact iff_of_true nofun trivial
        | some modelId =>
          obtain ⟨place, calling⟩ := call_of_begins begins
          have stream : task.isStream = true := by
            rcases asked with stream | none
            · exact stream
            · rw [calling] at none
              cases none
          simp only [Option.some.injEq, forall_eq', stream, forall_const, Bool.true_eq_false,
            false_and, false_or]
          exact imp_iff_not_or.trans (or_congr_left not_not)
      | @admitted modelId _ x answer begins =>
        have others (other : String) (unbegun : s.begins n (.execution x) ≠ some other) :
            RecordedHealth s.clock (s.store.health other) (store.health other) := by
          apply recordedHealth_of_admitted answer
          rintro rfl
          exact unbegun begins
        have limit : store.halfOpenMaxInFlight = s.store.halfOpenMaxInFlight := by
          cases answer <;> rfl
        rw [limited_settle_iff inv limited others limit, begins]
        simp only [Option.some.injEq, forall_eq']
        rw [imp_iff_not_or, not_not]
        apply or_congr_right'
        intro unclosed
        obtain ⟨passed, alone⟩ := room_of_admitted n inv answer unclosed
        constructor
        · exact fun meets => ⟨fun _ => passed, .inr meets.2⟩
        · rintro ⟨-, ⟨-, none⟩ | room⟩
          · exact ⟨passed, alone none⟩
          · exact ⟨passed, room⟩
    · exact fun now same => advances ⟨now, same⟩

theorem inv_fresh {settings : ModelHealthStore} (seconds : 0 < settings.openSeconds) :
    Inv ({ store := settings.fresh } : BreakerState T) := by
  have closed (modelId : String) : (settings.fresh.health modelId).state = .closed := by
    simp [ModelHealthStore.health, ModelHealthStore.get, ModelHealthStore.fresh]
  constructor
  · exact seconds
  · exact fun caller member => absurd member List.not_mem_nil
  · intro modelId opened
    cases (closed modelId).symm.trans opened
  · intro modelId halfOpen
    cases (closed modelId).symm.trans halfOpen

theorem limited_fresh (settings : ModelHealthStore) :
    Limited ({ store := settings.fresh } : BreakerState T) :=
  ⟨rfl, fun _ _ => Nat.zero_le _⟩

/-- The pause and the half-open limit hold throughout a run exactly if every call of a stream to a
model whose circuit is not closed finds the pause over and room, and so does every execution that is
admitted beside such streams. -/
theorem always_limited_iff {settings : ModelHealthStore} (seconds : 0 < settings.openSeconds)
    (events : List (BreakerEvent T)) :
    Always step Limited { store := settings.fresh } events ↔
      Along step Meets { store := settings.fresh } events :=
  always_iff_along (fun _ _ _ inv taken => inv_step inv taken)
    (fun _ _ _ inv limited taken => limited_step_iff inv limited taken) (inv_fresh seconds)
    (limited_fresh settings)

/-- Three failures open the circuit of a model at once. -/
def failures (n : ℕ) : List (BreakerEvent Unit) :=
  [.execute "chat" ["m", "m", "m"], .next n true, .finish n (.raised "down"), .next n true,
    .finish n (.raised "down"), .next n true, .finish n (.raised "down")]

/-- After the pause an execution probes the model, a stream is not offered it, and with the success
the model is offered again. -/
def probedRun : List (BreakerEvent Unit) :=
  failures 0 ++ [.advance 60, .execute "chat" ["m"], .next 1 true, .start [⟨"m", true⟩],
    .finish 1 (.returned ()), .start [⟨"m", true⟩], .stream 3 (.streamReturns 0),
    .stream 3 (.callback 0 (.content "hi") 0), .stream 3 (.resume 0)]

theorem always_limited_probedRun :
    Always step Limited { store := getModelHealthStore.fresh } probedRun :=
  (always_limited_iff (by decide +kernel) probedRun).mpr (by decide +kernel)

/-- After the pause two streams start one after the other: neither turns the circuit half-open. -/
def twoStreamsRun : List (BreakerEvent Unit) :=
  failures 0 ++ [.advance 60, .start [⟨"m", true⟩], .start [⟨"m", true⟩]]

/-- A stream falls back during the pause to a model that was offered before it. -/
def earlyStreamRun : List (BreakerEvent Unit) :=
  [.start [⟨"a", true⟩, ⟨"m", true⟩]] ++ failures 1 ++ [.stream 0 (.streamRaises "refused" 0)]

/-- The limit is one, and the pause is not over. -/
theorem not_always_limited :
    (¬ Always step Limited { store := getModelHealthStore.fresh } twoStreamsRun) ∧
      ¬ Always step Limited { store := getModelHealthStore.fresh } earlyStreamRun := by
  have crowded : (runFrom step { store := getModelHealthStore.fresh } twoStreamsRun).any (fun s =>
      decide ((s.store.health "m").state ≠ .closed ∧ s.store.halfOpenMaxInFlight <
        s.callers.countP (Caller.outstanding s.store "m"))) = true := by decide +kernel
  have early : (runFrom step { store := getModelHealthStore.fresh } earlyStreamRun).any (fun s =>
      decide (s.early ≠ [])) = true := by decide +kernel
  constructor
  · intro always
    obtain ⟨s, run, crowded⟩ := (Option.any_eq_true _ _).mp crowded
    obtain ⟨unclosed, more⟩ := of_decide_eq_true crowded
    exact absurd ((always.last run).limited "m" unclosed) (not_le_of_gt more)
  · intro always
    obtain ⟨s, run, early⟩ := (Option.any_eq_true _ _).mp early
    exact of_decide_eq_true early (always.last run).punctual

end BreakerState

end HeyeeAgent.StreamLlm
