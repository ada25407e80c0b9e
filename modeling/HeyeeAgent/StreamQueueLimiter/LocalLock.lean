import HeyeeAgent.StreamQueueLimiter.LocalGuarantees

/-! # The condition lock of the in-process queue

The lock is given up in every wait and released by every method, but it is held across
`await should_cancel()`: at a suspension its holder is exactly the acquire that is being polled.
-/

namespace HeyeeAgent.StreamQueueLimiter

open LocalState Machine

/-- At a suspension the condition lock is held by the acquire whose callback is awaited. -/
def PollerHolds (s : LocalState) : Prop :=
  ∀ c, s.lock = some c ↔ ∃ taskId, s.AcquireAt c taskId .polling

section PollerHolds

variable {s : LocalState} {c : CallId} {call : Call}

theorem PollerHolds.setCall (holds : PollerHolds s)
    (before : ∀ taskId, ¬ s.AcquireAt c taskId .polling)
    (after : ∀ taskId deadline, call ≠ .acquire taskId deadline .polling) :
    PollerHolds (s.setCall c call) := by
  intro c'
  by_cases same : c' = c
  · subst same
    have unheld : s.lock ≠ some c' := fun held =>
      have ⟨taskId, polling⟩ := (holds c').mp held
      before taskId polling
    refine iff_of_false unheld ?_
    rintro ⟨taskId, polling⟩
    obtain ⟨deadline, eq⟩ := acquireAt_setCall.mp polling
    exact after taskId deadline eq
  · simp only [AcquireAt, LocalState.setCall, Function.update_of_ne same]
    exact holds c'

theorem PollerHolds.finish (holds : PollerHolds s)
    (free : s.lock = none ∨ s.lock = some c)
    (after : ∀ taskId deadline, call ≠ .acquire taskId deadline .polling) :
    PollerHolds (s.finish c call) := by
  intro c'
  refine iff_of_false (by simp [LocalState.finish]) ?_
  rintro ⟨taskId, polling⟩
  by_cases same : c' = c
  · subst same
    obtain ⟨deadline, eq⟩ := acquireAt_finish.mp polling
    exact after taskId deadline eq
  · have held : s.lock = some c' := (holds c').mpr ⟨taskId, by
      simpa [AcquireAt, LocalState.finish, LocalState.setCall, Function.update_of_ne same]
        using polling⟩
    rcases free with free | free <;> rw [free] at held <;> cases held
    exact same rfl

theorem PollerHolds.hold (holds : PollerHolds s) (free : s.lock = none) {taskId : String}
    {deadline : ℚ} : PollerHolds (s.hold c (.acquire taskId deadline .polling)) := by
  intro c'
  by_cases same : c' = c
  · subst same
    refine iff_of_true rfl ⟨taskId, ?_⟩
    simp
  · refine iff_of_false (by simpa [LocalState.hold] using Ne.symm same) ?_
    rintro ⟨taskId', polling⟩
    have held : s.lock = some c' := (holds c').mpr ⟨taskId', by
      simpa [AcquireAt, LocalState.hold, LocalState.setCall, Function.update_of_ne same]
        using polling⟩
    rw [free] at held
    cases held

end PollerHolds

theorem PollerHolds.loop {s : LocalState} (holds : PollerHolds s) (free : s.lock = none)
    (c : CallId) (taskId : String) (deadline : ℚ) :
    PollerHolds (s.acquireLocalLoop c taskId deadline) := by
  rcases acquireLocalLoop_cases s c taskId deadline with ends | ends <;> rw [ends]
  · exact PollerHolds.finish (s := s.removeLocalWaiter taskId) holds (.inl free) (by simp)
  · exact holds.hold free

theorem LocalMove.pollerHolds {cfg : Config} {s t : LocalState} {e : LocalEvent}
    (holds : PollerHolds s) (move : LocalMove cfg s e t) : PollerHolds t := by
  have idle {c : CallId} {call : Option Call} (found : s.calls c = call)
      (other : ∀ taskId deadline, call ≠ some (.acquire taskId deadline .polling)) :
      ∀ taskId, ¬ s.AcquireAt c taskId .polling := by
    rintro taskId ⟨deadline, polling⟩
    exact other taskId deadline (found.symm.trans polling)
  cases move with
  | acquireAnswers unused _ _ => exact PollerHolds.setCall holds (idle unused (by simp)) (by simp)
  | acquireStarts unused _ _ => exact PollerHolds.setCall holds (idle unused (by simp)) (by simp)
  | cancelStarts unused => exact holds.setCall (idle unused (by simp)) (by simp)
  | releaseStarts unused => exact holds.setCall (idle unused (by simp)) (by simp)
  | closeStarts unused => exact PollerHolds.setCall holds (idle unused (by simp)) (by simp)
  | @joins c taskId deadline free suspended =>
    exact PollerHolds.loop (s := s.appendWaiter c taskId deadline) holds free c taskId deadline
  | resumes free suspended => exact holds.loop free _ _ _
  | leaves free suspended => exact holds.finish (.inl free) (by simp)
  | @cancels c taskId free suspended =>
    exact PollerHolds.finish (s := s.removeLocalWaiter taskId) holds (.inl free) (by simp)
  | @releases c permit free suspended =>
    refine PollerHolds.finish (s := s.releaseLocal permit) ?_ (.inl ?_) (by simp)
    · cases permit <;> exact holds
    · cases permit <;> exact free
  | closes free suspended => exact holds.finish (.inl free) (by simp)
  | @polled c taskId deadline shouldCancel now uuid suspended fresh =>
    have held : s.lock = some c := (holds c).mpr ⟨taskId, deadline, suspended⟩
    rcases acquireLocalPolled_cases s cfg.maxConcurrent c taskId deadline shouldCancel now uuid
      with ⟨status, -, ends⟩ | ⟨-, -, ends⟩ | ends <;> rw [ends]
    · exact PollerHolds.finish (s := s.removeLocalWaiter taskId) holds (.inr held) (by simp)
    · exact PollerHolds.finish (s := s.grant c taskId uuid) holds (.inr held) (by simp)
    · exact holds.finish (.inr held) (by simp)
  | wakes suspended => exact holds.setCall (idle suspended (by simp)) (by simp)
  | @interrupted c call _ suspended effect =>
    rcases interruptCall_cases effect with ⟨taskId, deadline, rfl, rfl⟩ | ⟨taskId, deadline, rfl, rfl⟩ |
      ⟨taskId, deadline, pc, rfl, inside, rfl⟩ | ⟨before, call', after, rfl⟩
    · exact holds.finish (.inr ((holds c).mpr ⟨taskId, deadline, suspended⟩)) (by simp)
    · exact holds.setCall (idle suspended (by simp)) (by simp)
    · refine holds.setCall (idle suspended ?_) (by simp)
      rcases inside with rfl | ⟨_, rfl⟩ <;> simp
    · refine holds.setCall (idle suspended fun taskId deadline eq => ?_) fun taskId deadline => ?_
      · exact before taskId deadline _ (Option.some.inj eq)
      · exact after taskId deadline _

theorem local_pollerHolds {cfg : Config} {s : LocalState} (reached : Reachable (localStep cfg) {} s) :
    PollerHolds s :=
  invariant_reachable (fun _ _ _ holds taken => (localStep_move taken).pollerHolds holds)
    (by simp [PollerHolds, AcquireAt]) reached

/-- Only the top of the wait loop begins to poll. -/
theorem LocalMove.polls_locked {cfg : Config} {s t : LocalState} {e : LocalEvent}
    (move : LocalMove cfg s e t) {taskId : String} (polling : t.AcquireAt e.call taskId .polling) :
    ∃ c, e = .lock c := by
  cases move with
  | joins _ _ => exact ⟨_, rfl⟩
  | resumes _ _ => exact ⟨_, rfl⟩
  | leaves _ _ => exact ⟨_, rfl⟩
  | cancels _ _ => exact ⟨_, rfl⟩
  | releases _ _ => exact ⟨_, rfl⟩
  | closes _ _ => exact ⟨_, rfl⟩
  | @polled c taskId' deadline shouldCancel now uuid suspended fresh =>
    rcases acquireLocalPolled_cases s cfg.maxConcurrent c taskId' deadline shouldCancel now uuid
      with ⟨_, -, ends⟩ | ⟨-, -, ends⟩ | ends <;> rw [ends] at polling <;>
      simp [LocalEvent.call] at polling
  | @interrupted c call _ suspended effect =>
    rcases interruptCall_cases effect with ⟨_, _, -, rfl⟩ | ⟨_, _, -, rfl⟩ | ⟨_, _, _, -, -, rfl⟩ |
      ⟨-, call', after, rfl⟩ <;> simp [LocalEvent.call] at polling
    obtain ⟨_, same⟩ := polling
    exact absurd same (after _ _ _)
  | _ => simp [LocalEvent.call] at polling

/-- A release call goes on with its permit. -/
theorem LocalMove.release {cfg : Config} {s t : LocalState} {e : LocalEvent}
    (move : LocalMove cfg s e t) {permit : Option StreamQueuePermit} {pc : LockPc}
    (suspended : s.calls e.call = some (.release permit pc)) :
    ∃ pc', t.calls e.call = some (.release permit pc') := by
  cases move with
  | @releases c permit' free suspended' =>
    rw [show (LocalEvent.lock c).call = c from rfl, suspended'] at suspended
    cases suspended
    exact ⟨.returned, by cases permit <;> exact Function.update_self ..⟩
  | @interrupted c call _ suspended' effect =>
    rw [show (LocalEvent.interrupt c).call = c from rfl, suspended'] at suspended
    cases suspended
    cases pc <;> cases effect
    exact ⟨.raised, Function.update_self ..⟩
  | _ => simp_all [LocalEvent.call]

/-- Only `acquire` starts an acquire call. -/
theorem LocalMove.starts_acquire {cfg : Config} {s t : LocalState} {e : LocalEvent}
    (move : LocalMove cfg s e t) (unused : s.calls e.call = none) {taskId : String} {pc : AcquirePc}
    (after : t.AcquireAt e.call taskId pc) : ∃ taskId now, e = .acquire e.call taskId now := by
  cases move with
  | acquireAnswers _ _ _ => exact ⟨_, _, rfl⟩
  | acquireStarts _ _ _ => exact ⟨_, _, rfl⟩
  | cancelStarts _ => simp [LocalEvent.call] at after
  | releaseStarts _ => simp [LocalEvent.call] at after
  | closeStarts _ => simp [LocalEvent.call] at after
  | _ => simp_all [LocalEvent.call]

/-- A call that has not ended was let in by an enabled limiter. -/
theorem local_executing_enabled {cfg : Config} {s : LocalState}
    (reached : Reachable (localStep cfg) {} s) {c : CallId} {taskId : String} {pc : AcquirePc}
    (at_ : s.AcquireAt c taskId pc) (executing : pc.Executing) : cfg.enabled = true := by
  by_contra off
  obtain ⟨result, rfl⟩ := (local_invariants reached).2.1.bypassed (by simpa using off) c taskId pc at_
  exact executing

end HeyeeAgent.StreamQueueLimiter
