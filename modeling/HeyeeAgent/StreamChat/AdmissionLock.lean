import HeyeeAgent.StreamChat.AdmissionTurns

/-! # Who waits for the condition lock

The condition lock is held across `await should_cancel()`, and `StreamChatService._should_cancel`
calls the service's own `cancel` when the client is gone, which enters the limiter again. The task
then waits for a lock that it holds. No later call of `acquire`, `cancel`, `release` or `close`
gets that lock until the stream itself is cancelled from outside.
-/

namespace HeyeeAgent.StreamChat

open StreamQueueLimiter Machine ServiceState

variable {H : Type*}

/-- The call is suspended at the acquisition of the condition lock. -/
def WaitsForLock (l : LocalState) (c : CallId) : Prop :=
  match l.calls c with
  | some (.acquire _ _ .entering) | some (.acquire _ _ (.waking _)) | some (.cancel _ .entering)
  | some (.release _ .entering) | some (.close .entering) => True
  | _ => False

/-- The task that holds the condition lock waits for that lock. -/
def SelfWait (s : ServiceState H) : Prop :=
  ∃ c c' task, s.limiter.lock = some c ∧ s.caller c = some task ∧ s.caller c' = some task ∧
    WaitsForLock s.limiter c'

theorem WaitsForLock.executing {s : ServiceState H} {c : CallId}
    (waits : WaitsForLock s.limiter c) : s.Executing c := by
  unfold WaitsForLock at waits
  unfold ServiceState.Executing
  split at waits <;> simp_all [AcquirePc.Executing]

/-- A task waits for its own lock only inside the cancellation that its own poll has asked for. -/
theorem selfWait_iff {cfg : Config} {s : ServiceState H} (inv : ServiceInv cfg s) :
    SelfWait s ↔ ∃ i, s.Cancelling i := by
  have polling := local_pollerHolds inv.reached
  constructor
  · rintro ⟨c, c', task, held, owner, owner', waits⟩
    obtain ⟨taskId, at_⟩ := (polling c).mp held
    obtain ⟨i, stream⟩ := inv.acquirer c taskId _ at_
    rw [owner] at stream
    cases stream
    obtain ⟨⟨taskId', watched, pc⟩, found, member⟩ := (inv.own i).inside c' owner' waits.executing
    obtain ⟨st, found', member'⟩ := (inv.own i).inside c owner (by
      obtain ⟨_, suspended⟩ := at_
      simp [ServiceState.Executing, suspended, AcquirePc.Executing])
    rw [found] at found'
    cases found'
    have distinct : c' ≠ c := by
      rintro rfl
      obtain ⟨_, suspended⟩ := at_
      simp [WaitsForLock, suspended] at waits
    -- two calls are awaited, so the stream is inside the inner one
    refine ⟨i, ?_⟩
    unfold Stream.awaited at member member'
    cases pc with
    | acquiring c₁ poll =>
      cases poll with
      | none => simp_all
      | some poll =>
        cases poll with
        | cancelling c₂ => exact ⟨_, c₁, c₂, found, rfl⟩
        | _ => simp_all
    | _ => simp_all
  · rintro ⟨i, ⟨taskId, watched, pc⟩, c, c', found, place⟩
    cases place
    obtain ⟨⟨at_, inner⟩, owned⟩ := (inv.own i).agrees _ found
    refine ⟨c, c', .stream i, (polling c).mpr ⟨taskId, at_⟩, owned c ?_, owned c' ?_, ?_⟩
    · simp [Stream.awaited]
    · simp [Stream.awaited]
    · simp [WaitsForLock, inner]

/-- Only an exception in its own task moves a stream that waits for its own lock. -/
theorem cancelling_stays {cfg : Config} {s t : ServiceState H} {e : ServiceEvent H} {i : StreamId}
    (inv : ServiceInv cfg s) (waits : s.Cancelling i) (taken : serviceStep cfg s e = some t)
    (uninterrupted : e ≠ .interrupt i) : t.streams i = s.streams i := by
  obtain ⟨⟨taskId, watched, pc⟩, c, c', found, place⟩ := waits
  cases place
  obtain ⟨⟨at_, inner⟩, owned⟩ := (inv.own i).agrees _ found
  have held := (local_pollerHolds inv.reached c).mpr ⟨taskId, at_⟩
  have unready {permit : Option StreamQueuePermit} {st : Stream} (found' : s.streams i = some st) :
      st.queuePermit s.limiter ≠ some permit := by
    rw [found] at found'
    cases found'
    simp [Stream.queuePermit]
  rcases serviceStep_turn inv taken with ⟨j, actor, turn⟩ | ⟨r, -, turn, -⟩
  · by_cases same : j = i
    · subst same
      cases e with
      | lock c'' now uuid =>
        obtain ⟨u, resumed, -⟩ := Option.bind_eq_some_iff.mp taken
        obtain ⟨free, -⟩ := executing_of_lock resumed
        rw [held] at free
        cases free
      | wake c'' =>
        obtain ⟨-, -, -, streams, -⟩ := resume_calls (s := s) (t := t) taken
        rw [streams]
      | bind j' handle =>
        cases actor
        obtain ⟨st, found', taken⟩ := Option.bind_eq_some_iff.mp taken
        split at taken
        · next ready => exact absurd ready (unready found')
        · cases taken
      | stop j' persisted published now =>
        cases actor
        obtain ⟨st, found', taken⟩ := Option.bind_eq_some_iff.mp taken
        split at taken
        · next ready => exact absurd ready (unready found')
        · cases taken
      | release j' c'' =>
        cases actor
        obtain ⟨st, found', taken⟩ := Option.bind_eq_some_iff.mp taken
        obtain ⟨permit, ready, -⟩ := Option.bind_eq_some_iff.mp taken
        exact absurd ready (unready found')
      | interrupt j' =>
        cases actor
        exact absurd rfl uninterrupted
      | cancel | cancelMarked | close | interruptRequest => cases actor
      | _ =>
        cases actor
        simp [serviceStep, found, inner] at taken
    · exact turn.task.streams i (by simpa using same)
  · exact turn.streams i (by simp)

/-- Once a task waits for its own lock, no limiter call of any other task gets the lock again,
until an exception ends the waiting stream. -/
theorem selfWait_wedges {cfg : Config} {s t : ServiceState H} {es : List (ServiceEvent H)}
    {i : StreamId} (inv : ServiceInv cfg s) (waits : s.Cancelling i)
    (run : runFrom (serviceStep cfg) s es = some t) (uninterrupted : .interrupt i ∉ es) :
    s.limiter.lock.isSome ∧ t.limiter.lock = s.limiter.lock := by
  have holder {s : ServiceState H} (inv : ServiceInv cfg s) {st : Stream} {c c' : CallId}
      (found : s.streams i = some st) (place : st.pc = .acquiring c (some (.cancelling c'))) :
      s.limiter.lock = some c := by
    obtain ⟨taskId, watched, pc⟩ := st
    cases place
    obtain ⟨⟨at_, -⟩, -⟩ := (inv.own i).agrees _ found
    exact (local_pollerHolds inv.reached c).mpr ⟨taskId, at_⟩
  have ⟨st, c, c', found, place⟩ := waits
  refine ⟨by simp [holder inv found place], ?_⟩
  induction es generalizing s with
  | nil => cases run; rfl
  | cons e es ih =>
    obtain ⟨middle, taken, rest⟩ := runFrom_cons_some.mp run
    simp only [List.mem_cons, not_or] at uninterrupted
    have stays := cancelling_stays inv waits taken (Ne.symm uninterrupted.1)
    have found' := stays.trans found
    rw [ih (inv.step taken) ⟨st, c, c', found', place⟩ rest uninterrupted.2 found',
      holder (inv.step taken) found' place, holder inv found place]

/-- In a run of streams, requests and shutdowns over one registry and one in-process queue, no task
ever waits for the condition lock that it holds, exactly when no step of the run lets a stream
withdraw itself from under the lock. -/
theorem never_selfWait_iff (cfg : Config) (m : StreamTaskManager H) (es : List (ServiceEvent H)) :
    Always (serviceStep cfg) (fun s => ¬ SelfWait s) { tasks := m } es ↔
      Along (serviceStep cfg) (fun s e => ¬ WithdrawsItself s e) { tasks := m } es := by
  have initial := serviceInv_initial cfg m
  refine always_iff_along (fun s e t inv taken => inv.step taken) ?_ initial ?_
  · intro s e t inv apart taken
    rw [selfWait_iff (inv.step taken), not_iff_not]
    rw [selfWait_iff inv] at apart
    rcases serviceStep_turn inv taken with ⟨i, -, turn⟩ | ⟨r, -, turn, kept⟩
    · rw [← turn.cancelling]
      refine ⟨?_, fun cancelling => ⟨i, cancelling⟩⟩
      rintro ⟨j, cancelling⟩
      by_cases same : j = i
      · exact same ▸ cancelling
      · obtain ⟨st, c, c', found, place⟩ := cancelling
        rw [turn.task.streams j (by simpa using Ne.symm same)] at found
        exact absurd ⟨j, st, c, c', found, place⟩ apart
    · refine iff_of_false ?_ kept
      rintro ⟨j, st, c, c', found, place⟩
      rw [turn.streams j (by simp)] at found
      exact apart ⟨j, st, c, c', found, place⟩
  · rw [selfWait_iff initial]
    rintro ⟨i, st, c, c', found, -⟩
    cases found

/-- The client of a lone stream goes away while its request is first polled. -/
def disconnectedRun : List (ServiceEvent Unit) :=
  [.register 0 "a" (some "1") true 0, .acquire 0 0 0, .lock 0 0 "p", .disconnected 0 true 1 0 "p"]

/-- The stream then waits for the lock of its own acquire. -/
theorem disconnectedRun_selfWait :
    ¬ Always (serviceStep {}) (fun s => ¬ SelfWait s) {} disconnectedRun := by
  intro always
  have ends : (runFrom (serviceStep {}) {} disconnectedRun).map
      (fun s => (s.limiter.lock, s.caller 0, s.caller 1, s.limiter.calls 1)) =
        some (some 0, some (.stream 0), some (.stream 0), some (.cancel "a" .entering)) := by
    decide +kernel
  obtain ⟨s, run, observed⟩ := Option.map_eq_some_iff.mp ends
  obtain ⟨held, owner, owner', waits⟩ := by simpa only [Prod.mk.injEq] using observed
  exact always.last run ⟨0, 1, .stream 0, held, owner, owner', by simp [WaitsForLock, waits]⟩

end HeyeeAgent.StreamChat
