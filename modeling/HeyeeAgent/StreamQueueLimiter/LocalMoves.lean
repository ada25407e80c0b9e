import HeyeeAgent.StreamQueueLimiter.Local

/-! # What one resumption of the in-process queue can do

`LocalMove` lists the enabled resumptions with their guards and their exact results, and
`localStep_move` reads every step of the model as one of them. The two segments of the wait loop
end in one of a few ways each; all invariants below are case analyses over these lists.
-/

namespace HeyeeAgent.StreamQueueLimiter

open LocalState

/-- Every enabled resumption of the in-process queue. -/
inductive LocalMove (cfg : Config) (s : LocalState) : LocalEvent → LocalState → Prop
  | acquireAnswers {c : CallId} {taskId : String} {now : ℚ} {result : QueueAcquireResult}
      (unused : s.calls c = none) (distinct : taskId ∉ s.history.tasks)
      (answer : acquire cfg.enabled s.closing false false taskId = .answered result) :
      LocalMove cfg s (.acquire c taskId now)
        ({ s with history.tasks := s.history.tasks ++ [taskId] }.setCall c
          (.acquire taskId (now + cfg.maxWaitSeconds) (.returned result)))
  | acquireStarts {c : CallId} {taskId : String} {now : ℚ}
      (unused : s.calls c = none) (distinct : taskId ∉ s.history.tasks)
      (route : acquire cfg.enabled s.closing false false taskId = .acquireLocal) :
      LocalMove cfg s (.acquire c taskId now)
        ({ s with history.tasks := s.history.tasks ++ [taskId] }.setCall c
          (.acquire taskId (now + cfg.maxWaitSeconds) .entering))
  | cancelStarts {c : CallId} {taskId : String} (unused : s.calls c = none) :
      LocalMove cfg s (.cancel c taskId) (s.setCall c (.cancel taskId (startCancel cfg)))
  | releaseStarts {c : CallId} {permit : Option StreamQueuePermit} (unused : s.calls c = none) :
      LocalMove cfg s (.release c permit) (s.setCall c (.release permit (startRelease cfg permit)))
  | closeStarts {c : CallId} (unused : s.calls c = none) :
      LocalMove cfg s (.close c) ({ s with closing := true }.setCall c (.close .entering))
  | joins {c : CallId} {taskId : String} {deadline : ℚ} (free : s.lock = none)
      (suspended : s.calls c = some (.acquire taskId deadline .entering)) :
      LocalMove cfg s (.lock c) ((s.appendWaiter c taskId deadline).acquireLocalLoop c taskId deadline)
  | resumes {c : CallId} {taskId : String} {deadline : ℚ} (free : s.lock = none)
      (suspended : s.calls c = some (.acquire taskId deadline (.waking false))) :
      LocalMove cfg s (.lock c) (s.acquireLocalLoop c taskId deadline)
  | leaves {c : CallId} {taskId : String} {deadline : ℚ} (free : s.lock = none)
      (suspended : s.calls c = some (.acquire taskId deadline (.waking true))) :
      LocalMove cfg s (.lock c) (s.finish c (.acquire taskId deadline .raised))
  | cancels {c : CallId} {taskId : String} (free : s.lock = none)
      (suspended : s.calls c = some (.cancel taskId .entering)) :
      LocalMove cfg s (.lock c) ((s.removeLocalWaiter taskId).finish c (.cancel taskId .returned))
  | releases {c : CallId} {permit : Option StreamQueuePermit} (free : s.lock = none)
      (suspended : s.calls c = some (.release permit .entering)) :
      LocalMove cfg s (.lock c) ((s.releaseLocal permit).finish c (.release permit .returned))
  | closes {c : CallId} (free : s.lock = none) (suspended : s.calls c = some (.close .entering)) :
      LocalMove cfg s (.lock c) (s.finish c (.close .returned))
  | polled {c : CallId} {taskId : String} {deadline : ℚ} {shouldCancel : Bool} {now : ℚ}
      {uuid : String} (suspended : s.calls c = some (.acquire taskId deadline .polling))
      (fresh : s.Fresh uuid) :
      LocalMove cfg s (.polled c shouldCancel now uuid)
        (s.acquireLocalPolled cfg.maxConcurrent c taskId deadline shouldCancel now uuid)
  | wakes {c : CallId} {taskId : String} {deadline : ℚ}
      (suspended : s.calls c = some (.acquire taskId deadline .waiting)) :
      LocalMove cfg s (.wake c) (s.setCall c (.acquire taskId deadline (.waking false)))
  | interrupted {c : CallId} {call : Call} {t : LocalState} (suspended : s.calls c = some call)
      (effect : interruptCall s c call = some t) : LocalMove cfg s (.interrupt c) t

theorem startAcquire_move {cfg : Config} {s t : LocalState} {c : CallId} {taskId : String} {now : ℚ}
    (unused : s.calls c = none) (taken : startAcquire cfg s c taskId now = some t) :
    LocalMove cfg s (.acquire c taskId now) t := by
  unfold startAcquire at taken
  split_ifs at taken with seen
  dsimp only at taken
  split at taken
  · next result answer => cases taken; exact .acquireAnswers unused seen answer
  · next route => cases taken; exact .acquireStarts unused seen route
  · cases taken

theorem enterLock_move {cfg : Config} {s t : LocalState} {c : CallId} {call : Call}
    (free : s.lock = none) (suspended : s.calls c = some call)
    (taken : enterLock s c call = some t) : LocalMove cfg s (.lock c) t := by
  unfold enterLock at taken
  split at taken <;> cases taken
  · exact .joins free suspended
  · exact .resumes free suspended
  · exact .leaves free suspended
  · exact .cancels free suspended
  · exact .releases free suspended
  · exact .closes free suspended

/-- The step function takes no other step than those listed. -/
theorem localStep_move {cfg : Config} {s t : LocalState} {e : LocalEvent}
    (taken : localStep cfg s e = some t) : LocalMove cfg s e t := by
  cases e with
  | acquire c taskId now =>
    simp only [localStep] at taken
    split_ifs at taken with used
    exact startAcquire_move (by simpa using used) taken
  | cancel c taskId =>
    simp only [localStep] at taken
    split_ifs at taken with used
    cases taken
    exact .cancelStarts (by simpa using used)
  | release c permit =>
    simp only [localStep] at taken
    split_ifs at taken with used
    cases taken
    exact .releaseStarts (by simpa using used)
  | close c =>
    simp only [localStep] at taken
    split_ifs at taken with used
    cases taken
    exact .closeStarts (by simpa using used)
  | lock c =>
    simp only [localStep] at taken
    split_ifs at taken with held
    obtain ⟨call, suspended, entered⟩ := Option.bind_eq_some_iff.mp taken
    exact enterLock_move (by simpa using held) suspended entered
  | polled c shouldCancel now uuid =>
    simp only [localStep] at taken
    split at taken
    · next taskId deadline suspended =>
      split_ifs at taken with fresh
      cases taken
      exact .polled suspended fresh
    · cases taken
  | wake c =>
    simp only [localStep] at taken
    split at taken
    · next taskId deadline suspended => cases taken; exact .wakes suspended
    · cases taken
  | interrupt c =>
    simp only [localStep] at taken
    obtain ⟨call, suspended, effect⟩ := Option.bind_eq_some_iff.mp taken
    exact .interrupted suspended effect

/-- The two ways the top of the wait loop ends. -/
theorem acquireLocalLoop_cases (s : LocalState) (c : CallId) (taskId : String) (deadline : ℚ) :
    s.acquireLocalLoop c taskId deadline =
        (s.removeLocalWaiter taskId).finish c
          (.acquire taskId deadline (.returned ⟨.unavailable, none⟩)) ∨
      s.acquireLocalLoop c taskId deadline =
        s.hold c (.acquire taskId deadline .polling) := by
  unfold acquireLocalLoop
  split_ifs
  · exact .inl rfl
  · exact .inr rfl

/-- The ways the rest of the wait loop ends: without a permit, with one, or in a wait. -/
theorem acquireLocalPolled_cases (s : LocalState) (n : ℕ) (c : CallId) (taskId : String)
    (deadline : ℚ) (shouldCancel : Bool) (now : ℚ) (uuid : String) :
    (∃ status, status ≠ .granted ∧
        s.acquireLocalPolled n c taskId deadline shouldCancel now uuid =
          (s.removeLocalWaiter taskId).finish c
            (.acquire taskId deadline (.returned ⟨status, none⟩))) ∨
      (s.localWaiting.head?.map LocalWaiter.owner = some c ∧ s.localActive.entries.length < n ∧
        s.acquireLocalPolled n c taskId deadline shouldCancel now uuid =
          (s.grant c taskId uuid).finish c
            (.acquire taskId deadline (.returned ⟨.granted, some ⟨taskId, uuid, false⟩⟩))) ∨
      s.acquireLocalPolled n c taskId deadline shouldCancel now uuid =
        s.finish c (.acquire taskId deadline .waiting) := by
  unfold acquireLocalPolled
  split_ifs with stop room late
  · exact .inl ⟨.cancelled, by decide, rfl⟩
  · exact .inr (.inl ⟨room.1, room.2, rfl⟩)
  · exact .inl ⟨.timedOut, by decide, rfl⟩
  · exact .inr (.inr rfl)

/-- The ways an interrupted call goes on; its queue entry stays where it is. -/
theorem interruptCall_cases {s t : LocalState} {c : CallId} {call : Call}
    (effect : interruptCall s c call = some t) :
    (∃ taskId deadline, call = .acquire taskId deadline .polling ∧
        t = s.finish c (.acquire taskId deadline .raised)) ∨
      (∃ taskId deadline, call = .acquire taskId deadline .entering ∧
        t = s.setCall c (.acquire taskId deadline .raised)) ∨
      (∃ taskId deadline pc, call = .acquire taskId deadline pc ∧
        (pc = .waiting ∨ ∃ cancelled, pc = .waking cancelled) ∧
        t = s.setCall c (.acquire taskId deadline (.waking true))) ∨
      ((∀ taskId deadline pc, call ≠ .acquire taskId deadline pc) ∧
        ∃ call', (∀ taskId deadline pc, call' ≠ .acquire taskId deadline pc) ∧
          t = s.setCall c call') := by
  unfold interruptCall at effect
  split at effect <;> cases effect
  · exact .inr (.inl ⟨_, _, rfl, rfl⟩)
  · exact .inl ⟨_, _, rfl, rfl⟩
  · exact .inr (.inr (.inl ⟨_, _, _, rfl, .inl rfl, rfl⟩))
  · exact .inr (.inr (.inl ⟨_, _, _, rfl, .inr ⟨_, rfl⟩, rfl⟩))
  · exact .inr (.inr (.inr ⟨by simp, _, by simp, rfl⟩))
  · exact .inr (.inr (.inr ⟨by simp, _, by simp, rfl⟩))
  · exact .inr (.inr (.inr ⟨by simp, _, by simp, rfl⟩))

end HeyeeAgent.StreamQueueLimiter
