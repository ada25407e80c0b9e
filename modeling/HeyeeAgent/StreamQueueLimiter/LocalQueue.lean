import HeyeeAgent.Admission.Fifo
import HeyeeAgent.StreamQueueLimiter.LocalMoves

/-! # The in-process queue is bounded first-in-first-out admission

The record of a call only moves forward, a task id names at most one acquire call, and each waiter
is the entry of the call that built it. Under these facts every resumption performs at most one
operation of the abstract admission queue, whose order and capacity the code therefore inherits.
Only the call that owns a waiter, or a `cancel` for its task, takes it out of the queue.
-/

namespace HeyeeAgent.StreamQueueLimiter

open LocalState

def LocalEvent.call : LocalEvent → CallId
  | .acquire c _ _ | .cancel c _ | .release c _ | .close c
  | .lock c | .polled c _ _ _ | .wake c | .interrupt c => c

/-- The event is the call of a limiter method. -/
def LocalEvent.Starts : LocalEvent → Prop
  | .acquire .. | .cancel .. | .release .. | .close _ => True
  | .lock _ | .polled .. | .wake _ | .interrupt _ => False

/-- The coroutine has not returned or raised. -/
def AcquirePc.Executing : AcquirePc → Prop
  | .entering | .polling | .waiting | .waking _ => True
  | .returned _ | .raised => False

instance : DecidablePred AcquirePc.Executing := fun pc => by
  cases pc <;> simp only [AcquirePc.Executing] <;> infer_instance

/-- How the record of the resumed call changes. -/
inductive CallStep : Option Call → Call → Prop
  | starts {call : Call} (outside : ∀ taskId deadline pc, call = .acquire taskId deadline pc →
      pc = .entering ∨ ∃ result, pc = .returned result) : CallStep none call
  | continues {taskId : String} {deadline : ℚ} {pc pc' : AcquirePc} (executing : pc.Executing)
      (entered : pc' ≠ .entering) :
      CallStep (some (.acquire taskId deadline pc)) (.acquire taskId deadline pc')
  | others {call call' : Call} (before : ∀ taskId deadline pc, call ≠ .acquire taskId deadline pc)
      (after : ∀ taskId deadline pc, call' ≠ .acquire taskId deadline pc) :
      CallStep (some call) call'

/-- A method is called under an identifier that names no call. -/
theorem LocalMove.unused {cfg : Config} {s t : LocalState} {e : LocalEvent}
    (move : LocalMove cfg s e t) (starts : e.Starts) : s.calls e.call = none := by
  cases move with
  | acquireAnswers unused _ _ | acquireStarts unused _ _ | cancelStarts unused
  | releaseStarts unused | closeStarts unused => exact unused
  | _ => exact starts.elim

/-- A resumption changes the record of its own call and of no other. -/
theorem LocalMove.calls {cfg : Config} {s t : LocalState} {e : LocalEvent}
    (move : LocalMove cfg s e t) :
    ∃ call, t.calls = Function.update s.calls e.call (some call) ∧
      CallStep (s.calls e.call) call := by
  cases move with
  | acquireAnswers unused distinct answer =>
    exact ⟨_, rfl, by rw [LocalEvent.call, unused]; exact .starts (by simp)⟩
  | acquireStarts unused distinct route =>
    exact ⟨_, rfl, by rw [LocalEvent.call, unused]; exact .starts (by simp)⟩
  | cancelStarts unused =>
    exact ⟨_, rfl, by rw [LocalEvent.call, unused]; exact .starts (by simp)⟩
  | releaseStarts unused =>
    exact ⟨_, rfl, by rw [LocalEvent.call, unused]; exact .starts (by simp)⟩
  | closeStarts unused =>
    exact ⟨_, rfl, by rw [LocalEvent.call, unused]; exact .starts (by simp)⟩
  | @joins c taskId deadline free suspended =>
    simp only [LocalEvent.call, suspended]
    rcases acquireLocalLoop_cases (s.appendWaiter c taskId deadline) c taskId deadline
      with loop | loop <;> rw [loop] <;> exact ⟨_, rfl, .continues trivial (by simp)⟩
  | @resumes c taskId deadline free suspended =>
    simp only [LocalEvent.call, suspended]
    rcases acquireLocalLoop_cases s c taskId deadline with loop | loop <;> rw [loop] <;>
      exact ⟨_, rfl, .continues trivial (by simp)⟩
  | leaves free suspended =>
    simp only [LocalEvent.call, suspended]
    exact ⟨_, rfl, .continues trivial (by simp)⟩
  | cancels free suspended =>
    simp only [LocalEvent.call, suspended]
    exact ⟨_, rfl, .others (by simp) (by simp)⟩
  | @releases c permit free suspended =>
    simp only [LocalEvent.call, suspended]
    refine ⟨.release permit .returned, ?_, .others (by simp) (by simp)⟩
    cases permit <;> rfl
  | closes free suspended =>
    simp only [LocalEvent.call, suspended]
    exact ⟨_, rfl, .others (by simp) (by simp)⟩
  | @polled c taskId deadline shouldCancel now uuid suspended fresh =>
    simp only [LocalEvent.call, suspended]
    rcases acquireLocalPolled_cases s cfg.maxConcurrent c taskId deadline shouldCancel now uuid
      with ⟨status, -, result⟩ | ⟨-, -, result⟩ | result <;> rw [result] <;>
      exact ⟨_, rfl, .continues trivial (by simp)⟩
  | wakes suspended =>
    simp only [LocalEvent.call, suspended]
    exact ⟨_, rfl, .continues trivial (by simp)⟩
  | @interrupted c call _ suspended effect =>
    simp only [LocalEvent.call, suspended]
    rcases interruptCall_cases effect with ⟨taskId, deadline, rfl, rfl⟩ | ⟨taskId, deadline, rfl, rfl⟩ |
      ⟨taskId, deadline, pc, rfl, inside, rfl⟩ | ⟨before, call', after, rfl⟩
    · exact ⟨_, rfl, .continues trivial (by simp)⟩
    · exact ⟨_, rfl, .continues trivial (by simp)⟩
    · refine ⟨_, rfl, .continues ?_ (by simp)⟩
      rcases inside with rfl | ⟨_, rfl⟩ <;> trivial
    · exact ⟨_, rfl, .others before after⟩

/-- The coroutine of `acquire` for the task is suspended or has ended at `pc`. -/
def LocalState.AcquireAt (s : LocalState) (c : CallId) (taskId : String) (pc : AcquirePc) : Prop :=
  ∃ deadline, s.calls c = some (.acquire taskId deadline pc)

theorem LocalState.AcquireAt.unique {s : LocalState} {c : CallId} {taskId taskId' : String}
    {pc pc' : AcquirePc} (first : s.AcquireAt c taskId pc) (second : s.AcquireAt c taskId' pc') :
    taskId = taskId' ∧ pc = pc' := by
  obtain ⟨deadline, found⟩ := first
  obtain ⟨deadline', found'⟩ := second
  rw [found] at found'
  cases found'
  exact ⟨rfl, rfl⟩

section AcquireAt

variable {s : LocalState} {c : CallId} {call : Call} {taskId : String} {pc : AcquirePc}

@[simp] theorem acquireAt_setCall :
    (s.setCall c call).AcquireAt c taskId pc ↔ ∃ deadline, call = .acquire taskId deadline pc := by
  simp [AcquireAt, setCall]

@[simp] theorem acquireAt_finish :
    (s.finish c call).AcquireAt c taskId pc ↔ ∃ deadline, call = .acquire taskId deadline pc := by
  simp [AcquireAt, finish, setCall]

@[simp] theorem acquireAt_hold :
    (s.hold c call).AcquireAt c taskId pc ↔ ∃ deadline, call = .acquire taskId deadline pc := by
  simp [AcquireAt, hold, setCall]

end AcquireAt

/-- An acquire call stays one for the same task, and never goes back to its start. -/
theorem LocalMove.acquireAt {cfg : Config} {s t : LocalState} {e : LocalEvent}
    (move : LocalMove cfg s e t) {c : CallId} {taskId : String} {pc : AcquirePc}
    (at_ : s.AcquireAt c taskId pc) :
    ∃ pc', t.AcquireAt c taskId pc' ∧ (pc' = pc ∨ c = e.call ∧ pc.Executing ∧ pc' ≠ .entering) := by
  obtain ⟨deadline, found⟩ := at_
  obtain ⟨call, updated, change⟩ := move.calls
  by_cases same : c = e.call
  · subst same
    rw [found] at change
    cases change with
    | @continues _ _ _ pc' executing entered =>
      exact ⟨pc', ⟨deadline, by simp [updated]⟩, .inr ⟨rfl, executing, entered⟩⟩
    | others before after => exact absurd rfl (before _ _ _)
  · exact ⟨pc, ⟨deadline, by simp [updated, Function.update_of_ne same, found]⟩, .inl rfl⟩

/-- A finished call keeps its result. -/
theorem LocalMove.acquireAt_final {cfg : Config} {s t : LocalState} {e : LocalEvent}
    (move : LocalMove cfg s e t) {c : CallId} {taskId : String} {pc : AcquirePc}
    (at_ : s.AcquireAt c taskId pc) (final : ¬ pc.Executing) : t.AcquireAt c taskId pc := by
  obtain ⟨pc', after, rfl | ⟨-, executing, -⟩⟩ := move.acquireAt at_
  · exact after
  · exact absurd executing final

/-- Records are never dropped, and an acquire record goes back to one of the same call. -/
def RecordsGoBack (s t : LocalState) : Prop :=
  ∀ c, (s.calls c).isSome → (t.calls c).isSome ∧ ∀ taskId pc, t.AcquireAt c taskId pc →
    ∃ pc', s.AcquireAt c taskId pc' ∧ (pc' = pc ∨ pc'.Executing)

theorem LocalMove.recordsGoBack {cfg : Config} {s t : LocalState} {e : LocalEvent}
    (move : LocalMove cfg s e t) : RecordsGoBack s t := by
  obtain ⟨call, updated, change⟩ := move.calls
  intro c started
  by_cases same : c = e.call
  · subst same
    refine ⟨by simp [updated], fun taskId pc after => ?_⟩
    obtain ⟨deadline, found⟩ := after
    rw [updated, Function.update_self] at found
    cases found
    generalize before : s.calls e.call = old at change
    cases change with
    | starts _ => simp [before] at started
    | continues executing _ => exact ⟨_, ⟨deadline, before⟩, .inr executing⟩
    | others _ after => exact absurd rfl (after _ _ _)
  · have kept : t.calls c = s.calls c := by rw [updated, Function.update_of_ne same]
    refine ⟨kept ▸ started, fun taskId pc after => ⟨pc, ?_, .inl rfl⟩⟩
    obtain ⟨deadline, found⟩ := after
    exact ⟨deadline, kept ▸ found⟩

theorem recordsGoBack_run {cfg : Config} {s t : LocalState} {es : List LocalEvent}
    (run : Machine.runFrom (localStep cfg) s es = some t) : RecordsGoBack s t := by
  refine Machine.relation_runFrom (R := RecordsGoBack) ?_ ?_
    (fun s e t taken => (localStep_move taken).recordsGoBack) run
  · exact fun s c started => ⟨started, fun taskId pc at_ => ⟨pc, at_, .inl rfl⟩⟩
  · intro s t u first second c started
    obtain ⟨middle, back⟩ := first c started
    obtain ⟨last, back'⟩ := second c middle
    refine ⟨last, fun taskId pc after => ?_⟩
    obtain ⟨pc', at_, same⟩ := back' taskId pc after
    obtain ⟨pc'', before, same'⟩ := back taskId pc' at_
    refine ⟨pc'', before, ?_⟩
    rcases same' with rfl | executing
    · exact same
    · exact .inr executing

/-- What the resumed call does to the queue and to the permits. -/
inductive QueueChange (capacity : ℕ) (s t : LocalState) (c : CallId) : Prop
  | join {taskId : String} {deadline : ℚ} (suspended : s.AcquireAt c taskId .entering)
      (entered : ∃ pc, t.AcquireAt c taskId pc ∧ pc ≠ .entering)
      (joined : t.history.joined = s.history.joined ++ [c])
      (waiting : t.localWaiting.Sublist (s.localWaiting ++ [⟨c, taskId, deadline⟩]))
      (granted : t.history.granted = s.history.granted)
      (active : t.localActive = s.localActive)
      (released : t.history.released = s.history.released)
  | shrink (joined : t.history.joined = s.history.joined)
      (waiting : t.localWaiting.Sublist s.localWaiting)
      (granted : t.history.granted = s.history.granted)
      (active : t.localActive = s.localActive)
      (released : t.history.released = s.history.released)
  | grant {taskId uuid : String} (head : s.localWaiting.head?.map LocalWaiter.owner = some c)
      (room : s.localActive.entries.length < capacity) (fresh : s.Fresh uuid)
      (suspended : s.AcquireAt c taskId .polling)
      (returned : t.AcquireAt c taskId (.returned ⟨.granted, some ⟨taskId, uuid, false⟩⟩))
      (joined : t.history.joined = s.history.joined)
      (waiting : t.localWaiting = s.localWaiting.tail)
      (granted : t.history.granted = s.history.granted ++ [(c, uuid)])
      (active : t.localActive = s.localActive.insert uuid ⟨taskId, uuid, false⟩)
      (released : t.history.released = s.history.released)
  | release {permitId : String} (joined : t.history.joined = s.history.joined)
      (waiting : t.localWaiting = s.localWaiting)
      (granted : t.history.granted = s.history.granted)
      (active : t.localActive = s.localActive.erase permitId)
      (released : t.history.released = s.history.released ++ [permitId])

theorem removeLocalWaiter_sublist (s : LocalState) (taskId : String) :
    (s.removeLocalWaiter taskId).localWaiting.Sublist s.localWaiting := List.filter_sublist

theorem LocalMove.queue {cfg : Config} {s t : LocalState} {e : LocalEvent}
    (move : LocalMove cfg s e t) : QueueChange cfg.maxConcurrent s t e.call := by
  cases move with
  | acquireAnswers _ _ _ => exact .shrink rfl (.refl _) rfl rfl rfl
  | acquireStarts _ _ _ => exact .shrink rfl (.refl _) rfl rfl rfl
  | cancelStarts _ => exact .shrink rfl (.refl _) rfl rfl rfl
  | releaseStarts _ => exact .shrink rfl (.refl _) rfl rfl rfl
  | closeStarts _ => exact .shrink rfl (.refl _) rfl rfl rfl
  | @joins c taskId deadline free suspended =>
    have entering : s.AcquireAt c taskId .entering := ⟨deadline, suspended⟩
    rcases acquireLocalLoop_cases (s.appendWaiter c taskId deadline) c taskId deadline
      with loop | loop <;> rw [loop]
    · exact .join entering ⟨_, ⟨deadline, Function.update_self ..⟩, by simp⟩ rfl
        (removeLocalWaiter_sublist (s.appendWaiter c taskId deadline) taskId) rfl rfl rfl
    · exact .join entering ⟨_, ⟨deadline, Function.update_self ..⟩, by simp⟩ rfl (.refl _) rfl rfl rfl
  | @resumes c taskId deadline free suspended =>
    rcases acquireLocalLoop_cases s c taskId deadline with loop | loop <;> rw [loop]
    · exact .shrink rfl (removeLocalWaiter_sublist s taskId) rfl rfl rfl
    · exact .shrink rfl (.refl _) rfl rfl rfl
  | leaves _ _ => exact .shrink rfl (.refl _) rfl rfl rfl
  | @cancels c taskId free suspended =>
    exact .shrink rfl (removeLocalWaiter_sublist s taskId) rfl rfl rfl
  | @releases c permit free suspended =>
    cases permit with
    | none => exact .shrink rfl (.refl _) rfl rfl rfl
    | some permit => exact @QueueChange.release _ _ _ _ permit.permitId rfl rfl rfl rfl rfl
  | closes _ _ => exact .shrink rfl (.refl _) rfl rfl rfl
  | @polled c taskId deadline shouldCancel now uuid suspended fresh =>
    rcases acquireLocalPolled_cases s cfg.maxConcurrent c taskId deadline shouldCancel now uuid
      with ⟨status, -, result⟩ | ⟨head, room, result⟩ | result <;> rw [result]
    · exact .shrink rfl (removeLocalWaiter_sublist s taskId) rfl rfl rfl
    · exact .grant head room fresh ⟨deadline, suspended⟩
        ⟨deadline, Function.update_self ..⟩ rfl rfl rfl rfl rfl
    · exact .shrink rfl (.refl _) rfl rfl rfl
  | wakes _ => exact .shrink rfl (.refl _) rfl rfl rfl
  | interrupted suspended effect =>
    rcases interruptCall_cases effect with ⟨_, _, -, rfl⟩ | ⟨_, _, -, rfl⟩ | ⟨_, _, _, -, -, rfl⟩ |
      ⟨-, _, -, rfl⟩ <;> exact .shrink rfl (.refl _) rfl rfl rfl

/-- The facts that tie the queue to the calls. -/
structure LocalInv (s : LocalState) : Prop where
  joined_call : ∀ c ∈ s.history.joined, ∃ taskId pc, s.AcquireAt c taskId pc ∧ pc ≠ .entering
  waiter_call : ∀ w ∈ s.localWaiting, ∃ pc, s.AcquireAt w.owner w.taskId pc
  task_seen : ∀ c taskId pc, s.AcquireAt c taskId pc → taskId ∈ s.history.tasks
  task_unique : ∀ c c' taskId pc pc', s.AcquireAt c taskId pc → s.AcquireAt c' taskId pc' → c = c'

theorem localInv_empty : LocalInv {} where
  joined_call := by simp
  waiter_call := by simp
  task_seen := by simp [AcquireAt]
  task_unique := by simp [AcquireAt]

/-- Only the start of an acquire call uses up a task id. -/
theorem LocalMove.tasks {cfg : Config} {s t : LocalState} {e : LocalEvent}
    (move : LocalMove cfg s e t) :
    (t.history.tasks = s.history.tasks ∧
        (s.calls e.call = none → ∀ taskId pc, ¬ t.AcquireAt e.call taskId pc)) ∨
      ∃ taskId, taskId ∉ s.history.tasks ∧ t.history.tasks = s.history.tasks ++ [taskId] ∧
        ∀ taskId' pc, t.AcquireAt e.call taskId' pc →
          taskId' = taskId ∧ (cfg.enabled = true ∨ ∃ result, pc = .returned result) := by
  cases move with
  | @acquireAnswers c taskId now result unused distinct answer =>
    refine .inr ⟨taskId, distinct, rfl, fun taskId' pc after => ?_⟩
    obtain ⟨deadline, same⟩ := acquireAt_setCall.mp after
    cases same
    exact ⟨rfl, .inr ⟨result, rfl⟩⟩
  | @acquireStarts c taskId now unused distinct route =>
    refine .inr ⟨taskId, distinct, rfl, fun taskId' pc after => ?_⟩
    obtain ⟨deadline, same⟩ := acquireAt_setCall.mp after
    cases same
    exact ⟨rfl, .inl (acquire_acquireLocal route)⟩
  | cancelStarts _ => exact .inl ⟨rfl, by simp [LocalEvent.call]⟩
  | releaseStarts _ => exact .inl ⟨rfl, by simp [LocalEvent.call]⟩
  | closeStarts _ => exact .inl ⟨rfl, by simp [LocalEvent.call]⟩
  | @joins c taskId deadline free suspended =>
    refine .inl ⟨?_, by simp [LocalEvent.call, suspended]⟩
    rcases acquireLocalLoop_cases (s.appendWaiter c taskId deadline) c taskId deadline
      with loop | loop <;> rw [loop] <;> rfl
  | @resumes c taskId deadline free suspended =>
    refine .inl ⟨?_, by simp [LocalEvent.call, suspended]⟩
    rcases acquireLocalLoop_cases s c taskId deadline with loop | loop <;> rw [loop] <;> rfl
  | leaves free suspended => exact .inl ⟨rfl, by simp [LocalEvent.call, suspended]⟩
  | cancels free suspended => exact .inl ⟨rfl, by simp [LocalEvent.call, suspended]⟩
  | @releases c permit free suspended =>
    exact .inl ⟨by cases permit <;> rfl, by simp [LocalEvent.call, suspended]⟩
  | closes free suspended => exact .inl ⟨rfl, by simp [LocalEvent.call, suspended]⟩
  | @polled c taskId deadline shouldCancel now uuid suspended fresh =>
    refine .inl ⟨?_, by simp [LocalEvent.call, suspended]⟩
    rcases acquireLocalPolled_cases s cfg.maxConcurrent c taskId deadline shouldCancel now uuid
      with ⟨status, -, result⟩ | ⟨-, -, result⟩ | result <;> rw [result] <;> rfl
  | wakes suspended => exact .inl ⟨rfl, by simp [LocalEvent.call, suspended]⟩
  | interrupted suspended effect =>
    refine .inl ⟨?_, by simp [LocalEvent.call, suspended]⟩
    rcases interruptCall_cases effect with ⟨_, _, -, rfl⟩ | ⟨_, _, -, rfl⟩ | ⟨_, _, _, -, -, rfl⟩ |
      ⟨-, _, -, rfl⟩ <;> rfl

/-- An acquire call that was not there before has a task id that was not there before, and a
disabled limiter has answered it. -/
theorem LocalMove.acquireAt_back {cfg : Config} {s t : LocalState} {e : LocalEvent}
    (move : LocalMove cfg s e t) {c : CallId} {taskId : String} {pc : AcquirePc}
    (after : t.AcquireAt c taskId pc) :
    (∃ pc', s.AcquireAt c taskId pc') ∨
      c = e.call ∧ taskId ∉ s.history.tasks ∧ taskId ∈ t.history.tasks ∧
        (cfg.enabled = true ∨ ∃ result, pc = .returned result) := by
  obtain ⟨call, updated, change⟩ := move.calls
  obtain ⟨deadline, found⟩ := after
  by_cases same : c = e.call
  · subst same
    rw [updated, Function.update_self] at found
    cases found
    generalize before : s.calls e.call = old at change
    cases change with
    | starts _ =>
      have after : t.AcquireAt e.call taskId pc := ⟨deadline, by simp [updated]⟩
      rcases move.tasks with ⟨-, none⟩ | ⟨taskId', unseen, tasks, only⟩
      · exact absurd after (none before taskId pc)
      · obtain ⟨rfl, answered⟩ := only taskId pc after
        exact .inr ⟨rfl, unseen, by simp [tasks], answered⟩
    | continues _ _ => exact .inl ⟨_, deadline, before⟩
    | others _ after => exact absurd rfl (after _ _ _)
  · rw [updated, Function.update_of_ne same] at found
    exact .inl ⟨pc, deadline, found⟩

theorem LocalMove.tasks_subset {cfg : Config} {s t : LocalState} {e : LocalEvent}
    (move : LocalMove cfg s e t) : s.history.tasks ⊆ t.history.tasks := by
  rcases move.tasks with ⟨same, -⟩ | ⟨taskId, -, tasks, -⟩
  · rw [same]; exact List.Subset.refl _
  · rw [tasks]; exact List.subset_append_left _ _

theorem LocalMove.preserves {cfg : Config} {s t : LocalState} {e : LocalEvent}
    (inv : LocalInv s) (move : LocalMove cfg s e t) : LocalInv t := by
  have keepsJoined {c : CallId} (member : c ∈ s.history.joined) :
      ∃ taskId pc, t.AcquireAt c taskId pc ∧ pc ≠ .entering := by
    obtain ⟨taskId, pc, before, entered⟩ := inv.joined_call c member
    obtain ⟨pc', after, rfl | ⟨-, -, entered'⟩⟩ := move.acquireAt before
    · exact ⟨taskId, pc', after, entered⟩
    · exact ⟨taskId, pc', after, entered'⟩
  have keepsWaiter {w : LocalWaiter} (member : w ∈ s.localWaiting) :
      ∃ pc, t.AcquireAt w.owner w.taskId pc := by
    obtain ⟨pc, before⟩ := inv.waiter_call w member
    obtain ⟨pc', after, -⟩ := move.acquireAt before
    exact ⟨pc', after⟩
  refine ⟨?_, ?_, ?_, ?_⟩
  · intro c member
    cases move.queue with
    | @join taskId deadline suspended entered joined =>
      rw [joined] at member
      rcases List.mem_append.mp member with old | new
      · exact keepsJoined old
      · obtain rfl := List.mem_singleton.mp new
        exact ⟨taskId, entered⟩
    | shrink joined => exact keepsJoined (joined ▸ member)
    | grant _ _ _ _ _ joined => exact keepsJoined (joined ▸ member)
    | release joined => exact keepsJoined (joined ▸ member)
  · intro w member
    cases move.queue with
    | @join taskId deadline suspended entered joined waiting =>
      rcases List.mem_append.mp (waiting.subset member) with old | new
      · exact keepsWaiter old
      · obtain rfl := List.mem_singleton.mp new
        obtain ⟨pc', after, -⟩ := move.acquireAt suspended
        exact ⟨pc', after⟩
    | shrink _ waiting => exact keepsWaiter (waiting.subset member)
    | grant _ _ _ _ _ _ waiting => exact keepsWaiter (List.mem_of_mem_tail (waiting ▸ member))
    | release _ waiting => exact keepsWaiter (waiting ▸ member)
  · intro c taskId pc after
    rcases move.acquireAt_back after with ⟨pc', before⟩ | ⟨-, -, seen, -⟩
    · exact move.tasks_subset (inv.task_seen c taskId pc' before)
    · exact seen
  · intro c c' taskId pc pc' first second
    rcases move.acquireAt_back first with ⟨_, before⟩ | ⟨rfl, unseen, -⟩ <;>
      rcases move.acquireAt_back second with ⟨_, before'⟩ | ⟨rfl, unseen', -⟩
    · exact inv.task_unique _ _ _ _ _ before before'
    · exact absurd (inv.task_seen _ _ _ before) unseen'
    · exact absurd (inv.task_seen _ _ _ before') unseen
    · rfl

/-! ### Refinement of the abstract queue -/

/-- The admission queue that a state of the limiter stands for. -/
def LocalState.admission (s : LocalState) : Admission.Queue CallId String where
  joined := s.history.joined
  waiting := s.localWaiting.map LocalWaiter.owner
  granted := s.history.granted
  held := s.localActive.keys
  freed := s.history.released

/-- Every resumption is at most one join, withdrawal, grant or release of the abstract queue. -/
theorem QueueChange.refines {capacity : ℕ} {s t : LocalState} {c : CallId} (inv : LocalInv s)
    (bounded : Admission.Bounded capacity s.admission) (change : QueueChange capacity s t c) :
    Machine.Reachable (Admission.step capacity) s.admission t.admission := by
  have withdraws {q : Admission.Queue CallId String} {rest : List CallId}
      (kept : rest.Sublist q.waiting) :
      Machine.Reachable (Admission.step capacity) q { q with waiting := rest } :=
    (Machine.Reachable.refl _ q).next (e := .withdraw rest) (if_pos kept)
  cases change with
  | @join taskId deadline suspended entered joined waiting granted active released =>
    have fresh : c ∉ s.history.joined := by
      intro member
      obtain ⟨_, _, already, entered⟩ := inv.joined_call c member
      exact entered (already.unique suspended).2
    have joins : Machine.Reachable (Admission.step capacity) s.admission
        { s.admission with
          joined := s.history.joined ++ [c]
          waiting := s.localWaiting.map LocalWaiter.owner ++ [c] } :=
      (Machine.Reachable.refl _ s.admission).next (e := .join c) (if_neg fresh)
    have shorter := waiting.map LocalWaiter.owner
    rw [List.map_append] at shorter
    refine joins.trans ?_
    simpa only [admission, joined, granted, active, released] using withdraws shorter
  | shrink joined waiting granted active released =>
    simpa only [admission, joined, granted, active, released] using
      withdraws (q := s.admission) (waiting.map LocalWaiter.owner)
  | @grant taskId uuid head room fresh suspended returned joined waiting granted active released =>
    have unheld : uuid ∉ s.localActive.keys := fun held =>
      fresh.1 ((bounded.mem_held uuid).mp held).1
    refine (Machine.Reachable.refl _ s.admission).next (e := .grant c uuid) ?_
    have length : s.localActive.keys.length < capacity := by
      simpa only [AList.keys, List.keys, List.length_map] using room
    have first : (s.localWaiting.map LocalWaiter.owner).head? = some c := by
      rw [List.head?_map]; exact head
    simp only [Admission.step, admission, first, length, fresh.1, fresh.2, not_false_eq_true,
      and_self, ↓reduceIte, joined, waiting, granted, active, released, AList.keys_insert,
      List.erase_of_not_mem unheld, List.map_tail]
  | @release permitId joined waiting granted active released =>
    refine (Machine.Reachable.refl _ s.admission).next (e := .free permitId) ?_
    simp only [Admission.step, admission, joined, waiting, granted, active, released,
      AList.keys_erase]

/-- A reachable state stands for a reachable admission queue. -/
theorem local_refines {cfg : Config} {s : LocalState}
    (reached : Machine.Reachable (localStep cfg) {} s) :
    LocalInv s ∧ Machine.Reachable (Admission.step cfg.maxConcurrent) {} s.admission := by
  refine Machine.invariant_reachable (I := fun s => LocalInv s ∧
    Machine.Reachable (Admission.step cfg.maxConcurrent) {} s.admission) ?_
    ⟨localInv_empty, .refl _ _⟩ reached
  rintro s e t ⟨inv, queue⟩ taken
  have move := localStep_move taken
  exact ⟨move.preserves inv, queue.trans (move.queue.refines inv (Admission.reachable_bounded queue))⟩

end HeyeeAgent.StreamQueueLimiter
