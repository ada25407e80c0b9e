import HeyeeAgent.StreamQueueLimiter.LocalQueue

/-! # Order, capacity and cleanup of the in-process queue

The bound, the ownership of permits and the order of grants come from the abstract admission
queue. An acquire call touches no other waiter, and no permit unless it is granted. Every exit of
the wait loop takes the waiter out of the queue except one: an exception that ends the coroutine
leaves it there, and since only the head is granted it then blocks the whole queue.
-/

namespace HeyeeAgent.StreamQueueLimiter

open LocalState Machine

/-! ### Waiters of calls that have ended -/

/-- Each entry of `_local_waiting` belongs to an acquire call that is still executing. -/
def LiveWaiters (s : LocalState) : Prop :=
  ∀ w ∈ s.localWaiting, ∃ taskId pc, s.AcquireAt w.owner taskId pc ∧ pc.Executing

/-- The step in which an exception leaves `_acquire_local`: raised at the callback, or re-raised by
`Condition.wait` once it has its lock back. -/
def LeavesByException (s : LocalState) (e : LocalEvent) (c : CallId) : Prop :=
  ∃ taskId, (e = .interrupt c ∧ s.AcquireAt c taskId .polling) ∨
    (e = .lock c ∧ s.AcquireAt c taskId (.waking true))

/-- No acquire call is left by an exception while its waiter is in the queue. -/
def AbandonsNoWaiter (s : LocalState) (e : LocalEvent) : Prop :=
  ∀ c, LeavesByException s e c → c ∉ s.localWaiting.map LocalWaiter.owner

theorem LeavesByException.effect {cfg : Config} {s t : LocalState} {e : LocalEvent} {c : CallId}
    (left : LeavesByException s e c) (move : LocalMove cfg s e t) :
    t.localWaiting = s.localWaiting ∧ ∃ taskId, t.AcquireAt c taskId .raised := by
  obtain ⟨taskId, ⟨rfl, deadline, suspended⟩ | ⟨rfl, deadline, suspended⟩⟩ := left
  · cases move with
    | interrupted found effect =>
      rw [suspended] at found
      cases found
      cases effect
      exact ⟨rfl, taskId, deadline, Function.update_self ..⟩
  · cases move with
    | leaves _ found =>
      rw [suspended] at found
      cases found
      exact ⟨rfl, taskId, deadline, Function.update_self ..⟩
    | _ => simp_all

theorem owner_ne_of_mem_removeLocalWaiter {s : LocalState} {c : CallId} {taskId : String}
    {pc : AcquirePc} (owners : ∀ w ∈ s.localWaiting, ∃ pc, s.AcquireAt w.owner w.taskId pc)
    (at_ : s.AcquireAt c taskId pc) :
    c ∉ (s.removeLocalWaiter taskId).localWaiting.map LocalWaiter.owner := by
  intro member
  obtain ⟨w, kept, rfl⟩ := List.mem_map.mp member
  obtain ⟨waiting, other⟩ := List.mem_filter.mp kept
  obtain ⟨_, owner⟩ := owners w waiting
  simp [(owner.unique at_).1] at other

/-- A call in the queue is still executing after its step unless an exception has left it. -/
theorem LocalMove.queued {cfg : Config} {s t : LocalState} {e : LocalEvent} (inv : LocalInv s)
    (ordered : Admission.Ordered s.admission) (move : LocalMove cfg s e t)
    (member : e.call ∈ t.localWaiting.map LocalWaiter.owner) :
    (∃ taskId pc, t.AcquireAt e.call taskId pc ∧ pc.Executing) ∨ LeavesByException s e e.call := by
  have owned {c : CallId} (waiting : c ∈ s.localWaiting.map LocalWaiter.owner) :
      ∃ taskId pc, s.AcquireAt c taskId pc ∧ pc ≠ .entering :=
    inv.joined_call c (ordered.sublist.subset (List.mem_append_right _ waiting))
  have acquires {c : CallId} (waiting : c ∈ s.localWaiting.map LocalWaiter.owner) :
      ∃ taskId deadline pc, s.calls c = some (.acquire taskId deadline pc) := by
    obtain ⟨taskId, pc, ⟨deadline, found⟩, -⟩ := owned waiting
    exact ⟨taskId, deadline, pc, found⟩
  have contradicts {call : Option Call} {p : Prop} (found : s.calls e.call = call)
      (none : ∀ taskId deadline pc, call ≠ some (.acquire taskId deadline pc))
      (waiting : e.call ∈ s.localWaiting.map LocalWaiter.owner) : p := by
    obtain ⟨taskId, deadline, pc, acquire⟩ := acquires waiting
    exact absurd (found.symm.trans acquire) (none taskId deadline pc)
  cases move with
  | acquireAnswers unused _ _ => exact contradicts unused (by simp) member
  | acquireStarts unused _ _ => exact contradicts unused (by simp) member
  | cancelStarts unused => exact contradicts unused (by simp) member
  | releaseStarts unused => exact contradicts unused (by simp) member
  | closeStarts unused => exact contradicts unused (by simp) member
  | @joins c taskId deadline free suspended =>
    rcases acquireLocalLoop_cases (s.appendWaiter c taskId deadline) c taskId deadline
      with loop | loop <;> rw [loop] at member ⊢
    · refine absurd member (@owner_ne_of_mem_removeLocalWaiter (s.appendWaiter c taskId deadline)
        c taskId .entering ?_ ⟨deadline, suspended⟩)
      intro w waiting
      rcases List.mem_append.mp waiting with old | new
      · exact inv.waiter_call w old
      · obtain rfl := List.mem_singleton.mp new
        exact ⟨_, deadline, suspended⟩
    · exact .inl ⟨taskId, _, ⟨deadline, Function.update_self ..⟩, trivial⟩
  | @resumes c taskId deadline free suspended =>
    rcases acquireLocalLoop_cases s c taskId deadline with loop | loop <;> rw [loop] at member ⊢
    · exact absurd member (owner_ne_of_mem_removeLocalWaiter inv.waiter_call ⟨deadline, suspended⟩)
    · exact .inl ⟨taskId, _, ⟨deadline, Function.update_self ..⟩, trivial⟩
  | @leaves c taskId deadline free suspended => exact .inr ⟨taskId, .inr ⟨rfl, deadline, suspended⟩⟩
  | cancels free suspended =>
    exact contradicts suspended (by simp)
      (((removeLocalWaiter_sublist s _).map LocalWaiter.owner).subset member)
  | @releases c permit free suspended =>
    exact contradicts suspended (by simp) (by cases permit <;> exact member)
  | closes free suspended => exact contradicts suspended (by simp) member
  | @polled c taskId deadline shouldCancel now uuid suspended fresh =>
    rcases acquireLocalPolled_cases s cfg.maxConcurrent c taskId deadline shouldCancel now uuid
      with ⟨status, -, result⟩ | ⟨head, room, result⟩ | result <;> rw [result] at member ⊢
    · exact absurd member (owner_ne_of_mem_removeLocalWaiter inv.waiter_call ⟨deadline, suspended⟩)
    · -- the granted head does not occur again behind itself
      have nodup : (s.localWaiting.map LocalWaiter.owner).Nodup :=
        ((List.sublist_append_right _ _).trans ordered.sublist).nodup ordered.nodup
      obtain ⟨w, first, rfl⟩ := Option.map_eq_some_iff.mp head
      obtain ⟨rest, waiting⟩ := List.head?_eq_some_iff.mp first
      rw [waiting, List.map_cons] at nodup
      refine absurd ?_ (List.nodup_cons.mp nodup).1
      simpa only [finish, setCall, grant, waiting, List.tail_cons, LocalEvent.call] using member
    · exact .inl ⟨taskId, _, ⟨deadline, Function.update_self ..⟩, trivial⟩
  | @wakes c taskId deadline suspended =>
    exact .inl ⟨taskId, _, ⟨deadline, Function.update_self ..⟩, trivial⟩
  | @interrupted c call t suspended effect =>
    rcases interruptCall_cases effect with ⟨taskId, deadline, rfl, rfl⟩ | ⟨taskId, deadline, rfl, rfl⟩ |
      ⟨taskId, deadline, pc, rfl, inside, rfl⟩ | ⟨before, call', after, rfl⟩
    · exact .inr ⟨taskId, .inl ⟨rfl, deadline, suspended⟩⟩
    · obtain ⟨_, _, already, entered⟩ := owned member
      exact absurd (already.unique ⟨deadline, suspended⟩).2 entered
    · exact .inl ⟨taskId, _, ⟨deadline, Function.update_self ..⟩, trivial⟩
    · exact contradicts suspended (fun taskId deadline pc => by simpa using before taskId deadline pc)
        member

/-- An entry of the queue after a step was there before with the same record, or is that of the
resumed call, which is still executing unless an exception has left it. -/
theorem LocalMove.waiter {cfg : Config} {s t : LocalState} {e : LocalEvent} (inv : LocalInv s)
    (ordered : Admission.Ordered s.admission) (move : LocalMove cfg s e t) {w : LocalWaiter}
    (member : w ∈ t.localWaiting) :
    (w ∈ s.localWaiting ∧
        ∀ taskId pc, s.AcquireAt w.owner taskId pc → t.AcquireAt w.owner taskId pc) ∨
      (∃ taskId pc, t.AcquireAt w.owner taskId pc ∧ pc.Executing) ∨
      LeavesByException s e w.owner := by
  by_cases own : w.owner = e.call
  · rw [own]
    exact .inr (move.queued inv ordered (List.mem_map.mpr ⟨w, member, own⟩))
  · refine .inl ⟨?_, fun taskId pc at_ => ?_⟩
    · cases move.queue with
      | join _ _ _ waiting =>
        refine (List.mem_append.mp (waiting.subset member)).resolve_right fun new => own ?_
        rw [List.mem_singleton.mp new]
      | shrink _ waiting => exact waiting.subset member
      | grant _ _ _ _ _ _ waiting => exact List.mem_of_mem_tail (waiting ▸ member)
      | release _ waiting => exact waiting ▸ member
    · obtain ⟨pc', after, rfl | ⟨same, -, -⟩⟩ := move.acquireAt at_
      · exact after
      · exact absurd same own

/-- While all waiters are live, a step keeps them so exactly when it abandons none. -/
theorem LocalMove.liveWaiters_iff {cfg : Config} {s t : LocalState} {e : LocalEvent}
    (inv : LocalInv s) (ordered : Admission.Ordered s.admission) (live : LiveWaiters s)
    (move : LocalMove cfg s e t) : LiveWaiters t ↔ AbandonsNoWaiter s e := by
  constructor
  · intro kept c left member
    obtain ⟨waiting, taskId, raised⟩ := left.effect move
    obtain ⟨w, inQueue, rfl⟩ := List.mem_map.mp member
    obtain ⟨_, pc, at_, executing⟩ := kept w (waiting ▸ inQueue)
    obtain ⟨-, rfl⟩ := at_.unique raised
    exact executing
  · intro abandons w member
    rcases move.waiter inv ordered member with ⟨before, same⟩ | executing | left
    · obtain ⟨taskId, pc, at_, executing⟩ := live w before
      exact ⟨taskId, pc, same taskId pc at_, executing⟩
    · exact executing
    · have waiting := (left.effect move).1
      exact absurd (List.mem_map.mpr ⟨w, waiting ▸ member, rfl⟩) (abandons w.owner left)

/-- Every entry of the queue belongs to a live acquire in every state of a run exactly when no
step of the run ends an acquire by an exception while its entry is queued. -/
theorem localWaiting_live_iff (cfg : Config) (es : List LocalEvent) :
    Always (localStep cfg) LiveWaiters {} es ↔ Along (localStep cfg) AbandonsNoWaiter {} es := by
  refine always_iff_along (I := fun s => LocalInv s ∧
    Reachable (Admission.step cfg.maxConcurrent) {} s.admission) ?_ ?_
    ⟨localInv_empty, .refl _ _⟩ (by simp [LiveWaiters])
  · rintro s e t ⟨inv, queue⟩ taken
    have move := localStep_move taken
    exact ⟨move.preserves inv,
      queue.trans (move.queue.refines inv (Admission.reachable_bounded queue))⟩
  · rintro s e t ⟨inv, queue⟩ live taken
    exact (localStep_move taken).liveWaiters_iff inv (Admission.reachable_ordered queue) live

/-- One slot: the first call takes it, the second waits, is cancelled from outside and leaves with
`CancelledError` once `Condition.wait` has the lock again. -/
def abandonedRun : List LocalEvent :=
  [.acquire 0 "a" 0, .lock 0, .polled 0 false 0 "p", .acquire 1 "b" 0, .lock 1,
    .polled 1 false 0 "q", .interrupt 1, .lock 1]

/-- The abandoned waiter stays at the head of the queue. -/
theorem abandonedRun_leaves_waiter :
    ¬ Always (localStep { maxConcurrent := 1 }) LiveWaiters {} abandonedRun := by
  intro always
  have ends : (runFrom (localStep { maxConcurrent := 1 }) {} abandonedRun).map
      (fun s => (s.localWaiting.map LocalWaiter.owner, s.calls 1)) =
        some ([1], some (.acquire "b" 20 .raised)) := by decide +kernel
  obtain ⟨s, run, observed⟩ := Option.map_eq_some_iff.mp ends
  obtain ⟨owners, call⟩ := Prod.mk.inj observed
  obtain ⟨w, member, owner⟩ := List.mem_map.mp (owners ▸ List.mem_singleton_self 1)
  obtain ⟨taskId, pc, at_, executing⟩ := always.last run w member
  have raised : s.AcquireAt w.owner "b" .raised := ⟨20, owner ▸ call⟩
  obtain ⟨-, rfl⟩ := at_.unique raised
  exact executing

/-! ### Grants, and the waiters of other calls -/

/-- The acquire call has returned this permit with status GRANTED. -/
def GrantedWith (s : LocalState) (c : CallId) (permitId : String) : Prop :=
  ∃ taskId, s.AcquireAt c taskId (.returned ⟨.granted, some ⟨taskId, permitId, false⟩⟩)

/-- The history of grants is the history of the GRANTED results of the queue. -/
structure GrantInv (cfg : Config) (s : LocalState) : Prop where
  returned : ∀ c permitId, (c, permitId) ∈ s.history.granted → GrantedWith s c permitId
  granted : cfg.enabled = true → ∀ c taskId result, s.AcquireAt c taskId (.returned result) →
    result.status = .granted → ∃ permitId, (c, permitId) ∈ s.history.granted ∧
      result.permit = some ⟨taskId, permitId, false⟩
  bypassed : cfg.enabled = false →
    ∀ c taskId pc, s.AcquireAt c taskId pc → ∃ result, pc = .returned result
  unqueued : cfg.enabled = false → s.history.granted = []

/-- A call that has just returned GRANTED got its permit in this step, or without a queue. -/
theorem LocalMove.just_granted {cfg : Config} {s t : LocalState} {e : LocalEvent}
    (move : LocalMove cfg s e t) {taskId : String} {result : QueueAcquireResult}
    (returned : t.AcquireAt e.call taskId (.returned result)) (status : result.status = .granted) :
    cfg.enabled = false ∨ ∃ permitId, result.permit = some ⟨taskId, permitId, false⟩ ∧
      t.history.granted = s.history.granted ++ [(e.call, permitId)] := by
  cases move with
  | acquireAnswers unused distinct answer =>
    obtain ⟨_, same⟩ := acquireAt_setCall.mp returned
    cases same
    exact (acquire_answered answer).imp_right fun shut => by simp [shut] at status
  | acquireStarts _ _ _ => simp [LocalEvent.call] at returned
  | cancelStarts _ => simp [LocalEvent.call] at returned
  | releaseStarts _ => simp [LocalEvent.call] at returned
  | closeStarts _ => simp [LocalEvent.call] at returned
  | @joins c taskId' deadline free suspended =>
    rcases acquireLocalLoop_cases (s.appendWaiter c taskId' deadline) c taskId' deadline
      with loop | loop <;> rw [loop] at returned <;> simp [LocalEvent.call] at returned
    simp [← returned.2] at status
  | @resumes c taskId' deadline free suspended =>
    rcases acquireLocalLoop_cases s c taskId' deadline with loop | loop <;> rw [loop] at returned <;>
      simp [LocalEvent.call] at returned
    simp [← returned.2] at status
  | leaves _ _ => simp [LocalEvent.call] at returned
  | cancels _ _ => simp [LocalEvent.call] at returned
  | releases _ _ => simp [LocalEvent.call] at returned
  | closes _ _ => simp [LocalEvent.call] at returned
  | @polled c taskId' deadline shouldCancel now uuid suspended fresh =>
    rcases acquireLocalPolled_cases s cfg.maxConcurrent c taskId' deadline shouldCancel now uuid
      with ⟨answer, refused, ends⟩ | ⟨-, -, ends⟩ | ends <;> rw [ends] at returned ⊢ <;>
      simp [LocalEvent.call] at returned
    · simp [← returned.2, refused] at status
    · obtain ⟨rfl, rfl⟩ := returned
      exact .inr ⟨uuid, rfl, rfl⟩
  | wakes _ => simp [LocalEvent.call] at returned
  | @interrupted c call _ suspended effect =>
    rcases interruptCall_cases effect with ⟨_, _, -, rfl⟩ | ⟨_, _, -, rfl⟩ | ⟨_, _, _, -, -, rfl⟩ |
      ⟨-, call', after, rfl⟩ <;> simp [LocalEvent.call] at returned
    obtain ⟨_, same⟩ := returned
    exact absurd same (after _ _ _)

theorem grantInv_empty (cfg : Config) : GrantInv cfg {} where
  returned := by simp
  granted := by simp [AcquireAt]
  bypassed := by simp [AcquireAt]
  unqueued := by simp

theorem LocalMove.grantInv {cfg : Config} {s t : LocalState} {e : LocalEvent}
    (inv : GrantInv cfg s) (move : LocalMove cfg s e t) : GrantInv cfg t := by
  have kept {c : CallId} {permitId : String} (member : (c, permitId) ∈ s.history.granted) :
      GrantedWith t c permitId := by
    obtain ⟨taskId, at_⟩ := inv.returned c permitId member
    exact ⟨taskId, move.acquireAt_final at_ (by simp [AcquirePc.Executing])⟩
  have grows : s.history.granted ⊆ t.history.granted := by
    cases move.queue with
    | join _ _ _ _ granted => rw [granted]; exact List.Subset.refl _
    | shrink _ _ granted => rw [granted]; exact List.Subset.refl _
    | grant _ _ _ _ _ _ _ granted => rw [granted]; exact List.subset_append_left _ _
    | release _ _ granted => rw [granted]; exact List.Subset.refl _
  refine ⟨?_, ?_, ?_, ?_⟩
  · intro c permitId member
    cases move.queue with
    | join _ _ _ _ granted => exact kept (granted ▸ member)
    | shrink _ _ granted => exact kept (granted ▸ member)
    | @grant taskId uuid _ _ _ _ returned _ _ granted =>
      rw [granted] at member
      rcases List.mem_append.mp member with old | new
      · exact kept old
      · cases List.mem_singleton.mp new
        exact ⟨taskId, returned⟩
    | release _ _ granted => exact kept (granted ▸ member)
  · intro on c taskId result after status
    by_cases final : s.AcquireAt c taskId (.returned result)
    · obtain ⟨permitId, member, permit⟩ := inv.granted on c taskId result final status
      exact ⟨permitId, grows member, permit⟩
    · -- the call has returned in this very step
      have own : c = e.call := by
        rcases move.acquireAt_back after with ⟨pc, before⟩ | ⟨own, -⟩
        · obtain ⟨pc', after', rfl | ⟨own, -⟩⟩ := move.acquireAt before
          · exact absurd ((after.unique after').2 ▸ before) final
          · exact own
        · exact own
      subst own
      rcases move.just_granted after status with off | ⟨permitId, permit, granted⟩
      · simp [on] at off
      · exact ⟨permitId, by simp [granted], permit⟩
  · intro off c taskId pc after
    rcases move.acquireAt_back after with ⟨pc', before⟩ | ⟨-, -, -, on | answered⟩
    · obtain ⟨result, rfl⟩ := inv.bypassed off c taskId pc' before
      exact ⟨result, (after.unique (move.acquireAt_final before (by simp [AcquirePc.Executing]))).2⟩
    · simp [off] at on
    · exact answered
  · intro off
    cases move.queue with
    | join _ _ _ _ granted => rw [granted]; exact inv.unqueued off
    | shrink _ _ granted => rw [granted]; exact inv.unqueued off
    | grant _ _ _ suspended => simpa using inv.bypassed off _ _ _ suspended
    | release _ _ granted => rw [granted]; exact inv.unqueued off

/-- The active set is as it was, and so are the waiters of all other calls, in their order. -/
def Undisturbed (s t : LocalState) (c : CallId) : Prop :=
  t.localActive = s.localActive ∧
    t.localWaiting.filter (fun w => w.owner != c) = s.localWaiting.filter (fun w => w.owner != c)

/-- Withdrawing a task takes out the waiter of its own call only. -/
theorem filter_removeLocalWaiter {s : LocalState} {c : CallId} {taskId : String} {pc : AcquirePc}
    (inv : LocalInv s) (at_ : s.AcquireAt c taskId pc) :
    (s.removeLocalWaiter taskId).localWaiting.filter (fun w => w.owner != c) =
      s.localWaiting.filter (fun w => w.owner != c) := by
  simp only [removeLocalWaiter, List.filter_filter]
  refine List.filter_congr fun w member => ?_
  obtain ⟨_, owner⟩ := inv.waiter_call w member
  by_cases own : w.owner = c
  · simp [own]
  · have other : w.taskId ≠ taskId := by
      rintro rfl
      exact own (inv.task_unique _ _ _ _ _ owner at_)
    simp [other]

/-- A step of an acquire call that does not end in a grant disturbs nothing. -/
theorem LocalMove.undisturbed {cfg : Config} {s t : LocalState} {e : LocalEvent} (inv : LocalInv s)
    (move : LocalMove cfg s e t) {taskId : String} {pc : AcquirePc}
    (after : t.AcquireAt e.call taskId pc)
    (refused : ∀ result, pc = .returned result → result.status ≠ .granted) :
    Undisturbed s t e.call := by
  cases move with
  | acquireAnswers _ _ _ => exact ⟨rfl, rfl⟩
  | acquireStarts _ _ _ => exact ⟨rfl, rfl⟩
  | cancelStarts _ => simp [LocalEvent.call] at after
  | releaseStarts _ => simp [LocalEvent.call] at after
  | closeStarts _ => simp [LocalEvent.call] at after
  | @joins c taskId' deadline free suspended =>
    have appended : (s.appendWaiter c taskId' deadline).localWaiting.filter (fun w => w.owner != c) =
        s.localWaiting.filter (fun w => w.owner != c) := by simp [appendWaiter]
    rcases acquireLocalLoop_cases (s.appendWaiter c taskId' deadline) c taskId' deadline
      with loop | loop <;> rw [loop]
    · refine ⟨rfl, Eq.trans ?_ (filter_removeLocalWaiter inv ⟨deadline, suspended⟩)⟩
      simp [finish, setCall, removeLocalWaiter, appendWaiter, LocalEvent.call, List.filter_append]
    · exact ⟨rfl, appended⟩
  | @resumes c taskId' deadline free suspended =>
    rcases acquireLocalLoop_cases s c taskId' deadline with loop | loop <;> rw [loop]
    · exact ⟨rfl, filter_removeLocalWaiter inv ⟨deadline, suspended⟩⟩
    · exact ⟨rfl, rfl⟩
  | leaves _ _ => exact ⟨rfl, rfl⟩
  | cancels _ _ => simp [LocalEvent.call] at after
  | releases _ _ => simp [LocalEvent.call] at after
  | closes _ _ => simp [LocalEvent.call] at after
  | @polled c taskId' deadline shouldCancel now uuid suspended fresh =>
    rcases acquireLocalPolled_cases s cfg.maxConcurrent c taskId' deadline shouldCancel now uuid
      with ⟨answer, -, ends⟩ | ⟨-, -, ends⟩ | ends <;> rw [ends] at after ⊢
    · exact ⟨rfl, filter_removeLocalWaiter inv ⟨deadline, suspended⟩⟩
    · obtain ⟨_, same⟩ := acquireAt_finish.mp after
      cases same
      exact absurd rfl (refused _ rfl)
    · exact ⟨rfl, rfl⟩
  | wakes _ => exact ⟨rfl, rfl⟩
  | interrupted suspended effect =>
    rcases interruptCall_cases effect with ⟨_, _, -, rfl⟩ | ⟨_, _, -, rfl⟩ | ⟨_, _, _, -, -, rfl⟩ |
      ⟨-, _, -, rfl⟩ <;> exact ⟨rfl, rfl⟩

/-! ### The guarantees of every run -/

theorem local_invariants {cfg : Config} {s : LocalState} (reached : Reachable (localStep cfg) {} s) :
    LocalInv s ∧ GrantInv cfg s ∧ Admission.Ordered s.admission ∧
      Admission.Bounded cfg.maxConcurrent s.admission := by
  obtain ⟨inv, queue⟩ := local_refines reached
  refine ⟨inv, ?_, Admission.reachable_ordered queue, Admission.reachable_bounded queue⟩
  exact invariant_reachable (fun s e t before taken => (localStep_move taken).grantInv before)
    (grantInv_empty cfg) reached

/-- A call that has returned has no entry in the queue. -/
theorem local_returned_not_queued {cfg : Config} {s : LocalState}
    (reached : Reachable (localStep cfg) {} s) {c : CallId} {taskId : String}
    {result : QueueAcquireResult} (at_ : s.AcquireAt c taskId (.returned result)) :
    c ∉ s.localWaiting.map LocalWaiter.owner := by
  have unreturned : Reachable (localStep cfg) {} s ∧ ∀ w ∈ s.localWaiting, ∃ taskId pc,
      s.AcquireAt w.owner taskId pc ∧ ∀ result, pc ≠ .returned result := by
    refine invariant_reachable (I := fun s => Reachable (localStep cfg) {} s ∧
      ∀ w ∈ s.localWaiting, ∃ taskId pc, s.AcquireAt w.owner taskId pc ∧
        ∀ result, pc ≠ .returned result) ?_ ⟨.refl _ _, by simp⟩ reached
    rintro s e t ⟨before, holds⟩ taken
    obtain ⟨inv, -, ordered, -⟩ := local_invariants before
    refine ⟨before.next taken, fun w member => ?_⟩
    have move := localStep_move taken
    rcases move.waiter inv ordered member with ⟨old, same⟩ | ⟨taskId, pc, after, executing⟩ | left
    · obtain ⟨taskId, pc, at_, waits⟩ := holds w old
      exact ⟨taskId, pc, same taskId pc at_, waits⟩
    · exact ⟨taskId, pc, after, by rintro result rfl; exact executing⟩
    · obtain ⟨taskId, raised⟩ := (left.effect move).2
      exact ⟨taskId, .raised, raised, by simp⟩
  intro member
  obtain ⟨w, waiting, rfl⟩ := List.mem_map.mp member
  obtain ⟨_, pc, owner, waits⟩ := unreturned.2 w waiting
  exact waits result (owner.unique at_).2

/-- At most `max_concurrent` permits are held. Each was returned by exactly one GRANTED acquire
and has not been released since. -/
theorem local_permits {cfg : Config} {s : LocalState} (reached : Reachable (localStep cfg) {} s) :
    s.localActive.keys.length ≤ cfg.maxConcurrent ∧
      ∀ permitId ∈ s.localActive, (∃! c, GrantedWith s c permitId) ∧
        permitId ∉ s.history.released := by
  obtain ⟨inv, grants, -, bounded⟩ := local_invariants reached
  refine ⟨bounded.length_le, fun permitId active => ?_⟩
  obtain ⟨issued, kept⟩ := (bounded.mem_held permitId).mp active
  obtain ⟨⟨c, _⟩, member, rfl⟩ := List.mem_map.mp issued
  refine ⟨⟨c, grants.returned c _ member, ?_⟩, kept⟩
  rintro other ⟨taskId, at_⟩
  have on : cfg.enabled = true := by
    by_contra off
    have none : s.admission.granted = [] := grants.unqueued (by simpa using off)
    rw [none] at member
    exact absurd member List.not_mem_nil
  obtain ⟨permitId, member', permit⟩ := grants.granted on other taskId _ at_ rfl
  cases permit
  exact congrArg Prod.fst (List.inj_on_of_nodup_map bounded.issued_nodup member' member rfl)

/-- Grants follow the order of the queue, and nobody who joined before a granted call waits. -/
theorem local_fifo {cfg : Config} {s : LocalState} (reached : Reachable (localStep cfg) {} s)
    {x y : CallId} (first : [x, y].Sublist s.history.joined)
    (grantedY : y ∈ s.history.granted.map Prod.fst) :
    x ∉ s.localWaiting.map LocalWaiter.owner ∧ (x ∈ s.history.granted.map Prod.fst →
      [x, y].Sublist (s.history.granted.map Prod.fst)) := by
  obtain ⟨-, -, ordered, -⟩ := local_invariants reached
  exact ⟨ordered.earlier_not_waiting first grantedY,
    fun grantedX => ordered.granted_in_order first grantedX grantedY⟩

/-- No step of a call that returns without a grant disturbs the permits or the other waiters. -/
theorem local_refusal_undisturbed {cfg : Config} {s u v : LocalState} {before after : List LocalEvent}
    {e : LocalEvent} (first : runFrom (localStep cfg) {} before = some u)
    (taken : localStep cfg u e = some v) (rest : runFrom (localStep cfg) v after = some s)
    {taskId : String} {result : QueueAcquireResult}
    (returned : s.AcquireAt e.call taskId (.returned result)) (refused : result.status ≠ .granted) :
    Undisturbed u v e.call := by
  have move := localStep_move taken
  obtain ⟨inv, -⟩ := local_invariants ⟨before, first⟩
  obtain ⟨call, updated, -⟩ := move.calls
  obtain ⟨-, back⟩ := recordsGoBack_run rest e.call (by simp [updated])
  obtain ⟨pc, at_, same⟩ := back taskId _ returned
  refine move.undisturbed inv at_ ?_
  rintro answer rfl
  rcases same with same | executing
  · cases same
    exact refused
  · exact executing.elim

/-- One slot, three requests: the first is granted, the second times out, the third is granted
after the release. -/
def threeRequestsRun : List LocalEvent :=
  [.acquire 0 "a" 0, .lock 0, .polled 0 false 0 "p", .acquire 1 "b" 0, .lock 1, .acquire 2 "c" 1,
    .polled 1 false 0 "q", .lock 2, .polled 2 false 1 "q", .wake 1, .lock 1, .polled 1 false 20 "q",
    .release 3 (some ⟨"a", "p", false⟩), .lock 3, .wake 2, .lock 2, .polled 2 false 20 "q"]

end HeyeeAgent.StreamQueueLimiter
