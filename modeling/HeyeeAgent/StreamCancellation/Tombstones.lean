import HeyeeAgent.Machine.Until
import HeyeeAgent.StreamCancellation.TaskRegistry

/-! # How long a cancelled task stays cancelled

A tombstone is dated: it expires one time to live after the task was stopped last. Until then nothing
takes it out of the registry but a registration that is refused at its await: it pops whatever is
under its id by then. Entries that are not cancelled carry no date, and a full registry lets nobody in.
-/

namespace HeyeeAgent.TaskRegistry

open Machine StreamTaskManager
open StreamCancellation (Every)

variable {H : Type} {s t : State H} {taskId : String}

namespace State

/-- The call of `register` that put the task in has returned true. -/
def Registered (s : State H) (taskId : String) : Prop :=
  ∃ call, s.holder taskId = some call ∧
    ∃ record, s.calls[call]? = some record ∧ record.status = .returned true

/-- The task is cancelled, its id is taken, and a handle that comes now is cancelled. -/
def Tombstoned (taskId : String) (s : State H) : Prop :=
  s.manager.isCancelled s.now taskId = true ∧
    (∀ ownerId, (s.manager.register s.now taskId ownerId).2 = false) ∧
    ∀ handle, (s.manager.bind taskId handle).2 = (false, some handle)

/-- One time to live has passed since the task was cancelled, or finalized as a live tombstone. -/
def Released (taskId : String) (s : State H) : Prop :=
  ∃ stop ∈ s.stopped taskId, stop + s.manager.cancelledTtlSeconds ≤ s.now

/-- No purge, now or later, takes out a task that is not cancelled. -/
def KeepsLive (s : State H) : Prop :=
  ∀ taskId, ∀ info ∈ s.manager.tasks.lookup taskId, info.cancelled = false →
    ∀ now, (s.manager.purgeExpired now).tasks.lookup taskId = some info

end State

/-- From every state of the run on, a task that is registered and cancelled stays a tombstone until
it is released. -/
def TombstonesStay (s : State H) (es : List (Event H)) : Prop :=
  ∀ first rest, es = first ++ rest → ∀ middle, runFrom step s first = some middle →
    ∀ taskId, middle.Registered taskId → middle.manager.isCancelled middle.now taskId = true →
      Until step (State.Tombstoned taskId) (State.Released taskId) middle rest

section Consistent

/-- A cancelled entry has the date of its last stop, any other entry has none. -/
def Dated (stopped : String → Option ℚ) (ttl : ℚ) (taskId : String) (info : StreamTaskInfo H) : Prop :=
  (info.cancelled = true → ∃ stop ∈ stopped taskId, info.expiresAt = some (stop + ttl)) ∧
    (info.cancelled = false → info.expiresAt = none)

structure Consistent (s : State H) : Prop where
  dated : Every (Dated s.stopped s.manager.cancelledTtlSeconds) s.manager
  bounded : s.manager.tasks.entries.length ≤ s.manager.maxTasks

/-- A stop of one task leaves the dates of the others. -/
theorem Dated.update {stopped : String → Option ℚ} {ttl now : ℚ} {other : String}
    {info : StreamTaskInfo H} (different : other ≠ taskId) (dated : Dated stopped ttl other info) :
    Dated (Function.update stopped taskId (some now)) ttl other info := by
  unfold Dated
  rw [Function.update_of_ne different]
  exact dated

theorem dated_stopped {stopped : String → Option ℚ} {ttl now : ℚ} {info : StreamTaskInfo H}
    (cancelled : info.cancelled = true) (expires : info.expiresAt = some (now + ttl)) :
    Dated (Function.update stopped taskId (some now)) ttl taskId info := by
  constructor
  · intro _
    exact ⟨now, Function.update_self _ _ _, expires⟩
  · intro live
    rw [cancelled] at live
    cases live

/-- An entry that is there can be stopped now. -/
theorem every_stopped {stopped : String → Option ℚ} {ttl now : ℚ} {manager : StreamTaskManager H}
    {info : StreamTaskInfo H} (dated : Every (Dated stopped ttl) manager)
    (cancelled : info.cancelled = true) (expires : info.expiresAt = some (now + ttl)) :
    Every (Dated (Function.update stopped taskId (some now)) ttl)
      { manager with tasks := manager.tasks.insert taskId info } := by
  refine every_insert dated ?_ (dated_stopped cancelled expires)
  exact fun other info different dated => dated.update different

theorem Consistent.purge (consistent : Consistent s) : Consistent s.purge where
  dated := Every.purgeExpired consistent.dated s.now
  bounded := (length_purgeExpired_le s.manager s.now).trans consistent.bounded

theorem Consistent.register (consistent : Consistent s) (taskId : String)
    (ownerId : Option String) : Consistent (s.register taskId ownerId) := by
  have purged := consistent.purge
  unfold State.register
  rcases register_cases s.manager s.now taskId ownerId with same | ⟨owner, -, room, new⟩
  · rw [same]
    exact purged
  · rw [new]
    constructor
    · refine Every.insert purged.dated ⟨fun cancelled => ?_, fun _ => rfl⟩
      cases cancelled
    · exact (length_insert_le _ taskId _).trans room

theorem Consistent.cancelLocal (consistent : Consistent s) (taskId : String) :
    Consistent (s.cancelLocal taskId) := by
  have purged := consistent.purge
  unfold State.cancelLocal
  rcases cancelLocal_cases s.manager s.now taskId with same | ⟨info, found, -, stopped⟩
  · rw [same]
    exact purged
  · rw [stopped]
    constructor
    · exact every_stopped purged.dated rfl rfl
    · exact (length_insert_of_lookup found _).trans_le purged.bounded

theorem Consistent.pop (consistent : Consistent s) (taskId : String) : Consistent (s.pop taskId) where
  dated := Every.erase consistent.dated taskId
  bounded := (length_erase_le s.manager.tasks taskId).trans consistent.bounded

theorem Consistent.bind (consistent : Consistent s) (taskId : String) (handle : H) :
    Consistent (s.bind taskId handle) := by
  unfold State.bind
  rcases bind_cases s.manager taskId handle with ⟨-, same⟩ | ⟨info, found, bound⟩
  · rw [same]
    exact ⟨consistent.dated, consistent.bounded⟩
  · rw [bound]
    constructor
    · exact Every.insert consistent.dated (consistent.dated taskId info found)
    · exact (length_insert_of_lookup found _).trans_le consistent.bounded

theorem Consistent.finalize (consistent : Consistent s) (taskId : String) :
    Consistent (s.finalize taskId) := by
  have purged := consistent.purge
  unfold State.finalize
  rcases finalize_cases s.manager s.now taskId with
    ⟨live, same⟩ | ⟨info, found, cancelled, stamped⟩ | ⟨live, out⟩
  · rw [same, live]
    exact purged
  · rw [stamped, isCancelled_of_lookup found, cancelled]
    constructor
    · exact every_stopped purged.dated rfl rfl
    · exact (length_insert_of_lookup found _).trans_le purged.bounded
  · rw [out, live]
    exact purged.pop taskId

theorem Consistent.step (s : State H) (e : Event H) (t : State H) (consistent : Consistent s)
    (taken : TaskRegistry.step s e = some t) : Consistent t := by
  refine step_keeps (I := Consistent) ?_ ?_ ?_ ?_ ?_ ?_ ?_ ?_ ?_ s e t consistent taken
  · exact fun s taskId ownerId consistent => consistent.register taskId ownerId
  · exact fun s taskId consistent => consistent.cancelLocal taskId
  · exact fun s taskId consistent => consistent.pop taskId
  · exact fun s call status consistent => ⟨consistent.dated, consistent.bounded⟩
  · exact fun s taskId handle consistent => consistent.bind taskId handle
  · exact fun s taskId consistent => consistent.finalize taskId
  · exact fun s consistent => consistent.purge
  · exact fun s handle consistent => ⟨consistent.dated, consistent.bounded⟩
  · exact fun s seconds consistent => ⟨consistent.dated, consistent.bounded⟩

theorem consistent_initial (now : ℚ) (manager : StreamTaskManager H) :
    Consistent (initial now manager) where
  dated taskId info found := by cases found
  bounded := Nat.zero_le _

/-- An entry without a date is never purged. -/
theorem Consistent.keepsLive (consistent : Consistent s) : s.KeepsLive := by
  intro taskId info found live now
  apply lookup_purge_live found
  rintro ⟨expiresAt, date, -⟩
  rw [(consistent.dated taskId info found).2 live] at date
  cases date

end Consistent

section Marked

/-- The task is registered, and its entry is cancelled. -/
def Marked (s : State H) (taskId : String) : Prop :=
  s.Registered taskId ∧ ∃ info ∈ s.manager.tasks.lookup taskId, info.cancelled = true

/-- What a step does to the tombstone of one task, when the call that put it in stays returned. -/
theorem State.Registered.congr (registered : s.Registered taskId)
    (holder : t.holder taskId = s.holder taskId)
    (calls : ∀ (call : ℕ) (record : RegisterCall), s.calls[call]? = some record →
      record.status = .returned true → t.calls[call]? = some record) : t.Registered taskId := by
  obtain ⟨call, held, record, found, returned⟩ := registered
  exact ⟨call, holder.trans held, record, calls call record found returned, returned⟩

/-- Before it is released, a tombstone survives every purge. -/
theorem Marked.purged (consistent : Consistent s) (marked : Marked s taskId)
    (unreleased : ¬ s.Released taskId) :
    ∃ info, (s.manager.purgeExpired s.now).tasks.lookup taskId = some info ∧
      info.cancelled = true := by
  obtain ⟨-, info, found, cancelled⟩ := marked
  refine ⟨info, lookup_purge_live found ?_, cancelled⟩
  rintro ⟨expiresAt, date, passed⟩
  obtain ⟨stop, stopped, dated⟩ := (consistent.dated taskId info found).1 cancelled
  rw [dated, Option.mem_some_iff] at date
  subst date
  exact unreleased ⟨stop, stopped, passed⟩

theorem Marked.tombstoned (consistent : Consistent s) (marked : Marked s taskId)
    (unreleased : ¬ s.Released taskId) : s.Tombstoned taskId := by
  obtain ⟨info, purged, cancelled⟩ := marked.purged consistent unreleased
  refine ⟨(isCancelled_of_lookup purged).trans cancelled, fun ownerId => ?_, fun handle => ?_⟩
  · rcases register_cases s.manager s.now taskId ownerId with same | ⟨owner, free, -, -⟩
    · rw [same]
    · rw [purged] at free
      cases free
  · obtain ⟨-, info, found, cancelled⟩ := marked
    rw [bind_found found, cancelled]
    rfl

theorem Marked.of_isCancelled (registered : s.Registered taskId)
    (cancelled : s.manager.isCancelled s.now taskId = true) : Marked s taskId := by
  obtain ⟨info, found, -, stopped⟩ := isCancelled_iff.mp cancelled
  exact ⟨registered, info, found, stopped⟩

theorem Marked.purge (consistent : Consistent s) (marked : Marked s taskId)
    (unreleased : ¬ s.Released taskId) : Marked s.purge taskId :=
  ⟨marked.1, marked.purged consistent unreleased⟩

/-- A registration of the same id is turned away. -/
theorem Marked.register (consistent : Consistent s) (marked : Marked s taskId)
    (unreleased : ¬ s.Released taskId) (other : String) (ownerId : Option String) :
    Marked (s.register other ownerId) taskId := by
  obtain ⟨info, purged, cancelled⟩ := marked.purged consistent unreleased
  unfold State.register
  rcases register_cases s.manager s.now other ownerId with same | ⟨owner, free, -, new⟩
  · rw [same]
    exact ⟨marked.1, info, purged, cancelled⟩
  · have different : taskId ≠ other := by
      rintro rfl
      rw [purged] at free
      cases free
    rw [new]
    constructor
    · apply marked.1.congr (Function.update_of_ne different _ _)
      intro call record found _
      exact List.getElem?_append_left (List.getElem?_eq_some_iff.mp found).1 ▸ found
    · exact ⟨info, (AList.lookup_insert_ne different).trans purged, cancelled⟩

theorem Marked.cancelLocal (consistent : Consistent s) (marked : Marked s taskId)
    (unreleased : ¬ s.Released taskId) (other : String) :
    Marked (s.cancelLocal other) taskId := by
  obtain ⟨info, purged, cancelled⟩ := marked.purged consistent unreleased
  refine ⟨marked.1, ?_⟩
  unfold State.cancelLocal
  rcases cancelLocal_cases s.manager s.now other with same | ⟨info', found, live, stopped⟩
  · rw [same]
    exact ⟨info, purged, cancelled⟩
  · rw [stopped]
    by_cases different : taskId = other
    · subst different
      exact ⟨_, AList.lookup_insert _, rfl⟩
    · exact ⟨info, (AList.lookup_insert_ne different).trans purged, cancelled⟩

theorem Marked.pop (marked : Marked s taskId) {other : String} (different : taskId ≠ other) :
    Marked (s.pop other) taskId := by
  obtain ⟨registered, info, found, cancelled⟩ := marked
  exact ⟨registered, info, (AList.lookup_erase_ne different).trans found, cancelled⟩

theorem Marked.bind (marked : Marked s taskId) (other : String) (handle : H) :
    Marked (s.bind other handle) taskId := by
  obtain ⟨registered, info, found, cancelled⟩ := marked
  refine ⟨registered, ?_⟩
  unfold State.bind
  rcases bind_cases s.manager other handle with ⟨-, same⟩ | ⟨info', found', bound⟩
  · rw [same]
    exact ⟨info, found, cancelled⟩
  · rw [bound]
    by_cases different : taskId = other
    · subst different
      obtain rfl : info' = info := Option.some_inj.mp (found'.symm.trans found)
      exact ⟨_, AList.lookup_insert _, cancelled⟩
    · exact ⟨info, (AList.lookup_insert_ne different).trans found, cancelled⟩

/-- A live tombstone is stamped again, and stays. -/
theorem Marked.finalize (consistent : Consistent s) (marked : Marked s taskId)
    (unreleased : ¬ s.Released taskId) (other : String) : Marked (s.finalize other) taskId := by
  obtain ⟨info, purged, cancelled⟩ := marked.purged consistent unreleased
  refine ⟨marked.1, ?_⟩
  unfold State.finalize
  rcases finalize_cases s.manager s.now other with
    ⟨-, same⟩ | ⟨info', found, stopped, stamped⟩ | ⟨live, out⟩
  · rw [same]
    exact ⟨info, purged, cancelled⟩
  · rw [stamped]
    by_cases different : taskId = other
    · subst different
      exact ⟨_, AList.lookup_insert _, stopped⟩
    · exact ⟨info, (AList.lookup_insert_ne different).trans purged, cancelled⟩
  · have different : taskId ≠ other := by
      rintro rfl
      rw [isCancelled_of_lookup purged, cancelled] at live
      cases live
    rw [out]
    exact ⟨info, (AList.lookup_erase_ne different).trans purged, cancelled⟩

/-- A call that ends was still waiting. -/
theorem Marked.setStatus (marked : Marked s taskId) {call : ℕ} {record : RegisterCall}
    (waits : s.calls[call]? = some record) (pending : record.status = .pending)
    (status : RegisterStatus) : Marked (s.setStatus call status) taskId := by
  refine ⟨marked.1.congr rfl ?_, marked.2⟩
  intro other record' found returned
  have different : call ≠ other := by
    rintro rfl
    obtain rfl : record = record' := Option.some_inj.mp (waits.symm.trans found)
    rw [pending] at returned
    cases returned
  exact (List.getElem?_modify_ne _ s.calls different).trans found

end Marked

section Law

/-- The backend refuses the owner that this call of `register` wants to store. -/
def Refuses (s : State H) (taskId : String) : Event H → Prop
  | .registerAnswered call false _ => s.calls[call]? = some ⟨taskId, true, .pending⟩
  | _ => False

/-- No registration is refused while a live tombstone of another one is under its id. -/
def SparesTombstone (s : State H) (e : Event H) : Prop :=
  ∀ taskId, Refuses s taskId e →
    ¬ (s.Registered taskId ∧ s.manager.isCancelled s.now taskId = true)

theorem marked_step {e : Event H} (consistent : Consistent s) (marked : Marked s taskId)
    (unreleased : ¬ s.Released taskId) (spares : SparesTombstone s e) (taken : step s e = some t) :
    Marked t taskId := by
  cases e with
  | register other ownerId =>
    cases taken
    exact marked.register consistent unreleased other ownerId
  | registerAnswered call ownerStored remotelyCancelled =>
    simp only [step] at taken
    split at taken
    · next other owned waits =>
      split_ifs at taken with refused found <;> cases taken
      · rw [Bool.and_eq_true, Bool.not_eq_true'] at refused
        obtain ⟨rfl, rfl⟩ := refused
        have different : taskId ≠ other := by
          rintro rfl
          exact spares taskId waits
            ⟨marked.1, (marked.tombstoned consistent unreleased).1⟩
        exact (marked.pop different).setStatus waits rfl _
      · exact (marked.cancelLocal consistent unreleased other).setStatus waits rfl _
      · exact marked.setStatus waits rfl _
    · cases taken
  | registerRaised call =>
    simp only [step] at taken
    split at taken
    · next waits =>
      cases taken
      exact marked.setStatus waits rfl _
    · cases taken
  | bind other handle =>
    cases taken
    exact marked.bind other handle
  | cancelLocal other =>
    cases taken
    exact marked.cancelLocal consistent unreleased other
  | finalize other =>
    cases taken
    exact marked.finalize consistent unreleased other
  | purge =>
    cases taken
    exact marked.purge consistent unreleased
  | cancelHandle handle =>
    cases taken
    exact marked
  | elapse seconds =>
    simp only [step] at taken
    split_ifs at taken
    cases taken
    exact marked

/-- A refused registration takes the tombstone under its id out at once. -/
theorem not_isCancelled_of_refuses {e : Event H} (refuses : Refuses s taskId e)
    (taken : step s e = some t) :
    t.manager.isCancelled t.now taskId = false ∧ t.stopped = s.stopped ∧ t.now = s.now ∧
      t.manager.cancelledTtlSeconds = s.manager.cancelledTtlSeconds := by
  cases e with
  | registerAnswered call ownerStored remotelyCancelled =>
    cases ownerStored with
    | true => cases refuses
    | false =>
      have waits : s.calls[call]? = some ⟨taskId, true, .pending⟩ := refuses
      simp only [step, waits] at taken
      cases taken
      refine ⟨?_, rfl, rfl, rfl⟩
      apply Bool.eq_false_iff.mpr
      intro cancelled
      obtain ⟨info, found, -⟩ := isCancelled_iff.mp cancelled
      change (s.manager.tasks.erase taskId).lookup taskId = some info at found
      rw [AList.lookup_erase] at found
      cases found
  | _ => cases refuses

/-- A live tombstone has not been released. -/
theorem Consistent.not_released (consistent : Consistent s)
    (cancelled : s.manager.isCancelled s.now taskId = true) : ¬ s.Released taskId := by
  obtain ⟨info, found, fresh, stopped⟩ := isCancelled_iff.mp cancelled
  obtain ⟨stop, dated, expires⟩ := (consistent.dated taskId info found).1 stopped
  rintro ⟨stop', dated', passed⟩
  obtain rfl : stop' = stop := Option.some_inj.mp (dated'.symm.trans dated)
  exact fresh ⟨_, expires, passed⟩

/-- In every run, cancelled tasks stay cancelled until they are released, tasks that are not
cancelled are never purged and the registry is never over its bound, exactly as long as no
registration is refused while a live tombstone of another one is under its id. -/
theorem tombstones_stay_iff (now : ℚ) (manager : StreamTaskManager H) (es : List (Event H)) :
    TombstonesStay (initial now manager) es ∧
        Always step (fun s => s.KeepsLive ∧ s.manager.tasks.entries.length ≤ s.manager.maxTasks)
          (initial now manager) es ↔
      Along step SparesTombstone (initial now manager) es := by
  have startup := consistent_initial now manager
  constructor
  · rintro ⟨stay, -⟩
    by_contra broken
    obtain ⟨first, e, rest, middle, t, rfl, run, fails, taken⟩ := exists_broken_step broken
    simp only [SparesTombstone, not_forall, not_not] at fails
    obtain ⟨taskId, refuses, registered, cancelled⟩ := fails
    have consistent := invariant_runFrom Consistent.step startup run
    have unreleased := consistent.not_released cancelled
    -- the tombstone is watched from here, and the refusal takes it out
    rcases stay first (e :: rest) rfl middle run taskId registered cancelled with
      released | ⟨-, later⟩
    · exact unreleased released
    obtain ⟨gone, stopped, clock, ttl⟩ := not_isCancelled_of_refuses refuses taken
    rcases (later t taken).head with ⟨stop, dated, passed⟩ | ⟨still, -⟩
    · rw [stopped] at dated
      rw [clock, ttl] at passed
      exact unreleased ⟨stop, dated, passed⟩
    · rw [gone] at still
      cases still
  · intro along
    constructor
    · rintro first rest rfl middle run taskId registered cancelled
      have consistent := invariant_runFrom Consistent.step startup run
      refine until_of_along (I := fun s => Consistent s ∧ Marked s taskId) ?_ ?_
        ⟨consistent, .of_isCancelled registered cancelled⟩ (along.append_right run)
      · rintro s e t ⟨consistent, marked⟩ unreleased spares taken
        exact ⟨consistent.step s e t taken, marked_step consistent marked unreleased spares taken⟩
      · rintro s ⟨consistent, marked⟩ unreleased
        exact marked.tombstoned consistent unreleased
    · have always := always_of_preserved Consistent.step startup es
      exact always.mono fun s consistent => ⟨consistent.keepsLive, consistent.bounded⟩

/-- Two registrations of one id: the second has returned and was cancelled while the first waits. -/
def overtakenRun : Option (State ℕ) :=
  runFrom step (initial 0 { distributedEnabled := true })
    [.register "task" "first", .finalize "task", .register "task" "second",
      .registerAnswered 1 true false, .cancelLocal "task"]

/-- The first registration is refused then, and pops the tombstone of the second. -/
theorem refused_registration_pops_tombstone :
    ∃ s t, overtakenRun = some s ∧ s.Registered "task" ∧
      s.manager.isCancelled s.now "task" = true ∧
      step s (.registerAnswered 0 false false) = some t ∧ t.now = s.now ∧
      t.manager.isCancelled t.now "task" = false := by
  have test : (overtakenRun.filter fun s => s.holder "task" == some 1 &&
      s.calls == [⟨"task", true, .pending⟩, ⟨"task", true, .returned true⟩] &&
      s.manager.isCancelled s.now "task").isSome = true := by decide +kernel
  obtain ⟨s, found⟩ := Option.isSome_iff_exists.mp test
  obtain ⟨run, shape⟩ := Option.filter_eq_some_iff.mp found
  simp only [Bool.and_eq_true, beq_iff_eq] at shape
  obtain ⟨⟨holder, calls⟩, cancelled⟩ := shape
  have waits : s.calls[0]? = some ⟨"task", true, .pending⟩ := by
    rw [calls]
    rfl
  obtain ⟨t, taken⟩ : ∃ t, step s (.registerAnswered 0 false false) = some t := by
    simp only [step, waits]
    exact ⟨_, rfl⟩
  have pops := @not_isCancelled_of_refuses _ s t "task" (.registerAnswered 0 false false)
    waits taken
  refine ⟨s, t, run, ⟨1, holder, ⟨"task", true, .returned true⟩, ?_, rfl⟩, cancelled, taken,
    pops.2.2.1, pops.1⟩
  rw [calls]
  rfl

end Law

end HeyeeAgent.TaskRegistry
