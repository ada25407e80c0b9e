import HeyeeAgent.StreamChat.Lifecycle

/-! # What an action of the world can do

One lemma for each part of the state: the limiter's side of the permit, the registry entry under
the task id, and the children of the stream.
-/

namespace HeyeeAgent.StreamChat.Lifecycle

open StreamQueueLimiter

section Actions

variable {cfg : Config} {s t : State} {e : Action}

/-- Cancelling a child writes that child only. -/
structure SameLimiter (s t : State) : Prop where
  removed : t.removed = s.removed
  unsent : t.zremInFlight = s.zremInFlight
  permit : t.queuePermit = s.queuePermit
  leased : t.leaseTask.isSome = s.leaseTask.isSome
  registered : t.registered = s.registered
  started : Child.isRunning s.modelStartTask = false → Child.isRunning t.modelStartTask = false

theorem SameLimiter.refl (s : State) : SameLimiter s s := ⟨rfl, rfl, rfl, rfl, rfl, id⟩

theorem same_cancelChild (s : State) (ref : ChildRef) : SameLimiter s (s.cancelChild ref) := by
  cases ref with
  | modelStart =>
    refine ⟨rfl, rfl, rfl, rfl, rfl, fun idle => ?_⟩
    cases started : s.modelStartTask with
    | none => simp [State.cancelChild, started, Child.isRunning]
    | some child =>
      cases child with
      | running requested => simp [started, Child.isRunning] at idle
      | ended result => simp [State.cancelChild, started, Child.cancel, Child.isRunning]
  | preparation | modelStream | foreign => exact ⟨rfl, rfl, rfl, rfl, rfl, id⟩

theorem same_cancelHandle (s : State) (handle : Option ChildRef) :
    SameLimiter s (s.cancelHandle handle) := by
  cases handle with
  | none => exact .refl s
  | some ref => exact same_cancelChild s ref

/-- A registry write with the `cancel()` that comes with it. -/
theorem same_registry (s : State) (tasks : StreamTaskManager ChildRef) (handle : Option ChildRef) :
    SameLimiter s ({ s with tasks }.cancelHandle handle) :=
  let ⟨removed, unsent, permit, leased, registered, started⟩ :=
    same_cancelHandle { s with tasks } handle
  ⟨removed, unsent, permit, leased, registered, started⟩

theorem same_push (taken : s.push cfg = some t) : SameLimiter s t := by
  unfold State.push at taken
  split at taken
  · cases taken
  · dsimp only at taken
    split_ifs at taken with flooded full bound <;> cases taken
    · exact ⟨rfl, rfl, rfl, rfl, rfl, id⟩
    · exact ⟨rfl, rfl, rfl, rfl, rfl, id⟩
    · exact ⟨rfl, rfl, rfl, rfl, rfl, id⟩
    · exact ⟨rfl, rfl, rfl, rfl, rfl, id⟩

/-- The world takes the permit only by the `ZREM` in flight. -/
theorem act_limiter (taken : act cfg s e = some t) : SameLimiter s t ∨
    s.zremInFlight = true ∧ ∃ permit ∈ s.queuePermit,
      t = { s with zremInFlight := false, removed := permit.permitId :: s.removed } := by
  cases e with
  | executeZrem =>
    simp only [act] at taken
    split at taken
    · rename_i permit sent found
      cases taken
      exact .inr ⟨sent, permit, found, rfl⟩
    · cases taken
  | elapse seconds =>
    simp only [act] at taken
    split_ifs at taken
    cases taken
    exact .inl ⟨rfl, rfl, rfl, rfl, rfl, id⟩
  | entry taskId info =>
    simp only [act] at taken
    split_ifs at taken
    cases taken
    exact .inl ⟨rfl, rfl, rfl, rfl, rfl, id⟩
  | purge => cases taken; exact .inl ⟨rfl, rfl, rfl, rfl, rfl, id⟩
  | cancel => cases taken; exact .inl (same_registry s _ _)
  | preparationEnds result =>
    simp only [act] at taken
    split at taken <;> cases taken
    exact .inl ⟨rfl, rfl, rfl, rfl, rfl, id⟩
  | leaseEnds cancelled =>
    simp only [act] at taken
    split at taken <;> cases taken
    rename_i found
    exact .inl ⟨rfl, rfl, rfl, by simp [found], rfl, id⟩
  | modelStartEnds result =>
    simp only [act] at taken
    split at taken <;> cases taken
    · exact .inl ⟨rfl, rfl, rfl, rfl, rfl, fun _ => rfl⟩
    · exact .inl ⟨rfl, rfl, rfl, rfl, rfl, fun _ => rfl⟩
  | modelStreamEnds =>
    simp only [act] at taken
    split at taken <;> cases taken
    exact .inl ⟨rfl, rfl, rfl, rfl, rfl, id⟩
  | interruptModelStart => cases taken; exact .inl (same_cancelChild s .modelStart)
  | callback event =>
    simp only [act] at taken
    split_ifs at taken
    cases taken
    unfold State.schedule
    split_ifs <;> exact .inl ⟨rfl, rfl, rfl, rfl, rfl, id⟩
  | push => exact .inl (same_push taken)
  | closeLimiter => cases taken; exact .inl ⟨rfl, rfl, rfl, rfl, rfl, id⟩

/-- The local variables of the generator, and what it has sent and stored. -/
structure SameLocals (s t : State) : Prop where
  preparation : t.preparation = s.preparation
  answerStartedAt : t.answerStartedAt = s.answerStartedAt
  responseParts : t.responseParts = s.responseParts
  handle : t.handle = s.handle
  callbackHandle : t.callbackHandle = s.callbackHandle
  queuePermit : t.queuePermit = s.queuePermit
  stopped : t.stopped = s.stopped
  cancellationPersisted : t.cancellationPersisted = s.cancellationPersisted
  memory : t.memory = s.memory
  emitted : t.emitted = s.emitted
  taken : t.taken = s.taken
  preparing : t.preparationTask.isNone = s.preparationTask.isNone
  starting : t.modelStartTask.isNone = s.modelStartTask.isNone

theorem locals_cancelChild (s : State) (ref : ChildRef) : SameLocals s (s.cancelChild ref) := by
  cases ref with
  | preparation => constructor <;> first | rfl | exact Option.isNone_map
  | modelStart => constructor <;> first | rfl | exact Option.isNone_map
  | modelStream | foreign => constructor <;> rfl

theorem locals_registry (s : State) (tasks : StreamTaskManager ChildRef)
    (handle : Option ChildRef) : SameLocals s ({ s with tasks }.cancelHandle handle) := by
  cases handle with
  | none => constructor <;> rfl
  | some ref =>
    have same := locals_cancelChild { s with tasks } ref
    exact ⟨same.1, same.2, same.3, same.4, same.5, same.6, same.7, same.8, same.9, same.10,
      same.11, same.12, same.13⟩

/-- The world reads none of them and writes none of them. -/
theorem act_locals (taken : act cfg s e = some t) : SameLocals s t := by
  cases e with
  | cancel => cases taken; exact locals_registry s _ _
  | interruptModelStart => cases taken; exact locals_cancelChild s _
  | purge | closeLimiter =>
    cases taken
    constructor <;> rfl
  | elapse seconds | entry taskId info =>
    simp only [act] at taken
    split_ifs at taken
    cases taken
    constructor <;> rfl
  | callback event =>
    simp only [act] at taken
    split_ifs at taken
    cases taken
    unfold State.schedule
    split_ifs <;> constructor <;> rfl
  | push =>
    simp only [act, State.push] at taken
    split at taken
    · cases taken
    · split_ifs at taken <;> cases taken
      all_goals constructor <;> rfl
  | preparationEnds result =>
    simp only [act] at taken
    split at taken <;> cases taken
    rename_i running
    constructor <;> first | rfl | simp [running]
  | modelStartEnds result =>
    simp only [act] at taken
    split at taken <;> cases taken
    all_goals
      rename_i running
      constructor <;> first | rfl | simp [running]
  | leaseEnds cancelled | modelStreamEnds | executeZrem =>
    simp only [act] at taken
    split at taken <;> cases taken
    all_goals constructor <;> rfl

end Actions

section Registry

variable {cfg : Config} {s t : State} {e : Action}

/-- The entry under the task id. -/
def State.entry (cfg : Config) (s : State) : Option (StreamTaskInfo ChildRef) :=
  s.tasks.tasks.lookup cfg.taskId

/-- The fate of the entry in one action. Another request takes the task id only once it is free. -/
inductive EntryMove (cfg : Config) (s t : State) : Prop where
  | same (own : t.own = s.own) (entry : t.entry cfg = s.entry cfg)
  | taken (free : s.own = true → s.entry cfg = none) (own : t.own = false)
  | purged (info : StreamTaskInfo ChildRef) (found : s.entry cfg = some info)
      (expired : StreamTaskManager.Expired s.now info) (entry : t.entry cfg = none)
  | cancelled (info : StreamTaskInfo ChildRef) (tasks : StreamTaskManager ChildRef)
      (found : s.entry cfg = some info) (live : info.cancelled = false)
      (tombstone : ∃ info' ∈ tasks.tasks.lookup cfg.taskId,
        info'.cancelled = true ∧ info'.expiresAt.isSome = true)
      (state : t = { s with tasks }.cancelHandle info.handle)

theorem entryMove_purge (cfg : Config) (s : State) :
    EntryMove cfg s { s with tasks := s.tasks.purgeExpired s.now } := by
  have looked : State.entry cfg { s with tasks := s.tasks.purgeExpired s.now } = _ :=
    StreamTaskManager.lookup_purgeExpired s.tasks s.now cfg.taskId
  cases found : s.entry cfg with
  | none => exact .same rfl (by rw [looked, found, show s.tasks.tasks.lookup _ = _ from found]; rfl)
  | some info =>
    rw [show s.tasks.tasks.lookup _ = _ from found] at looked
    by_cases expired : StreamTaskManager.Expired s.now info
    · exact .purged info found expired (by simpa [expired, Option.filter] using looked)
    · exact .same rfl (by rw [found]; simpa [expired, Option.filter] using looked)

theorem entryMove_cancelLocal (cfg : Config) (s : State) :
    EntryMove cfg s (s.cancelLocal cfg.taskId) := by
  have looked := StreamTaskManager.lookup_purgeExpired s.tasks s.now cfg.taskId
  have purged := entryMove_purge cfg s
  unfold State.cancelLocal StreamTaskManager.cancelLocal
  dsimp only
  cases found : (s.tasks.purgeExpired s.now).tasks.lookup cfg.taskId with
  | none => exact purged
  | some info =>
    rw [found] at looked
    have entry : s.entry cfg = some info := (Option.filter_eq_some_iff.mp looked.symm).1
    dsimp only
    by_cases already : info.cancelled = true
    · rw [if_pos already]
      exact purged
    · rw [if_neg already]
      refine .cancelled info _ entry (by simpa using already) ?_ rfl
      exact ⟨_, AList.lookup_insert _, rfl, rfl⟩

/-- Cancelling a child leaves the registry alone. -/
theorem entryMove_cancelChild (cfg : Config) (s : State) (ref : ChildRef) :
    EntryMove cfg s (s.cancelChild ref) := by
  cases ref <;> exact .same rfl rfl

theorem entryMove_push (taken : s.push cfg = some t) : EntryMove cfg s t := by
  unfold State.push at taken
  split at taken
  · cases taken
  · dsimp only at taken
    split_ifs at taken <;> cases taken
    all_goals exact .same rfl rfl

/-- What the world can do to the entry. -/
theorem act_entry (taken : act cfg s e = some t) : EntryMove cfg s t := by
  cases e with
  | entry taskId info =>
    simp only [act] at taken
    split_ifs at taken with occupied
    cases taken
    by_cases same : taskId = cfg.taskId
    · refine .taken (fun own => ?_) (by simp [same])
      exact AList.lookup_eq_none.mpr fun member => occupied ⟨same, own, same ▸ member⟩
    · refine .same (by simp [same]) ?_
      cases info with
      | none => exact AList.lookup_erase_ne (Ne.symm same)
      | some info => exact AList.lookup_insert_ne (Ne.symm same)
  | purge => cases taken; exact entryMove_purge cfg s
  | cancel => cases taken; exact entryMove_cancelLocal cfg s
  | push => exact entryMove_push taken
  | interruptModelStart => cases taken; exact entryMove_cancelChild cfg s _
  | closeLimiter => cases taken; exact .same rfl rfl
  | elapse seconds =>
    simp only [act] at taken
    split_ifs at taken
    cases taken
    exact .same rfl rfl
  | callback event =>
    simp only [act] at taken
    split_ifs at taken
    cases taken
    unfold State.schedule
    split_ifs <;> exact .same rfl rfl
  | preparationEnds result | leaseEnds cancelled | modelStartEnds result | modelStreamEnds |
    executeZrem =>
    simp only [act] at taken
    split at taken <;> cases taken
    all_goals exact .same rfl rfl

/-- The entry of this stream does not expire before it is cancelled. -/
def WellKept (cfg : Config) (s : State) : Prop :=
  s.own = true → ∀ info ∈ s.entry cfg, StreamTaskManager.Unexpiring info

@[simp] theorem entry_cancelHandle (cfg : Config) (s : State) (handle : Option ChildRef) :
    (s.cancelHandle handle).entry cfg = s.entry cfg := by
  cases handle with
  | none => rfl
  | some ref => cases ref <;> rfl

@[simp] theorem own_cancelHandle (s : State) (handle : Option ChildRef) :
    (s.cancelHandle handle).own = s.own := by
  cases handle with
  | none => rfl
  | some ref => cases ref <;> rfl

theorem WellKept.move (kept : WellKept cfg s) (move : EntryMove cfg s t) : WellKept cfg t := by
  intro owned info found
  cases move with
  | same own entry => exact kept (own ▸ owned) info (entry ▸ found)
  | taken free own => simp [own] at owned
  | purged info' found' expired entry => simp [entry] at found
  | cancelled info' tasks found' live tombstone state =>
    obtain ⟨info'', looked, dead, -⟩ := tombstone
    have entry : t.entry cfg = some info'' := by
      rw [state, entry_cancelHandle]
      exact looked
    rw [entry, Option.mem_some_iff] at found
    subst found
    exact fun live => by simp [dead] at live

theorem wellKept_cancelLocal (kept : WellKept cfg s) :
    WellKept cfg { s with tasks := (s.tasks.cancelLocal s.now cfg.taskId).1 } := by
  have moved := kept.move (entryMove_cancelLocal cfg s)
  unfold WellKept State.cancelLocal at moved
  simp only [entry_cancelHandle, own_cancelHandle] at moved
  exact moved

end Registry

end HeyeeAgent.StreamChat.Lifecycle
