import HeyeeAgent.StreamChat.Frames
import HeyeeAgent.StreamChat.Released

/-! # The children when the generator has ended

A child is attended once it has ended or has been asked to cancel. While the stream waits for the
preparation or consumes the answer, one child runs and the registry entry holds its handle, so that
a stop reaches it. Every other exit depends on the entry: the `finally` block cancels neither the
preparation nor, without a cancelled entry, the model stream.
-/

namespace HeyeeAgent.StreamChat.Lifecycle

open Python StreamQueueLimiter Coroutine

/-- The task runs and nobody has asked it to cancel. -/
def Child.unattended {α : Type} : Option (Child α) → Bool
  | some (.running false) => true
  | _ => false

namespace State

def unattended (s : State) : ChildRef → Bool
  | .preparation => Child.unattended s.preparationTask
  | .modelStart => Child.unattended s.modelStartTask
  | .modelStream => Child.unattended s.modelStream
  | .foreign => false

/-- The child has ended by itself, has been asked to cancel, or was never started. -/
def Attended (s : State) (ref : ChildRef) : Prop := s.unattended ref = false

instance (s : State) (ref : ChildRef) : Decidable (s.Attended ref) :=
  inferInstanceAs (Decidable (s.unattended ref = false))

end State

/-- The entry of this stream is still in the registry. -/
def Present (cfg : Config) (s : State) : Prop := s.own = true ∧ (s.entry cfg).isSome = true

/-- Neither the preparation nor the model stream is left to itself. -/
def Calm (s : State) : Prop := s.Attended .preparation ∧ s.Attended .modelStream

instance (cfg : Config) (s : State) : Decidable (Present cfg s) :=
  inferInstanceAs (Decidable (_ ∧ _))

instance (s : State) : Decidable (Calm s) := inferInstanceAs (Decidable (_ ∧ _))

/-- What the loop can take from the queue. -/
def Takeable (s : State) : List StreamEvent → Prop
  | .thinking delta :: _ | .content delta :: _ => delta.encodes = true ∨ s.Attended .modelStream
  | _ => s.Attended .modelStream

instance (s : State) : DecidablePred (Takeable s)
  | .thinking delta :: _ | .content delta :: _ =>
    inferInstanceAs (Decidable (delta.encodes = true ∨ s.Attended .modelStream))
  | [] | .complete :: _ | .error _ :: _ => inferInstanceAs (Decidable (s.Attended .modelStream))

/-- An exception other than a timeout of a poll comes when no child runs unattended; the entry is
still there when a child is started or its handle is bound; and the stream takes no delta that
cannot be encoded, and no end of the answer, from a model stream that still runs unattended. -/
def NoAbandon (cfg : Config) : Visit State Point Raised Reply → Prop
  | ⟨p, s, .error x⟩ => (p = .preparation ∨ p = .queueGet) ∧ x = .timeoutError ∨ Calm s
  | ⟨.yielding, s, .ok _⟩ =>
    s.queuePermit.isSome = true → s.preparationTask.isNone = true → Present cfg s
  | ⟨.modelStart, s, .ok _⟩ => Present cfg s
  | ⟨.queueGet, s, .ok _⟩ => Takeable s s.queue
  | _ => True

instance (cfg : Config) : DecidablePred (NoAbandon cfg)
  | ⟨p, s, .error x⟩ => inferInstanceAs (Decidable
      ((p = .preparation ∨ p = .queueGet) ∧ x = .timeoutError ∨ Calm s))
  | ⟨.yielding, s, .ok _⟩ => inferInstanceAs (Decidable
      (s.queuePermit.isSome = true → s.preparationTask.isNone = true → Present cfg s))
  | ⟨.modelStart, s, .ok _⟩ => inferInstanceAs (Decidable (Present cfg s))
  | ⟨.queueGet, s, .ok _⟩ => inferInstanceAs (Decidable (Takeable s s.queue))
  | ⟨.backend, _, .ok _⟩ | ⟨.acquire, _, .ok _⟩ | ⟨.isDisconnected, _, .ok _⟩
  | ⟨.resolveMemory, _, .ok _⟩ | ⟨.loadAndAppend, _, .ok _⟩ | ⟨.memoryAppend, _, .ok _⟩
  | ⟨.compressIfNeeded, _, .ok _⟩ | ⟨.compression, _, .ok _⟩ | ⟨.preparation, _, .ok _⟩
  | ⟨.lease, _, .ok _⟩ | ⟨.conditionLock, _, .ok _⟩ | ⟨.zrem, _, .ok _⟩ | ⟨.publish, _, .ok _⟩ =>
    isTrue trivial

section Attended

variable {cfg : Config} {s t : State} {e : Action} {ref ref' : ChildRef}

theorem unattended_map_cancel {α : Type} (child : Option (Child α)) :
    Child.unattended (child.map Child.cancel) = false := by
  cases child with
  | none => rfl
  | some child => cases child <;> rfl

/-- After its `cancel()` a child is attended. -/
theorem attended_cancelChild (s : State) (ref : ChildRef) : (s.cancelChild ref).Attended ref := by
  cases ref with
  | preparation | modelStart | modelStream => exact unattended_map_cancel _
  | foreign => rfl

/-- What the await of the model start gives comes after its end. -/
theorem attended_of_admitted {answer : Except Raised (Reply .modelStart)}
    (admitted : (world cfg).admits .modelStart s answer = true) : s.Attended .modelStart := by
  cases answer with
  | ok reply =>
    simp only [world, admits] at admitted
    split at admitted
    · rename_i ended
      simp [State.Attended, State.unattended, ended, Child.unattended]
    · cases admitted
  | error x =>
    simp only [world, admits] at admitted
    split at admitted
    · rename_i ended
      simp [State.Attended, State.unattended, ended, Child.unattended]
    · rename_i ended
      simp [State.Attended, State.unattended, ended, Child.unattended]
    · cases admitted

theorem State.Attended.cancelChild (attended : s.Attended ref) (ref' : ChildRef) :
    (s.cancelChild ref').Attended ref := by
  by_cases same : ref' = ref
  · exact same ▸ attended_cancelChild s ref'
  · cases ref' <;> cases ref <;> first | exact attended | exact absurd rfl same

theorem State.Attended.cancelHandle (attended : s.Attended ref) (handle : Option ChildRef) :
    (s.cancelHandle handle).Attended ref := by
  cases handle with
  | none => exact attended
  | some ref' => exact attended.cancelChild ref'

theorem attended_push (taken : s.push cfg = some t) (attended : s.Attended ref) :
    t.Attended ref := by
  unfold State.push at taken
  split at taken
  · cases taken
  · dsimp only at taken
    split_ifs at taken <;> cases taken
    · exact attended
    · exact State.Attended.cancelChild (by cases ref <;> exact attended) .modelStream
    · cases ref <;> exact attended
    · cases ref <;> exact attended

/-- Only a model start that ends with a stream leaves a child unattended. -/
theorem attended_or_started (taken : act cfg s e = some t) (attended : s.Attended ref) :
    t.Attended ref ∨ ref = .modelStream ∧ s.modelStartTask = some (.running false) ∧
      t.modelStartTask = some (.ended (.ok ())) := by
  cases e with
  | modelStartEnds result =>
    simp only [act] at taken
    split at taken <;> cases taken
    · rename_i running
      cases ref with
      | modelStream => exact .inr ⟨rfl, running, rfl⟩
      | modelStart => exact .inl rfl
      | preparation | foreign => exact .inl attended
    · cases ref with
      | modelStart => exact .inl rfl
      | preparation | modelStream | foreign => exact .inl attended
  | preparationEnds result =>
    simp only [act] at taken
    split at taken <;> cases taken
    cases ref with
    | preparation => exact .inl rfl
    | modelStart | modelStream | foreign => exact .inl attended
  | modelStreamEnds =>
    simp only [act] at taken
    split at taken <;> cases taken
    cases ref with
    | modelStream => exact .inl rfl
    | preparation | modelStart | foreign => exact .inl attended
  | cancel =>
    cases taken
    exact .inl (State.Attended.cancelHandle (by cases ref <;> exact attended) _)
  | interruptModelStart => cases taken; exact .inl (attended.cancelChild _)
  | push => exact .inl (attended_push taken attended)
  | purge | closeLimiter => cases taken; cases ref <;> exact .inl attended
  | elapse seconds | entry taskId info =>
    simp only [act] at taken
    split_ifs at taken
    cases taken
    cases ref <;> exact .inl attended
  | callback event =>
    simp only [act] at taken
    split_ifs at taken
    cases taken
    unfold State.schedule
    split_ifs <;> cases ref <;> exact .inl attended
  | leaseEnds cancelled | executeZrem =>
    simp only [act] at taken
    split at taken <;> cases taken
    cases ref <;> exact .inl attended

theorem attended_act (taken : act cfg s e = some t) (attended : s.Attended ref)
    (started : ref = .modelStream → s.Attended .modelStart) : t.Attended ref := by
  rcases attended_or_started taken attended with kept | ⟨stream, running, -⟩
  · exact kept
  · have stopped := started stream
    simp [State.Attended, State.unattended, running, Child.unattended] at stopped

end Attended

/-- All children are attended. -/
structure Quiet (cfg : Config) (s : State) : Prop where
  entry : WellKept cfg s
  attended : ∀ ref, s.Attended ref

/-- The entry is not cancelled and holds the handle, so that a stop cancels the child. -/
def Bound (cfg : Config) (s : State) (ref : ChildRef) : Prop :=
  s.own = true ∧ ∃ info ∈ s.entry cfg, info.cancelled = false ∧ info.handle = some ref

/-- At most this one child is unattended, and then its handle is bound. -/
structure Guarded (cfg : Config) (ref : ChildRef) (s : State) : Prop where
  entry : WellKept cfg s
  others : ∀ ref' ≠ ref, s.Attended ref'
  bound : s.Attended ref ∨ Bound cfg s ref

section Stable

variable {cfg : Config} {s t : State} {e : Action} {ref : ChildRef}

theorem Quiet.act (quiet : Quiet cfg s) (taken : Lifecycle.act cfg s e = some t) : Quiet cfg t where
  entry := quiet.entry.move (act_entry taken)
  attended ref := attended_act taken (quiet.attended ref) fun _ => quiet.attended .modelStart

theorem Quiet.same (quiet : Quiet cfg s) (tasks : t.tasks = s.tasks) (own : t.own = s.own)
    (children : ∀ ref, t.unattended ref = s.unattended ref) : Quiet cfg t where
  entry := by
    unfold WellKept State.entry
    rw [tasks, own]
    exact quiet.entry
  attended ref := (children ref).trans (quiet.attended ref)

theorem quiet_unaffected : Unaffected cfg (fun _ => True) (Quiet cfg) where
  waits _ _ := trivial
  act _ _ _ quiet taken := quiet.act taken
  cancelChild s ref quiet :=
    ⟨quiet.entry.move (entryMove_cancelChild cfg s ref),
      fun ref' => (quiet.attended ref').cancelChild ref⟩
  registry s tasks own kept quiet :=
    ⟨kept quiet.entry, fun ref => by
      have attended := quiet.attended ref
      cases ref <;> exact attended⟩
  lease s quiet := quiet.same rfl rfl fun ref => by cases ref <;> rfl
  emits _ s _ quiet := quiet.same rfl rfl fun ref => by cases ref <;> rfl
  persists s _ _ _ quiet := quiet.same rfl rfl fun ref => by cases ref <;> rfl
  stream s _ _ _ _ _ _ _ quiet := quiet.same rfl rfl fun ref => by cases ref <;> rfl

theorem Quiet.guarded (quiet : Quiet cfg s) (ref : ChildRef) : Guarded cfg ref s :=
  ⟨quiet.entry, fun ref' _ => quiet.attended ref', .inl (quiet.attended ref)⟩

theorem Guarded.quiet (guarded : Guarded cfg ref s) (attended : s.Attended ref) : Quiet cfg s where
  entry := guarded.entry
  attended ref' := by
    by_cases same : ref' = ref
    · exact same ▸ attended
    · exact guarded.others ref' same

theorem Guarded.quiet_of_calm (guarded : Guarded cfg ref s) (serving : ref ≠ .modelStart)
    (calm : Calm s) : Quiet cfg s := by
  refine guarded.quiet ?_
  cases ref with
  | preparation => exact calm.1
  | modelStart => exact absurd rfl serving
  | modelStream => exact calm.2
  | foreign => rfl

/-- A stop reaches the child of a bound handle. -/
theorem Guarded.act (guarded : Guarded cfg ref s) (serving : ref ≠ .modelStart)
    (taken : Lifecycle.act cfg s e = some t) : Guarded cfg ref t where
  entry := guarded.entry.move (act_entry taken)
  others ref' other := by
    refine attended_act taken (guarded.others ref' other) fun _ => ?_
    exact guarded.others .modelStart (Ne.symm serving)
  bound := by
    rcases guarded.bound with attended | ⟨owned, info, found, live, handle⟩
    · refine .inl (attended_act taken attended fun _ => ?_)
      exact guarded.others .modelStart (Ne.symm serving)
    · cases act_entry taken with
      | same own entry => exact .inr ⟨own ▸ owned, info, entry.trans found, live, handle⟩
      | taken free own => simp [Option.mem_def.mp found] at free; simp [owned] at free
      | purged info' found' expired entry =>
        obtain rfl : info' = info := Option.some_inj.mp (found'.symm.trans found)
        obtain ⟨expiresAt, given, -⟩ := expired
        simp [guarded.entry owned info' found' live] at given
      | cancelled info' tasks found' live' tombstone state =>
        obtain rfl : info' = info := Option.some_inj.mp (found'.symm.trans found)
        rw [handle] at state
        exact .inl (state ▸ attended_cancelChild _ ref)

/-- A bound entry has not expired. -/
theorem lookup_purge_bound (kept : WellKept cfg s) (owned : s.own = true)
    {info : StreamTaskInfo ChildRef} (found : s.entry cfg = some info)
    (live : info.cancelled = false) :
    (s.tasks.purgeExpired s.now).tasks.lookup cfg.taskId = some info := by
  have fresh : ¬ StreamTaskManager.Expired s.now info := by
    rintro ⟨expiresAt, given, -⟩
    simp [kept owned info found live] at given
  rw [StreamTaskManager.lookup_purgeExpired, show s.tasks.tasks.lookup _ = _ from found]
  simp [Option.filter, fresh]

theorem Guarded.cancelLocal (guarded : Guarded cfg ref s) : Quiet cfg (s.cancelLocal cfg.taskId) := by
  have others (ref' : ChildRef) (attended : s.Attended ref') :
      (s.cancelLocal cfg.taskId).Attended ref' :=
    State.Attended.cancelHandle (by cases ref' <;> exact attended) _
  refine ⟨guarded.entry.move (entryMove_cancelLocal cfg s), fun ref' => ?_⟩
  by_cases same : ref' = ref
  · subst same
    rcases guarded.bound with attended | ⟨owned, info, found, live, handle⟩
    · exact others ref' attended
    · have looked := lookup_purge_bound guarded.entry owned found live
      simp only [State.cancelLocal, StreamTaskManager.cancelLocal, looked, live, handle,
        Bool.false_eq_true, if_false]
      exact attended_cancelChild _ ref'
  · exact others ref' (guarded.others ref' same)

end Stable

section Parts

variable {cfg : Config} {ref : ChildRef}

theorem guarded_await (serving : ref ≠ .modelStart) {p : Point}
    (other : p ≠ .preparation ∧ p ≠ .queueGet) :
    Triple (NoAbandon cfg) (fun _ => True) (Guarded cfg ref) (await cfg p)
      (fun _ => Guarded cfg ref) (fun _ => Quiet cfg) := by
  refine .await (fun _ _ => trivial) (fun s e t guarded taken => guarded.act serving taken)
    (fun s _ guarded _ _ => guarded) fun s x guarded _ calm => ?_
  refine guarded.quiet_of_calm serving (calm.resolve_left fun polled => ?_)
  exact polled.1.elim other.1 other.2

theorem guarded_disconnected (serving : ref ≠ .modelStart) :
    Triple (NoAbandon cfg) (fun _ => True) (Guarded cfg ref) (disconnected cfg)
      (fun _ => Guarded cfg ref) (fun _ => Quiet cfg) :=
  .ite (fun _ => guarded_await serving (by decide)) fun _ => .pure fun _ => id

theorem guarded_taskManagerCancel (serving : ref ≠ .modelStart) :
    Triple (NoAbandon cfg) (fun _ => True) (Guarded cfg ref) (taskManagerCancel cfg)
      (fun _ => Quiet cfg) (fun _ => Quiet cfg) := by
  have last : Triple (NoAbandon cfg) (fun _ => True) (Guarded cfg ref)
      (Co.modify fun s => s.cancelLocal cfg.taskId : StreamCo Unit) (fun _ => Quiet cfg)
      (fun _ => Quiet cfg) := .modify fun s guarded => guarded.cancelLocal
  have backend : Triple (NoAbandon cfg) (fun _ => True) (Guarded cfg ref) (await cfg .backend)
      (fun _ => Guarded cfg ref) (fun _ => Quiet cfg) := guarded_await serving (by decide)
  exact .bind _ (.get fun _ => id) fun _ => .ite
    (fun _ => .bind _ backend fun _ => .bind _ backend fun _ => last) fun _ => last

/-- A cancelled entry has cancelled the child. -/
theorem guarded_isCancelled {C : Visit State Point Raised Reply → Prop}
    {exc : Raised → State → Prop} :
    Triple C (fun _ => True) (Guarded cfg ref) (isCancelled cfg)
      (fun cancelled s => if cancelled then Quiet cfg s else Guarded cfg ref s) exc := by
  refine .bind (fun s t => t = s ∧ Guarded cfg ref t) (.get fun s guarded => ⟨rfl, guarded⟩) fun s =>
    .bind (fun _ t => if s.tasks.isCancelled s.now cfg.taskId then Quiet cfg t else Guarded cfg ref t)
      (.modify ?_) fun _ => .pure fun _ => id
  rintro t ⟨rfl, guarded⟩
  have kept := guarded.entry.move (entryMove_purge cfg t)
  have children (ref' : ChildRef) (attended : t.Attended ref') :
      State.Attended { t with tasks := t.tasks.purgeExpired t.now } ref' := by
    cases ref' <;> exact attended
  have others := fun ref' other => children ref' (guarded.others ref' other)
  rcases guarded.bound with attended | ⟨owned, info, found, live, handle⟩
  · have purged : Guarded cfg ref { t with tasks := t.tasks.purgeExpired t.now } :=
      ⟨kept, others, .inl (children ref attended)⟩
    split_ifs
    · exact purged.quiet (children ref attended)
    · exact purged
  · have looked := lookup_purge_bound guarded.entry owned found live
    simp only [StreamTaskManager.isCancelled, looked, Option.any_some, live, Bool.false_eq_true,
      if_false]
    exact ⟨kept, others, .inr ⟨owned, info, looked, live, handle⟩⟩

/-- A refused handle has been cancelled with its entry. -/
theorem present_bind {C : Visit State Point Raised Reply → Prop} {exc : Raised → State → Prop} :
    Triple C (fun _ => True)
      (fun s => WellKept cfg s ∧ (∀ ref' ≠ ref, s.Attended ref') ∧ Present cfg s)
      (Lifecycle.bind cfg ref)
      (fun bound s => if bound then Guarded cfg ref s else Quiet cfg s) exc := by
  refine .bind (fun s t => t = s ∧ WellKept cfg t ∧ (∀ ref' ≠ ref, t.Attended ref') ∧ Present cfg t)
    (.get fun s holds => ⟨rfl, holds⟩) fun s => ?_
  refine .bind (fun _ t => if (s.tasks.bind cfg.taskId ref).2.1 then Guarded cfg ref t else
    Quiet cfg t) (.modify ?_) fun _ => .pure fun _ => id
  rintro t ⟨rfl, kept, others, owned, present⟩
  obtain ⟨info, found⟩ := Option.isSome_iff_exists.mp present
  have unexpiring := fun own => t.tasks.lookup_bind cfg.taskId ref (kept own)
  let bound := t.tasks.bind cfg.taskId ref
  change if bound.2.1 then Guarded cfg ref ({ t with tasks := bound.1 }.cancelHandle bound.2.2)
    else Quiet cfg ({ t with tasks := bound.1 }.cancelHandle bound.2.2)
  have result : bound = _ := StreamTaskManager.bind_found found ref
  rw [result]
  rw [StreamTaskManager.bind_found found] at unexpiring
  generalize written : t.tasks.tasks.insert cfg.taskId { info with handle := some ref } = entries
    at unexpiring ⊢
  have looked : entries.lookup cfg.taskId = some { info with handle := some ref } :=
    written ▸ AList.lookup_insert _
  let u : State := { t with tasks := { t.tasks with tasks := entries } }
  have keptWritten : WellKept cfg u := unexpiring
  have children (ref' : ChildRef) (other : ref' ≠ ref) : u.Attended ref' := by
    have attended := others ref' other
    cases ref' <;> exact attended
  cases cancelled : info.cancelled with
  | false => exact ⟨keptWritten, children, .inr ⟨owned, _, looked, cancelled, rfl⟩⟩
  | true =>
    have refused : Guarded cfg ref (u.cancelChild ref) :=
      ⟨keptWritten.move (entryMove_cancelChild cfg u ref),
        fun ref' other => (children ref' other).cancelChild ref, .inl (attended_cancelChild u ref)⟩
    exact refused.quiet (attended_cancelChild u ref)

/-- The wait for the preparation ends with the preparation, or with it attended. -/
theorem guarded_awaitPreparation :
    Triple (NoAbandon cfg) (fun _ => True) (Guarded cfg .preparation) (awaitPreparation cfg)
      (fun _ => Quiet cfg) (fun _ => Quiet cfg) := by
  have serving : ChildRef.preparation ≠ .modelStart := by decide
  have frame : Unaffected cfg (fun _ => True) (Quiet cfg) := quiet_unaffected
  have polled : Triple (NoAbandon cfg) (fun _ => True) (Guarded cfg .preparation)
      (await cfg .preparation) (fun _ => Quiet cfg)
      (fun x s => x = .timeoutError ∧ Guarded cfg .preparation s ∨ Quiet cfg s) := by
    refine .await (fun _ _ => trivial) (fun s e t guarded taken => guarded.act serving taken) ?_ ?_
    · intro s _ guarded admitted _
      refine guarded.quiet ?_
      simp only [world, admits] at admitted
      split at admitted
      · rename_i ended
        simp [State.Attended, State.unattended, ended, Child.unattended]
      · cases admitted
    · intro s x guarded _ condition
      rcases condition with ⟨-, timeout⟩ | calm
      · exact .inl ⟨timeout, guarded⟩
      · exact .inr (guarded.quiet_of_calm serving calm)
  have stopped : Triple (NoAbandon cfg) (fun _ => True) (Guarded cfg .preparation)
      (Co.modify fun s => s.cancelChild .preparation : StreamCo Unit)
      (fun _ => Guarded cfg .preparation) (fun _ => Quiet cfg) := by
    refine .modify fun s guarded => ⟨guarded.entry.move (entryMove_cancelChild cfg s _), ?_, ?_⟩
    · exact fun ref other => (guarded.others ref other).cancelChild _
    · exact .inl (attended_cancelChild s _)
  refine .repeatUntil (fun _ _ => trivial) ?_
  refine .bind _ (guarded_disconnected serving) fun gone =>
    .bind (fun _ => Guarded cfg .preparation) (.onlyIf (fun _ => ?cancel) fun _ _ => id) fun _ =>
    .bind _ guarded_isCancelled fun cancelled =>
    .bind (fun _ => Guarded cfg .preparation) (.onlyIf ?stop ?go) fun _ => ?poll
  case cancel =>
    exact (guarded_taskManagerCancel serving).weaken_post fun _ _ quiet => quiet.guarded _
  case stop =>
    rintro rfl
    exact stopped.strengthen_pre fun _ quiet => quiet.guarded _
  case go =>
    rintro rfl
    exact fun _ => id
  case poll =>
    refine .tryCatch _ (.bind _ polled fun _ => .bind (fun _ => Quiet cfg) (.get fun _ => id)
      fun s => ?_) fun x => .ite (fun _ => .pure fun s caught => ?_) fun other => .raise ?_
    · split
      · exact .pure fun _ => id
      · exact .raise fun _ => .inr
    · exact caught.elim (fun waiting => waiting.2) fun quiet => quiet.guarded _
    · exact fun s caught => caught.resolve_left fun waiting => other waiting.1

/-- The delta can be sent, or the model stream does not need the loop any more. -/
def Sendable (cfg : Config) (delta : Str) (s : State) : Prop :=
  Guarded cfg .modelStream s ∧ (delta.encodes = true ∨ s.Attended .modelStream)

theorem encodes_deltaData (kind : String) (delta : Str) :
    (deltaData kind delta).encodes = delta.encodes := by
  simp [deltaData, Json.encodes, Json.encodesFields]

theorem guarded_yieldDelta (name kind : String) (delta : Str) :
    Triple (NoAbandon cfg) (fun _ => True) (Sendable cfg delta)
      (yieldEvent cfg name (deltaData kind delta)) (fun _ => Guarded cfg .modelStream)
      (fun _ => Quiet cfg) := by
  unfold yieldEvent
  rw [encodes_deltaData]
  refine .ite (fun _ => .bind (fun _ => Guarded cfg .modelStream) (.modify fun s sendable => ?_)
    fun _ => guarded_await (by decide) (by decide)) fun unsendable => .raise fun s sendable => ?_
  · have same (ref : ChildRef) : State.unattended { s with emitted := s.emitted ++
        [⟨name, deltaData kind delta⟩] } ref = s.unattended ref := by cases ref <;> rfl
    refine ⟨sendable.1.entry, fun ref other => ?_, ?_⟩
    · exact (same ref).trans (sendable.1.others ref other)
    · exact sendable.1.bound.imp (fun attended => (same _).trans attended) id
  · exact sendable.1.quiet (sendable.2.resolve_left unsendable)

/-- What the loop knows about the event it has taken. -/
def Got (cfg : Config) : Option StreamEvent → State → Prop
  | none => Guarded cfg .modelStream
  | some (.thinking delta) | some (.content delta) => Sendable cfg delta
  | some _ => Quiet cfg

/-- What holds of the front of the queue. -/
def AtFront (cfg : Config) (s : State) : Prop :=
  match s.queue with
  | event :: _ => Got cfg (some event) s
  | [] => Quiet cfg s

theorem guarded_queueGet :
    Triple (NoAbandon cfg) (fun _ => True) (Guarded cfg .modelStream) (queueGet cfg) (Got cfg)
      (fun _ => Quiet cfg) := by
  have serving : ChildRef.modelStream ≠ .modelStart := by decide
  have taken : Triple (NoAbandon cfg) (fun _ => True) (Guarded cfg .modelStream)
      (await cfg .queueGet) (fun _ => AtFront cfg)
      (fun x s => x = .timeoutError ∧ Guarded cfg .modelStream s ∨ Quiet cfg s) := by
    refine .await (fun _ _ => trivial) (fun s e t guarded taken => guarded.act serving taken) ?_ ?_
    · intro s _ guarded admitted condition
      simp only [NoAbandon] at condition
      cases queued : s.queue with
      | nil => simp [world, admits, queued] at admitted
      | cons event rest =>
        rw [queued] at condition
        rw [AtFront, queued]
        cases event with
        | thinking delta | content delta => exact ⟨guarded, condition⟩
        | complete | error message => exact guarded.quiet condition
    · intro s x guarded _ condition
      rcases condition with ⟨-, timeout⟩ | calm
      · exact .inl ⟨timeout, guarded⟩
      · exact .inr (guarded.quiet_of_calm serving calm)
  refine .tryCatch _ (.bind _ taken fun _ => .bind (fun s t => t = s ∧ AtFront cfg s)
    (.get fun s got => ⟨rfl, got⟩) fun s => ?_)
    fun x => .ite (fun _ => .pure fun s caught => ?_) fun other => .raise ?_
  · cases queued : s.queue with
    | nil =>
      refine .raise ?_
      rintro t ⟨rfl, got⟩
      rw [AtFront, queued] at got
      exact .inr got
    | cons event rest =>
      refine .bind (fun _ => Got cfg (some event)) (.modify ?_) fun _ => .pure fun _ => id
      rintro t ⟨rfl, got⟩
      rw [AtFront, queued] at got
      have same (ref : ChildRef) : State.unattended { t with queue := rest, taken := t.taken ++
          [event] } ref = t.unattended ref := by cases ref <;> rfl
      have kept (guarded : Guarded cfg .modelStream t) : Guarded cfg .modelStream
          { t with queue := rest, taken := t.taken ++ [event] } :=
        ⟨guarded.entry, fun ref other => (same ref).trans (guarded.others ref other),
          guarded.bound.imp (fun attended => (same _).trans attended) id⟩
      cases event with
      | thinking delta | content delta =>
        exact ⟨kept got.1, got.2.imp id fun attended => (same _).trans attended⟩
      | complete | error message => exact got.same rfl rfl same
  · exact caught.elim (fun waiting => waiting.2) fun quiet => quiet.guarded _
  · exact fun s caught => caught.resolve_left fun waiting => other waiting.1

end Parts

section Stream

variable {cfg : Config}

theorem guarded_consumeEvent (preparation : ChatPreparation) (event : StreamEvent) :
    Triple (NoAbandon cfg) (fun _ => True) (Got cfg (some event)) (consumeEvent cfg preparation event)
      (fun next s => if next.isSome then Quiet cfg s else Guarded cfg .modelStream s)
      (fun _ => Quiet cfg) := by
  have frame : Unaffected cfg (fun _ => True) (Quiet cfg) := quiet_unaffected
  cases event with
  | thinking delta =>
    exact .bind _ (guarded_yieldDelta "message" "think" delta) fun _ => .pure fun _ => id
  | content delta =>
    refine .bind (fun _ => Sendable cfg delta) (.modify fun s sendable => ?_) fun _ =>
      .bind _ (guarded_yieldDelta "message" "response" delta) fun _ => .pure fun _ => id
    have same (ref : ChildRef) : State.unattended { s with responseParts := s.responseParts ++
        [delta] } ref = s.unattended ref := by cases ref <;> rfl
    refine ⟨⟨sendable.1.entry, fun ref other => (same ref).trans (sendable.1.others ref other),
      sendable.1.bound.imp (fun attended => (same _).trans attended) id⟩, ?_⟩
    exact sendable.2.imp id fun attended => (same _).trans attended
  | complete =>
    exact .bind _ (keeps_answerComplete frame preparation) fun _ => .pure fun _ => id
  | error message => exact .bind _ frame.keeps_answerError fun _ => .pure fun _ => id

theorem guarded_consumeRound (preparation : ChatPreparation) :
    Triple (NoAbandon cfg) (fun _ => True) (Guarded cfg .modelStream) (consumeRound cfg preparation)
      (fun next s => if next.isSome then Quiet cfg s else Guarded cfg .modelStream s)
      (fun _ => Quiet cfg) := by
  have frame : Unaffected cfg (fun _ => True) (Quiet cfg) := quiet_unaffected
  have serving : ChildRef.modelStream ≠ .modelStart := by decide
  have sent (name : String) (data : Json) :
      Keeps (NoAbandon cfg) (fun _ => True) (Quiet cfg) (yieldEvent cfg name data) :=
    frame.keeps_yieldEvent _ _
  have stopped : Triple (NoAbandon cfg) (fun _ => True) (Guarded cfg .modelStream)
      (Co.modify fun s => s.cancelChild .modelStream : StreamCo Unit) (fun _ => Quiet cfg)
      (fun _ => Quiet cfg) := by
    refine .modify fun s guarded => ⟨guarded.entry.move (entryMove_cancelChild cfg s _), ?_⟩
    intro ref
    by_cases same : ref = .modelStream
    · exact same ▸ attended_cancelChild s _
    · exact (guarded.others ref same).cancelChild _
  refine .bind _ (.get fun _ => id) fun s => .ite (fun _ => ?overflowed) fun _ =>
    .bind _ (guarded_disconnected serving) fun gone => .ite (fun _ => ?gone) fun _ =>
    .bind _ guarded_isCancelled fun cancelled => .ite ?cancelled ?consume
  case overflowed =>
    exact .bind _ stopped fun _ => .bind _ (sent _ _) fun _ => .bind _ (sent _ _) fun _ =>
      .pure fun _ => id
  case gone =>
    exact .bind _ (guarded_taskManagerCancel serving) fun _ =>
      .bind _ (keeps_cancelledPayload frame.toFramed frame.persists) fun _ => .pure fun _ => id
  case cancelled =>
    rintro rfl
    exact .bind _ frame.keeps_yieldCancel fun _ => .pure fun _ => id
  case consume =>
    intro kept
    have going : cancelled = false := by simpa using kept
    subst going
    refine .bind _ guarded_queueGet fun event => ?_
    cases event with
    | none => exact .pure fun _ => id
    | some event => exact guarded_consumeEvent preparation event

/-- The model start is not attended yet, and the stream behind it not there. -/
def Starting (cfg : Config) (s : State) : Prop :=
  WellKept cfg s ∧ ∀ ref ≠ .modelStart, s.Attended ref

theorem starting_bind {exc : Raised → State → Prop} :
    Triple (NoAbandon cfg) (fun _ => True) (Starting cfg) (Lifecycle.bind cfg .modelStart)
      (fun _ => Starting cfg) exc := by
  refine .bind (fun s t => t = s ∧ Starting cfg t) (.get fun s starting => ⟨rfl, starting⟩) fun s =>
    .bind (fun _ => Starting cfg) (.modify ?_) fun _ => .pure fun _ => id
  rintro t ⟨rfl, kept, others⟩
  let bound := t.tasks.bind cfg.taskId .modelStart
  change Starting cfg ({ t with tasks := bound.1 }.cancelHandle bound.2.2)
  refine ⟨?_, fun ref other => State.Attended.cancelHandle ?_ _⟩
  · unfold WellKept
    rw [entry_cancelHandle, own_cancelHandle]
    exact fun owned => t.tasks.lookup_bind cfg.taskId .modelStart (kept owned)
  · have attended := others ref other
    cases ref <;> exact attended

/-- The model start has ended; with a result, the stream behind it is the one child left. -/
theorem starting_await :
    Triple (NoAbandon cfg) (fun _ => True) (Starting cfg) (await cfg .modelStart)
      (fun _ s => WellKept cfg s ∧ (∀ ref ≠ .modelStream, s.Attended ref) ∧ Present cfg s)
      (fun _ => Quiet cfg) := by
  have ready : Triple (NoAbandon cfg) (fun _ => True)
      (fun s => WellKept cfg s ∧ s.Attended .preparation) (await cfg .modelStart)
      (fun _ s => WellKept cfg s ∧ (∀ ref ≠ .modelStream, s.Attended ref) ∧ Present cfg s)
      (fun _ => Quiet cfg) := by
    refine .await (fun _ _ => trivial) ?_ ?_ ?_
    · exact fun s e t ⟨kept, prepared⟩ taken =>
        ⟨kept.move (act_entry taken), attended_act taken prepared nofun⟩
    · rintro s _ ⟨kept, prepared⟩ admitted present
      refine ⟨kept, fun ref other => ?_, present⟩
      cases ref with
      | preparation => exact prepared
      | modelStart => exact attended_of_admitted admitted
      | modelStream => exact absurd rfl other
      | foreign => rfl
    · rintro s x ⟨kept, prepared⟩ admitted condition
      have calm : Calm s := condition.resolve_left fun polled => by simp at polled
      refine ⟨kept, fun ref => ?_⟩
      cases ref with
      | preparation => exact calm.1
      | modelStart => exact attended_of_admitted admitted
      | modelStream => exact calm.2
      | foreign => rfl
  exact ready.strengthen_pre fun s starting => ⟨starting.1, starting.2 .preparation (by decide)⟩

theorem quiet_answer (preparation : ChatPreparation) :
    Keeps (NoAbandon cfg) (fun _ => True) (Quiet cfg) (answer cfg preparation) := by
  have frame : Unaffected cfg (fun _ => True) (Quiet cfg) := quiet_unaffected
  have begun : Triple (NoAbandon cfg) (fun _ => True) (Quiet cfg)
      (Co.modify fun s => { s with
        answerStartedAt := some s.now
        modelStartTask := some (.running false) } : StreamCo Unit)
      (fun _ => Starting cfg) (fun _ => Quiet cfg) := by
    refine .modify fun s quiet => ⟨quiet.entry, fun ref other => ?_⟩
    have attended := quiet.attended ref
    cases ref <;> first | exact attended | exact absurd rfl other
  have stopped : Triple (NoAbandon cfg) (fun _ => True) (Starting cfg)
      (Co.modify fun s => s.cancelChild .modelStart : StreamCo Unit) (fun _ => Quiet cfg)
      (fun _ => Quiet cfg) := by
    refine .modify fun s starting => ⟨starting.1.move (entryMove_cancelChild cfg s _), fun ref => ?_⟩
    by_cases same : ref = .modelStart
    · exact same ▸ attended_cancelChild s _
    · exact (starting.2 ref same).cancelChild _
  have handed : Triple (NoAbandon cfg) (fun _ => True)
      (fun s => WellKept cfg s ∧ (∀ ref ≠ .modelStream, s.Attended ref) ∧ Present cfg s) bindHandle
      (fun _ s => WellKept cfg s ∧ (∀ ref ≠ .modelStream, s.Attended ref) ∧ Present cfg s)
      (fun _ => Quiet cfg) := by
    refine .modify fun s ⟨kept, others, present⟩ => ?_
    have children (ref : ChildRef) (other : ref ≠ .modelStream) :
        State.Attended { s with handle := true, callbackHandle := true } ref := by
      have attended := others ref other
      cases ref <;> exact attended
    dsimp only
    split_ifs
    · exact ⟨kept, fun ref other => (children ref other).cancelChild _, present⟩
    · exact ⟨kept, children, present⟩
  refine Triple.bind _ (frame.keeps_yieldEvent _ _) fun _ => .bind _ begun
    fun _ => .bind _ starting_bind fun bound => .ite (fun _ => ?refused) fun _ => ?accepted
  case refused =>
    refine Triple.bind _ stopped fun _ => .bind (fun _ => Quiet cfg) ?_ fun _ =>
      frame.keeps_yieldCancel
    exact keeps_passCancelled (keeps_await frame.toFramed _)
  case accepted =>
    refine Triple.bind _ starting_await fun _ => .bind _ handed fun _ => .bind _ present_bind
      fun bound => .ite (fun refused => ?_) fun kept => ?_
    · have unbound : bound = false := by simpa using refused
      subst unbound
      exact frame.keeps_yieldCancel
    · have served : bound = true := by simpa using kept
      subst served
      refine .repeatUntil (fun _ _ => trivial) ((guarded_consumeRound preparation).weaken_post
        fun next s holds => ?_)
      cases next <;> exact holds

/-- After the first event that follows the permit, the entry is still there. -/
theorem quiet_yieldPreparing (name : String) (data : Json) :
    Triple (NoAbandon cfg) (fun _ => True)
      (fun s => Quiet cfg s ∧ s.queuePermit.isSome = true ∧ s.preparationTask.isNone = true)
      (yieldEvent cfg name data) (fun _ s => Quiet cfg s ∧ Present cfg s) (fun _ => Quiet cfg) := by
  have frame : Unaffected cfg (fun _ => True) (Quiet cfg) := quiet_unaffected
  unfold yieldEvent
  refine .ite (fun _ => .bind (fun _ s => Quiet cfg s ∧ s.queuePermit.isSome = true ∧
    s.preparationTask.isNone = true) (.modify fun s holds => ⟨frame.emits _ s _ holds.1, holds.2⟩)
    fun _ => .await (fun _ _ => trivial) ?_ ?_ ?_) fun _ => .raise fun s holds => holds.1
  · rintro s e t ⟨quiet, granted, unprepared⟩ taken
    have same := act_locals taken
    exact ⟨quiet.act taken, same.queuePermit ▸ granted, same.preparing.trans unprepared⟩
  · exact fun s _ ⟨quiet, granted, unprepared⟩ _ present => ⟨quiet, present granted unprepared⟩
  · exact fun s _ holds _ _ => holds.1

/-- No child is there. -/
structure Childless (cfg : Config) (s : State) : Prop extends Quiet cfg s where
  unprepared : s.preparationTask.isNone = true

theorem quiet_prepare (permit : StreamQueuePermit) :
    Triple (NoAbandon cfg) (fun _ => True) (Childless cfg) (prepare cfg permit)
      (fun _ => Quiet cfg) (fun _ => Quiet cfg) := by
  have frame : Unaffected cfg (fun _ => True) (Quiet cfg) := quiet_unaffected
  refine .bind (fun _ s => Quiet cfg s ∧ s.queuePermit.isSome = true ∧
      s.preparationTask.isNone = true)
      (.modify fun s childless => ⟨?granted, rfl, childless.unprepared⟩)
    fun _ => .bind _ (quiet_yieldPreparing _ _) fun _ =>
    .bind (fun _ s => WellKept cfg s ∧ (∀ ref ≠ .preparation, s.Attended ref) ∧ Present cfg s)
      (.modify fun s ⟨quiet, present⟩ => ⟨quiet.entry, fun ref other => ?begun, present⟩) fun _ =>
    .bind _ present_bind fun bound => .ite (fun refused => ?refused) fun accepted => ?accepted
  case granted => exact childless.toQuiet.same rfl rfl fun ref => by cases ref <;> rfl
  case begun =>
    have attended := quiet.attended ref
    cases ref <;> first | exact attended | exact absurd rfl other
  case refused =>
    have unbound : bound = false := by simpa using refused
    subst unbound
    exact frame.keeps_yieldCancel
  case accepted =>
    have served : bound = true := by simpa using accepted
    subst served
    refine .bind _ guarded_awaitPreparation fun preparation => .bind (fun _ => Quiet cfg)
      (.modify fun s quiet => frame.stream s _ _ _ _ _ _ _ quiet) fun _ =>
      .bind _ (keeps_isCancelled frame.toFramed) fun _ => ?_
    exact Keeps.ite frame.keeps_yieldCancel (quiet_answer preparation)

theorem childless_unaffected : Unaffected cfg (fun _ => True) (Childless cfg) where
  waits _ _ := trivial
  act _ _ _ childless taken :=
    ⟨childless.toQuiet.act taken, (act_locals taken).preparing.trans childless.unprepared⟩
  cancelChild s ref childless :=
    ⟨quiet_unaffected.cancelChild s ref childless.toQuiet,
      (locals_cancelChild s ref).preparing.trans childless.unprepared⟩
  registry s tasks own kept childless :=
    ⟨quiet_unaffected.registry s tasks own kept childless.toQuiet, childless.unprepared⟩
  lease s childless := ⟨quiet_unaffected.lease s childless.toQuiet, childless.unprepared⟩
  emits name s data childless :=
    ⟨quiet_unaffected.emits name s data childless.toQuiet, childless.unprepared⟩
  persists s _ _ _ childless :=
    ⟨quiet_unaffected.persists s _ _ _ childless.toQuiet, childless.unprepared⟩
  stream s _ _ _ _ _ _ _ childless :=
    ⟨quiet_unaffected.stream s _ _ _ _ _ _ _ childless.toQuiet, childless.unprepared⟩

theorem Keeps.quiet {α : Type} {m : StreamCo α}
    (keeps : Keeps (NoAbandon cfg) (fun _ => True) (Childless cfg) m) :
    Triple (NoAbandon cfg) (fun _ => True) (Childless cfg) m (fun _ => Childless cfg)
      (fun _ => Quiet cfg) :=
  keeps.weaken_exc fun _ _ childless => childless.toQuiet

theorem quiet_tryBlock :
    Triple (NoAbandon cfg) (fun _ => True) (Childless cfg) (tryBlock cfg) (fun _ => Quiet cfg)
      (fun _ => Quiet cfg) := by
  have frame : Unaffected cfg (fun _ => True) (Childless cfg) := childless_unaffected
  have ended {m : StreamCo Unit} (keeps : Keeps (NoAbandon cfg) (fun _ => True) (Childless cfg) m) :
      Triple (NoAbandon cfg) (fun _ => True) (Childless cfg) m (fun _ => Quiet cfg)
        (fun _ => Quiet cfg) :=
    (Keeps.quiet keeps).weaken_post fun _ _ childless => childless.toQuiet
  refine .bind _ (Keeps.quiet (frame.keeps_yieldEvent _ _)) fun _ =>
    .bind _ (Keeps.quiet (keeps_isCancelled frame.toFramed)) fun _ =>
    .ite (fun _ => ended frame.keeps_yieldCancel) fun _ =>
    .bind _ (Keeps.quiet (keeps_await frame.toFramed _)) fun admission => ?_
  split
  · exact ended frame.keeps_yieldCancel
  · exact ended (keeps_yieldRejection frame)
  · exact quiet_prepare _
  · exact ended frame.keeps_yieldUnavailable

theorem quiet_cleanup : Keeps (NoAbandon cfg) (fun _ => True) (Quiet cfg) (cleanup cfg) :=
  keeps_cleanup quiet_unaffected.toFramed fun s _ _ quiet =>
    quiet.same rfl rfl fun ref => by cases ref <;> rfl

theorem quiet_stream :
    Triple (NoAbandon cfg) (fun _ => True) (Childless cfg) (stream cfg) (fun _ => Quiet cfg)
      (fun _ => Quiet cfg) := by
  have frame : Unaffected cfg (fun _ => True) (Childless cfg) := childless_unaffected
  have quiet : Unaffected cfg (fun _ => True) (Quiet cfg) := quiet_unaffected
  refine .bind _ (Keeps.quiet (keeps_register frame.toFramed)) fun registered =>
    .ite (fun _ => ?_) fun _ =>
    .bind (fun _ => Childless cfg) (.modify fun s childless => ?_) fun _ => ?_
  · exact (Keeps.quiet (frame.keeps_yieldTwo _ _ _ _)).weaken_post
      fun _ _ childless => childless.toQuiet
  · refine ⟨childless.toQuiet.same rfl rfl fun ref => ?_, childless.unprepared⟩
    cases ref <;> rfl
  · exact .tryFinally (fun _ => Quiet cfg) (fun _ => Quiet cfg)
      (.tryCatch _ quiet_tryBlock fun x => quiet.keeps_handleRaised x)
      (fun _ => quiet_cleanup) fun _ => quiet_cleanup

/-- When the generator has ended, however it did, each child it has started has ended or has been
asked to cancel, unless the generator was left while a child ran unattended. -/
theorem stream_attends (cfg : Config) (now : ℚ) (tasks : StreamTaskManager ChildRef)
    (tape : List (Turn Action Point Raised Reply))
    (calm : ∀ v ∈ (stream cfg (initial now tasks) tape).visits, NoAbandon cfg v)
    (finished : (stream cfg (initial now tasks) tape).outcome.Finished) :
    ∀ ref, (stream cfg (initial now tasks) tape).state.Attended ref := by
  have childless : Childless cfg (initial now tasks) :=
    ⟨⟨nofun, fun ref => by cases ref <;> rfl⟩, rfl⟩
  exact (quiet_stream.finished childless calm finished).attended

theorem answeredRun_attends :
    (stream exampleConfig (initial 0 {}) answeredRun).outcome.Finished ∧
      ∀ ref, (stream exampleConfig (initial 0 {}) answeredRun).state.Attended ref :=
  ⟨by decide +kernel,
    stream_attends exampleConfig 0 {} answeredRun (by decide +kernel) (by decide +kernel)⟩

/-- The task of the request is cancelled while the preparation runs behind its shield. -/
def cancelledOnceRun : List (Turn Action Point Raised Reply) := [
  ⟨[], .yielding, .ok ()⟩,
  ⟨[], .acquire, .ok ⟨.granted, some examplePermit⟩⟩,
  ⟨[], .yielding, .ok ()⟩,
  ⟨[], .preparation, .error .cancelledError⟩,
  ⟨[.leaseEnds true], .lease, .error .cancelledError⟩,
  ⟨[], .conditionLock, .ok ()⟩]

/-- The generator has ended, and the preparation runs on without anybody who cancels it. -/
theorem cancelledOnceRun_abandons :
    let r := stream exampleConfig (initial 0 {}) cancelledOnceRun
    r.outcome.Finished ∧ ¬ r.state.Attended .preparation := by
  decide +kernel

end Stream

end HeyeeAgent.StreamChat.Lifecycle
