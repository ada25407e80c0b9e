import HeyeeAgent.StreamChat.Actions
import HeyeeAgent.StreamChat.Frames

/-! # The permit and the registry entry when the generator has ended

The `finally` block reaches `release` and `finalize` unless one of the awaits inside `release` is
interrupted. Nothing before `release` raises: the model start has ended by then, and the lease is
awaited under a handler of its own.
-/

namespace HeyeeAgent.StreamChat.Lifecycle

open Python StreamQueueLimiter Coroutine

/-- The permit that was obtained has left the limiter, once. -/
def Released (cfg : Config) (s : State) : Prop :=
  cfg.limiterEnabled = true → ∀ permit ∈ s.queuePermit, s.removed = [permit.permitId]

/-- What is left of this stream's entry is a tombstone with an expiry. -/
def Finalized (cfg : Config) (s : State) : Prop :=
  s.own = true → ∀ info ∈ s.tasks.tasks.lookup cfg.taskId,
    info.cancelled = true ∧ info.expiresAt.isSome = true

/-- The awaits inside `release` are not interrupted: the condition is entered, Redis has executed
the `ZREM` when it fails, and `close` has not dropped the client of a Redis permit before. -/
def ReleasePasses (cfg : Config) : Visit State Point Raised Reply → Prop
  | ⟨.conditionLock, _, .error _⟩ => False
  | ⟨.zrem, s, .error x⟩ => x.isException = true ∧ s.zremInFlight = false
  | ⟨.publish, _, .error x⟩ => x.isException = true
  | ⟨.lease, s, _⟩ => cfg.limiterEnabled = true → s.queuePermit.any (·.distributed) = true →
      s.limiterClient = true
  | _ => True

instance (cfg : Config) : DecidablePred (ReleasePasses cfg)
  | ⟨.conditionLock, _, .error _⟩ => isFalse id
  | ⟨.zrem, s, .error x⟩ => inferInstanceAs (Decidable (x.isException = true ∧ s.zremInFlight = false))
  | ⟨.publish, _, .error x⟩ => inferInstanceAs (Decidable (x.isException = true))
  | ⟨.lease, s, _⟩ => inferInstanceAs (Decidable (cfg.limiterEnabled = true →
      s.queuePermit.any (·.distributed) = true → s.limiterClient = true))
  | ⟨.conditionLock, _, .ok _⟩ | ⟨.zrem, _, .ok _⟩ | ⟨.publish, _, .ok _⟩ | ⟨.yielding, _, _⟩
  | ⟨.backend, _, _⟩ | ⟨.acquire, _, _⟩ | ⟨.isDisconnected, _, _⟩ | ⟨.resolveMemory, _, _⟩
  | ⟨.loadAndAppend, _, _⟩ | ⟨.memoryAppend, _, _⟩ | ⟨.compressIfNeeded, _, _⟩
  | ⟨.compression, _, _⟩ | ⟨.preparation, _, _⟩ | ⟨.modelStart, _, _⟩ | ⟨.queueGet, _, _⟩ =>
    isTrue trivial

/-- Nothing has been released, and a permit has its lease task. -/
structure Unreleased (s : State) : Prop where
  removed : s.removed = []
  unsent : s.zremInFlight = false
  leased : s.queuePermit.isSome = true → s.leaseTask.isSome = true

/-- As before, and the model start is not under way. -/
structure Idle (s : State) : Prop extends Unreleased s where
  started : Child.isRunning s.modelStartTask = false

section Stable

variable {cfg : Config} {s t : State} {e : Action}

theorem Unreleased.same (unreleased : Unreleased s) (same : SameLimiter s t) : Unreleased t where
  removed := same.removed.trans unreleased.removed
  unsent := same.unsent.trans unreleased.unsent
  leased := by
    rw [same.permit, same.leased]
    exact unreleased.leased

theorem Idle.same (idle : Idle s) (same : SameLimiter s t) : Idle t :=
  { idle.toUnreleased.same same with started := same.started idle.started }

/-- An assertion about the limiter's side alone, while no `ZREM` is in flight. -/
theorem unaffected_of_same {I : State → Prop} (unsent : ∀ s, I s → s.zremInFlight = false)
    (same : ∀ s t, I s → SameLimiter s t → I t) : Unaffected cfg (fun _ => True) I where
  waits _ _ := trivial
  act s e t holds taken := by
    rcases act_limiter taken with kept | ⟨sent, -⟩
    · exact same s t holds kept
    · simp [unsent s holds] at sent
  cancelChild s ref holds := same s _ holds (same_cancelChild s ref)
  registry s _ _ _ holds := same s _ holds ⟨rfl, rfl, rfl, rfl, rfl, id⟩
  lease s holds := same s _ holds ⟨rfl, rfl, rfl, by simp, rfl, id⟩
  emits _ s _ holds := same s _ holds ⟨rfl, rfl, rfl, rfl, rfl, id⟩
  persists s _ _ _ holds := same s _ holds ⟨rfl, rfl, rfl, rfl, rfl, id⟩
  stream s _ _ _ _ _ _ _ holds := same s _ holds ⟨rfl, rfl, rfl, rfl, rfl, id⟩

theorem unreleased_unaffected : Unaffected cfg (fun _ => True) Unreleased :=
  unaffected_of_same (fun _ unreleased => unreleased.unsent) fun _ _ unreleased => unreleased.same

theorem idle_unaffected : Unaffected cfg (fun _ => True) Idle :=
  unaffected_of_same (fun _ idle => idle.unsent) fun _ _ idle => idle.same

end Stable

section Body

variable {cfg : Config}

/-- While the model start is under way. -/
theorem idle_awaitModelStart :
    Triple (ReleasePasses cfg) (fun _ => True) Unreleased (await cfg .modelStart)
      (fun _ => Idle) (fun _ => Idle) := by
  refine .await (fun _ _ => trivial) unreleased_unaffected.act ?_ ?_
  · intro s reply unreleased admitted _
    refine ⟨unreleased, ?_⟩
    simp only [world, admits] at admitted
    split at admitted
    · rename_i found
      simp [found, Child.isRunning]
    · cases admitted
  · intro s x unreleased admitted _
    refine ⟨unreleased, ?_⟩
    simp only [world, admits] at admitted
    split at admitted
    · rename_i found
      simp [found, Child.isRunning]
    · rename_i found
      simp [found, Child.isRunning]
    · cases admitted

theorem idle_answer (preparation : ChatPreparation) :
    Keeps (ReleasePasses cfg) (fun _ => True) Idle (answer cfg preparation) := by
  have frame : Unaffected cfg (fun _ => True) Idle := idle_unaffected
  have begun : Triple (ReleasePasses cfg) (fun _ => True) Idle
      (Co.modify fun s => { s with
        answerStartedAt := some s.now
        modelStartTask := some (.running false) } : StreamCo Unit)
      (fun _ => Unreleased) (fun _ => Idle) :=
    .modify fun s idle => ⟨idle.removed, idle.unsent, idle.leased⟩
  have bound : Triple (ReleasePasses cfg) (fun _ => True) Unreleased (Lifecycle.bind cfg .modelStart)
      (fun _ => Unreleased) (fun _ => Idle) := by
    refine .bind (fun _ => Unreleased) (.get fun _ => id) fun _ =>
      .bind (fun _ => Unreleased) (.modify fun s unreleased => ?_) fun _ => .pure fun _ => id
    exact unreleased.same (same_registry s _ _)
  have stopped : Triple (ReleasePasses cfg) (fun _ => True) Unreleased
      (Co.modify fun s => s.cancelChild .modelStart : StreamCo Unit)
      (fun _ => Unreleased) (fun _ => Idle) :=
    .modify fun s unreleased => unreleased.same (same_cancelChild s _)
  refine Triple.bind _ (frame.keeps_yieldEvent _ _) fun _ => .bind _ begun fun _ =>
    .bind _ bound fun bound => .ite (fun _ => ?refused) fun _ => ?accepted
  case refused =>
    refine Triple.bind _ stopped fun _ => .bind (fun _ => Idle) ?_ fun _ => frame.keeps_yieldCancel
    exact .tryCatch _ idle_awaitModelStart fun _ => Keeps.ite .pure .raise
  case accepted =>
    refine Triple.bind _ idle_awaitModelStart fun _ =>
      .bind _ (keeps_bindHandle frame.toFramed fun s idle => frame.stream s _ _ _ _ _ _ _ idle)
      fun _ =>
      .bind _ (keeps_bind frame.toFramed _) fun _ => Keeps.ite frame.keeps_yieldCancel ?_
    exact Keeps.repeatUntil frame.waits (keeps_consumeRound frame preparation)

theorem idle_prepare (permit : StreamQueuePermit) :
    Keeps (ReleasePasses cfg) (fun _ => True) Idle (prepare cfg permit) := by
  have frame : Unaffected cfg (fun _ => True) Idle := idle_unaffected
  refine .bind (.modify fun s idle => ⟨⟨idle.removed, idle.unsent, fun _ => rfl⟩, idle.started⟩)
    fun _ => .bind (frame.keeps_yieldEvent _ _) fun _ =>
    .bind (.modify fun s idle => ⟨⟨idle.removed, idle.unsent, idle.leased⟩, idle.started⟩)
    fun _ => .bind (keeps_bind frame.toFramed _) fun _ => .ite frame.keeps_yieldCancel ?_
  refine .bind (keeps_awaitPreparation frame.toFramed) fun preparation =>
    .bind (.modify fun s idle => frame.stream s _ _ _ _ _ _ _ idle) fun _ =>
    .bind (keeps_isCancelled frame.toFramed) fun _ => .ite frame.keeps_yieldCancel ?_
  exact idle_answer preparation

theorem idle_tryBlock : Keeps (ReleasePasses cfg) (fun _ => True) Idle (tryBlock cfg) := by
  have frame : Unaffected cfg (fun _ => True) Idle := idle_unaffected
  refine .bind (frame.keeps_yieldEvent _ _) fun _ => .bind (keeps_isCancelled frame.toFramed) fun _ =>
    .ite frame.keeps_yieldCancel (.bind (keeps_await frame.toFramed _) fun admission => ?_)
  split
  · exact frame.keeps_yieldCancel
  · exact keeps_yieldRejection frame
  · exact idle_prepare _
  · exact frame.keeps_yieldUnavailable

end Body

section Cleanup

variable {cfg : Config}

/-- A Redis permit still has a client to be released with. -/
structure Releasable (cfg : Config) (s : State) : Prop extends Unreleased s where
  client : cfg.limiterEnabled = true → s.queuePermit.any (·.distributed) = true →
    s.limiterClient = true

/-- Nothing raises before `release`. -/
theorem idle_stopChildren :
    Triple (ReleasePasses cfg) (fun _ => True) Idle (stopChildren cfg) (fun _ => Releasable cfg)
      (fun _ _ => False) := by
  have frame : Unaffected cfg (fun _ => True) Idle := idle_unaffected
  refine .bind (fun s t => t = s ∧ Idle t) (.get fun s idle => ⟨rfl, idle⟩) fun s =>
    .bind (fun _ => Idle) (.onlyIf (fun started => .unreachable ?started) fun _ t idle => idle.2)
    fun _ =>
    .bind (fun _ => Idle) (.get fun _ => id) fun t => .bind (fun _ => Idle) ?handle fun _ =>
    .bind (fun s t => t = s ∧ Idle t) (.get fun s idle => ⟨rfl, idle⟩) fun u =>
    .onlyIf (fun leased => ?lease) fun unleased => ?unleased
  case started =>
    rintro t ⟨rfl, idle⟩
    simp [idle.started] at started
  case handle =>
    refine .onlyIf (fun _ => ?_) fun _ _ => id
    refine .bind (fun _ => Idle) (returns_isCancelled frame.toFramed) fun cancelled =>
      .onlyIf (fun _ => .modify fun s idle => frame.cancelChild s _ idle) fun _ _ => id
  case lease =>
    refine .bind (fun _ => Idle) (.modify fun s idle => frame.lease s idle.2) fun _ =>
      .tryCatch (fun x s => x = .cancelledError ∧ Releasable cfg s)
      (.await (fun _ _ => trivial) frame.act ?_ ?_) ?_
    · exact fun s reply idle _ kept => ⟨idle.toUnreleased, kept⟩
    · intro s x idle admitted kept
      refine ⟨?_, idle.toUnreleased, kept⟩
      simp only [world, admits] at admitted
      split at admitted
      · simpa using admitted
      · cases admitted
    · rintro x
      refine .ite (fun _ => .pure fun s caught => caught.2) fun other => .unreachable ?_
      exact fun s caught => other caught.1
  case unleased =>
    rintro t ⟨rfl, idle⟩
    refine ⟨idle.toUnreleased, fun _ distributed => ?_⟩
    simp [idle.leased (Option.isSome_of_any distributed)] at unleased

/-- No release is under way any more. -/
structure Cleared (cfg : Config) (s : State) : Prop where
  executed : s.zremInFlight = false
  released : Released cfg s

theorem Cleared.same {s t : State} (cleared : Cleared cfg s) (same : SameLimiter s t) :
    Cleared cfg t where
  executed := same.unsent.trans cleared.executed
  released := by
    unfold Released
    rw [same.permit, same.removed]
    exact cleared.released

theorem cleared_unaffected : Unaffected cfg (fun _ => True) (Cleared cfg) :=
  unaffected_of_same (fun _ cleared => cleared.executed) fun _ _ cleared => cleared.same

/-- From the call of `zrem` on: Redis may execute it at any time, once. -/
structure Releasing (permit : StreamQueuePermit) (s : State) : Prop where
  held : s.queuePermit = some permit
  removed : s.removed = if s.zremInFlight then [] else [permit.permitId]

theorem Releasing.act {permit : StreamQueuePermit} {s t : State} {e : Action}
    (releasing : Releasing permit s) (taken : Lifecycle.act cfg s e = some t) :
    Releasing permit t := by
  rcases act_limiter taken with same | ⟨sent, permit', held, rfl⟩
  · exact ⟨same.permit.trans releasing.held, by rw [same.removed, same.unsent, releasing.removed]⟩
  · rw [releasing.held, Option.mem_some_iff] at held
    subst held
    exact ⟨releasing.held, by simp [releasing.removed, sent]⟩

theorem Releasing.cleared {permit : StreamQueuePermit} {s : State} (releasing : Releasing permit s)
    (executed : s.zremInFlight = false) : Cleared cfg s := by
  refine ⟨executed, fun _ permit' held => ?_⟩
  rw [releasing.held, Option.mem_some_iff] at held
  subst held
  simpa [executed] using releasing.removed

/-- The two commands of a Redis permit, under their handler. -/
theorem cleared_releaseRedis (permit : StreamQueuePermit) :
    Triple (ReleasePasses cfg) (fun _ => True) (fun s => s.queuePermit = some permit ∧ s.removed = [])
      (orElse (do
        Co.modify fun s => { s with zremInFlight := true }
        await cfg .zrem
        await cfg .publish) (pure ()))
      (fun _ => Cleared cfg) (fun _ _ => False) := by
  have sent : Triple (ReleasePasses cfg) (fun _ => True)
      (fun s => s.queuePermit = some permit ∧ s.removed = [])
      (Co.modify fun s => { s with zremInFlight := true } : StreamCo Unit)
      (fun _ => Releasing permit) (fun x s => x.isException = true ∧ Cleared cfg s) :=
    .modify fun s ⟨held, removed⟩ => ⟨held, removed⟩
  have executed : Triple (ReleasePasses cfg) (fun _ => True) (Releasing permit) (await cfg .zrem)
      (fun _ => Cleared cfg) (fun x s => x.isException = true ∧ Cleared cfg s) := by
    refine .await (fun _ _ => trivial) (fun s e t releasing taken => releasing.act taken) ?_ ?_
    · intro s _ releasing admitted _
      exact releasing.cleared (by simpa [world, admits] using admitted)
    · exact fun s x releasing _ passes => ⟨passes.1, releasing.cleared passes.2⟩
  have published : Triple (ReleasePasses cfg) (fun _ => True) (Cleared cfg) (await cfg .publish)
      (fun _ => Cleared cfg) (fun x s => x.isException = true ∧ Cleared cfg s) :=
    .await (fun _ _ => trivial) cleared_unaffected.act (fun s _ cleared _ _ => cleared)
      fun s x cleared _ passes => ⟨passes, cleared⟩
  refine .tryCatch _ (.bind _ sent fun _ => .bind _ executed fun _ => published) fun x => ?_
  refine .ite (fun _ => .pure fun s caught => caught.2) fun other => .unreachable ?_
  exact fun s caught => other caught.1

/-- `release` removes the permit once and does not raise. -/
theorem cleared_release :
    Triple (ReleasePasses cfg) (fun _ => True) (Releasable cfg) (release cfg) (fun _ => Cleared cfg)
      (fun _ _ => False) := by
  refine .bind (fun s t => t = s ∧ Releasable cfg t) (.get fun s releasable => ⟨rfl, releasable⟩)
    fun s => ?_
  cases held : s.queuePermit with
  | none =>
    refine .pure ?_
    rintro t ⟨rfl, releasable⟩
    exact ⟨releasable.unsent, fun _ permit obtained => by simp [held] at obtained⟩
  | some permit =>
    refine .ite (fun disabled => .pure ?disabled) fun enabled => .ite (fun distributed =>
      .ite (fun closed => .unreachable ?closed) fun _ => ?distributed) fun local' => ?localPermit
    case disabled =>
      rintro t ⟨rfl, releasable⟩
      refine ⟨releasable.unsent, fun enabled => ?_⟩
      simp [enabled] at disabled
    case closed =>
      rintro t ⟨rfl, releasable⟩
      have client := releasable.client (by simpa using enabled) (by simp [held, distributed])
      simp [client] at closed
    case distributed =>
      refine (cleared_releaseRedis permit).strengthen_pre ?_
      rintro t ⟨rfl, releasable⟩
      exact ⟨held, releasable.removed⟩
    case localPermit =>
      have waiting : Unaffected cfg (fun _ => True)
          fun u => u.queuePermit = some permit ∧ Unreleased u :=
        unaffected_of_same (fun u holds => holds.2.unsent) fun u v holds same =>
          ⟨same.permit.trans holds.1, holds.2.same same⟩
      have locked : Triple (ReleasePasses cfg) (fun _ => True)
          (fun u => u.queuePermit = some permit ∧ Unreleased u) (await cfg .conditionLock)
          (fun _ u => u.queuePermit = some permit ∧ Unreleased u) (fun _ _ => False) :=
        .await (fun _ _ => trivial) waiting.act (fun u _ holds _ _ => holds)
          fun u x _ _ passes => passes
      refine .bind _ (locked.strengthen_pre ?_) fun _ => .modify ?_
      · rintro t ⟨rfl, releasable⟩
        exact ⟨held, releasable.toUnreleased⟩
      · rintro u ⟨held, unreleased⟩
        refine ⟨unreleased.unsent, fun _ permit' obtained => ?_⟩
        rw [Option.mem_def, held, Option.some_inj] at obtained
        simp [← obtained, unreleased.removed]

theorem Finalized.act {s t : State} {e : Action} (finalized : Finalized cfg s)
    (taken : Lifecycle.act cfg s e = some t) : Finalized cfg t := by
  intro owned info found
  cases act_entry taken with
  | same own entry => exact finalized (own ▸ owned) info (entry.symm.trans found)
  | taken _ own => simp [own] at owned
  | purged _ _ _ entry =>
    have gone : t.entry cfg = some info := found
    simp [entry] at gone
  | cancelled info' tasks found' live tombstone state =>
    have own : t.own = s.own := by rw [state, own_cancelHandle]
    have dead := (finalized (own ▸ owned) info' found').1
    simp [live] at dead

/-- The state in which the generator ends after its cleanup. -/
def Clean (cfg : Config) (s : State) : Prop := Cleared cfg s ∧ Finalized cfg s

theorem clean_finalize :
    Triple (ReleasePasses cfg) (fun _ => True) (Cleared cfg) (finalize cfg) (fun _ => Clean cfg)
      (fun _ => Clean cfg) := by
  have stable (s : State) (e : Action) (t : State) (clean : Clean cfg s)
      (taken : Lifecycle.act cfg s e = some t) : Clean cfg t :=
    ⟨cleared_unaffected.act s e t clean.1 taken, clean.2.act taken⟩
  have backend : Keeps (ReleasePasses cfg) (fun _ => True) (Clean cfg) (await cfg .backend) :=
    .await (fun _ _ => trivial) stable
  refine .bind (fun s t => t = s ∧ Cleared cfg t) (.get fun s cleared => ⟨rfl, cleared⟩) fun s =>
    .bind (fun _ => Clean cfg) (.modify ?_) fun _ => .ite (fun _ => ?_) fun _ => .pure fun _ => id
  · rintro t ⟨rfl, cleared⟩
    exact ⟨cleared.same ⟨rfl, rfl, rfl, rfl, rfl, id⟩,
      fun _ => t.tasks.lookup_finalize t.now cfg.taskId⟩
  · exact Keeps.bind backend fun _ => Keeps.bind backend fun _ => .pure

/-- The `finally` block from any state the body can end in. -/
theorem clean_cleanup :
    Triple (ReleasePasses cfg) (fun _ => True) Idle (cleanup cfg)
      (fun _ => Clean cfg) fun _ => Clean cfg := by
  refine .bind _ (idle_stopChildren.weaken_exc fun _ _ => False.elim)
    fun _ => .bind _ (cleared_release.weaken_exc fun _ _ => False.elim)
    fun _ => clean_finalize

end Cleanup

section Stream

variable {cfg : Config}

/-- Before the registration has succeeded. -/
structure Unregistered (s : State) : Prop extends Idle s where
  registered : s.registered = false

theorem unregistered_unaffected : Unaffected cfg (fun _ => True) Unregistered :=
  unaffected_of_same (fun _ fresh => fresh.unsent) fun _ _ fresh same =>
    ⟨fresh.toIdle.same same, same.registered.trans fresh.registered⟩

/-- Once the registration has succeeded, the cleanup runs to its end. -/
theorem clean_stream :
    Triple (ReleasePasses cfg) (fun _ => True) Unregistered (stream cfg)
      (fun _ s => s.registered = true → Clean cfg s)
      (fun _ s => s.registered = true → Clean cfg s) := by
  have frame : Unaffected cfg (fun _ => True) Unregistered := unregistered_unaffected
  have idle : Unaffected cfg (fun _ => True) Idle := idle_unaffected
  have outside {α : Type} {m : StreamCo α}
      (kept : Keeps (ReleasePasses cfg) (fun _ => True) Unregistered m) :
      Triple (ReleasePasses cfg) (fun _ => True) Unregistered m
        (fun _ s => s.registered = true → Clean cfg s)
        (fun _ s => s.registered = true → Clean cfg s) :=
    kept.conseq (fun _ => id) (fun _ s fresh registered => by simp [fresh.registered] at registered)
      fun _ s fresh registered => by simp [fresh.registered] at registered
  have registering : Triple (ReleasePasses cfg) (fun _ => True) Unregistered (register cfg)
      (fun _ => Unregistered) (fun _ s => s.registered = true → Clean cfg s) :=
    (keeps_register frame.toFramed).weaken_exc fun _ s fresh registered => by
      simp [fresh.registered] at registered
  refine .bind _ registering fun registered => .ite (fun _ => outside (frame.keeps_yieldTwo _ _ _ _))
    fun _ => .bind (fun _ => Idle) (.modify fun s fresh => ?_) fun _ => ?_
  · exact ⟨⟨fresh.removed, fresh.unsent, fresh.leased⟩, fresh.started⟩
  · refine .tryFinally (fun _ => Idle) (fun _ => Idle) ?_ (fun _ => ?_) fun _ => ?_
    · exact Keeps.tryCatch idle_tryBlock fun x => idle.keeps_handleRaised x
    · exact clean_cleanup.conseq (fun _ => id) (fun _ _ clean _ => clean) fun _ _ clean _ => clean
    · exact clean_cleanup.conseq (fun _ => id) (fun _ _ clean _ => clean) fun _ _ clean _ => clean

/-- When the generator has ended, however it did, the permit has left the limiter once and at most
a tombstone with an expiry is left in the registry, unless the release itself was interrupted. -/
theorem stream_releases (cfg : Config) (now : ℚ) (tasks : StreamTaskManager ChildRef)
    (tape : List (Turn Action Point Raised Reply))
    (passes : ∀ v ∈ (stream cfg (initial now tasks) tape).visits, ReleasePasses cfg v)
    (finished : (stream cfg (initial now tasks) tape).outcome.Finished)
    (registered : (stream cfg (initial now tasks) tape).state.registered = true) :
    Released cfg (stream cfg (initial now tasks) tape).state ∧
      Finalized cfg (stream cfg (initial now tasks) tape).state := by
  have fresh : Unregistered (initial now tasks) := ⟨⟨⟨rfl, rfl, nofun⟩, rfl⟩, rfl⟩
  have clean := clean_stream.finished fresh passes finished registered
  exact ⟨clean.1.released, clean.2⟩

end Stream

section Runs

def exampleConfig : Config :=
  { request := { message := Str.lit "hi" }, taskId := "a", traceId := "t" }

def examplePermit : StreamQueuePermit := ⟨"a", "p", false⟩

/-- One answer of one chunk, persisted and finished. -/
def answeredRun : List (Turn Action Point Raised Reply) := [
  ⟨[], .yielding, .ok ()⟩,
  ⟨[], .acquire, .ok ⟨.granted, some examplePermit⟩⟩,
  ⟨[], .yielding, .ok ()⟩,
  ⟨[.leaseEnds false,
    .preparationEnds (.ok { conversationId := Str.lit "c", memoryService := true })],
    .preparation, .ok ()⟩,
  ⟨[], .yielding, .ok ()⟩,
  ⟨[.modelStartEnds (.ok ()), .callback (.content [104]), .push], .modelStart, .ok ()⟩,
  ⟨[], .queueGet, .ok ()⟩,
  ⟨[.callback .complete, .modelStreamEnds, .push], .yielding, .ok ()⟩,
  ⟨[], .queueGet, .ok ()⟩,
  ⟨[], .memoryAppend, .ok (some [49])⟩,
  ⟨[], .compressIfNeeded, .ok false⟩,
  ⟨[], .yielding, .ok ()⟩,
  ⟨[], .yielding, .ok ()⟩,
  ⟨[], .lease, .ok ()⟩,
  ⟨[], .conditionLock, .ok ()⟩]

theorem answeredRun_releases :
    Released exampleConfig (stream exampleConfig (initial 0 {}) answeredRun).state ∧
      Finalized exampleConfig (stream exampleConfig (initial 0 {}) answeredRun).state :=
  stream_releases exampleConfig 0 {} answeredRun (by decide +kernel) (by decide +kernel)
    (by decide +kernel)

/-- The request is cancelled during the preparation, and again at the condition of the limiter,
which another acquire holds. -/
def cancelledTwiceRun : List (Turn Action Point Raised Reply) := [
  ⟨[], .yielding, .ok ()⟩,
  ⟨[], .acquire, .ok ⟨.granted, some examplePermit⟩⟩,
  ⟨[], .yielding, .ok ()⟩,
  ⟨[], .preparation, .error .cancelledError⟩,
  ⟨[.leaseEnds true], .lease, .error .cancelledError⟩,
  ⟨[], .conditionLock, .error .cancelledError⟩]

/-- The generator has ended with its permit in the limiter and its entry in the registry. -/
theorem cancelledTwiceRun_leaks :
    let r := stream exampleConfig (initial 0 {}) cancelledTwiceRun
    r.outcome.Finished ∧ r.state.registered = true ∧
      ¬ Released exampleConfig r.state ∧ ¬ Finalized exampleConfig r.state := by
  intro r
  have removed : r.state.removed = [] := by decide +kernel
  have held : r.state.queuePermit = some examplePermit := by decide +kernel
  have own : r.state.own = true := by decide +kernel
  have active : (r.state.tasks.tasks.lookup "a").map (·.cancelled) = some false := by
    decide +kernel
  refine ⟨by decide +kernel, by decide +kernel, fun released => ?_, fun finalized => ?_⟩
  · have gone := released rfl examplePermit held
    simp [removed] at gone
  · obtain ⟨info, found, live⟩ := Option.map_eq_some_iff.mp active
    have tombstone := (finalized own info found).1
    simp [live] at tombstone

end Runs

end HeyeeAgent.StreamChat.Lifecycle
