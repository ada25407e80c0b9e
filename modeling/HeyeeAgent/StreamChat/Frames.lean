import HeyeeAgent.Coroutine.Rules
import HeyeeAgent.StreamChat.Actions
import HeyeeAgent.StreamChat.Generator

/-! # What the parts of the generator leave alone

An assertion that no action of the world affects, and no registry write or cancellation of a child,
is kept by every part that neither creates a child nor releases the permit, as long as it does not
read what that part writes: the events sent, the memory, or the local variables of the stream. The
parts that create the two children keep it if their creation does.
-/

namespace HeyeeAgent.StreamChat.Lifecycle

open Python StreamQueueLimiter Coroutine

/-- What the whole generator and the world do to an assertion at any time. A write of the registry
never gives the stream's own entry an expiry before it is cancelled. -/
structure Framed (cfg : Config) (S I : State → Prop) : Prop where
  waits : ∀ s, I s → S s
  act : ∀ s e t, I s → Lifecycle.act cfg s e = some t → I t
  cancelChild : ∀ s ref, I s → I (s.cancelChild ref)
  registry : ∀ s tasks own, (WellKept cfg s → WellKept cfg { s with tasks, own }) → I s →
    I { s with tasks, own }
  lease : ∀ s, I s → I { s with leaseTask := s.leaseTask.map Child.cancel }

/-- The assertion does not read the events of this name. -/
def Emits (I : State → Prop) (name : String) : Prop :=
  ∀ s data, I s → I { s with emitted := s.emitted ++ [⟨name, data⟩] }

/-- It does not read the events that end a stream early. -/
structure EmitsEnds (I : State → Prop) : Prop where
  cancel : Emits I "cancel"
  error : Emits I "error"
  done : Emits I "done"

/-- The assertion does not read the memory, or whether an interrupted reply is persisted. -/
def Persists (I : State → Prop) : Prop := ∀ s stopped cancellationPersisted memory, I s →
  I { s with stopped, cancellationPersisted, memory }

/-- The assertion does not read the memory. -/
def Stores (I : State → Prop) : Prop := ∀ s memory, I s → I { s with memory }

theorem Persists.stores {I : State → Prop} (persists : Persists I) : Stores I :=
  fun s memory => persists s s.stopped s.cancellationPersisted memory

/-- The assertion depends on none of the fields that the generator writes all the time. -/
structure Unaffected (cfg : Config) (S I : State → Prop) : Prop extends Framed cfg S I where
  emits : ∀ name, Emits I name
  persists : Persists I
  stream : ∀ s preparation answerStartedAt responseParts handle callbackHandle queue taken, I s →
    I { s with preparation, answerStartedAt, responseParts, handle, callbackHandle, queue, taken }

theorem Unaffected.emitsEnds {cfg : Config} {S I : State → Prop} (frame : Unaffected cfg S I) :
    EmitsEnds I := ⟨frame.emits _, frame.emits _, frame.emits _⟩

section Framed

variable {cfg : Config} {I S : State → Prop} {C : Visit State Point Raised Reply → Prop}

theorem keeps_orElse {α : Type} {body other : StreamCo α} (first : Keeps C S I body)
    (second : Keeps C S I other) : Keeps C S I (orElse body other) :=
  .tryCatch first fun _ => .ite second .raise

theorem keeps_passCancelled {body : StreamCo Unit} (kept : Keeps C S I body) :
    Keeps C S I (passCancelled body) := .tryCatch kept fun _ => .ite .pure .raise

/-- An exception that the point raises is one of those expected. -/
def Raises (C : Visit State Point Raised Reply → Prop) (I : State → Prop) (p : Point)
    (exc : Raised → State → Prop) : Prop :=
  ∀ s x, I s → admits s p (.error x) = true → C ⟨p, s, .error x⟩ → exc x s

variable (frame : Framed cfg S I)
include frame

theorem returns_await {p : Point} {exc : Raised → State → Prop} (raises : Raises C I p exc) :
    Triple C S I (await cfg p) (fun _ => I) exc :=
  .await frame.waits frame.act (fun _ _ holds _ _ => holds) raises

theorem keeps_await (p : Point) : Keeps C S I (await cfg p) :=
  returns_await frame fun _ _ holds _ _ => holds

theorem returns_callOut {p : Point} {exc : Raised → State → Prop} (raises : Raises C I p exc) :
    Triple C S I (callOut cfg p) (fun _ => I) exc :=
  .call frame.waits (fun _ _ holds _ _ => holds) raises

theorem keeps_callOut (p : Point) : Keeps C S I (callOut cfg p) :=
  returns_callOut frame fun _ _ holds _ _ => holds

theorem keeps_yieldEvent {name : String} (emits : Emits I name) (data : Json) :
    Keeps C S I (yieldEvent cfg name data) := by
  unfold yieldEvent
  exact .ite (.bind (.modify fun s holds => emits s data holds) fun _ => keeps_await frame _) .raise

theorem keeps_yieldTwo {name name' : String} (emits : Emits I name) (emits' : Emits I name')
    (data data' : Json) : Keeps C S I (do yieldEvent cfg name data; yieldEvent cfg name' data') :=
  .bind (keeps_yieldEvent frame emits _) fun _ => keeps_yieldEvent frame emits' _

section Registry

theorem framed_cancelHandle {s : State} (holds : I s) (handle : Option ChildRef) :
    I (s.cancelHandle handle) := by
  cases handle with
  | none => exact holds
  | some ref => exact frame.cancelChild s ref holds

theorem framed_cancelLocal {s : State} (holds : I s) : I (s.cancelLocal cfg.taskId) :=
  framed_cancelHandle frame (frame.registry s _ s.own wellKept_cancelLocal holds) _

theorem returns_isCancelled {exc : Raised → State → Prop} :
    Triple C S I (isCancelled cfg) (fun _ => I) exc := by
  refine .bind (fun _ => I) (.get fun _ => id) fun _ =>
    .bind (fun _ => I) (.modify fun s holds => ?_) fun _ => .pure fun _ => id
  exact frame.registry s _ s.own (fun kept => kept.move (entryMove_purge cfg s)) holds

theorem keeps_isCancelled : Keeps C S I (isCancelled cfg) := returns_isCancelled frame

theorem returns_bind (ref : ChildRef) {exc : Raised → State → Prop} :
    Triple C S I (Lifecycle.bind cfg ref) (fun _ => I) exc := by
  refine .bind (fun s t => t = s ∧ I t) (.get fun s holds => ⟨rfl, holds⟩) fun s =>
    .bind (fun _ => I) (.modify ?_) fun _ => .pure fun _ => id
  rintro t ⟨rfl, holds⟩
  refine framed_cancelHandle frame (frame.registry t _ t.own (fun kept owned => ?_) holds) _
  exact t.tasks.lookup_bind cfg.taskId ref (kept owned)

theorem keeps_bind (ref : ChildRef) : Keeps C S I (Lifecycle.bind cfg ref) := returns_bind frame ref

theorem returns_taskManagerCancel {exc : Raised → State → Prop}
    (raises : Raises C I .backend exc) :
    Triple C S I (taskManagerCancel cfg) (fun _ => I) exc := by
  have last : Triple C S I (Co.modify fun s => s.cancelLocal cfg.taskId : StreamCo Unit)
      (fun _ => I) exc := .modify fun s holds => framed_cancelLocal frame holds
  have backend := returns_await frame raises
  exact .bind (fun _ => I) (.get fun _ => id) fun _ => .ite
    (fun _ => .bind _ backend fun _ => .bind _ backend fun _ => last) fun _ => last

theorem keeps_taskManagerCancel : Keeps C S I (taskManagerCancel cfg) :=
  returns_taskManagerCancel frame fun _ _ holds _ _ => holds

theorem keeps_finalize : Keeps C S I (finalize cfg) := by
  refine .bind .get fun _ => .bind (.modify fun s holds => ?_) fun _ => .ite
    (.bind (keeps_await frame _) fun _ => .bind (keeps_await frame _) fun _ => .pure) .pure
  refine frame.registry s _ s.own (fun _ _ info found live => ?_) holds
  have dead := (s.tasks.lookup_finalize s.now cfg.taskId info found).1
  simp [live] at dead

theorem returns_register {exc : Raised → State → Prop} (raises : Raises C I .backend exc) :
    Triple C S I (register cfg) (fun _ => I) exc := by
  have backend := returns_await frame raises
  refine .bind (fun s t => t = s ∧ I t) (.get fun s holds => ⟨rfl, holds⟩) fun s =>
    .bind (fun _ => I) (.modify ?started) fun _ => .ite (fun _ => .pure fun _ => id) fun _ =>
    .ite (fun _ => .pure fun _ => id) fun _ => .bind _ backend fun _ =>
    .ite (fun _ => .bind (fun _ => I) (.modify fun s holds => ?refused) fun _ => .pure fun _ => id)
    fun _ => .bind _ backend fun marked =>
    .bind (fun _ => I) (.modify fun s holds => ?marked) fun _ => .pure fun _ => id
  case started =>
    rintro t ⟨rfl, holds⟩
    exact frame.registry t _ _ (fun _ free => t.tasks.lookup_register t.now cfg.taskId _ free) holds
  case refused =>
    refine frame.registry s _ s.own (fun _ _ info found => ?_) holds
    simp [State.entry, StreamTaskManager.registerAnswered, AList.lookup_erase] at found
  case marked =>
    refine frame.registry s _ s.own (fun kept => ?_) holds
    cases marked with
    | false => exact kept
    | true => exact wellKept_cancelLocal kept

theorem keeps_register : Keeps C S I (register cfg) :=
  returns_register frame fun _ _ holds _ _ => holds

end Registry

theorem keeps_disconnected : Keeps C S I (disconnected cfg) := .ite (keeps_await frame _) .pure

section Persistence

theorem keeps_persistMemoryReply (stores : Stores I) (asyncCompress : Bool) (reply : Str) :
    Keeps C S I (persistMemoryReply cfg asyncCompress reply) := by
  unfold persistMemoryReply
  refine .bind (keeps_callOut frame _) fun messageId => .bind (.modify fun s holds => ?_) fun _ =>
    .bind (keeps_callOut frame _) fun awaitable => ?_
  · exact stores s _ holds
  · exact .ite (.bind (keeps_await frame _) fun _ => .pure) .pure

theorem keeps_completePreparation (stores : Stores I) (preparation : ChatPreparation) (reply : Str)
    (toolCalls : List Str) (interrupted : Bool) :
    Keeps C S I (completePreparation cfg preparation reply toolCalls interrupted) :=
  .bind (.ite .pure (keeps_persistMemoryReply frame stores _ _)) fun _ => .ite .pure .raise

variable (persists : Persists I)
include persists

theorem keeps_cancelledPayload : Keeps C S I (cancelledPayload cfg) := by
  unfold cancelledPayload
  refine .bind (.modify fun s holds => persists s _ _ _ holds) fun _ => .bind .get fun s => ?_
  dsimp only
  split
  · refine .ite (.bind (.modify fun s holds => ?_) fun _ => keeps_orElse ?_ .pure) .pure
    · exact persists s _ _ _ holds
    · exact .bind (keeps_completePreparation frame persists.stores _ _ _ _) fun _ => .pure
  · exact .pure

theorem keeps_recordQueueRejection : Keeps C S I (recordQueueRejection cfg) := by
  refine keeps_orElse (.bind (keeps_callOut frame _) fun _ => .ite ?_ .pure) .pure
  refine .bind (keeps_orElse (.bind (keeps_callOut frame _) fun _ => ?_) .pure) fun _ => .pure
  exact keeps_persistMemoryReply frame persists.stores _ _

end Persistence

theorem keeps_awaitPreparation : Keeps C S I (awaitPreparation cfg) := by
  refine .repeatUntil frame.waits ?_
  refine .bind (keeps_disconnected frame) fun gone =>
    .bind (.onlyIf (keeps_taskManagerCancel frame)) fun _ =>
    .bind (keeps_isCancelled frame) fun cancelled =>
    .bind (.onlyIf (.modify fun s holds => frame.cancelChild s _ holds)) fun _ =>
    .tryCatch (.bind (keeps_await frame _) fun _ => .bind .get fun s => ?_)
      fun _ => .ite .pure .raise
  split
  · exact .pure
  · exact .raise

theorem keeps_stopChildren : Keeps C S I (stopChildren cfg) := by
  refine .bind .get fun _ => .bind (.onlyIf ?start) fun _ => .bind .get fun _ =>
    .bind (.onlyIf ?stream) fun _ => .bind .get fun _ => .onlyIf ?lease
  case start =>
    exact .bind (.modify fun s holds => frame.cancelChild s _ holds) fun _ =>
      keeps_passCancelled (keeps_await frame _)
  case stream =>
    exact .bind (keeps_isCancelled frame) fun _ =>
      .onlyIf (.modify fun s holds => frame.cancelChild s _ holds)
  case lease =>
    exact .bind (.modify fun s holds => frame.lease s holds) fun _ =>
      keeps_passCancelled (keeps_await frame _)

theorem keeps_yieldCancel_of (ends : EmitsEnds I) (payload : Keeps C S I (cancelledPayload cfg)) :
    Keeps C S I (yieldCancel cfg) :=
  .bind payload fun _ => keeps_yieldTwo frame ends.cancel ends.done _ _

theorem keeps_answerError_of (error : Emits I "error") (done : Emits I "done")
    (stop : Keeps C S I (yieldCancel cfg)) : Keeps C S I (answerError cfg) :=
  .bind (keeps_isCancelled frame) fun _ => .ite stop (keeps_yieldTwo frame error done _ _)

theorem keeps_handleRaised_of (error : Emits I "error") (done : Emits I "done")
    (stop : Keeps C S I (yieldCancel cfg)) (x : Raised) : Keeps C S I (handleRaised cfg x) := by
  have failed (message : String) : Keeps C S I (do
      yieldEvent cfg "error" (errorData message)
      yieldEvent cfg "done" (taskData cfg)) := keeps_yieldTwo frame error done _ _
  refine .ite ?_ (.ite ?_ .raise)
  · exact .bind (keeps_isCancelled frame) fun _ => .ite stop .raise
  · exact .bind (keeps_isCancelled frame) fun _ => .bind .get fun _ =>
      .ite stop (.ite (failed _) (failed _))

theorem keeps_yieldCancel (persists : Persists I) (ends : EmitsEnds I) :
    Keeps C S I (yieldCancel cfg) :=
  keeps_yieldCancel_of frame ends (keeps_cancelledPayload frame persists)

theorem keeps_answerError (persists : Persists I) (ends : EmitsEnds I) :
    Keeps C S I (answerError cfg) :=
  keeps_answerError_of frame ends.error ends.done (keeps_yieldCancel frame persists ends)

theorem keeps_handleRaised (persists : Persists I) (ends : EmitsEnds I) (x : Raised) :
    Keeps C S I (handleRaised cfg x) :=
  keeps_handleRaised_of frame ends.error ends.done (keeps_yieldCancel frame persists ends) x

theorem keeps_yieldUnavailable (ends : EmitsEnds I) : Keeps C S I (yieldUnavailable cfg) :=
  keeps_yieldTwo frame ends.error ends.done _ _

theorem keeps_bindHandle (stream : ∀ s, I s → I { s with handle := true, callbackHandle := true }) :
    Keeps C S I bindHandle := by
  refine .modify fun s holds => ?_
  dsimp only
  split_ifs
  · exact frame.cancelChild _ _ (stream s holds)
  · exact stream s holds

/-- The release writes the limiter's side only. -/
theorem keeps_release (releases : ∀ s zremInFlight removed, I s → I { s with zremInFlight, removed }) :
    Keeps C S I (release cfg) := by
  refine .bind .get fun s => ?_
  cases s.queuePermit with
  | none => exact .pure
  | some permit =>
    have redis : Keeps C S I (orElse (do
        Co.modify fun s => { s with zremInFlight := true }
        await cfg .zrem
        await cfg .publish) (pure ())) :=
      keeps_orElse (.bind (.modify fun s holds => releases s _ _ holds) fun _ =>
        .bind (keeps_await frame _) fun _ => keeps_await frame _) .pure
    exact .ite .pure (.ite (.ite .pure redis) (.bind (keeps_await frame _) fun _ =>
      .modify fun s holds => releases s _ _ holds))

theorem keeps_cleanup (releases : ∀ s zremInFlight removed, I s → I { s with zremInFlight, removed }) :
    Keeps C S I (cleanup cfg) :=
  .bind (keeps_stopChildren frame) fun _ => .bind (keeps_release frame releases) fun _ =>
    keeps_finalize frame

end Framed

section Unaffected

variable {cfg : Config} {I S : State → Prop} {C : Visit State Point Raised Reply → Prop}
variable (frame : Unaffected cfg S I)
include frame

theorem Unaffected.keeps_yieldEvent (name : String) (data : Json) :
    Keeps C S I (yieldEvent cfg name data) :=
  Lifecycle.keeps_yieldEvent frame.toFramed (frame.emits _) _

theorem Unaffected.keeps_yieldTwo (name name' : String) (data data' : Json) :
    Keeps C S I (do yieldEvent cfg name data; yieldEvent cfg name' data') :=
  Lifecycle.keeps_yieldTwo frame.toFramed (frame.emits _) (frame.emits _) _ _

theorem Unaffected.keeps_yieldCancel : Keeps C S I (yieldCancel cfg) :=
  Lifecycle.keeps_yieldCancel frame.toFramed frame.persists frame.emitsEnds

theorem Unaffected.keeps_answerError : Keeps C S I (answerError cfg) :=
  Lifecycle.keeps_answerError frame.toFramed frame.persists frame.emitsEnds

theorem Unaffected.keeps_handleRaised (x : Raised) : Keeps C S I (handleRaised cfg x) :=
  Lifecycle.keeps_handleRaised frame.toFramed frame.persists frame.emitsEnds x

theorem Unaffected.keeps_yieldUnavailable : Keeps C S I (yieldUnavailable cfg) :=
  Lifecycle.keeps_yieldUnavailable frame.toFramed frame.emitsEnds

theorem keeps_queueGet : Keeps C S I (queueGet cfg) := by
  refine .tryCatch (.bind (keeps_await frame.toFramed _) fun _ => .bind .get fun s => ?_)
    fun _ => .ite .pure .raise
  split
  · exact .bind (.modify fun s holds => frame.stream s _ _ _ _ _ _ _ holds) fun _ => .pure
  · exact .raise

theorem keeps_answerComplete (preparation : ChatPreparation) :
    Keeps C S I (answerComplete cfg preparation) := by
  refine .bind .get fun _ => .ite (frame.keeps_yieldTwo _ _ _ _)
    (.bind (keeps_completePreparation frame.toFramed frame.persists.stores _ _ _ _) fun _ => ?_)
  exact frame.keeps_yieldTwo _ _ _ _

theorem keeps_consumeEvent (preparation : ChatPreparation) (event : StreamEvent) :
    Keeps C S I (consumeEvent cfg preparation event) := by
  have sent (data : Json) : Keeps C S I (yieldEvent cfg "message" data) :=
    frame.keeps_yieldEvent _ _
  cases event with
  | thinking delta => exact .bind (sent _) fun _ => .pure
  | content delta =>
    exact .bind (.modify fun s holds => frame.stream s _ _ _ _ _ _ _ holds) fun _ =>
      .bind (sent _) fun _ => .pure
  | complete => exact .bind (keeps_answerComplete frame preparation) fun _ => .pure
  | error message =>
    exact .bind frame.keeps_answerError fun _ => .pure

theorem keeps_consumeRound (preparation : ChatPreparation) :
    Keeps C S I (consumeRound cfg preparation) := by
  have sent {name : String} (data : Json) : Keeps C S I (yieldEvent cfg name data) :=
    frame.keeps_yieldEvent _ _
  refine .bind .get fun s => .ite ?overflowed <|
    .bind (keeps_disconnected frame.toFramed) fun gone => .ite ?gone <|
    .bind (keeps_isCancelled frame.toFramed) fun cancelled => .ite ?cancelled <|
    .bind (keeps_queueGet frame) fun event => ?event
  case overflowed =>
    exact .bind (.modify fun s holds => frame.cancelChild s _ holds) fun _ =>
      .bind (sent _) fun _ => .bind (sent _) fun _ => .pure
  case gone =>
    exact .bind (keeps_taskManagerCancel frame.toFramed) fun _ =>
      .bind (keeps_cancelledPayload frame.toFramed frame.persists) fun _ => .pure
  case cancelled =>
    exact .bind frame.keeps_yieldCancel fun _ => .pure
  case event =>
    cases event with
    | none => exact .pure
    | some event => exact keeps_consumeEvent frame preparation event

theorem keeps_yieldRejection : Keeps C S I (yieldRejection cfg) :=
  .bind (keeps_recordQueueRejection frame.toFramed frame.persists) fun _ =>
    .bind (frame.keeps_yieldEvent _ _) fun _ =>
      frame.keeps_yieldTwo _ _ _ _

end Unaffected

end HeyeeAgent.StreamChat.Lifecycle
