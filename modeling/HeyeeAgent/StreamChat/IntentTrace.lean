import HeyeeAgent.Rag.IntentModels
import HeyeeAgent.StreamChat.Grammar

/-! # The intent trace in the events of a stream

The event that opens the answer carries the intent trace of the preparation as it is. The events that
close a stored answer carry that of the response, which is a pydantic model, and the encoder makes a
string of what it does not know. What each event carries is followed from the preparation on.
-/

namespace HeyeeAgent.StreamChat.Lifecycle

open Python StreamQueueLimiter Coroutine Rag

namespace SseEvent

def ragIntent (event : SseEvent) : Option Json := event.data.field "ragIntent"

def flag (event : SseEvent) (key : String) : Bool :=
  match event.data.field key with
  | some (.bool value) => value
  | _ => false

/-- `meta` with the phase `answering` -/
def OpensAnswer (event : SseEvent) : Prop := event.letter = some .answering

/-- `finish`, but not of a rejection, or a `cancel` with a stored part of the answer -/
def ClosesAnswer (event : SseEvent) : Prop :=
  event.letter = some .finish ∧ event.flag "rejected" = false ∨
    event.letter = some .cancel ∧ event.flag "partial" = true

instance (event : SseEvent) : Decidable event.OpensAnswer := inferInstanceAs (Decidable (_ = _))

instance (event : SseEvent) : Decidable event.ClosesAnswer := inferInstanceAs (Decidable (_ ∨ _))

end SseEvent

/-- The page, which overwrites one with the other, keeps the same intent trace. -/
def SameTrace (s : State) : Prop := ∀ opening ∈ s.emitted, ∀ closing ∈ s.emitted,
  opening.OpensAnswer → closing.ClosesAnswer → closing.ragIntent = opening.ragIntent

section Assertions

variable {cfg : Config} {held : Option ChatPreparation} {preparation : ChatPreparation} {s t : State}

/-- The events carry the intent trace of the preparation, each in its way, and an answer is opened
before it is closed. -/
structure Traced (cfg : Config) (s : State) : Prop where
  opened : ∀ event ∈ s.emitted, event.OpensAnswer →
    ∃ preparation ∈ s.preparation, event.ragIntent = some (.ofOption preparation.ragIntent)
  closed : ∀ event ∈ s.emitted, event.ClosesAnswer → (∃ opening ∈ s.emitted, opening.OpensAnswer) ∧
    ∃ preparation ∈ s.preparation, event.ragIntent = some (ragIntentData cfg preparation.ragIntent)
  started : s.answerStartedAt.isSome = true → ∃ opening ∈ s.emitted, opening.OpensAnswer

/-- Before the answer. -/
structure Holding (cfg : Config) (held : Option ChatPreparation) (s : State) : Prop
    extends Traced cfg s where
  held : s.preparation = held

/-- From the event that opens the answer on. -/
structure Answering (cfg : Config) (preparation : ChatPreparation) (s : State) : Prop
    extends Holding cfg (some preparation) s where
  begun : ∃ opening ∈ s.emitted, opening.OpensAnswer

theorem Traced.same (traced : Traced cfg s) (emitted : t.emitted = s.emitted)
    (preparation : t.preparation = s.preparation)
    (started : t.answerStartedAt = s.answerStartedAt) : Traced cfg t where
  opened := by rw [emitted, preparation]; exact traced.opened
  closed := by rw [emitted, preparation]; exact traced.closed
  started := by rw [emitted, started]; exact traced.started

theorem Holding.same (holding : Holding cfg held s) (emitted : t.emitted = s.emitted)
    (preparation : t.preparation = s.preparation)
    (started : t.answerStartedAt = s.answerStartedAt) : Holding cfg held t where
  toTraced := holding.toTraced.same emitted preparation started
  held := preparation.trans holding.held

theorem Answering.same (answering : Answering cfg preparation s) (emitted : t.emitted = s.emitted)
    (prepared : t.preparation = s.preparation)
    (started : t.answerStartedAt = s.answerStartedAt) : Answering cfg preparation t where
  toHolding := answering.toHolding.same emitted prepared started
  begun := by rw [emitted]; exact answering.begun

/-- An event that neither opens nor closes an answer. -/
def SseEvent.Silent (event : SseEvent) : Prop := ¬ event.OpensAnswer ∧ ¬ event.ClosesAnswer

theorem Traced.emit (traced : Traced cfg s) {event : SseEvent} (silent : event.Silent) :
    Traced cfg { s with emitted := s.emitted ++ [event] } where
  opened other member opens := by
    rcases List.mem_append.mp member with before | last
    · exact traced.opened other before opens
    · obtain rfl := List.mem_singleton.mp last
      exact absurd opens silent.1
  closed other member closes := by
    rcases List.mem_append.mp member with before | last
    · obtain ⟨⟨opening, listed, opens⟩, carried⟩ := traced.closed other before closes
      exact ⟨⟨opening, List.mem_append_left _ listed, opens⟩, carried⟩
    · obtain rfl := List.mem_singleton.mp last
      exact absurd closes silent.2
  started begun := by
    obtain ⟨opening, listed, opens⟩ := traced.started begun
    exact ⟨opening, List.mem_append_left _ listed, opens⟩

/-- The assertion is about the events, the preparation and the start of the answer alone. -/
def AboutAnswer (K : State → Prop) : Prop := ∀ s t, K s → t.emitted = s.emitted →
  t.preparation = s.preparation → t.answerStartedAt = s.answerStartedAt → K t

theorem framed_answer {K : State → Prop} (about : AboutAnswer K)
    (traced : ∀ s, K s → Traced cfg s) : Framed cfg (Traced cfg) K where
  waits := traced
  act s _ t holds taken := about s t holds (act_locals taken).emitted (act_locals taken).preparation
    (act_locals taken).answerStartedAt
  cancelChild s ref holds := about s _ holds (locals_cancelChild s ref).emitted
    (locals_cancelChild s ref).preparation (locals_cancelChild s ref).answerStartedAt
  registry s _ _ _ holds := about s _ holds rfl rfl rfl
  lease s holds := about s _ holds rfl rfl rfl

theorem framed_traced : Framed cfg (Traced cfg) (Traced cfg) :=
  framed_answer (fun _ _ => Traced.same) fun _ => id

theorem framed_holding : Framed cfg (Traced cfg) (Holding cfg held) :=
  framed_answer (fun _ _ => Holding.same) fun _ => Holding.toTraced

theorem framed_answering : Framed cfg (Traced cfg) (Answering cfg preparation) :=
  framed_answer (fun _ _ => Answering.same) fun _ answering => answering.toTraced

theorem silent_of_name {name : String} (data : Json)
    (other : name = "message" ∨ name = "error" ∨ name = "reject" ∨ name = "done") :
    SseEvent.Silent ⟨name, data⟩ := by
  rcases other with rfl | rfl | rfl | rfl <;>
    simp [SseEvent.Silent, SseEvent.OpensAnswer, SseEvent.ClosesAnswer, SseEvent.letter]

theorem Answering.emit (answering : Answering cfg preparation s) {event : SseEvent}
    (silent : event.Silent) :
    Answering cfg preparation { s with emitted := s.emitted ++ [event] } where
  toTraced := answering.toTraced.emit silent
  held := answering.held
  begun := by
    obtain ⟨opening, listed, opens⟩ := answering.begun
    exact ⟨opening, List.mem_append_left _ listed, opens⟩

/-- The event that closes the answer. -/
theorem Answering.close (answering : Answering cfg preparation s) {event : SseEvent}
    (silent : ¬ event.OpensAnswer) (carried : event.ClosesAnswer →
      event.ragIntent = some (ragIntentData cfg preparation.ragIntent)) :
    Traced cfg { s with emitted := s.emitted ++ [event] } := by
  by_cases closes : event.ClosesAnswer
  case neg => exact answering.toTraced.emit ⟨silent, closes⟩
  case pos =>
    obtain ⟨opening, listed, opens⟩ := answering.begun
    refine ⟨fun other member opens => ?_, fun other member closes' => ?_, fun _ =>
      ⟨opening, List.mem_append_left _ listed, opens⟩⟩
    · rcases List.mem_append.mp member with before | last
      · exact answering.opened other before opens
      · obtain rfl := List.mem_singleton.mp last
        exact absurd opens silent
    · refine ⟨⟨opening, List.mem_append_left _ listed, opens⟩, ?_⟩
      rcases List.mem_append.mp member with before | last
      · exact (answering.closed other before closes').2
      · obtain rfl := List.mem_singleton.mp last
        exact ⟨preparation, answering.held, carried closes⟩

/-- The event that opens the answer. -/
theorem Holding.open (holding : Holding cfg (some preparation) s) {event : SseEvent}
    (opens : event.OpensAnswer) (silent : ¬ event.ClosesAnswer)
    (carried : event.ragIntent = some (.ofOption preparation.ragIntent)) :
    Answering cfg preparation { s with emitted := s.emitted ++ [event] } := by
  have listed : event ∈ s.emitted ++ [event] := List.mem_append_right _ (List.mem_singleton_self _)
  refine ⟨⟨⟨fun other member opens' => ?_, fun other member closes => ?_, fun _ =>
    ⟨event, listed, opens⟩⟩, holding.held⟩, event, listed, opens⟩
  · rcases List.mem_append.mp member with before | last
    · exact holding.opened other before opens'
    · obtain rfl := List.mem_singleton.mp last
      exact ⟨preparation, holding.held, carried⟩
  · rcases List.mem_append.mp member with before | last
    · exact ⟨⟨event, listed, opens⟩, (holding.closed other before closes).2⟩
    · obtain rfl := List.mem_singleton.mp last
      exact absurd closes silent

theorem emits_traced {name : String}
    (other : name = "message" ∨ name = "error" ∨ name = "reject" ∨ name = "done") :
    Emits (Traced cfg) name := fun _ data traced => traced.emit (silent_of_name data other)

theorem emits_answering {name : String}
    (other : name = "message" ∨ name = "error" ∨ name = "reject" ∨ name = "done") :
    Emits (Answering cfg preparation) name := fun _ data answering =>
  answering.emit (silent_of_name data other)

end Assertions

section Generator

variable {cfg : Config} {C : Visit State Point Raised Reply → Prop} {K L : State → Prop}

/-- What keeps an assertion leaves the events traced when it raises. -/
theorem traces_of_keeps {α : Type} {m : StreamCo α} (frame : Framed cfg (Traced cfg) K)
    (keeps : Keeps C (Traced cfg) K m) :
    Triple C (Traced cfg) K m (fun _ => K) (fun _ => Traced cfg) :=
  keeps.weaken_exc fun _ => frame.waits

theorem traces_yieldEvent {name : String} {data : Json} (frame : Framed cfg (Traced cfg) L)
    (unsent : ∀ s, K s → Traced cfg s)
    (sent : ∀ s, K s → L { s with emitted := s.emitted ++ [⟨name, data⟩] }) :
    Triple C (Traced cfg) K (yieldEvent cfg name data) (fun _ => L) (fun _ => Traced cfg) := by
  unfold yieldEvent
  refine .ite (fun _ => .bind (fun _ => L) (.modify sent) fun _ => returns_await frame ?_)
    fun _ => .raise unsent
  exact fun s _ holds _ _ => frame.waits s holds

theorem traces_done : Keeps C (Traced cfg) (Traced cfg) (yieldEvent cfg "done" (taskData cfg)) :=
  keeps_yieldEvent framed_traced (emits_traced (by decide)) _

theorem traces_error (data : Json) : Keeps C (Traced cfg) (Traced cfg)
    (do yieldEvent cfg "error" data; yieldEvent cfg "done" (taskData cfg)) :=
  keeps_yieldTwo framed_traced (emits_traced (by decide)) (emits_traced (by decide)) _ _

/-- The response has the intent trace of the preparation. -/
theorem answers_completePreparation {S I : State → Prop} (frame : Framed cfg S I)
    (persists : Persists I) (preparation : ChatPreparation) (reply : Str) (toolCalls : List Str)
    (interrupted : Bool) :
    Triple C S I (completePreparation cfg preparation reply toolCalls interrupted)
      (fun response s => response.ragIntent = preparation.ragIntent ∧ I s) (fun _ => I) :=
  .bind (fun _ => I) (Keeps.ite .pure (keeps_persistMemoryReply frame persists.stores _ _)) fun _ =>
    .ite (fun _ => .pure fun _ holds => ⟨rfl, holds⟩) fun _ => .raise fun _ => id

/-- A `cancel` with this payload keeps the events traced. -/
def Carrying (cfg : Config) (payload : Json) (s : State) : Prop :=
  SseEvent.Silent ⟨"cancel", payload⟩ ∧ Traced cfg s ∨
    ∃ preparation, payload.field "ragIntent" = some (ragIntentData cfg preparation.ragIntent) ∧
      Answering cfg preparation s

theorem silent_cancelData (conversationId messageId : Option Str) :
    SseEvent.Silent ⟨"cancel", cancelData cfg conversationId messageId false []⟩ := by
  simp [SseEvent.Silent, SseEvent.OpensAnswer, SseEvent.ClosesAnswer, SseEvent.letter,
    SseEvent.flag, cancelData, Json.field]

theorem ragIntent_cancelData (conversationId messageId : Option Str) (response : ChatResponse) :
    (cancelData cfg conversationId messageId true (responseFields cfg response)).field "ragIntent" =
      some (ragIntentData cfg response.ragIntent) := by
  simp [cancelData, responseFields, Json.field]

theorem traces_cancelledPayload :
    Triple C (Traced cfg) (Traced cfg) (cancelledPayload cfg) (Carrying cfg)
      (fun _ => Traced cfg) := by
  unfold cancelledPayload
  refine .bind (fun _ => Traced cfg) (.modify fun s traced => traced.same rfl rfl rfl) fun _ =>
    .bind (fun s t => t = s ∧ Traced cfg t) (.get fun s traced => ⟨rfl, traced⟩) fun s => ?_
  have plain : ∀ t, t = s ∧ Traced cfg t →
      Carrying cfg (cancelData cfg (s.preparation.map (·.conversationId)) none false []) t :=
    fun t traced => .inl ⟨silent_cancelData _ _, traced.2⟩
  dsimp only
  split
  · rename_i preparation startedAt held begun
    have frame : Framed cfg (Traced cfg) (Answering cfg preparation) := framed_answering
    have persists : Persists (Answering cfg preparation) :=
      fun s _ _ _ answering => answering.same rfl rfl rfl
    have caught (t : State) (answering : Answering cfg preparation t) := answering.toTraced
    refine .ite (fun _ => .bind (fun _ => Answering cfg preparation) (.modify ?_) fun _ =>
      .tryCatch (fun _ => Answering cfg preparation)
        (.bind _ (answers_completePreparation frame persists _ _ _ _) fun response => .pure ?_)
        fun x => .ite (fun _ => .pure fun t answering => ?_) fun _ => .raise caught)
      fun _ => .pure plain
    · rintro t ⟨rfl, traced⟩
      have opened := traced.started (by simp [begun])
      exact ⟨⟨traced.same rfl rfl rfl, held⟩, opened⟩
    · rintro t ⟨same, answering⟩
      exact .inr ⟨preparation, same ▸ ragIntent_cancelData _ _ _, answering⟩
    · exact .inl ⟨silent_cancelData _ _, answering.toTraced⟩
  · exact .pure plain

theorem traces_yieldCancel : Keeps C (Traced cfg) (Traced cfg) (yieldCancel cfg) := by
  refine Triple.bind _ traces_cancelledPayload fun payload =>
    .bind (fun _ => Traced cfg) (traces_yieldEvent framed_traced ?_ ?_) fun _ => traces_done
  · rintro s (⟨-, traced⟩ | ⟨preparation, -, answering⟩)
    · exact traced
    · exact answering.toTraced
  · rintro s (⟨silent, traced⟩ | ⟨preparation, carried, answering⟩)
    · exact traced.emit silent
    · exact answering.close (by simp [SseEvent.OpensAnswer, SseEvent.letter]) fun _ => carried

theorem traces_answerError : Keeps C (Traced cfg) (Traced cfg) (answerError cfg) :=
  keeps_answerError_of framed_traced (emits_traced (by decide)) (emits_traced (by decide))
    traces_yieldCancel

theorem traces_handleRaised (x : Raised) :
    Keeps C (Traced cfg) (Traced cfg) (handleRaised cfg x) :=
  keeps_handleRaised_of framed_traced (emits_traced (by decide)) (emits_traced (by decide))
    traces_yieldCancel x

variable {preparation : ChatPreparation}

/-- What ends a stream can start in the middle of the answer. -/
theorem traces_of_answering {α : Type} {m : StreamCo α}
    (keeps : Keeps C (Traced cfg) (Traced cfg) m) :
    Triple C (Traced cfg) (Answering cfg preparation) m (fun _ => Traced cfg)
      (fun _ => Traced cfg) :=
  keeps.strengthen_pre fun _ answering => answering.toTraced

theorem ragIntent_finishData (response : ChatResponse) :
    (finishData cfg response).field "ragIntent" = some (ragIntentData cfg response.ragIntent) := by
  simp [finishData, responseFields, Json.field]

theorem traces_answerComplete :
    Triple C (Traced cfg) (Answering cfg preparation) (answerComplete cfg preparation)
      (fun _ => Traced cfg) (fun _ => Traced cfg) := by
  have frame : Framed cfg (Traced cfg) (Answering cfg preparation) := framed_answering
  have persists : Persists (Answering cfg preparation) :=
    fun s _ _ _ answering => answering.same rfl rfl rfl
  refine .bind (fun _ => Answering cfg preparation) (.get fun _ => id) fun s =>
    .ite (fun _ => traces_of_answering (traces_error _)) fun _ => .bind _
      ((answers_completePreparation frame persists preparation _ _ _).weaken_exc
        fun _ => frame.waits) fun response => .given fun same =>
    .bind (fun _ => Traced cfg) (traces_yieldEvent framed_traced frame.waits fun s answering => ?_)
      fun _ => traces_done
  refine answering.close (by simp [SseEvent.OpensAnswer, SseEvent.letter]) fun _ => ?_
  exact same ▸ ragIntent_finishData response

/-- What a round leaves: the next round, or the end. -/
def Turning (cfg : Config) (preparation : ChatPreparation) (next : Option Unit) (s : State) : Prop :=
  if next.isSome then Traced cfg s else Answering cfg preparation s

theorem traces_delta (data : Json) :
    Triple C (Traced cfg) (Answering cfg preparation) (yieldEvent cfg "message" data)
      (fun _ => Answering cfg preparation) (fun _ => Traced cfg) :=
  traces_of_keeps framed_answering (keeps_yieldEvent framed_answering (emits_answering (by decide)) _)

theorem traces_consumeEvent (event : StreamEvent) :
    Triple C (Traced cfg) (Answering cfg preparation) (consumeEvent cfg preparation event)
      (Turning cfg preparation) (fun _ => Traced cfg) := by
  cases event with
  | thinking delta => exact .bind _ (traces_delta _) fun _ => .pure fun _ => id
  | content delta =>
    refine .bind (fun _ => Answering cfg preparation) (.modify fun s answering => ?_) fun _ =>
      .bind _ (traces_delta _) fun _ => .pure fun _ => id
    exact answering.same rfl rfl rfl
  | complete => exact .bind _ traces_answerComplete fun _ => .pure fun _ => id
  | error message =>
    exact .bind _ (traces_of_answering traces_answerError) fun _ => .pure fun _ => id

theorem traces_queueGet : Keeps C (Traced cfg) (Answering cfg preparation) (queueGet cfg) := by
  refine .tryCatch (.bind (keeps_await framed_answering _) fun _ => .bind .get fun s => ?_)
    fun _ => .ite .pure .raise
  split
  · exact .bind (.modify fun s answering => answering.same rfl rfl rfl) fun _ => .pure
  · exact .raise

theorem traces_consumeRound :
    Triple C (Traced cfg) (Answering cfg preparation) (consumeRound cfg preparation)
      (Turning cfg preparation) (fun _ => Traced cfg) := by
  have frame : Framed cfg (Traced cfg) (Answering cfg preparation) := framed_answering
  have stops {m : StreamCo Unit} (keeps : Keeps C (Traced cfg) (Traced cfg) m) :
      Triple C (Traced cfg) (Answering cfg preparation) (m >>= fun _ => pure (some ()))
        (Turning cfg preparation) (fun _ => Traced cfg) :=
    .bind _ (traces_of_answering keeps) fun _ => .pure fun _ => id
  have passes {α : Type} {m : StreamCo α}
      (keeps : Keeps C (Traced cfg) (Answering cfg preparation) m) := traces_of_keeps frame keeps
  have paid : Keeps C (Traced cfg) (Traced cfg) (cancelledPayload cfg) := by
    refine traces_cancelledPayload.weaken_post fun payload s carrying => ?_
    rcases carrying with ⟨-, traced⟩ | ⟨preparation, -, answering⟩
    · exact traced
    · exact answering.toTraced
  refine .bind (fun _ => Answering cfg preparation) (.get fun _ => id) fun s =>
    .ite (fun _ => ?overflowed) fun _ => .bind _ (passes (keeps_disconnected frame)) fun gone =>
    .ite (fun _ => ?gone) fun _ => .bind _ (passes (keeps_isCancelled frame)) fun cancelled =>
    .ite (fun _ => stops traces_yieldCancel) fun _ => .bind _ (passes traces_queueGet) fun event =>
    ?event
  case overflowed =>
    exact .bind _ (passes (.modify fun s holds => frame.cancelChild s _ holds)) fun _ =>
      .bind _ (traces_of_answering (keeps_yieldEvent framed_traced (emits_traced (by decide)) _))
        fun _ => .bind _ traces_done fun _ => .pure fun _ => id
  case gone =>
    exact .bind _ (passes (keeps_taskManagerCancel frame)) fun _ =>
      .bind _ (traces_of_answering paid) fun _ => .pure fun _ => id
  case event =>
    cases event with
    | none => exact .pure fun _ => id
    | some event => exact traces_consumeEvent event

theorem traces_answer :
    Triple C (Traced cfg) (Holding cfg (some preparation)) (answer cfg preparation)
      (fun _ => Traced cfg) (fun _ => Traced cfg) := by
  have frame : Framed cfg (Traced cfg) (Answering cfg preparation) := framed_answering
  have passes {α : Type} {m : StreamCo α}
      (keeps : Keeps C (Traced cfg) (Answering cfg preparation) m) := traces_of_keeps frame keeps
  have stop : Triple C (Traced cfg) (Answering cfg preparation) (yieldCancel cfg)
      (fun _ => Traced cfg) (fun _ => Traced cfg) := traces_of_answering traces_yieldCancel
  refine .bind (fun _ => Answering cfg preparation) (traces_yieldEvent frame
      (fun s holding => holding.toTraced) fun s holding => ?opens) fun _ =>
    .bind (fun _ => Answering cfg preparation) (.modify fun s answering => ?starts) fun _ =>
    .bind _ (passes (keeps_bind frame _)) fun bound => .ite (fun _ => ?refused) fun _ => ?accepted
  case opens =>
    refine holding.open ?_ ?_ ?_
    · simp [SseEvent.OpensAnswer, SseEvent.letter, phase, Json.text, Str.lit]
    · simp [SseEvent.ClosesAnswer, SseEvent.letter, phase, Json.text, Str.lit]
    · simp [SseEvent.ragIntent, Json.field]
  case starts =>
    exact ⟨⟨⟨answering.opened, answering.closed, fun _ => answering.begun⟩, answering.held⟩,
      answering.begun⟩
  case refused =>
    exact .bind _ (passes (.modify fun s holds => frame.cancelChild s _ holds)) fun _ =>
      .bind _ (passes (keeps_passCancelled (keeps_await frame _))) fun _ => stop
  case accepted =>
    refine .bind _ (passes (keeps_await frame _)) fun _ => .bind _
      (passes (keeps_bindHandle frame fun s answering => answering.same rfl rfl rfl)) fun _ =>
      .bind _ (passes (keeps_bind frame _)) fun bound => .ite (fun _ => stop) fun _ =>
      .repeatUntil frame.waits (traces_consumeRound.weaken_post fun next s turning => ?_)
    cases next <;> exact turning

theorem traces_prepare (permit : StreamQueuePermit) :
    Triple C (Traced cfg) (Holding cfg none) (prepare cfg permit) (fun _ => Traced cfg)
      (fun _ => Traced cfg) := by
  have frame : Framed cfg (Traced cfg) (Holding cfg none) := framed_holding
  have passes {α : Type} {m : StreamCo α} (keeps : Keeps C (Traced cfg) (Holding cfg none) m) :=
    traces_of_keeps frame keeps
  have stop {held : Option ChatPreparation} : Triple C (Traced cfg) (Holding cfg held)
      (yieldCancel cfg) (fun _ => Traced cfg) (fun _ => Traced cfg) :=
    traces_yieldCancel.strengthen_pre fun _ holding => holding.toTraced
  refine .bind _ (passes (.modify fun s holding => holding.same rfl rfl rfl)) fun _ =>
    .bind (fun _ => Holding cfg none) (traces_yieldEvent frame (fun s holding => holding.toTraced)
      fun s holding => ⟨holding.emit ?silent, holding.held⟩) fun _ =>
    .bind _ (passes (.modify fun s holding => holding.same rfl rfl rfl)) fun _ =>
    .bind _ (passes (keeps_bind frame _)) fun bound => .ite (fun _ => stop) fun _ =>
    .bind _ (passes (keeps_awaitPreparation frame)) fun preparation =>
    .bind (fun _ => Holding cfg (some preparation)) (.modify fun s holding => ?prepared) fun _ =>
    .bind _ (traces_of_keeps framed_holding (keeps_isCancelled framed_holding)) fun cancelled =>
    .ite (fun _ => stop) fun _ => traces_answer
  case silent =>
    simp [SseEvent.Silent, SseEvent.OpensAnswer, SseEvent.ClosesAnswer, SseEvent.letter, phase,
      Json.text, Str.lit]
  case prepared =>
    refine ⟨⟨fun event member opens => ?_, fun event member closes => ?_, holding.started⟩, rfl⟩
    · obtain ⟨earlier, held, -⟩ := holding.opened event member opens
      cases holding.held.symm.trans held
    · obtain ⟨-, earlier, held, -⟩ := holding.closed event member closes
      cases holding.held.symm.trans held

theorem traces_yieldRejection : Keeps C (Traced cfg) (Traced cfg) (yieldRejection cfg) := by
  have frame : Framed cfg (Traced cfg) (Traced cfg) := framed_traced
  have persists : Persists (Traced cfg) := fun s _ _ _ traced => traced.same rfl rfl rfl
  refine .bind (keeps_recordQueueRejection frame persists) fun rejection =>
    .bind (keeps_yieldEvent frame (emits_traced (by decide)) _) fun _ =>
    .bind (traces_yieldEvent frame (fun _ => id) fun s traced => traced.emit ?_) fun _ => traces_done
  simp [SseEvent.Silent, SseEvent.OpensAnswer, SseEvent.ClosesAnswer, SseEvent.letter,
    SseEvent.flag, Json.field]

theorem traces_tryBlock :
    Triple C (Traced cfg) (Holding cfg none) (tryBlock cfg) (fun _ => Traced cfg)
      (fun _ => Traced cfg) := by
  have frame : Framed cfg (Traced cfg) (Holding cfg none) := framed_holding
  have passes {α : Type} {m : StreamCo α} (keeps : Keeps C (Traced cfg) (Holding cfg none) m) :=
    traces_of_keeps frame keeps
  have ends {m : StreamCo Unit} (keeps : Keeps C (Traced cfg) (Traced cfg) m) :
      Triple C (Traced cfg) (Holding cfg none) m (fun _ => Traced cfg) (fun _ => Traced cfg) :=
    keeps.strengthen_pre fun _ holding => holding.toTraced
  refine .bind (fun _ => Holding cfg none) (traces_yieldEvent frame (fun s holding =>
      holding.toTraced) fun s holding => ⟨holding.emit ?silent, holding.held⟩) fun _ =>
    .bind _ (passes (keeps_isCancelled frame)) fun cancelled =>
    .ite (fun _ => ends traces_yieldCancel) fun _ =>
    .bind _ (passes (keeps_await frame _)) fun admission => ?_
  case silent =>
    simp [SseEvent.Silent, SseEvent.OpensAnswer, SseEvent.ClosesAnswer, SseEvent.letter, phase,
      Json.text, Str.lit]
  split
  · exact ends traces_yieldCancel
  · exact ends traces_yieldRejection
  · exact traces_prepare _
  · exact ends (traces_error _)

theorem traces_stream :
    Triple C (Traced cfg) (Holding cfg none) (stream cfg) (fun _ => Traced cfg)
      (fun _ => Traced cfg) := by
  have frame : Framed cfg (Traced cfg) (Holding cfg none) := framed_holding
  have clean : Keeps C (Traced cfg) (Traced cfg) (cleanup cfg) :=
    keeps_cleanup framed_traced fun s _ _ traced => traced.same rfl rfl rfl
  refine .bind _ (traces_of_keeps frame (keeps_register frame)) fun registered =>
    .ite (fun _ => (traces_error _).strengthen_pre fun _ holding => holding.toTraced) fun _ =>
    .bind (fun _ => Holding cfg none) (.modify fun s holding => ?_)
    fun _ => .tryFinally (fun _ => Traced cfg) (fun _ => Traced cfg)
      (.tryCatch _ traces_tryBlock traces_handleRaised) (fun _ => clean) fun _ => clean
  exact holding.same rfl rfl rfl

/-- Wherever a run stands, its events are traced. -/
theorem traced_stream (now : ℚ) (tasks : StreamTaskManager ChildRef)
    (tape : List (Turn Action Point Raised Reply)) :
    Traced cfg (stream cfg (initial now tasks) tape).state := by
  have unsent (event : SseEvent) : event ∉ (initial now tasks).emitted := List.not_mem_nil
  have early : Holding cfg none (initial now tasks) :=
    ⟨⟨fun event member => absurd member (unsent event), fun event member =>
      absurd member (unsent event), fun ended => absurd ended Bool.false_ne_true⟩, rfl⟩
  exact Triple.always (C := fun _ => True) traces_stream early fun _ _ => trivial

end Generator

def isDict : Json → Bool
  | .obj _ => true
  | _ => false

theorem isDict_toResponseDict (result : IntentRecognitionResult) :
    isDict result.toResponseDict = true := rfl

/-- The preparation has recognised intents. -/
def Recognised (s : State) : Prop := (s.preparation.bind (·.ragIntent)).any isDict = true

/-- The intent trace of the event is a dictionary. -/
def SseEvent.carriesDict (event : SseEvent) : Bool := event.ragIntent.any isDict

theorem SameTrace.carriesDict {s : State} (same : SameTrace s) {opening closing : SseEvent}
    (listed : opening ∈ s.emitted) (listed' : closing ∈ s.emitted) (opens : opening.OpensAnswer)
    (closes : closing.ClosesAnswer) : closing.carriesDict = opening.carriesDict := by
  unfold SseEvent.carriesDict
  rw [same opening listed closing listed' opens closes]

instance (s : State) : Decidable (Recognised s) := inferInstanceAs (Decidable (_ = _))

/-- Without a trace both events carry `null`. -/
theorem sameTrace_of_unrecognised {cfg : Config} {s : State} (traced : Traced cfg s)
    (unrecognised : ∀ preparation ∈ s.preparation, preparation.ragIntent = none) : SameTrace s := by
  intro opening listed closing listed' opens closes
  obtain ⟨preparation, held, carried⟩ := traced.opened opening listed opens
  obtain ⟨-, preparation', held', carried'⟩ := traced.closed closing listed' closes
  rw [carried, carried', unrecognised preparation held, unrecognised preparation' held']
  rfl

/-- A run that closes an answer to a question with recognised intents never keeps their trace: the
closing event carries a text. -/
theorem stream_never_sameTrace (cfg : Config) (now : ℚ) (tasks : StreamTaskManager ChildRef)
    (tape : List (Turn Action Point Raised Reply))
    (recognised : Recognised (stream cfg (initial now tasks) tape).state)
    (closed : ∃ event ∈ (stream cfg (initial now tasks) tape).state.emitted, event.ClosesAnswer) :
    ¬ SameTrace (stream cfg (initial now tasks) tape).state := by
  intro same
  have traced : Traced cfg (stream cfg (initial now tasks) tape).state := traced_stream now tasks tape
  obtain ⟨closing, listed', closes⟩ := closed
  obtain ⟨⟨opening, listed, opens⟩, preparation, held, carried'⟩ :=
    traced.closed closing listed' closes
  obtain ⟨preparation', held', carried⟩ := traced.opened opening listed opens
  obtain rfl := Option.mem_unique held held'
  obtain ⟨dict, found, object⟩ := (Option.any_eq_true ..).mp recognised
  obtain ⟨preparation', held', named⟩ := Option.bind_eq_some_iff.mp found
  obtain rfl := Option.mem_unique held held'
  have kinds := same.carriesDict listed listed' opens closes
  rw [SseEvent.carriesDict, SseEvent.carriesDict, carried, carried', named] at kinds
  have kept : isDict dict = false := kinds.symm
  rw [object] at kept
  cases kept

/-- A question that is about nothing in the intent tree. -/
def exampleIntents : IntentRecognitionResult where
  rewriteResult := ⟨Str.lit "hi", Str.lit "hi", [Str.lit "hi"]⟩
  subIntents := [⟨Str.lit "hi", []⟩]
  guidance := ⟨.none, none⟩
  kbIntents := []
  mcpIntents := []
  isSystemOnly := false

def intentConfig : Config := { exampleConfig with
  ragIntentStr := fun _ => Str.lit "originalQuestion='hi' rewrittenQuestion='hi' " ++
    Str.lit "subQuestions=['hi'] subIntents=[RagSubIntent(" ++
    Str.lit "subQuestion='hi', intents=[])] kbIntents=[] mcpIntents=[] " ++
    Str.lit "isSystemOnly=False guidance=RagGuidanceResult(" ++ Str.lit "action='NONE', prompt=None)" }

/-- One answer of one chunk to this question. -/
def intentRun : List (Turn Action Point Raised Reply) := answeredRun.set 3
  ⟨[.leaseEnds false, .preparationEnds (.ok {
      conversationId := Str.lit "c"
      ragIntent := some exampleIntents.toResponseDict
      memoryService := true })], .preparation, .ok ()⟩

/-- What is sent: a dictionary when the answer is opened, and a text when it is closed. -/
theorem intentRun_events :
    let r := stream intentConfig (initial 0 {}) intentRun
    Recognised r.state ∧
      (∃ opening ∈ r.state.emitted, opening.OpensAnswer ∧ opening.carriesDict = true) ∧
      ∃ closing ∈ r.state.emitted, closing.ClosesAnswer ∧ closing.carriesDict = false := by
  decide +kernel

theorem intentRun_never_sameTrace :
    ¬ SameTrace (stream intentConfig (initial 0 {}) intentRun).state :=
  let ⟨recognised, _, closing, listed, closes, _⟩ := intentRun_events
  stream_never_sameTrace intentConfig 0 {} intentRun recognised ⟨closing, listed, closes⟩

/-- The page overwrites the trace with a text. -/
theorem intentRun_loses_trace :
    let r := stream intentConfig (initial 0 {}) intentRun
    Recognised r.state ∧ (∃ event ∈ r.state.emitted, event.ClosesAnswer) ∧
      ¬ SameTrace r.state := by
  obtain ⟨recognised, ⟨opening, listed, opens, dict⟩, closing, listed', closes, text⟩ :=
    intentRun_events
  refine ⟨recognised, ⟨closing, listed', closes⟩, fun same => ?_⟩
  have kinds := same.carriesDict listed listed' opens closes
  rw [dict, text] at kinds
  cases kinds

end HeyeeAgent.StreamChat.Lifecycle
