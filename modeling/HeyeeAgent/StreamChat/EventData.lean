import HeyeeAgent.Python.StrMethods
import HeyeeAgent.StreamChat.Encoding
import HeyeeAgent.StreamChat.Memory

/-! # The data of the events

Every event that is sent has a dictionary as its data that can be encoded, under one of the names of
the protocol, with a text wherever the page reads one. A rejection comes without a preparation, and
the `finish` of an answer only after some text.
-/

namespace HeyeeAgent.StreamChat.Lifecycle

open Python StreamQueueLimiter Coroutine

/-- The names of the events. -/
def eventNames : List String := ["meta", "message", "reject", "finish", "error", "cancel", "done"]

/-- What the page relies on. -/
structure Formed (event : SseEvent) : Prop where
  named : event.name ∈ eventNames
  object : ∃ fields, event.data = .obj fields
  encodes : event.data.encodes = true
  conversation : event.name = "meta" →
    ∀ id ∈ event.data.field "conversationId", ∃ text, id = .str text
  refusal : event.name = "reject" → event.data.field "delta" = some (.str queueTimeoutReply)
  failure : event.name = "error" → ∃ text, event.data.field "message" = some (.str text)

/-- There is a preparation, and its answer has some text. -/
def Speaking (s : State) : Prop :=
  s.preparation.isSome = true ∧ Str.strip s.responseParts.flatten ≠ []

/-- The events that have been sent, and what they tell of the answer; `held` is taken from the queue
and not worked on yet, and an answer that has begun has a preparation. -/
structure Worded (held : List StreamEvent) (begun : Bool) (s : State) : Prop where
  formed : ∀ event ∈ s.emitted, Formed event
  refused : Sent s "reject" → s.preparation = none
  spoken : Sent s "finish" → Sent s "reject" ∨ Speaking s
  parts : s.responseParts ++ contents held = contents s.taken
  prepared : begun = true → s.preparation.isSome = true

/-- Before the preparation is there, or a rejection. -/
structure Unprepared (s : State) : Prop extends Worded [] false s where
  unprepared : s.preparation = none
  unrejected : ¬ Sent s "reject"

section Assertions

variable {cfg : Config} {held : List StreamEvent} {begun : Bool} {s t : State} {event : SseEvent}

theorem Worded.same (worded : Worded held begun s) (emitted : t.emitted = s.emitted)
    (preparation : t.preparation = s.preparation) (responseParts : t.responseParts = s.responseParts)
    (taken : t.taken = s.taken) : Worded held begun t where
  formed := by rw [emitted]; exact worded.formed
  refused := by rw [Sent, emitted, preparation]; exact worded.refused
  spoken := by rw [Sent, Sent, Speaking, emitted, preparation, responseParts]; exact worded.spoken
  parts := by rw [responseParts, taken]; exact worded.parts
  prepared := by rw [preparation]; exact worded.prepared

theorem Worded.weaken (worded : Worded held begun s) : Worded held false s :=
  ⟨worded.formed, worded.refused, worded.spoken, worded.parts, nofun⟩

theorem Unprepared.same (unprepared : Unprepared s) (emitted : t.emitted = s.emitted)
    (preparation : t.preparation = s.preparation) (responseParts : t.responseParts = s.responseParts)
    (taken : t.taken = s.taken) : Unprepared t where
  toWorded := unprepared.toWorded.same emitted preparation responseParts taken
  unprepared := preparation.trans unprepared.unprepared
  unrejected := by rw [Sent, emitted]; exact unprepared.unrejected

theorem framed_words {K : State → Prop} (worded : ∀ s, K s → Worded [] false s)
    (respects : ∀ s t, K s → SameLocals s t → K t) : Framed cfg (Worded [] false) K where
  waits := worded
  act s _ t holds taken := respects s t holds (act_locals taken)
  cancelChild s ref holds := respects s _ holds (locals_cancelChild s ref)
  registry s _ _ _ holds := respects s _ holds (by constructor <;> rfl)
  lease s holds := respects s _ holds (by constructor <;> rfl)

theorem framed_worded : Framed cfg (Worded [] false) (Worded [] begun) :=
  framed_words (fun _ => Worded.weaken) fun _ _ worded same =>
    worded.same same.emitted same.preparation same.responseParts same.taken

theorem framed_unprepared : Framed cfg (Worded [] false) Unprepared :=
  framed_words (fun _ => Unprepared.toWorded) fun _ _ unprepared same =>
    unprepared.same same.emitted same.preparation same.responseParts same.taken

theorem persists_worded : Persists (Worded [] begun) := fun _ _ _ _ worded => worded.same rfl rfl rfl rfl

theorem persists_unprepared : Persists Unprepared :=
  fun _ _ _ _ unprepared => unprepared.same rfl rfl rfl rfl

theorem sent_or_of_append {name : String} (sent : Sent { s with emitted := s.emitted ++ [event] } name) :
    Sent s name ∨ event.name = name := by
  obtain ⟨other, member, named⟩ := sent
  rcases List.mem_append.mp member with before | last
  · exact .inl ⟨other, before, named⟩
  · exact .inr (List.mem_singleton.mp last ▸ named)

/-- An event can be sent if it is formed, and comes where a rejection or a `finish` may come. -/
theorem Worded.emit (worded : Worded held begun s) (formed : Formed event)
    (refused : event.name = "reject" → s.preparation = none)
    (spoken : event.name = "finish" → Sent s "reject" ∨ Speaking s) :
    Worded held begun { s with emitted := s.emitted ++ [event] } where
  formed other member := by
    rcases List.mem_append.mp member with before | last
    · exact worded.formed other before
    · exact List.mem_singleton.mp last ▸ formed
  refused sent := (sent_or_of_append sent).elim worded.refused refused
  spoken sent := by
    have before := (sent_or_of_append sent).elim worded.spoken spoken
    refine before.imp_left fun ⟨other, member, named⟩ => ?_
    exact ⟨other, List.mem_append_left _ member, named⟩
  parts := worded.parts
  prepared := worded.prepared

/-- The names whose data nobody reads a text from. -/
theorem formed_of_name {name : String} {fields : List (String × Json)}
    (unread : name = "message" ∨ name = "finish" ∨ name = "cancel" ∨ name = "done")
    (encodes : (Json.obj fields).encodes = true) : Formed ⟨name, .obj fields⟩ := by
  rcases unread with rfl | rfl | rfl | rfl <;>
    exact ⟨by simp [eventNames], ⟨fields, rfl⟩, encodes, by simp, by simp, by simp⟩

theorem formed_meta {fields : List (String × Json)} (encodes : (Json.obj fields).encodes = true)
    (conversation : ∀ id ∈ (Json.obj fields).field "conversationId", ∃ text, id = .str text) :
    Formed ⟨"meta", .obj fields⟩ where
  named := List.mem_cons_self
  object := ⟨fields, rfl⟩
  encodes := encodes
  conversation _ := conversation
  refusal isReject := absurd isReject (by simp)
  failure isError := absurd isError (by simp)

theorem formed_error {fields : List (String × Json)} {text : Str}
    (encodes : (Json.obj fields).encodes = true)
    (failure : (Json.obj fields).field "message" = some (.str text)) :
    Formed ⟨"error", .obj fields⟩ where
  named := by simp [eventNames]
  object := ⟨fields, rfl⟩
  encodes := encodes
  conversation isMeta := absurd isMeta (by simp)
  refusal isReject := absurd isReject (by simp)
  failure _ := ⟨text, failure⟩

theorem formed_reject {fields : List (String × Json)} (encodes : (Json.obj fields).encodes = true)
    (refusal : (Json.obj fields).field "delta" = some (.str queueTimeoutReply)) :
    Formed ⟨"reject", .obj fields⟩ where
  named := by simp [eventNames]
  object := ⟨fields, rfl⟩
  encodes := encodes
  conversation isMeta := absurd isMeta (by simp)
  refusal _ := refusal
  failure isError := absurd isError (by simp)

/-- Neither a rejection nor a `finish`. -/
theorem Worded.emit_other {name : String} {data : Json} (worded : Worded held begun s)
    (formed : Formed ⟨name, data⟩) (other : name ≠ "reject" ∧ name ≠ "finish") :
    Worded held begun { s with emitted := s.emitted ++ [⟨name, data⟩] } :=
  worded.emit formed (fun same => absurd same other.1) fun same => absurd same other.2

/-- A delta that is taken and added to the parts. -/
theorem Worded.content {delta : Str} (worded : Worded [.content delta] begun s) :
    Worded [] begun { s with responseParts := s.responseParts ++ [delta] } where
  formed := worded.formed
  refused := worded.refused
  spoken sent := by
    refine (worded.spoken sent).imp_right fun spoken => ⟨spoken.1, fun blank => spoken.2 ?_⟩
    rw [Str.strip_eq_nil_iff] at blank ⊢
    intro c member
    apply blank
    rw [List.flatten_append]
    exact List.mem_append_left _ member
  parts := (List.append_nil _).trans worded.parts
  prepared := worded.prepared

/-- An event without a `response` delta. -/
theorem Worded.silent {event : StreamEvent} (worded : Worded [event] begun s) (silent : contents [event] = []) :
    Worded [] begun s where
  formed := worded.formed
  refused := worded.refused
  spoken := worded.spoken
  parts := by
    rw [← worded.parts, silent]
    rfl
  prepared := worded.prepared

end Assertions

section Generator

variable {cfg : Config} {C : Visit State Point Raised Reply → Prop} {begun : Bool}

/-- An event is sent if it is formed once it can be encoded. -/
theorem words_yieldEvent {K L : State → Prop} {name : String} {data : Json}
    (frame : Framed cfg (Worded [] false) L) (unsent : ∀ s, K s → Worded [] begun s)
    (left : ∀ s, L s → Worded [] begun s)
    (sent : data.encodes = true → ∀ s, K s → L { s with emitted := s.emitted ++ [⟨name, data⟩] }) :
    Triple C (Worded [] false) K (yieldEvent cfg name data) (fun _ => L)
      (fun _ => Worded [] begun) := by
  rw [yieldEvent]
  refine .ite (fun encodes => .bind (fun _ => L) (.modify (sent encodes)) fun _ =>
    returns_await frame ?_) fun _ => .raise unsent
  exact fun s _ holds _ _ => left s holds

/-- An event that is neither a rejection nor a `finish`. -/
theorem words_other {name : String} {data : Json} (other : name ≠ "reject" ∧ name ≠ "finish")
    (formed : data.encodes = true → Formed ⟨name, data⟩) :
    Keeps C (Worded [] false) (Worded [] begun) (yieldEvent cfg name data) :=
  words_yieldEvent framed_worded (fun _ => id) (fun _ => id) fun encodes _ worded =>
    worded.emit_other (formed encodes) other

theorem words_message {kind : String} {delta : Str} :
    Keeps C (Worded [] false) (Worded [] begun)
      (yieldEvent cfg "message" (deltaData kind delta)) :=
  words_other (by decide) (formed_of_name (by decide))

theorem words_cancel {fields : List (String × Json)} :
    Keeps C (Worded [] false) (Worded [] begun) (yieldEvent cfg "cancel" (.obj fields)) :=
  words_other (by decide) (formed_of_name (by decide))

theorem words_done :
    Keeps C (Worded [] false) (Worded [] begun) (yieldEvent cfg "done" (taskData cfg)) :=
  words_other (by decide) (formed_of_name (by decide))

theorem words_error {fields : List (String × Json)} {text : Str}
    (failure : (Json.obj fields).field "message" = some (.str text)) :
    Keeps C (Worded [] false) (Worded [] begun) (do
      yieldEvent cfg "error" (.obj fields)
      yieldEvent cfg "done" (taskData cfg)) :=
  .bind (words_other (by decide) fun encodes => formed_error encodes failure) fun _ => words_done

/-- The data of a `cancel` is a dictionary. -/
theorem words_cancelledPayload :
    Triple C (Worded [] false) (Worded [] begun) (cancelledPayload cfg)
      (fun payload s => (∃ fields, payload = .obj fields) ∧ Worded [] begun s)
      (fun _ => Worded [] begun) := by
  have frame : Framed cfg (Worded [] false) (Worded [] begun) := framed_worded
  have built {fields : List (String × Json)} : Triple C (Worded [] false) (Worded [] begun)
      (pure (.obj fields) : StreamCo Json)
      (fun payload s => (∃ fields, payload = .obj fields) ∧ Worded [] begun s)
      (fun _ => Worded [] begun) := .pure fun _ worded => ⟨⟨_, rfl⟩, worded⟩
  delta cancelledPayload
  refine .bind (fun _ => Worded [] begun) (.modify fun s worded => worded.same rfl rfl rfl rfl)
    fun _ => .bind (fun _ => Worded [] begun) (.get fun _ => id) fun s => ?_
  dsimp only
  split
  · refine .ite (fun _ => .bind (fun _ => Worded [] begun) (.modify fun s worded => ?_) fun _ =>
      .tryCatch (fun _ => Worded [] begun) (.bind _ (keeps_completePreparation frame
        persists_worded.stores _ _ _ _) fun _ => built) fun _ =>
        .ite (fun _ => built) fun _ => .raise fun _ => id) fun _ => built
    exact worded.same rfl rfl rfl rfl
  · exact built

theorem words_yieldCancel : Keeps C (Worded [] false) (Worded [] begun) (yieldCancel cfg) := by
  refine Triple.bind _ words_cancelledPayload fun payload => .given fun ⟨fields, dictionary⟩ =>
    dictionary ▸ ?_
  exact .bind _ words_cancel fun _ => words_done

theorem words_answerError : Keeps C (Worded [] false) (Worded [] begun) (answerError cfg) :=
  .bind (keeps_isCancelled framed_worded) fun _ => .ite words_yieldCancel (words_error rfl)

theorem words_handleRaised (x : Raised) :
    Keeps C (Worded [] false) (Worded [] begun) (handleRaised cfg x) := by
  refine .ite ?_ (.ite ?_ .raise)
  · exact .bind (keeps_isCancelled framed_worded) fun _ => .ite words_yieldCancel .raise
  · exact .bind (keeps_isCancelled framed_worded) fun _ => .bind .get fun _ =>
      .ite words_yieldCancel (.ite (words_error rfl) (words_error rfl))

variable (preparation : ChatPreparation)

/-- The `finish` of an answer comes after a text that is not blank. -/
theorem words_answerComplete :
    Keeps C (Worded [] false) (Worded [] true) (answerComplete cfg preparation) := by
  refine Triple.bind (fun s t => t.responseParts = s.responseParts ∧ Worded [] true t)
    (.get fun s worded => ⟨rfl, worded⟩) fun s => .ite (fun _ => (words_error rfl).strengthen_pre
      fun _ => And.right) fun spoken => ?_
  have frame : Framed cfg (Worded [] false)
      fun t => t.responseParts = s.responseParts ∧ Worded [] true t :=
    framed_words (fun _ holds => holds.2.weaken) fun t u holds same =>
      ⟨same.responseParts.trans holds.1,
        holds.2.same same.emitted same.preparation same.responseParts same.taken⟩
  have stores : Stores fun t => t.responseParts = s.responseParts ∧ Worded [] true t :=
    fun t _ holds => ⟨holds.1, holds.2.same rfl rfl rfl rfl⟩
  refine .bind _ ((keeps_completePreparation frame stores preparation _ _ _).weaken_exc
    fun _ _ => And.right) fun response => .bind _ (words_yieldEvent framed_worded
      (fun _ => And.right) (fun _ => id) fun encodes t holds => ?_) fun _ => words_done
  refine holds.2.emit (formed_of_name (by decide) encodes) (fun same => absurd same (by simp))
    fun _ => .inr ⟨holds.2.prepared rfl, ?_⟩
  rw [holds.1]
  exact spoken

theorem words_consumeEvent (event : StreamEvent) :
    Triple C (Worded [] false) (Worded [event] true) (consumeEvent cfg preparation event)
      (fun _ => Worded [] true) (fun _ => Worded [] true) := by
  cases event with
  | thinking delta =>
    exact .bind _ (words_message.strengthen_pre fun _ worded => worded.silent rfl) fun _ =>
      .pure fun _ => id
  | content delta =>
    exact .bind _ (.modify fun _ worded => worded.content) fun _ => .bind _ words_message fun _ =>
      .pure fun _ => id
  | complete =>
    exact .bind _ ((words_answerComplete preparation).strengthen_pre
      fun _ worded => worded.silent rfl) fun _ => .pure fun _ => id
  | error message =>
    exact .bind _ (words_answerError.strengthen_pre fun _ worded => worded.silent rfl) fun _ =>
      .pure fun _ => id

theorem words_queueGet :
    Triple C (Worded [] false) (Worded [] begun) (queueGet cfg)
      (fun event => Worded event.toList begun) (fun _ => Worded [] begun) := by
  refine .tryCatch (fun _ => Worded [] begun) (.bind _ (keeps_await framed_worded _) fun _ =>
    .bind (fun s t => t = s ∧ Worded [] begun t) (.get fun s worded => ⟨rfl, worded⟩) fun s => ?_)
    fun _ => .ite (fun _ => .pure fun _ => id) fun _ => .raise fun _ => id
  split
  · rename_i event queue next
    refine .bind (fun _ => Worded [event] begun) (.modify ?_) fun _ => .pure fun _ => id
    rintro t ⟨rfl, worded⟩
    refine ⟨worded.formed, worded.refused, worded.spoken, ?_, worded.prepared⟩
    have parts := worded.parts
    rw [contents, List.filterMap_nil, List.append_nil] at parts
    rw [parts, contents, contents, contents, ← List.filterMap_append]
  · exact .raise fun _ => And.right

theorem words_consumeRound :
    Keeps C (Worded [] false) (Worded [] true) (consumeRound cfg preparation) := by
  have frame : Framed cfg (Worded [] false) (Worded [] true) := framed_worded
  refine .bind .get fun s => .ite ?overflowed <| .bind (keeps_disconnected frame) fun gone =>
    .ite ?gone <| .bind (keeps_isCancelled frame) fun cancelled => .ite ?cancelled <|
    Triple.bind _ words_queueGet fun event => ?event
  case overflowed =>
    refine .bind (.modify fun s worded => frame.cancelChild s _ worded) fun _ => .bind ?_ fun _ =>
      .bind words_done fun _ => .pure
    exact words_other (by decide) fun encodes => formed_error encodes rfl
  case gone =>
    exact .bind (keeps_taskManagerCancel frame) fun _ =>
      .bind (words_cancelledPayload.weaken_post fun _ _ => And.right) fun _ => .pure
  case cancelled => exact .bind words_yieldCancel fun _ => .pure
  case event =>
    cases event with
    | none => exact .pure fun _ => id
    | some event => exact words_consumeEvent preparation event

theorem words_answer : Keeps C (Worded [] false) (Worded [] true) (answer cfg preparation) := by
  have frame : Framed cfg (Worded [] false) (Worded [] true) := framed_worded
  refine .bind (words_other (by decide) fun encodes => formed_meta encodes fun id member => ?conversation)
    fun _ => .bind (.modify fun s worded => worded.same rfl rfl rfl rfl) fun _ =>
    .bind (keeps_bind frame _) fun bound => .ite ?refused ?accepted
  case conversation => exact ⟨preparation.conversationId, (Option.some_inj.mp member).symm⟩
  case refused =>
    exact .bind (.modify fun s worded => frame.cancelChild s _ worded) fun _ =>
      .bind (keeps_passCancelled (keeps_await frame _)) fun _ => words_yieldCancel
  case accepted =>
    exact .bind (keeps_await frame _) fun _ =>
      .bind (keeps_bindHandle frame fun s worded => worded.same rfl rfl rfl rfl) fun _ =>
      .bind (keeps_bind frame _) fun bound => .ite words_yieldCancel
        (.repeatUntil (fun _ => Worded.weaken) (words_consumeRound preparation))

/-- What leaves the preparation alone leaves well-formed events when it raises. -/
theorem words_of_unprepared {α : Type} {m : StreamCo α}
    (keeps : Keeps C (Worded [] false) Unprepared m) :
    Triple C (Worded [] false) Unprepared m (fun _ => Unprepared) (fun _ => Worded [] false) :=
  keeps.weaken_exc fun _ _ => Unprepared.toWorded

/-- What ends a stream can start before the preparation. -/
theorem words_early {m : StreamCo Unit} (keeps : Keeps C (Worded [] false) (Worded [] false) m) :
    Triple C (Worded [] false) Unprepared m (fun _ => Worded [] false) (fun _ => Worded [] false) :=
  keeps.strengthen_pre fun _ => Unprepared.toWorded

/-- An event with a phase alone. -/
theorem words_phase {fields : List (String × Json)}
    (unknown : (Json.obj fields).field "conversationId" = none) :
    Triple C (Worded [] false) Unprepared (yieldEvent cfg "meta" (.obj fields)) (fun _ => Unprepared)
      (fun _ => Worded [] false) := by
  refine words_yieldEvent framed_unprepared (fun _ => Unprepared.toWorded)
    (fun _ => Unprepared.toWorded) fun encodes s unprepared => ?_
  refine ⟨unprepared.toWorded.emit_other (formed_meta encodes fun id member => ?_) (by decide),
    unprepared.unprepared, fun sent => (sent_or_of_append sent).elim unprepared.unrejected (by simp)⟩
  rw [unknown] at member
  cases member

theorem words_prepare (permit : StreamQueuePermit) :
    Triple C (Worded [] false) Unprepared (prepare cfg permit) (fun _ => Worded [] false)
      (fun _ => Worded [] false) := by
  have frame : Framed cfg (Worded [] false) Unprepared := framed_unprepared
  have answered {m : StreamCo Unit} (keeps : Keeps C (Worded [] false) (Worded [] true) m) :
      Triple C (Worded [] false) (Worded [] true) m (fun _ => Worded [] false)
        (fun _ => Worded [] false) :=
    keeps.conseq (fun _ => id) (fun _ _ => Worded.weaken) fun _ _ => Worded.weaken
  refine .bind _ (words_of_unprepared (.modify fun s unprepared => ?permit)) fun _ =>
    .bind _ (words_phase rfl) fun _ =>
    .bind _ (words_of_unprepared (.modify fun s unprepared => ?started)) fun _ =>
    .bind _ (words_of_unprepared (keeps_bind frame _)) fun bound =>
    .ite (fun _ => words_early words_yieldCancel) fun _ =>
    .bind _ (words_of_unprepared (keeps_awaitPreparation frame)) fun preparation =>
    .bind (fun _ => Worded [] true) (.modify fun s unprepared => ?prepared) fun _ =>
    answered (.bind (keeps_isCancelled framed_worded) fun cancelled =>
      .ite words_yieldCancel (words_answer preparation))
  case permit | started => exact unprepared.same rfl rfl rfl rfl
  case prepared =>
    refine ⟨unprepared.formed, fun sent => absurd sent unprepared.unrejected, fun sent => ?_,
      unprepared.parts, fun _ => rfl⟩
    exact (unprepared.spoken sent).imp_right fun speaking => ⟨rfl, speaking.2⟩

/-- The `finish` of a rejection comes after it. -/
theorem words_yieldRejection :
    Triple C (Worded [] false) Unprepared (yieldRejection cfg) (fun _ => Worded [] false)
      (fun _ => Worded [] false) := by
  have refused : Framed cfg (Worded [] false) fun s => Worded [] false s ∧ Sent s "reject" := by
    refine framed_words (fun _ => And.left) fun s t holds same => ⟨holds.1.same same.emitted
      same.preparation same.responseParts same.taken, ?_⟩
    rw [Sent, same.emitted]
    exact holds.2
  refine .bind _ (words_of_unprepared (keeps_recordQueueRejection framed_unprepared
    persists_unprepared)) fun rejection => .bind _ (words_yieldEvent refused
      (fun _ => Unprepared.toWorded) (fun _ => And.left) fun encodes s unprepared => ?reject) fun _ =>
    .bind _ (words_yieldEvent framed_worded (fun _ => And.left) (fun _ => id)
      fun encodes s holds => ?finish) fun _ => words_done
  case reject =>
    refine ⟨unprepared.toWorded.emit (formed_reject encodes rfl) (fun _ => unprepared.unprepared)
      fun same => absurd same (by simp), _, List.mem_append_right _ (List.mem_singleton_self _), rfl⟩
  case finish =>
    exact holds.1.emit (formed_of_name (by decide) encodes) (fun same => absurd same (by simp))
      fun _ => .inl holds.2

theorem words_tryBlock :
    Triple C (Worded [] false) Unprepared (tryBlock cfg) (fun _ => Worded [] false)
      (fun _ => Worded [] false) := by
  have frame : Framed cfg (Worded [] false) Unprepared := framed_unprepared
  refine .bind _ (words_phase rfl) fun _ =>
    .bind _ (words_of_unprepared (keeps_isCancelled frame)) fun cancelled =>
    .ite (fun _ => words_early words_yieldCancel) fun _ =>
    .bind _ (words_of_unprepared (keeps_await frame _)) fun admission => ?_
  split
  · exact words_early words_yieldCancel
  · exact words_yieldRejection
  · exact words_prepare _
  · exact words_early (words_error rfl)

theorem words_stream :
    Triple C (Worded [] false) Unprepared (stream cfg) (fun _ => Worded [] false)
      (fun _ => Worded [] false) := by
  have frame : Framed cfg (Worded [] false) Unprepared := framed_unprepared
  have clean : Keeps C (Worded [] false) (Worded [] false) (cleanup cfg) :=
    keeps_cleanup framed_worded fun s _ _ worded => worded.same rfl rfl rfl rfl
  exact .bind _ (words_of_unprepared (keeps_register frame)) fun registered =>
    .ite (fun _ => words_early (words_error rfl)) fun _ =>
    .bind (fun _ => Unprepared) (.modify fun s unprepared => unprepared.same rfl rfl rfl rfl) fun _ =>
    .tryFinally (fun _ => Worded [] false) (fun _ => Worded [] false)
      (.tryCatch _ words_tryBlock words_handleRaised) (fun _ => clean) fun _ => clean

end Generator

/-- Wherever a run stands, the events sent are well formed. -/
theorem stream_worded (cfg : Config) (now : ℚ) (tasks : StreamTaskManager ChildRef)
    (tape : List (Turn Action Point Raised Reply)) :
    Worded [] false (stream cfg (initial now tasks) tape).state := by
  have silent (name : String) : ¬ Sent (initial now tasks) name := fun ⟨_, member, _⟩ =>
    absurd member List.not_mem_nil
  have unprepared : Unprepared (initial now tasks) :=
    ⟨⟨fun _ member => absurd member List.not_mem_nil, fun sent => absurd sent (silent _),
      fun sent => absurd sent (silent _), rfl, fun begun => absurd begun (by decide)⟩, rfl, silent _⟩
  exact Triple.always (C := fun _ => True) words_stream unprepared fun _ _ => trivial

end HeyeeAgent.StreamChat.Lifecycle
