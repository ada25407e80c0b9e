import HeyeeAgent.StreamChat.Memory

/-! # How an answer ends

An answer that nothing stops ends with the event taken last, and every delta before it has been
sent. It ends with `complete`, or in an `error` at an event that cannot be sent or is an error
itself, or because the model could not be started. After `complete` it ends in the same `error` only
if the storage fails or returns what cannot be encoded.
-/

namespace HeyeeAgent.StreamChat.Lifecycle

open Python StreamQueueLimiter Coroutine

/-- A delta that can be encoded, or the end of the answer. -/
def StreamEvent.sound : StreamEvent → Bool
  | .thinking delta | .content delta => delta.encodes
  | .complete => true
  | .error _ => false

/-- The generator has sent an `error`. -/
def Errored (s : State) : Prop := Sent s "error"

/-- A cancellation or a disconnect has been acted on. -/
def Halted (s : State) : Prop := s.stopped = true

/-- The answer has not begun. -/
def Unbegun (s : State) : Prop := s.answerStartedAt.isSome = false

/-- The answer was not left to end by itself: it was stopped, or its buffer has overflowed, or it
has not begun. -/
def Excused (s : State) : Prop := Halted s ∨ s.overflowed = true ∨ Unbegun s

/-- The model could not be started, or the event taken last is unsound. -/
def Broken (q : Prop) (s : State) : Prop := q ∨ ∃ earlier event,
  s.taken = earlier ++ [event] ∧ messages s = deltas earlier ∧ event.sound = false

/-- Every delta has been sent, up to `complete`. -/
structure Whole (s : State) : Prop where
  shown : messages s = deltas s.taken
  sound : ∀ event ∈ s.taken, event.sound = true
  complete : ∃ earlier, s.taken = earlier ++ [.complete]

/-- How a run ends that returns; a blank answer ends in an `error` of its own. -/
def Concluded (w q : Prop) (s : State) : Prop :=
  Excused s ∨ Broken q s ∧ Errored s ∨ Whole s ∧ (w → text s ≠ [] → ¬ Errored s)

/-- The connection can be asked for, and the start of the model fails only under `q`. -/
def Reached (q : Prop) : Visit State Point Raised Reply → Prop
  | ⟨.isDisconnected, _, .error x⟩ => x.isException = false
  | ⟨.modelStart, _, .error x⟩ => x.isException = true → q
  | _ => True

/-- What comes from outside can be encoded, and the storage does not fail. -/
def Untroubled (cfg : Config) : Visit State Point Raised Reply → Prop
  | ⟨.preparation, s, .ok _⟩ =>
    ∀ preparation ∈ Child.result s.preparationTask, Encodable cfg preparation
  | ⟨.memoryAppend, _, .ok messageId⟩ => ∀ id ∈ (messageId : Option Str), Str.encodes id = true
  | ⟨.memoryAppend, _, .error x⟩ | ⟨.compressIfNeeded, _, .error x⟩ | ⟨.compression, _, .error x⟩ =>
    x.isException = false
  | _ => True

instance (q : Prop) [Decidable q] : DecidablePred (Reached q)
  | ⟨.isDisconnected, _, .error x⟩ => inferInstanceAs (Decidable (x.isException = false))
  | ⟨.modelStart, _, .error x⟩ => inferInstanceAs (Decidable (x.isException = true → q))
  | ⟨.isDisconnected, _, .ok _⟩ | ⟨.modelStart, _, .ok _⟩ | ⟨.yielding, _, _⟩ | ⟨.backend, _, _⟩
  | ⟨.acquire, _, _⟩ | ⟨.resolveMemory, _, _⟩ | ⟨.loadAndAppend, _, _⟩ | ⟨.memoryAppend, _, _⟩
  | ⟨.compressIfNeeded, _, _⟩ | ⟨.compression, _, _⟩ | ⟨.preparation, _, _⟩ | ⟨.queueGet, _, _⟩
  | ⟨.lease, _, _⟩ | ⟨.conditionLock, _, _⟩ | ⟨.zrem, _, _⟩ | ⟨.publish, _, _⟩ => isTrue trivial

instance (cfg : Config) : DecidablePred (Untroubled cfg)
  | ⟨.preparation, s, .ok _⟩ => inferInstanceAs (Decidable
      (∀ preparation ∈ Child.result s.preparationTask, Encodable cfg preparation))
  | ⟨.memoryAppend, _, .ok messageId⟩ => inferInstanceAs (Decidable
      (∀ id ∈ (messageId : Option Str), Str.encodes id = true))
  | ⟨.memoryAppend, _, .error x⟩ | ⟨.compressIfNeeded, _, .error x⟩ | ⟨.compression, _, .error x⟩ =>
    inferInstanceAs (Decidable (x.isException = false))
  | ⟨.preparation, _, .error _⟩ | ⟨.compressIfNeeded, _, .ok _⟩ | ⟨.compression, _, .ok _⟩
  | ⟨.isDisconnected, _, _⟩ | ⟨.modelStart, _, _⟩ | ⟨.yielding, _, _⟩ | ⟨.backend, _, _⟩
  | ⟨.acquire, _, _⟩ | ⟨.resolveMemory, _, _⟩ | ⟨.loadAndAppend, _, _⟩ | ⟨.queueGet, _, _⟩
  | ⟨.lease, _, _⟩ | ⟨.conditionLock, _, _⟩ | ⟨.zrem, _, _⟩ | ⟨.publish, _, _⟩ => isTrue trivial

instance (s : State) : Decidable (Errored s) := inferInstanceAs (Decidable (Sent s "error"))

/-- The title can be encoded, and pydantic accepts a response that can be. -/
structure Accepting (cfg : Config) : Prop where
  title : (title cfg).encodes = true
  validates : ∀ response, response.reply.encodes = true → (finishData cfg response).encodes = true →
    cfg.responseValidates response = true

/-- The condition along the run; under `w` nothing but the answer can fail. -/
def Fair (cfg : Config) (w q : Prop) (v : Visit State Point Raised Reply) : Prop :=
  Reached q v ∧ (w → Untroubled cfg v)

/-- The way to the end of the answer: whether it is prepared, and whether it has begun. -/
structure Faring (held begun : Bool) (s : State) : Prop where
  shown : messages s = deltas s.taken
  parts : s.responseParts = contents s.taken
  sound : ∀ event ∈ s.taken, event.sound = true
  unerrored : ¬ Errored s
  held : s.preparation.isSome = held
  begun : s.answerStartedAt.isSome = begun

/-- The event just taken is dealt with next; its `response` delta may not be among the parts yet. -/
structure Facing (event : StreamEvent) (owed : List Str) (s : State) : Prop where
  taken : ∃ earlier, s.taken = earlier ++ [event] ∧ messages s = deltas earlier ∧
    ∀ event ∈ earlier, event.sound = true
  parts : s.responseParts ++ owed = contents s.taken
  unerrored : ¬ Errored s
  held : s.preparation.isSome = true
  begun : s.answerStartedAt.isSome = true

/-- The answer is complete; under `w` it has not failed since. -/
structure Closing (w : Prop) (s : State) : Prop where
  whole : Whole s
  unerrored : w → text s ≠ [] → ¬ Errored s
  held : s.preparation.isSome = true
  begun : s.answerStartedAt.isSome = true

/-- The handlers send the `error` of a failed answer. -/
structure Failing (w q : Prop) (s : State) : Prop where
  reason : Broken q s ∨ Whole s ∧ ¬ w
  held : s.preparation.isSome = true
  begun : s.answerStartedAt.isSome = true

/-- An exception on its way to the handlers. -/
def Escaping (w q : Prop) (x : Raised) (s : State) : Prop :=
  x.isException = true → Excused s ∨ Failing w q s

section Story

variable {cfg : Config} {w q : Prop} {s t : State} {held begun : Bool} {event : StreamEvent}
  {owed : List Str}

/-- What the assertions above read. -/
structure Onward (s t : State) : Prop where
  shown : messages t = messages s
  errors : Errored t ↔ Errored s
  taken : t.taken = s.taken
  parts : t.responseParts = s.responseParts
  preparation : t.preparation = s.preparation
  begun : t.answerStartedAt = s.answerStartedAt
  stopped : t.stopped = s.stopped
  overflowed : s.overflowed = true → t.overflowed = true

theorem Onward.of_locals (same : SameLocals s t)
    (flooded : s.overflowed = true → t.overflowed = true) : Onward s t := by
  refine ⟨?_, ?_, same.taken, same.responseParts, same.preparation, same.answerStartedAt,
    same.stopped, flooded⟩
  · rw [messages, messages, same.emitted]
  · rw [Errored, Errored, Sent, Sent, same.emitted]

theorem Onward.text (onward : Onward s t) : Lifecycle.text t = Lifecycle.text s := by
  rw [Lifecycle.text, Lifecycle.text, onward.taken]

theorem Excused.onward (excused : Excused s) (onward : Onward s t) : Excused t := by
  rcases excused with stopped | flooded | early
  · exact .inl (onward.stopped.trans stopped)
  · exact .inr (.inl (onward.overflowed flooded))
  · exact .inr (.inr ((congrArg Option.isSome onward.begun).trans early))

theorem Broken.onward (broken : Broken q s) (onward : Onward s t) : Broken q t := by
  rw [Broken, onward.taken, onward.shown]
  exact broken

theorem Whole.onward (whole : Whole s) (onward : Onward s t) : Whole t where
  shown := by rw [onward.shown, onward.taken, whole.shown]
  sound := onward.taken ▸ whole.sound
  complete := onward.taken ▸ whole.complete

theorem Concluded.onward (concluded : Concluded w q s) (onward : Onward s t) : Concluded w q t := by
  rcases concluded with excused | ⟨broken, failed⟩ | ⟨whole, unerrored⟩
  · exact .inl (excused.onward onward)
  · exact .inr (.inl ⟨broken.onward onward, onward.errors.mpr failed⟩)
  · exact .inr (.inr ⟨whole.onward onward, fun works spoken failed =>
      unerrored works (onward.text ▸ spoken) (onward.errors.mp failed)⟩)

theorem Faring.onward (faring : Faring held begun s) (onward : Onward s t) :
    Faring held begun t where
  shown := by rw [onward.shown, onward.taken, faring.shown]
  parts := by rw [onward.parts, onward.taken, faring.parts]
  sound := onward.taken ▸ faring.sound
  unerrored failed := faring.unerrored (onward.errors.mp failed)
  held := onward.preparation ▸ faring.held
  begun := onward.begun ▸ faring.begun

theorem Facing.onward (facing : Facing event owed s) (onward : Onward s t) :
    Facing event owed t where
  taken := by
    rw [onward.taken, onward.shown]
    exact facing.taken
  parts := by rw [onward.parts, onward.taken, facing.parts]
  unerrored failed := facing.unerrored (onward.errors.mp failed)
  held := onward.preparation ▸ facing.held
  begun := onward.begun ▸ facing.begun

theorem Closing.onward (closing : Closing w s) (onward : Onward s t) : Closing w t where
  whole := closing.whole.onward onward
  unerrored works spoken failed :=
    closing.unerrored works (onward.text ▸ spoken) (onward.errors.mp failed)
  held := onward.preparation ▸ closing.held
  begun := onward.begun ▸ closing.begun

theorem Closing.concluded (closing : Closing w s) : Concluded w q s :=
  .inr (.inr ⟨closing.whole, closing.unerrored⟩)

theorem Faring.excused (faring : Faring held false s) : Excused s := .inr (.inr faring.begun)

/-- An overflow is not taken back. -/
theorem overflowed_act {e : Action} (taken : act cfg s e = some t) (flooded : s.overflowed = true) :
    t.overflowed = true := by
  rcases act_pipe taken with pipe | ⟨event, -, rfl⟩ | pushed
  · exact pipe.overflowed.trans flooded
  · exact (schedule_overflowed { s with called := s.called ++ [event] } event).trans flooded
  · unfold State.push at pushed
    split at pushed
    · cases pushed
    · dsimp only at pushed
      rw [if_pos flooded] at pushed
      cases pushed
      exact flooded

/-- An assertion about these alone. -/
theorem framed_onward {K : State → Prop} (respects : ∀ s t, K s → Onward s t → K t) :
    Framed cfg (fun _ => True) K where
  waits _ _ := trivial
  act s _ t holds taken := respects s t holds (.of_locals (act_locals taken) (overflowed_act taken))
  cancelChild s ref holds := respects s _ holds (.of_locals (locals_cancelChild s ref)
    (pipe_cancelChild s ref).overflowed.trans)
  registry s _ _ _ holds := respects s _ holds ⟨rfl, .rfl, rfl, rfl, rfl, rfl, rfl, id⟩
  lease s holds := respects s _ holds ⟨rfl, .rfl, rfl, rfl, rfl, rfl, rfl, id⟩

/-- An event that is neither a delta nor an `error`. -/
theorem onward_emit (s : State) {event : SseEvent} (other : event.name ≠ "message")
    (harmless : event.name ≠ "error") : Onward s { s with emitted := s.emitted ++ [event] } := by
  refine ⟨messages_append s event.data other, ⟨sent_append s event.data harmless, ?_⟩,
    rfl, rfl, rfl, rfl, rfl, id⟩
  rintro ⟨earlier, member, named⟩
  exact ⟨earlier, List.mem_append_left _ member, named⟩

theorem framed_unbegun : Framed cfg (fun _ => True) Unbegun :=
  framed_onward fun _ _ unbegun onward => (congrArg Option.isSome onward.begun).trans unbegun

theorem framed_excused : Framed cfg (fun _ => True) Excused :=
  framed_onward fun _ _ => Excused.onward

theorem framed_faring : Framed cfg (fun _ => True) (Faring held begun) :=
  framed_onward fun _ _ => Faring.onward

theorem framed_closing : Framed cfg (fun _ => True) (Closing w) :=
  framed_onward fun _ _ => Closing.onward

theorem emitsEnds_excused : EmitsEnds Excused := ⟨fun _ _ => id, fun _ _ => id, fun _ _ => id⟩

end Story

section Stops

variable {cfg : Config} {w q : Prop}

theorem framed_halted : Framed cfg (fun _ => True) Halted :=
  framed_onward fun _ _ halted onward => onward.stopped.trans halted

/-- A cancellation marks the stream as stopped, whatever becomes of the text. -/
theorem halts_cancelledPayload {C : Visit State Point Raised Reply → Prop} :
    Triple C (fun _ => True) (fun _ => True) (cancelledPayload cfg) (fun _ => Halted)
      (fun _ => Halted) := by
  have frame : Framed cfg (fun _ => True) Halted := framed_halted
  unfold cancelledPayload
  refine .bind (fun _ => Halted) (.modify fun _ _ => rfl) fun _ =>
    .bind (fun _ => Halted) (.get fun _ => id) fun s => ?_
  dsimp only
  split
  · exact .ite (fun _ => .bind (fun _ => Halted) (.modify fun _ => id) fun _ =>
      keeps_orElse (.bind (keeps_completePreparation frame (fun _ _ => id) _ _ _ _) fun _ => .pure)
        .pure) fun _ => .pure fun _ => id
  · exact .pure fun _ => id

theorem excuses_cancelledPayload {C : Visit State Point Raised Reply → Prop} :
    Triple C (fun _ => True) (fun _ => True) (cancelledPayload cfg) (fun _ => Excused)
      (fun _ => Excused) :=
  halts_cancelledPayload.conseq (fun _ => id) (fun _ _ => .inl) fun _ _ => .inl

theorem excuses_yieldCancel {C : Visit State Point Raised Reply → Prop} :
    Triple C (fun _ => True) (fun _ => True) (yieldCancel cfg) (fun _ => Excused)
      (fun _ => Excused) :=
  .bind (fun _ => Excused) excuses_cancelledPayload fun _ =>
    keeps_yieldTwo framed_excused emitsEnds_excused.cancel emitsEnds_excused.done _ _

/-- Where a stop ends the stream. -/
theorem concludes_excused {α : Type} {pre : State → Prop} {m : StreamCo α}
    {C : Visit State Point Raised Reply → Prop}
    (halts : Triple C (fun _ => True) (fun _ => True) m (fun _ => Excused) (fun _ => Excused)) :
    Triple C (fun _ => True) pre m (fun _ => Concluded w q) (Escaping w q) :=
  halts.conseq (fun _ _ => trivial) (fun _ _ => .inl) fun _ _ excused _ => .inl excused

end Stops

section Events

variable {cfg : Config} {w q : Prop} {event : StreamEvent}

/-- Of a `yield` comes out only the end of the generator. -/
theorem escaping_yielding {K : State → Prop} :
    Raises (Fair cfg w q) K .yielding (Escaping w q) := by
  intro s x _ admitted _ failed
  have closed : x = .generatorExit := by simpa [admits] using admitted
  rw [closed] at failed
  cases failed

/-- An event other than a delta or an `error`. -/
theorem concludes_yieldEvent {K : State → Prop} (respects : ∀ s t, K s → Onward s t → K t)
    {name : String} {data : Json} (other : name ≠ "message")
    (harmless : name ≠ "error")
    (unsent : data.encodes = false → ∀ s, K s → Escaping w q (.exception "UnicodeEncodeError") s) :
    Triple (Fair cfg w q) (fun _ => True) K (yieldEvent cfg name data) (fun _ => K)
      (Escaping w q) := by
  unfold yieldEvent
  refine .ite (fun _ => .bind (fun _ => K) (.modify fun s holds =>
    respects s _ holds (onward_emit s other harmless)) fun _ =>
    returns_await (framed_onward respects) escaping_yielding) fun unencodable => .raise ?_
  exact unsent (by simpa using unencodable)

theorem concludes_done {K : State → Prop} (respects : ∀ s t, K s → Onward s t → K t) :
    Triple (Fair cfg w q) (fun _ => True) K (yieldEvent cfg "done" (taskData cfg)) (fun _ => K)
      (Escaping w q) :=
  concludes_yieldEvent respects (by decide) (by decide) fun unencodable => by simp at unencodable

/-- An `error` that ends the answer. -/
theorem concludes_error {K : State → Prop} (message : String) (ended : ∀ s, K s → Concluded w q
      { s with emitted := s.emitted ++ [⟨"error", errorData message⟩] }) :
    Triple (Fair cfg w q) (fun _ => True) K
      (do yieldEvent cfg "error" (errorData message); yieldEvent cfg "done" (taskData cfg))
      (fun _ => Concluded w q) (Escaping w q) := by
  refine .bind (fun _ => Concluded w q) ?_ fun _ => concludes_done fun _ _ => Concluded.onward
  unfold yieldEvent
  rw [if_pos (encodes_errorData _)]
  exact .bind (fun _ => Concluded w q) (.modify ended) fun _ =>
    returns_await (framed_onward fun _ _ => Concluded.onward) escaping_yielding

theorem Broken.emit {s : State} (broken : Broken q s) (data : Json) :
    Concluded w q { s with emitted := s.emitted ++ [⟨"error", data⟩] } := by
  refine .inr (.inl ⟨?_, _, List.mem_append_right _ (List.mem_singleton_self _), rfl⟩)
  rw [Broken, messages_append s data (by decide)]
  exact broken

theorem Whole.emit {s : State} (whole : Whole s) (data : Json) :
    Whole { s with emitted := s.emitted ++ [⟨"error", data⟩] } where
  shown := (messages_append s data (by decide)).trans whole.shown
  sound := whole.sound
  complete := whole.complete

/-- The event taken last is the reason for the `error`. -/
theorem Facing.escaping {owed : List Str} {s : State} (facing : Facing event owed s)
    (unsound : event.sound = false) (x : Raised) : Escaping w q x s := by
  obtain ⟨earlier, taken, shown, -⟩ := facing.taken
  exact fun _ =>
    .inr ⟨.inl (.inr ⟨earlier, event, taken, shown, unsound⟩), facing.held, facing.begun⟩

/-- A delta is sent, or cannot be encoded. -/
theorem concludes_delta {data : Json} (delta : event.delta = some data)
    (own : event.sound = data.encodes) :
    Triple (Fair cfg w q) (fun _ => True) (Facing event []) (yieldEvent cfg "message" data)
      (fun _ => Faring true true) (Escaping w q) := by
  unfold yieldEvent
  refine .ite (fun encodable => .bind (fun _ => Faring true true) (.modify fun s facing => ?_)
    fun _ => returns_await framed_faring escaping_yielding) fun unencodable => .raise fun s facing =>
      facing.escaping (own.trans (by simpa using unencodable)) _
  obtain ⟨earlier, taken, shown, sound⟩ := facing.taken
  have parts := facing.parts
  rw [List.append_nil] at parts
  refine ⟨?_, parts, fun event' member => ?_, ?_, facing.held, facing.begun⟩
  · change messages { s with emitted := s.emitted ++ [⟨"message", data⟩] } = deltas s.taken
    rw [taken, deltas, List.filterMap_append]
    simp only [messages, List.filterMap_append] at shown ⊢
    rw [shown]
    simp [deltas, delta]
  · rw [taken] at member
    rcases List.mem_append.mp member with before | last
    · exact sound event' before
    · rw [List.mem_singleton.mp last, own, encodable]
  · exact fun failed => facing.unerrored (sent_append s data (by decide) failed)

end Events

section Answer

variable {cfg : Config} {w q : Prop} {preparation : ChatPreparation} {reply : Str}

theorem encodes_strip {text : Str} (encodable : text.encodes = true) :
    (Str.strip text).encodes = true := by
  obtain ⟨before, after, split, -, -⟩ := Str.strip_split text
  rw [Str.encodes, List.all_eq_true] at encodable ⊢
  refine fun c member => encodable c ?_
  rw [split]
  exact List.mem_append_left _ (List.mem_append_right _ member)

/-- The text of sound events can be encoded. -/
theorem encodes_contents {events : List StreamEvent}
    (sound : ∀ event ∈ events, event.sound = true) :
    Str.encodes (contents events).flatten = true := by
  rw [Str.encodes, List.all_eq_true]
  intro c member
  obtain ⟨delta, listed, inside⟩ := List.mem_flatten.mp member
  obtain ⟨event, listed, same⟩ := List.mem_filterMap.mp listed
  have encodable := sound event listed
  cases event with
  | content delta' =>
    cases same
    rw [StreamEvent.sound, Str.encodes, List.all_eq_true] at encodable
    exact encodable c inside
  | _ => cases same

/-- A complete answer whose storage, under `w`, does not fail. -/
def Storeable (w : Prop) (x : Raised) (s : State) : Prop :=
  Closing w s ∧ (x.isException = true → ¬ w)

theorem Storeable.escaping {x : Raised} {s : State} (storeable : Storeable w x s) :
    Escaping w q x s := fun failed =>
  .inr ⟨.inr ⟨storeable.1.whole, storeable.2 failed⟩, storeable.1.held, storeable.1.begun⟩

theorem closes_persistMemoryReply (asyncCompress : Bool) :
    Triple (Fair cfg w q) (fun _ => True) (Closing w) (persistMemoryReply cfg asyncCompress reply)
      (fun messageId s => (w → ∀ id ∈ messageId, Str.encodes id = true) ∧ Closing w s)
      (Storeable w) := by
  have frame : Framed cfg (fun _ => True) (Closing w) := framed_closing
  have failing {p : Point} (storage : ∀ s x, w → Untroubled cfg ⟨p, s, .error x⟩ →
      x.isException = false) : Raises (Fair cfg w q) (Closing w) p (Storeable w) := by
    intro s x closing _ fair
    refine ⟨closing, fun failed works => ?_⟩
    rw [storage s x works (fair.2 works)] at failed
    cases failed
  unfold persistMemoryReply
  refine .bind (fun messageId s => (w → ∀ id ∈ messageId, Str.encodes id = true) ∧ Closing w s)
    (.call frame.waits (fun s _ closing _ fair => ⟨fair.2, closing⟩)
      (failing (p := .memoryAppend) fun _ _ _ => id)) fun messageId => .given fun encodable =>
    .bind (fun _ => Closing w) (.modify fun s closing =>
      closing.onward ⟨rfl, .rfl, rfl, rfl, rfl, rfl, rfl, id⟩) fun _ =>
    .bind _ (returns_callOut frame (failing fun _ _ _ => id)) fun awaitable => ?_
  have filtered : Triple (Fair cfg w q) (fun _ => True) (Closing w)
      (pure (messageId.filter (· ≠ [])) : StreamCo (Option Str))
      (fun messageId s => (w → ∀ id ∈ messageId, Str.encodes id = true) ∧ Closing w s)
      (Storeable w) :=
    .pure fun s closing => ⟨fun works id member =>
      encodable works id (Option.eq_some_of_filter_eq_some member), closing⟩
  exact .ite (fun _ => .bind _ (returns_await frame (failing fun _ _ _ => id)) fun _ => filtered)
    fun _ => filtered

/-- The `finish` that can be sent. -/
theorem encodes_finishData (accepting : Accepting cfg) (encodable : Encodable cfg preparation)
    {messageId : Option Str} (identified : ∀ id ∈ messageId, Str.encodes id = true) :
    (finishData cfg (answerResponse preparation reply messageId)).encodes = true := by
  let response := answerResponse preparation reply messageId
  have fields : Json.encodesFields (responseFields cfg response) = true := encodable.2
  have message : (Json.ofOption (response.messageId.map .str)).encodes = true :=
    Json.encodes_ofOption_str identified
  change (finishData cfg response).encodes = true
  simp only [finishData, Json.encodes, Json.encodesFields_append, Json.encodesFields, fields,
    message, accepting.title, Bool.and_true]
  exact encodable.1

theorem closes_completePreparation (accepting : w → Accepting cfg)
    (encodable : w → Encodable cfg preparation) (written : reply.encodes = true) :
    Triple (Fair cfg w q) (fun _ => True) (Closing w)
      (completePreparation cfg preparation reply [] false)
      (fun response s => (w → (finishData cfg response).encodes = true) ∧ Closing w s)
      (Storeable w) := by
  refine .bind (fun messageId s => (w → ∀ id ∈ messageId, Str.encodes id = true) ∧ Closing w s)
    (.ite (fun _ => .pure fun s closing => ⟨fun _ _ member => (nomatch member), closing⟩) fun _ =>
      closes_persistMemoryReply _) fun messageId => .given fun identified => ?_
  simp only [List.append_nil]
  change Triple _ _ _ (if cfg.responseValidates (answerResponse preparation reply messageId) = true
    then pure (answerResponse preparation reply messageId) else _) _ _
  have sendable (works : w) : (finishData cfg (answerResponse preparation reply messageId)).encodes =
      true := encodes_finishData (accepting works) (encodable works) (identified works)
  refine .ite (fun _ => .pure fun s closing => ⟨sendable, closing⟩) fun refused =>
    .raise fun s closing => ⟨closing, fun _ works => refused ?_⟩
  exact (accepting works).validates _ written (sendable works)

/-- The answer is complete, and nothing of it is owed. -/
theorem Facing.closing {s : State} (facing : Facing .complete [] s) : Closing w s := by
  obtain ⟨earlier, taken, shown, sound⟩ := facing.taken
  refine ⟨⟨?_, fun event member => ?_, earlier, taken⟩, fun _ _ => facing.unerrored, facing.held,
    facing.begun⟩
  · rw [shown, taken, deltas, deltas, List.filterMap_append]
    simp [StreamEvent.delta]
  · rw [taken] at member
    rcases List.mem_append.mp member with before | last
    · exact sound event before
    · rw [List.mem_singleton.mp last]
      rfl

theorem concludes_answerComplete (accepting : w → Accepting cfg)
    (encodable : w → Encodable cfg preparation) :
    Triple (Fair cfg w q) (fun _ => True) (Facing .complete []) (answerComplete cfg preparation)
      (fun _ => Concluded w q) (Escaping w q) := by
  refine .bind (fun s t => Str.strip s.responseParts.flatten = text t ∧
    Str.encodes s.responseParts.flatten = true ∧ Closing w t) (.get fun s facing => ?_) fun s => ?_
  · have parts := facing.parts
    rw [List.append_nil] at parts
    rw [parts]
    exact ⟨rfl, encodes_contents (facing.closing (w := w)).whole.sound, facing.closing⟩
  · dsimp only
    refine .ite (fun blank => concludes_error "model returned empty stream" ?_) fun _ => ?_
    · rintro t ⟨same, -, closing⟩
      exact .inr (.inr
        ⟨closing.whole.emit _, fun _ spoken => absurd (same.symm.trans blank) spoken⟩)
    · refine .bind _ (Triple.strengthen_pre (.given fun written =>
        (closes_completePreparation accepting encodable (encodes_strip written)).weaken_exc
          fun _ _ => Storeable.escaping) fun t => And.right) fun response =>
        .given fun sendable => .bind _ (concludes_yieldEvent (fun _ _ => Closing.onward) (by decide)
          (by decide) ?_) fun _ =>
        (concludes_done fun _ _ => Closing.onward).weaken_post fun _ _ => Closing.concluded
      intro unencodable s closing
      refine Storeable.escaping ⟨closing, fun _ works => ?_⟩
      rw [sendable works] at unencodable
      cases unencodable

theorem concludes_answerError {message : Str} {owed : List Str} :
    Triple (Fair cfg w q) (fun _ => True) (Facing (.error message) owed) (answerError cfg)
      (fun _ => Concluded w q) (Escaping w q) := by
  refine .bind _ (returns_isCancelled (framed_onward fun _ _ => Facing.onward)) fun cancelled => .ite
    (fun _ => concludes_excused excuses_yieldCancel) fun _ =>
      concludes_error "AI stream is unavailable" fun s facing => ?_
  obtain ⟨earlier, taken, shown, -⟩ := facing.taken
  exact Broken.emit (.inr ⟨earlier, _, taken, shown, rfl⟩) _

/-- What a round leaves: the next round, or the end. -/
def Rounding (w q : Prop) (next : Option Unit) (s : State) : Prop :=
  if next.isSome then Concluded w q s else Faring true true s

theorem concludes_consumeEvent (accepting : w → Accepting cfg)
    (encodable : w → Encodable cfg preparation) (event : StreamEvent) :
    Triple (Fair cfg w q) (fun _ => True) (Facing event (contents [event]))
      (consumeEvent cfg preparation event) (Rounding w q) (Escaping w q) := by
  have encodes (kind : String) (delta : Str) : delta.encodes = (deltaData kind delta).encodes := by
    simp [deltaData, Json.encodes, Json.encodesFields]
  cases event with
  | thinking delta => exact .bind _ (concludes_delta rfl (encodes _ _)) fun _ => .pure fun _ => id
  | content delta =>
    refine .bind (fun _ => Facing (.content delta) []) (.modify fun s facing => ?_) fun _ =>
      .bind _ (concludes_delta rfl (encodes _ _)) fun _ => .pure fun _ => id
    exact ⟨facing.taken, (List.append_nil _).trans facing.parts, facing.unerrored, facing.held,
      facing.begun⟩
  | complete =>
    exact .bind _ (concludes_answerComplete accepting encodable) fun _ => .pure fun _ => id
  | error message => exact .bind _ concludes_answerError fun _ => .pure fun _ => id

/-- What `wait_for(queue.get())` leaves. -/
def Getting : Option StreamEvent → State → Prop
  | some event, s => Facing event (contents [event]) s
  | none, s => Faring true true s

theorem concludes_queueGet :
    Triple (Fair cfg w q) (fun _ => True) (Faring true true) (queueGet cfg) Getting
      (Escaping w q) := by
  have awaited : Triple (Fair cfg w q) (fun _ => True) (Faring true true) (await cfg .queueGet)
      (fun _ s => s.queue ≠ [] ∧ Faring true true s)
      (fun x s => (x = .timeoutError ∨ x = .cancelledError) ∧ Faring true true s) := by
    have frame : Framed cfg (fun _ => True) (Faring true true) := framed_faring
    refine .await frame.waits frame.act (fun s _ faring admitted _ => ⟨?_, faring⟩)
      fun s x faring admitted _ => ⟨by simpa [world, admits] using admitted, faring⟩
    simpa [world, admits] using admitted
  refine .tryCatch _ (.bind _ awaited fun _ => .bind (fun s t => t = s ∧ t.queue ≠ [] ∧
    Faring true true t) (.get fun s holds => ⟨rfl, holds⟩) fun s => ?_) fun x => .ite
    (fun _ => .pure fun _ => And.right) fun other => .raise ?_
  · split
    · rename_i event queue next
      refine .bind (fun _ => Facing event (contents [event])) (.modify ?_) fun _ => .pure fun _ => id
      rintro t ⟨rfl, -, faring⟩
      refine ⟨⟨t.taken, rfl, faring.shown, faring.sound⟩, ?_, faring.unerrored, faring.held,
        faring.begun⟩
      change t.responseParts ++ contents [event] = contents (t.taken ++ [event])
      rw [faring.parts, contents, contents, contents, List.filterMap_append]
    · rename_i empty
      refine .unreachable ?_
      rintro t ⟨rfl, waiting, -⟩
      exact waiting empty
  · rintro s ⟨expected, -⟩ failed
    rw [expected.resolve_left other] at failed
    cases failed

theorem concludes_consumeRound (accepting : w → Accepting cfg)
    (encodable : w → Encodable cfg preparation) :
    Triple (Fair cfg w q) (fun _ => True) (Faring true true) (consumeRound cfg preparation)
      (Rounding w q) (Escaping w q) := by
  have frame : Framed cfg (fun _ => True) (Faring true true) := framed_faring
  have excused : Framed cfg (fun _ => True) Excused := framed_excused
  have stops {α : Type} {pre : State → Prop} {m : StreamCo α}
      (halts : Triple (Fair cfg w q) (fun _ => True) (fun _ => True) m (fun _ => Excused)
        (fun _ => Excused)) :
      Triple (Fair cfg w q) (fun _ => True) pre (m >>= fun _ => pure (some ())) (Rounding w q)
        (Escaping w q) :=
    .bind _ (concludes_excused halts) fun _ => .pure fun _ => id
  refine .bind (fun s t => t = s ∧ Faring true true t) (.get fun s faring => ⟨rfl, faring⟩) fun s =>
    .ite (fun flooded => ?overflowed) fun _ => .bind (fun _ => Faring true true) ?disconnected
    fun gone => .ite (fun _ => ?gone) fun _ => .bind _ (returns_isCancelled frame) fun cancelled =>
    .ite (fun _ => stops excuses_yieldCancel) fun _ => .bind _ concludes_queueGet fun event => ?event
  case overflowed =>
    have passes {m : StreamCo Unit} (keeps : Keeps (Fair cfg w q) (fun _ => True) Excused m) :
        Triple (Fair cfg w q) (fun _ => True) Excused m (fun _ => Excused) (Escaping w q) :=
      keeps.weaken_exc fun _ _ excused _ => .inl excused
    refine .bind (fun _ => Excused) ((passes (.modify fun s holds =>
        excused.cancelChild s _ holds)).strengthen_pre ?_) fun _ =>
      .bind _ (passes (keeps_yieldEvent excused emitsEnds_excused.error _)) fun _ =>
      .bind _ (passes (keeps_yieldEvent excused emitsEnds_excused.done _)) fun _ =>
      .pure fun _ => .inl
    rintro t ⟨rfl, -⟩
    exact .inr (.inl flooded)
  case disconnected =>
    have asked : Raises (Fair cfg w q) (Faring true true) .isDisconnected (Escaping w q) := by
      intro s x _ _ fair failed
      have calm : x.isException = false := fair.1
      rw [calm] at failed
      cases failed
    exact .ite (fun _ => (returns_await frame asked).strengthen_pre fun _ => And.right)
      fun _ => .pure fun _ => And.right
  case gone =>
    have backend : Raises (Fair cfg w q) (Faring true true) .backend (Escaping w q) := by
      intro s x _ admitted _ failed
      have cancelled : x = .cancelledError := by simpa [admits] using admitted
      rw [cancelled] at failed
      cases failed
    exact .bind _ (returns_taskManagerCancel frame backend) fun _ => stops excuses_cancelledPayload
  case event =>
    cases event with
    | none => exact .pure fun _ => id
    | some event => exact concludes_consumeEvent accepting encodable event

/-- The model is started, or the answer ends there. -/
theorem concludes_answer (accepting : w → Accepting cfg)
    (encodable : w → Encodable cfg preparation) :
    Triple (Fair cfg w q) (fun _ => True) (Faring true false) (answer cfg preparation)
      (fun _ => Concluded w q) (Escaping w q) := by
  have frame : Framed cfg (fun _ => True) (Faring true true) := framed_faring
  have launched : Raises (Fair cfg w q) (Faring true true) .modelStart (Escaping w q) :=
    fun s x faring _ fair failed => .inr ⟨.inl (.inl (fair.1 failed)), faring.held, faring.begun⟩
  refine .bind _ (concludes_yieldEvent (fun _ _ => Faring.onward) (by decide) (by decide)
      fun _ s early _ => .inl early.excused) fun _ =>
    .bind (fun _ => Faring true true) (.modify fun s early => ?begins) fun _ =>
    .bind _ (returns_bind frame _) fun bound => .ite (fun _ => ?refused) fun _ => ?accepted
  case begins =>
    exact ⟨early.shown, early.parts, early.sound, early.unerrored, early.held, rfl⟩
  case refused =>
    exact .bind _ (.modify fun s holds => frame.cancelChild s _ holds) fun _ => .bind
      (fun _ _ => True) (.tryCatch (Escaping w q) ((returns_await frame launched).weaken_post
        fun _ _ _ => trivial) fun x => .ite (fun _ => .pure fun _ _ => trivial) fun _ =>
        .raise fun _ => id) fun _ => concludes_excused excuses_yieldCancel
  case accepted =>
    refine .bind _ (returns_await frame launched) fun _ => .bind (fun _ => Faring true true)
      (.modify fun s faring => ?_) fun _ => .bind _ (returns_bind frame _) fun bound => .ite
      (fun _ => concludes_excused excuses_yieldCancel) fun _ => .repeatUntil frame.waits
      ((concludes_consumeRound accepting encodable).weaken_post fun next s rounding => ?_)
    · have handed : Faring true true { s with handle := true, callbackHandle := true } :=
        faring.onward ⟨rfl, .rfl, rfl, rfl, rfl, rfl, rfl, id⟩
      dsimp only
      split_ifs
      · exact frame.cancelChild _ _ handed
      · exact handed
    · cases next <;> exact rounding

end Answer

section Stream

variable {cfg : Config} {w q : Prop}

/-- Before the answer has begun, a part keeps the way or ends it. -/
theorem concludes_early {α : Type} {held : Bool} {m : StreamCo α}
    (keeps : Keeps (Fair cfg w q) (fun _ => True) (Faring held false) m) :
    Triple (Fair cfg w q) (fun _ => True) (Faring held false) m (fun _ => Faring held false)
      (Escaping w q) :=
  keeps.weaken_exc fun _ _ faring _ => .inl faring.excused

/-- A preparation comes back; under `w` it can be encoded. -/
theorem concludes_awaitPreparation {held : Bool} :
    Triple (Fair cfg w q) (fun _ => True) (Faring held false) (awaitPreparation cfg)
      (fun preparation s => (w → Encodable cfg preparation) ∧ Faring held false s)
      (Escaping w q) := by
  have frame : Framed cfg (fun _ => True) (Faring held false) := framed_faring
  have polled : Triple (Fair cfg w q) (fun _ => True) (Faring held false) (await cfg .preparation)
      (fun _ s => (w → Untroubled cfg ⟨.preparation, s, .ok ()⟩) ∧ Faring held false s)
      (fun _ => Faring held false) :=
    .await frame.waits frame.act (fun s _ faring _ fair => ⟨fair.2, faring⟩)
      fun _ _ faring _ _ => faring
  refine .repeatUntil frame.waits (.bind _ (concludes_early (keeps_disconnected frame)) fun gone =>
    .bind _ (concludes_early (.onlyIf (keeps_taskManagerCancel frame))) fun _ =>
    .bind _ (returns_isCancelled frame) fun cancelled =>
    .bind _ (concludes_early (.onlyIf (.modify fun s holds => frame.cancelChild s _ holds))) fun _ =>
    .tryCatch _ (.bind _ polled fun _ => .bind (fun s t =>
      (w → Untroubled cfg ⟨.preparation, s, .ok ()⟩) ∧ Faring held false t)
      (.get fun s holds => holds) fun s => .given fun encodable => ?_)
      fun x => .ite (fun _ => .pure fun _ => id) fun _ =>
        .raise fun s faring _ => .inl faring.excused)
  simp only [Untroubled] at encodable
  split
  · rename_i preparation ended
    rw [ended] at encodable
    exact .pure fun t faring => ⟨fun works => encodable works preparation rfl, faring⟩
  · exact .raise fun t => id

theorem concludes_prepare (accepting : w → Accepting cfg) (permit : StreamQueuePermit) :
    Triple (Fair cfg w q) (fun _ => True) (Faring false false) (prepare cfg permit)
      (fun _ => Concluded w q) (Escaping w q) := by
  have frame : Framed cfg (fun _ => True) (Faring false false) := framed_faring
  have same (s : State) (queuePermit leaseTask preparationTask) :
      Onward s { s with queuePermit, leaseTask, preparationTask } :=
    ⟨rfl, .rfl, rfl, rfl, rfl, rfl, rfl, id⟩
  refine .bind _ (concludes_early (.modify fun s faring => faring.onward (same s _ _ _))) fun _ =>
    .bind _ (concludes_yieldEvent (fun _ _ => Faring.onward) (by decide) (by decide)
      fun _ s early _ => .inl early.excused) fun _ =>
    .bind _ (concludes_early (.modify fun s faring => faring.onward (same s _ _ _))) fun _ =>
    .bind _ (returns_bind frame _) fun bound => .ite
      (fun _ => concludes_excused excuses_yieldCancel) fun _ =>
    .bind _ concludes_awaitPreparation fun preparation => .given fun encodable =>
    .bind (fun _ => Faring true false) (.modify fun s early => ?_) fun _ =>
    .bind _ (returns_isCancelled framed_faring) fun cancelled => .ite
      (fun _ => concludes_excused excuses_yieldCancel) fun _ => concludes_answer accepting encodable
  exact ⟨early.shown, early.parts, early.sound, early.unerrored, rfl, early.begun⟩

/-- What is sent without a permit leaves the answer unbegun. -/
theorem concludes_unbegun {m : StreamCo Unit}
    (keeps : Keeps (Fair cfg w q) (fun _ => True) Unbegun m) :
    Triple (Fair cfg w q) (fun _ => True) (Faring false false) m (fun _ => Concluded w q)
      (Escaping w q) :=
  keeps.conseq (fun _ faring => faring.begun) (fun _ _ unbegun => .inl (.inr (.inr unbegun)))
    fun _ _ unbegun _ => .inl (.inr (.inr unbegun))

theorem concludes_tryBlock (accepting : w → Accepting cfg) :
    Triple (Fair cfg w q) (fun _ => True) (Faring false false) (tryBlock cfg)
      (fun _ => Concluded w q) (Escaping w q) := by
  have frame : Framed cfg (fun _ => True) (Faring false false) := framed_faring
  have stop : Triple (Fair cfg w q) (fun _ => True) (Faring false false) (yieldCancel cfg)
      (fun _ => Concluded w q) (Escaping w q) := concludes_excused excuses_yieldCancel
  refine .bind _ (concludes_yieldEvent (fun _ _ => Faring.onward) (by decide) (by decide)
      fun _ s early _ => .inl early.excused) fun _ =>
    .bind _ (returns_isCancelled frame) fun _ => .ite (fun _ => stop) fun _ =>
    .bind _ (concludes_early (keeps_await frame _)) fun admission => ?_
  split
  · exact stop
  · exact concludes_unbegun (.bind (keeps_recordQueueRejection framed_unbegun fun _ _ _ _ => id)
      fun _ => .bind (keeps_yieldEvent framed_unbegun (fun _ _ => id) _) fun _ =>
      keeps_yieldTwo framed_unbegun (fun _ _ => id) (fun _ _ => id) _ _)
  · exact concludes_prepare accepting _
  · exact concludes_unbegun (keeps_yieldTwo framed_unbegun (fun _ _ => id) (fun _ _ => id) _ _)

theorem Failing.onward {s t : State} (failing : Failing w q s) (onward : Onward s t) :
    Failing w q t where
  reason := failing.reason.imp (·.onward onward) fun ⟨whole, troubled⟩ =>
    ⟨whole.onward onward, troubled⟩
  held := onward.preparation ▸ failing.held
  begun := onward.begun ▸ failing.begun

/-- The handlers send the `error`, unless they stop the stream. -/
theorem concludes_handleRaised (x : Raised) :
    Triple (Fair cfg w q) (fun _ => True) (Escaping w q x) (handleRaised cfg x)
      (fun _ => Concluded w q) (fun _ _ => True) := by
  have stop {pre : State → Prop} : Triple (Fair cfg w q) (fun _ => True) pre (yieldCancel cfg)
      (fun _ => Concluded w q) (fun _ _ => True) :=
    (concludes_excused excuses_yieldCancel).weaken_exc fun _ _ _ => trivial
  have anything : Framed cfg (fun _ => True) (fun _ => True) := framed_onward fun _ _ _ _ => trivial
  have frame : Framed cfg (fun _ => True) (fun s => Excused s ∨ Failing w q s) :=
    framed_onward fun _ _ holds onward => holds.imp (·.onward onward) (·.onward onward)
  refine .ite (fun _ => .bind (fun _ _ => True) ((returns_isCancelled anything).strengthen_pre
      fun _ _ => trivial) fun cancelled => .ite (fun _ => stop) fun _ => .raise fun _ _ => trivial)
    fun _ => .ite (fun failed => ?_) fun _ => .raise fun _ _ => trivial
  refine .bind _ ((returns_isCancelled frame).strengthen_pre fun s escaping => escaping failed)
    fun cancelled => .bind (fun s t => t = s ∧ (Excused t ∨ Failing w q t))
      (.get fun s holds => ⟨rfl, holds⟩) fun s => .ite (fun _ => stop) fun _ => .ite
    (fun _ => (concludes_error "AI stream is unavailable" ?_).weaken_exc fun _ _ _ => trivial)
    fun unready => ?_
  · rintro t ⟨-, excused | ⟨broken | ⟨whole, troubled⟩, -, -⟩⟩
    · exact .inl excused
    · exact broken.emit _
    · exact .inr (.inr ⟨whole.emit _, fun works => absurd works troubled⟩)
  refine (keeps_yieldTwo framed_excused emitsEnds_excused.error emitsEnds_excused.done _ _).conseq ?_
    (fun _ _ => .inl) fun _ _ _ => trivial
  rintro t ⟨rfl, excused | failing⟩
  · exact excused
  · simp [failing.held, failing.begun] at unready

theorem concludes_stream (accepting : w → Accepting cfg) :
    Triple (Fair cfg w q) (fun _ => True) (Faring false false) (stream cfg)
      (fun _ => Concluded w q) (fun _ _ => True) := by
  have frame : Framed cfg (fun _ => True) Unbegun := framed_unbegun
  have early {s : State} (unbegun : Unbegun s) : Concluded w q s := .inl (.inr (.inr unbegun))
  have clean : Keeps (Fair cfg w q) (fun _ => True) (Concluded w q) (cleanup cfg) :=
    keeps_cleanup (framed_onward fun _ _ => Concluded.onward) fun s _ _ concluded =>
      concluded.onward ⟨rfl, .rfl, rfl, rfl, rfl, rfl, rfl, id⟩
  have ended : Keeps (Fair cfg w q) (fun _ => True) (fun _ => True) (cleanup cfg) :=
    keeps_cleanup (framed_onward fun _ _ _ _ => trivial) fun _ _ _ _ => trivial
  refine .bind (fun _ => Faring false false) ((keeps_register framed_faring).weaken_exc
      fun _ _ _ => trivial) fun registered => .ite (fun _ => ?_) fun _ =>
    .bind (fun _ => Faring false false) (.modify fun s faring =>
      faring.onward ⟨rfl, .rfl, rfl, rfl, rfl, rfl, rfl, id⟩) fun _ => ?_
  · exact (keeps_yieldTwo frame (fun _ _ => id) (fun _ _ => id) _ _).conseq
      (fun _ faring => faring.begun) (fun _ _ => early) fun _ _ _ => trivial
  · exact .tryFinally (fun _ => Concluded w q) (fun _ _ => True) (.tryCatch _
      (concludes_tryBlock accepting) fun x => concludes_handleRaised x)
      (fun _ => clean.weaken_exc fun _ _ _ => trivial) fun _ => ended

/-- How a run ends that returns, where the start of the model fails only under `q` and, under `w`,
nothing else fails. -/
theorem stream_concludes (cfg : Config) (w q : Prop) (now : ℚ) (tasks : StreamTaskManager ChildRef)
    (tape : List (Turn Action Point Raised Reply)) (accepting : w → Accepting cfg)
    (fair : ∀ v ∈ (stream cfg (initial now tasks) tape).visits, Fair cfg w q v)
    (returned : (stream cfg (initial now tasks) tape).outcome = .returned ()) :
    Concluded w q (stream cfg (initial now tasks) tape).state := by
  have early : Faring false false (initial now tasks) :=
    ⟨rfl, rfl, fun _ member => (nomatch member), fun ⟨_, member, _⟩ => (nomatch member), rfl, rfl⟩
  have ends := concludes_stream accepting (initial now tasks) tape early fair
  rw [returned] at ends
  exact ends

end Stream

end HeyeeAgent.StreamChat.Lifecycle
