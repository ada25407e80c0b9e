import HeyeeAgent.StreamChat.Released

/-! # The events of a stream, as a language

The names of the events sent, with the phase of a `meta`, form a prefix of a word, and a whole word
when the generator has ended by itself. The `try` block sends an opening and at most one terminal
event with `done` after it; an exception leaves an opening behind, which the handlers finish. What
could break a word is an event that cannot be encoded, so the texts the terminal events carry are
followed from where they enter.
-/

namespace HeyeeAgent.StreamChat.Lifecycle

open Python StreamQueueLimiter Coroutine

inductive Letter where
  | queued
  | preparing
  | answering
  | message
  | reject
  | finish
  | error
  | cancel
  | done
deriving DecidableEq

/-- The `phase` of a `meta`. -/
def phase : Json → Option Str
  | .obj fields => fields.findSome? fun
    | ("phase", .str value) => some value
    | _ => none
  | _ => none

def SseEvent.letter (event : SseEvent) : Option Letter :=
  match event.name with
  | "meta" =>
    if phase event.data = some (Str.lit "queued") then some .queued
    else if phase event.data = some (Str.lit "preparing") then some .preparing
    else if phase event.data = some (Str.lit "answering") then some .answering
    else none
  | "message" => some .message
  | "reject" => some .reject
  | "finish" => some .finish
  | "error" => some .error
  | "cancel" => some .cancel
  | "done" => some .done
  | _ => none

/-- The complete conversations of the protocol. -/
inductive Word : List Letter → Prop where
  | refused : Word [.error, .done]
  | stopped : Word [.queued, .cancel, .done]
  | rejected : Word [.queued, .reject, .finish, .done]
  | unavailable : Word [.queued, .error, .done]
  | prepared (ending : Letter) (kind : ending = .cancel ∨ ending = .error) :
      Word [.queued, .preparing, ending, .done]
  | answered (n : ℕ) (ending : Letter)
      (kind : ending = .cancel ∨ ending = .error ∨ ending = .finish) :
      Word ([.queued, .preparing, .answering] ++ List.replicate n .message ++ [ending, .done])

def Prefix (said : List Letter) : Prop := ∃ rest, Word (said ++ rest)

/-- What is said before the terminal event. -/
inductive Opening : List Letter → Prop where
  | queued : Opening [.queued]
  | preparing : Opening [.queued, .preparing]
  | answering (n : ℕ) : Opening ([.queued, .preparing, .answering] ++ List.replicate n .message)

theorem Word.fits {said : List Letter} (word : Word said) : Prefix said :=
  ⟨[], by rwa [List.append_nil]⟩

theorem Prefix.left {said more : List Letter} (fits : Prefix (said ++ more)) : Prefix said :=
  let ⟨rest, word⟩ := fits
  ⟨more ++ rest, by rwa [← List.append_assoc]⟩

/-- Any opening can be ended by a cancellation or an error. -/
theorem Opening.ends {said : List Letter} (opening : Opening said) {ending : Letter}
    (kind : ending = .cancel ∨ ending = .error) : Word (said ++ [ending, .done]) := by
  cases opening with
  | queued =>
    rcases kind with rfl | rfl
    · exact .stopped
    · exact .unavailable
  | preparing => exact .prepared ending kind
  | answering n => exact .answered n ending (kind.imp id .inl)

theorem Opening.fits {said : List Letter} (opening : Opening said) : Prefix said :=
  (opening.ends (.inl rfl)).fits.left

/-- The events sent so far. -/
def Said (s : State) (said : List Letter) : Prop := s.emitted.map SseEvent.letter = said.map some

/-- How the awaited child has failed. -/
def Child.failure {α : Type} : Option (Child α) → Option Raised
  | some (.ended (.error x)) => some x
  | _ => none

def Child.result {α : Type} : Option (Child α) → Option α
  | some (.ended (.ok value)) => some value
  | _ => none

/-- The generator is closed, cancelled from outside, or sees the client gone. A `CancelledError`
that is the end of the awaited child does not come from outside. -/
def Interrupted : Visit State Point Raised Reply → Prop
  | ⟨.yielding, _, .error _⟩ => True
  | ⟨.isDisconnected, _, .ok gone⟩ => gone = true
  | ⟨.preparation, s, .error x⟩ => x = .cancelledError ∧
      Child.failure s.preparationTask ≠ some .cancelledError
  | ⟨.modelStart, s, .error x⟩ => x = .cancelledError ∧
      Child.failure s.modelStartTask ≠ some .cancelledError
  | ⟨.lease, _, _⟩ => False
  | ⟨_, _, .error x⟩ => x = .cancelledError
  | _ => False

/-- The entry under the task id is cancelled, and its tombstone has not expired. -/
def Cancelled (cfg : Config) (s : State) : Prop := s.tasks.isCancelled s.now cfg.taskId = true

/-- Every string of a preparation that an event carries can be encoded. -/
def Encodable (cfg : Config) (preparation : ChatPreparation) : Prop :=
  preparation.conversationId.encodes = true ∧
    (Json.obj [("sources", .arr preparation.retrievedSources),
      ("toolCalls", .arr (preparation.toolCalls.map .str)),
      ("ragIntent", ragIntentData cfg preparation.ragIntent)]).encodes = true

/-- What enters from outside can be encoded, and a child ends cancelled only after a stop. -/
def Speakable (cfg : Config) : Visit State Point Raised Reply → Prop
  | ⟨.memoryAppend, _, .ok messageId⟩ => ∀ id ∈ (messageId : Option Str), Str.encodes id = true
  | ⟨.preparation, s, .ok _⟩ =>
    ∀ preparation ∈ Child.result s.preparationTask, Encodable cfg preparation
  | ⟨.preparation, s, .error _⟩ => ∀ x ∈ Child.failure s.preparationTask,
      x.isException = true ∨ x = .cancelledError ∧ Cancelled cfg s
  | ⟨.modelStart, s, .error _⟩ => ∀ x ∈ Child.failure s.modelStartTask,
      x.isException = true ∨ x = .cancelledError ∧ Cancelled cfg s
  | _ => True

instance (cfg : Config) (s : State) : Decidable (Cancelled cfg s) :=
  inferInstanceAs (Decidable (_ = true))

instance (cfg : Config) (preparation : ChatPreparation) : Decidable (Encodable cfg preparation) :=
  inferInstanceAs (Decidable (_ ∧ _))

instance (cfg : Config) : DecidablePred (Speakable cfg)
  | ⟨.memoryAppend, _, .ok messageId⟩ => inferInstanceAs (Decidable
      (∀ id ∈ (messageId : Option Str), Str.encodes id = true))
  | ⟨.preparation, s, .ok _⟩ => inferInstanceAs (Decidable
      (∀ preparation ∈ Child.result s.preparationTask, Encodable cfg preparation))
  | ⟨.preparation, s, .error _⟩ => inferInstanceAs (Decidable (∀ x ∈ Child.failure s.preparationTask,
      x.isException = true ∨ x = .cancelledError ∧ Cancelled cfg s))
  | ⟨.modelStart, s, .error _⟩ => inferInstanceAs (Decidable (∀ x ∈ Child.failure s.modelStartTask,
      x.isException = true ∨ x = .cancelledError ∧ Cancelled cfg s))
  | ⟨.memoryAppend, _, .error _⟩ | ⟨.modelStart, _, .ok _⟩ | ⟨.yielding, _, _⟩ | ⟨.backend, _, _⟩
  | ⟨.acquire, _, _⟩ | ⟨.isDisconnected, _, _⟩ | ⟨.resolveMemory, _, _⟩ | ⟨.loadAndAppend, _, _⟩
  | ⟨.compressIfNeeded, _, _⟩ | ⟨.compression, _, _⟩ | ⟨.queueGet, _, _⟩ | ⟨.lease, _, _⟩
  | ⟨.conditionLock, _, _⟩ | ⟨.zrem, _, _⟩ | ⟨.publish, _, _⟩ => isTrue trivial

/-- The texts of the request that the terminal events carry. -/
structure Titled (cfg : Config) : Prop where
  title : (title cfg).encodes = true
  conversationId : ∀ id ∈ cfg.request.conversationId, Str.encodes id = true
  newConversationId : cfg.newConversationId.encodes = true

section Assertions

variable {cfg : Config} {q : Prop} {said : List Letter} {s t : State} {x : Raised}

/-- The events sent so far fit the protocol. -/
def Fitting (s : State) : Prop := ∃ said, Said s said ∧ Prefix said

structure Saying (cfg : Config) (said : List Letter) (s : State) : Prop where
  said : Said s said
  prepared : ∀ preparation ∈ s.preparation, Encodable cfg preparation

/-- Along the run nothing unspeakable enters, and under `q` the generator is not interrupted. -/
def Undisturbed (cfg : Config) (q : Prop) (v : Visit State Point Raised Reply) : Prop :=
  Speakable cfg v ∧ (q → ¬ Interrupted v)

/-- The generator has sent what it has to send. -/
def Spoken (q : Prop) (s : State) : Prop :=
  Fitting s ∧ (q → ∃ said, Said s said ∧ Word said)

/-- An exception that the handlers can finish the events of. -/
def Raising (cfg : Config) (q : Prop) (said : List Letter) (x : Raised) (s : State) : Prop :=
  Saying cfg said s ∧ (q → x.isException = true ∨ x = .cancelledError ∧ Cancelled cfg s)

/-- An exception on its way to the handlers: an opening has been sent, or the generator is closed
at the terminal events. -/
def Thrown (cfg : Config) (q : Prop) (x : Raised) (s : State) : Prop :=
  (∃ said, Opening said ∧ Raising cfg q said x s) ∨ x = .generatorExit ∧ ¬ q ∧ Fitting s

theorem Saying.of_locals (saying : Saying cfg said s) (emitted : t.emitted = s.emitted)
    (preparation : t.preparation = s.preparation) : Saying cfg said t := by
  refine ⟨?_, preparation ▸ saying.prepared⟩
  unfold Said
  rw [emitted]
  exact saying.said

theorem Saying.fitting (saying : Saying cfg said s) (fits : Prefix said) : Fitting s :=
  ⟨said, saying.said, fits⟩

theorem framed_saying (fits : Prefix said) : Framed cfg Fitting (Saying cfg said) where
  waits _ saying := saying.fitting fits
  act _ _ _ saying taken :=
    saying.of_locals (act_locals taken).emitted (act_locals taken).preparation
  cancelChild s ref saying :=
    saying.of_locals (locals_cancelChild s ref).emitted (locals_cancelChild s ref).preparation
  registry _ _ _ _ saying := saying.of_locals rfl rfl
  lease _ saying := saying.of_locals rfl rfl

theorem Spoken.of_emitted (spoken : Spoken q s) (emitted : t.emitted = s.emitted) : Spoken q t := by
  unfold Spoken Fitting Said
  rw [emitted]
  exact spoken

theorem framed_spoken : Framed cfg Fitting (Spoken q) where
  waits _ spoken := spoken.1
  act _ _ _ spoken taken := spoken.of_emitted (act_locals taken).emitted
  cancelChild s ref spoken := spoken.of_emitted (locals_cancelChild s ref).emitted
  registry _ _ _ _ spoken := spoken.of_emitted rfl
  lease _ spoken := spoken.of_emitted rfl

theorem Saying.spoken (saying : Saying cfg said s) (word : Word said) : Spoken q s :=
  ⟨saying.fitting word.fits, fun _ => ⟨said, saying.said, word⟩⟩

theorem Thrown.fitting (thrown : Thrown cfg q x s) : Fitting s := by
  rcases thrown with ⟨said, opening, saying, -⟩ | ⟨-, -, fits⟩
  · exact saying.fitting opening.fits
  · exact fits

/-- Neither a `yield` nor the await of a child. -/
def Point.external : Point → Bool
  | .yielding | .preparation | .modelStart | .lease => false
  | _ => true

/-- Awaits other than those of a child raise an `Exception`, unless they are interrupted. -/
theorem exception_of_undisturbed {p : Point} (admitted : admits s p (.error x) = true)
    (undisturbed : Undisturbed cfg q ⟨p, s, .error x⟩) (external : p.external = true) (holds : q) :
    x.isException = true := by
  have outside := undisturbed.2 holds
  cases x with
  | timeoutError | exception message => rfl
  | generatorExit => cases p <;> simp_all [admits, Raised.isException, Point.external]
  | cancelledError => cases p <;> simp_all [Interrupted, Point.external]

theorem thrown_of_undisturbed (opening : Opening said) {p : Point} (external : p.external = true) :
    Raises (Undisturbed cfg q) (Saying cfg said) p (Thrown cfg q) :=
  fun _ _ saying admitted undisturbed => .inl ⟨said, opening, saying, fun holds =>
    .inl (exception_of_undisturbed admitted undisturbed external holds)⟩

/-- The registry's backend raises nothing but an outside cancellation. -/
theorem interrupted_backend : Raises (Undisturbed cfg q) (Saying cfg said) .backend
    (fun _ s => Saying cfg said s ∧ ¬ q) := by
  intro s x saying admitted undisturbed
  have cancelled : x = .cancelledError := by simpa [admits] using admitted
  exact ⟨saying, fun holds => undisturbed.2 holds cancelled⟩

end Assertions

section Events

variable {cfg : Config} {q : Prop} {said : List Letter}

/-- An event is sent unless it cannot be encoded; the generator can be closed when it is sent. -/
theorem says_yieldEvent {name : String} {data : Json} (next : Letter)
    (letter : SseEvent.letter ⟨name, data⟩ = some next) (fits : Prefix (said ++ [next])) :
    Triple (Undisturbed cfg q) Fitting (Saying cfg said) (yieldEvent cfg name data)
      (fun _ => Saying cfg (said ++ [next]))
      (fun x s => data.encodes = false ∧ x.isException = true ∧ Saying cfg said s ∨
        x = .generatorExit ∧ ¬ q ∧ Saying cfg (said ++ [next]) s) := by
  have frame : Framed cfg Fitting (Saying cfg (said ++ [next])) := framed_saying fits
  unfold yieldEvent
  refine .ite (fun _ => .bind (fun _ => Saying cfg (said ++ [next])) (.modify fun s saying => ?_)
    fun _ => returns_await frame fun s x saying admitted undisturbed => ?_)
    fun unsendable => .raise fun s saying => ?_
  · refine ⟨?_, saying.prepared⟩
    change (s.emitted ++ _).map _ = _
    rw [List.map_append, saying.said, List.map_append]
    exact congrArg _ (congrArg (· :: []) letter)
  · have closed : x = .generatorExit := by simpa [admits] using admitted
    exact .inr ⟨closed, fun holds => undisturbed.2 holds trivial, saying⟩
  · exact .inl ⟨by simpa using unsendable, rfl, saying⟩

theorem Opening.message {n : ℕ} :
    [Letter.queued, .preparing, .answering] ++ List.replicate n Letter.message ++ [Letter.message] =
      [Letter.queued, .preparing, .answering] ++ List.replicate (n + 1) Letter.message := by
  rw [List.append_assoc, ← List.replicate_succ']

/-- An event that keeps the opening open. -/
theorem says_opening {name : String} {data : Json} {said' : List Letter} (next : Letter)
    (letter : SseEvent.letter ⟨name, data⟩ = some next) (extended : said ++ [next] = said')
    (opening : Opening said) (opening' : Opening said') :
    Triple (Undisturbed cfg q) Fitting (Saying cfg said) (yieldEvent cfg name data)
      (fun _ => Saying cfg said') (Thrown cfg q) := by
  subst extended
  refine (says_yieldEvent _ letter opening'.fits).weaken_exc ?_
  rintro x s (⟨-, failed, saying⟩ | ⟨-, alive, saying⟩)
  · exact .inl ⟨said, opening, saying, fun _ => .inl failed⟩
  · exact .inl ⟨_, opening', saying, fun holds => (alive holds).elim⟩

@[simp] theorem encodes_taskData : (taskData cfg).encodes = true := by
  simp [taskData, Json.encodes, Json.encodesFields]

/-- `done` after the terminal event. -/
theorem says_done (word : Word (said ++ [Letter.done])) :
    Triple (Undisturbed cfg q) Fitting (Saying cfg said) (yieldEvent cfg "done" (taskData cfg))
      (fun _ => Spoken q) (fun x s => x = .generatorExit ∧ ¬ q ∧ Fitting s) := by
  refine (says_yieldEvent .done rfl word.fits).conseq (fun _ => id)
    (fun _ s saying => saying.spoken word) ?_
  rintro x s (⟨unsendable, -⟩ | ⟨closed, alive, saying⟩)
  · simp at unsendable
  · exact ⟨closed, alive, saying.fitting word.fits⟩

/-- The terminal event. -/
theorem says_terminal {name : String} {data : Json} (ending : Letter)
    (letter : SseEvent.letter ⟨name, data⟩ = some ending) (opening : Opening said)
    (word : Word (said ++ [ending] ++ [Letter.done])) :
    Triple (Undisturbed cfg q) Fitting (Saying cfg said) (yieldEvent cfg name data)
      (fun _ => Saying cfg (said ++ [ending]))
      (fun x s => Thrown cfg q x s ∧ (data.encodes = true → ¬ q)) := by
  refine (says_yieldEvent ending letter word.fits.left).weaken_exc ?_
  rintro x s (⟨unsendable, failed, saying⟩ | ⟨closed, alive, saying⟩)
  · exact ⟨.inl ⟨said, opening, saying, fun _ => .inl failed⟩, fun encodes => by
      simp [encodes] at unsendable⟩
  · exact ⟨.inr ⟨closed, alive, saying.fitting word.fits.left⟩, fun _ => alive⟩

/-- The terminal event and `done`. -/
theorem says_ending {name : String} {data : Json} (ending : Letter)
    (letter : SseEvent.letter ⟨name, data⟩ = some ending) (opening : Opening said)
    (word : Word (said ++ [ending, .done])) :
    Triple (Undisturbed cfg q) Fitting (Saying cfg said)
      (do yieldEvent cfg name data; yieldEvent cfg "done" (taskData cfg)) (fun _ => Spoken q)
      (fun x s => Thrown cfg q x s ∧ (data.encodes = true → ¬ q)) := by
  rw [← List.singleton_append, ← List.append_assoc] at word
  refine .bind _ (says_terminal ending letter opening word) fun _ =>
    (says_done word).weaken_exc ?_
  exact fun x s closed => ⟨.inr closed, fun _ => closed.2.1⟩

@[simp] theorem encodes_errorData (message : String) : (errorData message).encodes = true := by
  simp [errorData, Json.encodes, Json.encodesFields]

/-- An `error` and `done`. -/
theorem says_error (opening : Opening said) {data : Json} :
    Triple (Undisturbed cfg q) Fitting (Saying cfg said)
      (do yieldEvent cfg "error" data; yieldEvent cfg "done" (taskData cfg)) (fun _ => Spoken q)
      (fun x s => Thrown cfg q x s ∧ (data.encodes = true → ¬ q)) :=
  says_ending .error rfl opening (opening.ends (.inr rfl))

end Events

section Persistence

variable {cfg : Config} {q : Prop} {said : List Letter}

/-- Storing a reply sends nothing, and raises an `Exception` unless it is interrupted. -/
def Failed (cfg : Config) (q : Prop) (said : List Letter) (x : Raised) (s : State) : Prop :=
  Saying cfg said s ∧ (q → x.isException = true)

theorem Failed.thrown {x : Raised} {s : State} (failed : Failed cfg q said x s)
    (opening : Opening said) : Thrown cfg q x s :=
  .inl ⟨said, opening, failed.1, fun holds => .inl (failed.2 holds)⟩

theorem failed_of_undisturbed {p : Point} (external : p.external = true) :
    Raises (Undisturbed cfg q) (Saying cfg said) p (Failed cfg q said) :=
  fun _ _ saying admitted undisturbed =>
    ⟨saying, exception_of_undisturbed admitted undisturbed external⟩

/-- A message id that can be sent has been returned. -/
def Stored (cfg : Config) (said : List Letter) (messageId : Option Str) (s : State) : Prop :=
  Saying cfg said s ∧ ∀ id ∈ messageId, Str.encodes id = true

theorem says_persistMemoryReply (fits : Prefix said) (asyncCompress : Bool) (reply : Str) :
    Triple (Undisturbed cfg q) Fitting (Saying cfg said) (persistMemoryReply cfg asyncCompress reply)
      (Stored cfg said) (Failed cfg q said) := by
  have waits (messageId : Option Str) (s : State) (stored : Stored cfg said messageId s) : Fitting s :=
    stored.1.fitting fits
  have filtered (messageId : Option Str) :
      Triple (Undisturbed cfg q) Fitting (Stored cfg said messageId)
        (pure (messageId.filter (· ≠ [])) : StreamCo (Option Str)) (Stored cfg said)
        (Failed cfg q said) :=
    .pure fun s stored => ⟨stored.1, fun id member =>
      stored.2 id (Option.eq_some_of_filter_eq_some member)⟩
  unfold persistMemoryReply
  refine .bind (Stored cfg said) (.call (fun s saying => saying.fitting fits)
    (fun s messageId saying _ undisturbed => ⟨saying, undisturbed.1⟩)
    (failed_of_undisturbed (p := .memoryAppend) rfl)) fun messageId => ?_
  refine .bind (fun _ => Stored cfg said messageId) (.modify fun s stored =>
    ⟨stored.1.of_locals rfl rfl, stored.2⟩) fun _ => .bind (fun _ => Stored cfg said messageId)
    (.call (waits messageId) (fun s _ stored _ _ => stored) fun s x stored =>
      failed_of_undisturbed (p := .compressIfNeeded) rfl s x stored.1) fun awaitable =>
    .ite (fun _ => .bind (fun _ => Stored cfg said messageId) (.await (waits messageId) ?_
      (fun s _ stored _ _ => stored) fun s x stored =>
        failed_of_undisturbed (p := .compression) rfl s x stored.1) fun _ => filtered messageId)
        fun _ => filtered messageId
  exact fun s e t stored taken => ⟨(framed_saying fits).act s e t stored.1 taken, stored.2⟩

/-- What a response carries besides its reply. -/
def Answers (preparation : ChatPreparation) (response : ChatResponse) : Prop :=
  response.conversationId = preparation.conversationId ∧
    response.sources = preparation.retrievedSources ∧
    response.toolCalls = preparation.toolCalls ∧ response.ragIntent = preparation.ragIntent

theorem says_completePreparation (fits : Prefix said) (preparation : ChatPreparation) (reply : Str)
    (interrupted : Bool) :
    Triple (Undisturbed cfg q) Fitting (Saying cfg said)
      (completePreparation cfg preparation reply [] interrupted)
      (fun response s => Stored cfg said response.messageId s ∧ Answers preparation response)
      (Failed cfg q said) := by
  refine .bind (Stored cfg said) (.ite (fun _ => .pure fun s saying => ⟨saying, by simp⟩)
    fun _ => says_persistMemoryReply fits _ _) fun messageId => .ite (fun _ => .pure fun s stored => ?_)
    fun _ => .raise fun s stored => ⟨stored.1, fun _ => rfl⟩
  exact ⟨stored, rfl, rfl, by simp, rfl⟩

theorem encodes_cancelData (titled : Titled cfg) {conversationId messageId : Option Str}
    (conversation : ∀ id ∈ conversationId, Str.encodes id = true)
    (message : ∀ id ∈ messageId, Str.encodes id = true) (partially : Bool)
    {more : List (String × Json)} (rest : Json.encodesFields more = true) :
    (cancelData cfg conversationId messageId partially more).encodes = true := by
  simp only [cancelData, Json.encodes, Json.encodesFields_append, Json.encodesFields,
    Json.encodes_text, Json.encodes_ofOption_str conversation, Json.encodes_ofOption_str message,
    titled.title, rest, Bool.and_self]

variable (titled : Titled cfg)
include titled

/-- The payload of a cancellation can be sent, whether or not the reply could be stored. -/
theorem says_cancelledPayload (fits : Prefix said) :
    Triple (Undisturbed cfg q) Fitting (Saying cfg said) (cancelledPayload cfg)
      (fun payload s => Saying cfg said s ∧ payload.encodes = true)
      (fun _ s => Saying cfg said s ∧ ¬ q) := by
  unfold cancelledPayload
  refine .bind (fun _ => Saying cfg said) (.modify fun s saying => saying.of_locals rfl rfl) fun _ =>
    .bind (fun s t => Saying cfg said s ∧ Saying cfg said t) (.get fun s saying => ⟨saying, saying⟩)
    fun s => .given fun before => ?_
  have plain :
      (cancelData cfg (s.preparation.map (·.conversationId)) none false []).encodes = true := by
    refine encodes_cancelData titled (fun id member => ?_) (by simp) false rfl
    obtain ⟨preparation, held, rfl⟩ := Option.mem_map.mp member
    exact (before.prepared preparation held).1
  have kept : Triple (Undisturbed cfg q) Fitting (Saying cfg said)
      (pure (cancelData cfg (s.preparation.map (·.conversationId)) none false []) : StreamCo Json)
      (fun payload t => Saying cfg said t ∧ payload.encodes = true)
      (fun _ t => Saying cfg said t ∧ ¬ q) := .pure fun t saying => ⟨saying, plain⟩
  dsimp only
  split
  · rename_i preparation startedAt held begun
    have encodable := before.prepared preparation held
    refine .ite (fun _ => .bind (fun _ => Saying cfg said) (.modify fun t saying =>
      saying.of_locals rfl rfl) fun _ => .tryCatch (Failed cfg q said) (.bind _
        (says_completePreparation fits preparation _ true) fun response => .pure ?_) fun x =>
      .ite (fun _ => .pure fun t failed => ⟨failed.1, plain⟩) fun other => .raise fun t failed =>
        ⟨failed.1, fun holds => other (failed.2 holds)⟩) fun _ => kept
    rintro t ⟨stored, conversation, sources, toolCalls, ragIntent⟩
    refine ⟨stored.1, encodes_cancelData titled (fun id same => ?_) stored.2 true ?_⟩
    · obtain rfl : response.conversationId = id := by simpa using same
      exact conversation ▸ encodable.1
    · rw [responseFields, sources, toolCalls, ragIntent]
      exact encodable.2
  · exact kept

/-- `cancel` and `done` are sent, unless the generator is interrupted. -/
theorem says_yieldCancel (opening : Opening said) :
    Triple (Undisturbed cfg q) Fitting (Saying cfg said) (yieldCancel cfg) (fun _ => Spoken q)
      (fun x s => Thrown cfg q x s ∧ ¬ q) := by
  refine .bind (fun payload s => payload.encodes = true ∧ Saying cfg said s)
    ((says_cancelledPayload titled opening.fits).conseq (fun _ => id)
      (fun _ _ sent => ⟨sent.2, sent.1⟩) fun x s failed => ?_) fun payload => .given fun encodes =>
    (says_ending .cancel rfl opening (opening.ends (.inl rfl))).weaken_exc
      fun x s thrown => ⟨thrown.1, thrown.2 encodes⟩
  exact ⟨.inl ⟨said, opening, failed.1, fun holds => (failed.2 holds).elim⟩, failed.2⟩

/-- Every text of a rejection can be sent. -/
def Rejectable (rejection : QueueRejection) : Prop :=
  (∀ id ∈ rejection.conversationId, Str.encodes id = true) ∧
    (∀ id ∈ rejection.messageId, Str.encodes id = true) ∧ rejection.title.encodes = true

theorem says_recordQueueRejection (fits : Prefix said) :
    Triple (Undisturbed cfg q) Fitting (Saying cfg said) (recordQueueRejection cfg)
      (fun rejection s => Rejectable rejection ∧ Saying cfg said s)
      (fun _ s => Saying cfg said s ∧ ¬ q) := by
  have conversation : Str.encodes ((cfg.request.conversationId.filter (· ≠ [])).getD
      cfg.newConversationId) = true := by
    cases kept : cfg.request.conversationId.filter (· ≠ []) with
    | none => exact titled.newConversationId
    | some id => exact titled.conversationId id (Option.eq_some_of_filter_eq_some kept)
  have waits (s : State) (saying : Saying cfg said s) : Fitting s := saying.fitting fits
  have loaded : Triple (Undisturbed cfg q) Fitting (Saying cfg said)
      (orElse (do
        callOut cfg .loadAndAppend
        persistMemoryReply cfg cfg.memoryAsyncCompress queueTimeoutReply) (pure none))
      (Stored cfg said) (Failed cfg q said) := by
    refine .tryCatch (Failed cfg q said) (.bind (fun _ => Saying cfg said) (.call waits
      (fun s _ saying _ _ => saying) (failed_of_undisturbed (p := .loadAndAppend) rfl)) fun _ =>
      says_persistMemoryReply fits _ _) fun x => .ite (fun _ => .pure fun s failed =>
        ⟨failed.1, by simp⟩) fun _ => .raise fun s failed => failed
  refine .tryCatch (Failed cfg q said) (.bind (fun _ => Saying cfg said) (.call waits
    (fun s _ saying _ _ => saying) (failed_of_undisturbed (p := .resolveMemory) rfl)) fun service =>
    .ite (fun _ => .bind _ loaded fun messageId => .pure fun s stored => ?_)
      fun _ => .pure fun s saying => ?_) fun x => .ite (fun _ => .pure fun s failed => ?_)
    fun other => .raise fun s failed => ⟨failed.1, fun holds => other (failed.2 holds)⟩
  · exact ⟨⟨by simpa using conversation, stored.2, titled.title⟩, stored.1⟩
  · exact ⟨⟨by simpa using conversation, by simp, titled.title⟩, saying⟩
  · exact ⟨⟨titled.conversationId, by simp, titled.title⟩, failed.1⟩

/-- The sequence of a queue timeout. -/
theorem says_yieldRejection :
    Triple (Undisturbed cfg q) Fitting (Saying cfg [.queued]) (yieldRejection cfg)
      (fun _ => Spoken q) (Thrown cfg q) := by
  have word : Word ([Letter.queued] ++ [Letter.reject] ++ [Letter.finish] ++ [Letter.done]) := .rejected
  have sent {name : String} {data : Json} {said : List Letter} (next : Letter)
      (letter : SseEvent.letter ⟨name, data⟩ = some next) (fits : Prefix (said ++ [next]))
      (encodes : data.encodes = true) :
      Triple (Undisturbed cfg q) Fitting (Saying cfg said) (yieldEvent cfg name data)
        (fun _ => Saying cfg (said ++ [next])) (Thrown cfg q) := by
    refine (says_yieldEvent _ letter fits).weaken_exc ?_
    rintro x s (⟨unsendable, -⟩ | ⟨closed, alive, saying⟩)
    · simp [encodes] at unsendable
    · exact .inr ⟨closed, alive, saying.fitting fits⟩
  refine .bind _ ((says_recordQueueRejection titled Opening.queued.fits).weaken_exc
    fun x s failed => ?_) fun rejection => .given fun rejectable => ?_
  · exact .inl ⟨_, .queued, failed.1, fun holds => (failed.2 holds).elim⟩
  · refine .bind _ (sent .reject rfl word.fits.left.left ?_) fun _ =>
      .bind _ (sent .finish rfl word.fits.left ?_) fun _ =>
      (says_done word).weaken_exc fun _ _ => .inr
    · simp [Json.encodes, Json.encodesFields, queueTimeoutReply]
    · simp [Json.encodes, Json.encodesFields, Json.encodes_ofOption_str rejectable.1,
        Json.encodes_ofOption_str rejectable.2.1, rejectable.2.2]

end Persistence

section Body

variable {cfg : Config} {q : Prop} {said : List Letter}

/-- How the await of a child fails: by itself, after a stop, or by an interruption. -/
theorem raising_of_child {s : State} {x : Raised} {failure : Option Raised}
    (saying : Saying cfg said s)
    (own : x = .cancelledError ∨ x = .timeoutError ∨ failure = some x)
    (speakable : ∀ x' ∈ failure, x'.isException = true ∨ x' = .cancelledError ∧ Cancelled cfg s)
    (inside : q → ¬ (x = .cancelledError ∧ failure ≠ some .cancelledError)) :
    Raising cfg q said x s := by
  refine ⟨saying, fun holds => ?_⟩
  rcases own with cancelled | timeout | failed
  · have ended : failure = some .cancelledError := by
      by_contra other
      exact inside holds ⟨cancelled, other⟩
    exact cancelled ▸ speakable _ ended
  · exact .inl (timeout ▸ rfl)
  · exact speakable x failed

theorem raising_preparation :
    Raises (Undisturbed cfg q) (Saying cfg said) .preparation (Raising cfg q said) := by
  intro s x saying admitted undisturbed
  refine raising_of_child saying ?_ undisturbed.1 undisturbed.2
  simp only [admits] at admitted
  split at admitted
  · rename_i x' ended
    simp only [Bool.or_eq_true, decide_eq_true_eq] at admitted
    rcases admitted with (same | timeout) | cancelled
    · exact .inr (.inr (by rw [ended, same]; rfl))
    · exact .inr (.inl timeout)
    · exact .inl cancelled
  · simp only [Bool.or_eq_true, decide_eq_true_eq] at admitted
    exact admitted.elim (fun timeout => .inr (.inl timeout)) .inl

theorem raising_modelStart :
    Raises (Undisturbed cfg q) (Saying cfg said) .modelStart (Raising cfg q said) := by
  intro s x saying admitted undisturbed
  refine raising_of_child saying ?_ undisturbed.1 undisturbed.2
  simp only [admits] at admitted
  split at admitted
  · rename_i x' ended
    simp only [Bool.or_eq_true, decide_eq_true_eq] at admitted
    rcases admitted with same | cancelled
    · exact .inr (.inr (by rw [ended, same]; rfl))
    · exact .inl cancelled
  · exact .inl (by simpa using admitted)
  · cases admitted

theorem says_disconnected (opening : Opening said) :
    Triple (Undisturbed cfg q) Fitting (Saying cfg said) (disconnected cfg)
      (fun gone s => Saying cfg said s ∧ (gone = true → ¬ q)) (Thrown cfg q) := by
  have frame : Framed cfg Fitting (Saying cfg said) := framed_saying opening.fits
  refine .ite (fun _ => .await frame.waits frame.act (fun s gone saying _ undisturbed => ?_)
    (thrown_of_undisturbed (p := .isDisconnected) opening rfl)) fun _ => .pure fun s saying => ?_
  · exact ⟨saying, fun gone holds => undisturbed.2 holds gone⟩
  · exact ⟨saying, nofun⟩

theorem says_awaitPreparation (opening : Opening said) :
    Triple (Undisturbed cfg q) Fitting (Saying cfg said) (awaitPreparation cfg)
      (fun preparation s => Encodable cfg preparation ∧ Saying cfg said s) (Thrown cfg q) := by
  have frame : Framed cfg Fitting (Saying cfg said) := framed_saying opening.fits
  have polled : Triple (Undisturbed cfg q) Fitting (Saying cfg said) (await cfg .preparation)
      (fun _ s => Saying cfg said s ∧ Speakable cfg ⟨.preparation, s, .ok ()⟩) (Raising cfg q said) :=
    .await frame.waits frame.act (fun s _ saying _ undisturbed => ⟨saying, undisturbed.1⟩)
      raising_preparation
  refine .repeatUntil frame.waits ?_
  refine .bind (fun _ => Saying cfg said) ((says_disconnected opening).weaken_post
      fun _ _ seen => seen.1) fun gone =>
    .bind (fun _ => Saying cfg said) (.onlyIf (fun _ => returns_taskManagerCancel frame
      (thrown_of_undisturbed opening rfl)) fun _ _ => id) fun _ =>
    .bind _ (returns_isCancelled frame) fun cancelled =>
    .bind (fun _ => Saying cfg said) (.onlyIf (fun _ => .modify fun s saying =>
      frame.cancelChild s _ saying) fun _ _ => id) fun _ => ?_
  refine .tryCatch _ (.bind _ polled fun _ => .bind (fun s t => Speakable cfg
    ⟨.preparation, s, .ok ()⟩ ∧ Saying cfg said t) (.get fun s holds => ⟨holds.2, holds.1⟩)
    fun s => .given fun speakable => ?_) fun x => .ite (fun _ => .pure fun s raising =>
    raising.1) fun _ => .raise fun s raising => .inl ⟨said, opening, raising⟩
  · simp only [Speakable] at speakable
    split
    · rename_i preparation ended
      rw [ended] at speakable
      exact .pure fun t saying => ⟨speakable preparation rfl, saying⟩
    · exact .raise fun t saying => ⟨saying, fun _ => .inl rfl⟩

theorem says_queueGet (opening : Opening said) :
    Triple (Undisturbed cfg q) Fitting (Saying cfg said) (queueGet cfg) (fun _ => Saying cfg said)
      (Thrown cfg q) := by
  have frame : Framed cfg Fitting (Saying cfg said) := framed_saying opening.fits
  refine .tryCatch (Raising cfg q said) (.bind (fun _ => Saying cfg said) (returns_await frame
    fun s x saying admitted undisturbed => ⟨saying, fun holds => .inl
      (exception_of_undisturbed (p := .queueGet) admitted undisturbed rfl holds)⟩) fun _ =>
    .bind (fun _ => Saying cfg said) (.get fun _ => id) fun s => ?_) fun x =>
    .ite (fun _ => .pure fun s raising => raising.1) fun _ => .raise fun s raising =>
      .inl ⟨said, opening, raising⟩
  split
  · exact .bind (fun _ => Saying cfg said) (.modify fun s saying => saying.of_locals rfl rfl)
      fun _ => .pure fun _ => id
  · exact .raise fun s saying => ⟨saying, fun _ => .inl rfl⟩

/-- The opening with so many deltas. -/
def answeringSaid (n : ℕ) : List Letter :=
  [.queued, .preparing, .answering] ++ List.replicate n .message

theorem opening_answeringSaid (n : ℕ) : Opening (answeringSaid n) := .answering n

/-- What a round leaves: the next round, or the end. -/
def Round (cfg : Config) (q : Prop) (next : Option Unit) (s : State) : Prop :=
  if next.isSome then Spoken q s else ∃ n, Saying cfg (answeringSaid n) s

theorem says_delta (n : ℕ) {data : Json} :
    Triple (Undisturbed cfg q) Fitting (Saying cfg (answeringSaid n)) (yieldEvent cfg "message" data)
      (fun _ => Saying cfg (answeringSaid (n + 1))) (Thrown cfg q) :=
  says_opening .message rfl Opening.message (.answering n) (.answering (n + 1))

theorem says_answerComplete (n : ℕ) (preparation : ChatPreparation) :
    Triple (Undisturbed cfg q) Fitting (Saying cfg (answeringSaid n)) (answerComplete cfg preparation)
      (fun _ => Spoken q) (Thrown cfg q) := by
  have opening := opening_answeringSaid n
  refine .bind (fun _ => Saying cfg (answeringSaid n)) (.get fun _ => id) fun s =>
    .ite (fun _ => (says_error opening).weaken_exc fun _ _ => And.left)
    fun _ => .bind (fun _ => Saying cfg (answeringSaid n)) ?_ fun response => ?_
  · exact (says_completePreparation opening.fits preparation _ false).conseq (fun _ => id)
      (fun _ _ answered => answered.1.1) fun _ _ failed => failed.thrown opening
  · exact (says_ending .finish rfl opening (.answered n .finish (.inr (.inr rfl)))).weaken_exc
      fun _ _ => And.left

variable (titled : Titled cfg)
include titled

theorem says_stop (opening : Opening said) :
    Triple (Undisturbed cfg q) Fitting (Saying cfg said) (yieldCancel cfg) (fun _ => Spoken q)
      (Thrown cfg q) :=
  (says_yieldCancel titled opening).weaken_exc fun _ _ => And.left

theorem says_answerError (n : ℕ) :
    Triple (Undisturbed cfg q) Fitting (Saying cfg (answeringSaid n)) (answerError cfg)
      (fun _ => Spoken q) (Thrown cfg q) := by
  have opening := opening_answeringSaid n
  exact .bind _ (returns_isCancelled (framed_saying opening.fits)) fun cancelled => .ite
    (fun _ => says_stop titled opening) fun _ =>
      (says_error opening).weaken_exc fun _ _ => And.left

theorem says_consumeEvent (n : ℕ) (preparation : ChatPreparation) (event : StreamEvent) :
    Triple (Undisturbed cfg q) Fitting (Saying cfg (answeringSaid n))
      (consumeEvent cfg preparation event) (Round cfg q) (Thrown cfg q) := by
  cases event with
  | thinking delta =>
    exact .bind _ (says_delta n) fun _ => .pure fun s saying => ⟨n + 1, saying⟩
  | content delta =>
    exact .bind (fun _ => Saying cfg (answeringSaid n)) (.modify fun s saying =>
      saying.of_locals rfl rfl) fun _ => .bind _ (says_delta n) fun _ =>
      .pure fun s saying => ⟨n + 1, saying⟩
  | complete => exact .bind _ (says_answerComplete n preparation) fun _ => .pure fun _ => id
  | error message => exact .bind _ (says_answerError titled n) fun _ => .pure fun _ => id

theorem says_consumeRound (n : ℕ) (preparation : ChatPreparation) :
    Triple (Undisturbed cfg q) Fitting (Saying cfg (answeringSaid n)) (consumeRound cfg preparation)
      (Round cfg q) (Thrown cfg q) := by
  have opening := opening_answeringSaid n
  have frame : Framed cfg Fitting (Saying cfg (answeringSaid n)) := framed_saying opening.fits
  refine .bind (fun _ => Saying cfg (answeringSaid n)) (.get fun _ => id) fun s =>
    .ite (fun _ => ?overflowed) fun _ => .bind _ (says_disconnected opening) fun gone =>
    .ite ?gone fun _ => ?going
  case overflowed =>
    have word : Word (answeringSaid n ++ [Letter.error] ++ [Letter.done]) := by
      rw [List.append_assoc]
      exact opening.ends (.inr rfl)
    refine .bind (fun _ => Saying cfg (answeringSaid n)) (.modify fun s saying =>
      frame.cancelChild s _ saying) fun _ => .bind _
      ((says_terminal .error rfl opening word).weaken_exc fun _ _ => And.left) fun _ =>
      .bind _ ((says_done word).weaken_exc fun _ _ => .inr) fun _ => .pure fun _ => id
  case gone =>
    rintro rfl
    have stopped : Triple (Undisturbed cfg q) Fitting
        (fun s => Saying cfg (answeringSaid n) s ∧ (true = true → ¬ q)) (taskManagerCancel cfg)
        (fun _ s => ¬ q ∧ Saying cfg (answeringSaid n) s) (Thrown cfg q) :=
      fun s tape ⟨saying, alive⟩ visited => ((returns_taskManagerCancel frame
        (thrown_of_undisturbed opening rfl)).weaken_post
          fun _ _ kept => ⟨alive rfl, kept⟩) s tape saying visited
    refine .bind _ stopped fun _ => .given fun alive => .bind _
      ((says_cancelledPayload titled opening.fits).weaken_exc fun x s failed => ?_) fun _ =>
      .pure fun s sent => ?_
    · exact .inl ⟨_, opening, failed.1, fun holds => (failed.2 holds).elim⟩
    · exact ⟨sent.1.fitting opening.fits, fun holds => (alive holds).elim⟩
  case going =>
    refine .bind (fun _ => Saying cfg (answeringSaid n)) ((returns_isCancelled frame).strengthen_pre
      fun _ => And.left) fun cancelled => .ite (fun _ => .bind _
      (says_stop titled opening) fun _ => .pure fun _ => id) fun _ => .bind _
      (says_queueGet opening) fun event => ?_
    cases event with
    | none => exact .pure fun s saying => ⟨n, saying⟩
    | some event => exact says_consumeEvent titled n preparation event

theorem says_loop (preparation : ChatPreparation) :
    Triple (Undisturbed cfg q) Fitting (Saying cfg (answeringSaid 0))
      (Co.repeatUntil (consumeRound cfg preparation)) (fun _ => Spoken q) (Thrown cfg q) := by
  have rounds : Triple (Undisturbed cfg q) Fitting (fun s => ∃ n, Saying cfg (answeringSaid n) s)
      (Co.repeatUntil (consumeRound cfg preparation)) (fun _ => Spoken q) (Thrown cfg q) := by
    refine .repeatUntil ?_ (.each fun n => (says_consumeRound titled n preparation).weaken_post
      fun next s round => ?_)
    · exact fun s ⟨n, saying⟩ => saying.fitting (opening_answeringSaid n).fits
    · cases next <;> exact round
  exact rounds.strengthen_pre fun s saying => ⟨0, saying⟩

theorem says_answer (preparation : ChatPreparation) :
    Triple (Undisturbed cfg q) Fitting (Saying cfg [.queued, .preparing]) (answer cfg preparation)
      (fun _ => Spoken q) (Thrown cfg q) := by
  have opening := opening_answeringSaid 0
  have frame : Framed cfg Fitting (Saying cfg (answeringSaid 0)) := framed_saying opening.fits
  have awaited : Triple (Undisturbed cfg q) Fitting (Saying cfg (answeringSaid 0))
      (await cfg .modelStart) (fun _ => Saying cfg (answeringSaid 0))
      (Raising cfg q (answeringSaid 0)) := returns_await frame raising_modelStart
  have handed : Triple (Undisturbed cfg q) Fitting (Saying cfg (answeringSaid 0)) bindHandle
      (fun _ => Saying cfg (answeringSaid 0)) (Thrown cfg q) := by
    refine .modify fun s saying => ?_
    dsimp only
    split_ifs
    · exact frame.cancelChild _ _ (saying.of_locals rfl rfl)
    · exact saying.of_locals rfl rfl
  refine .bind _ (says_opening .answering rfl rfl .preparing (.answering 0)) fun _ =>
    .bind (fun _ => Saying cfg (answeringSaid 0)) (.modify fun s saying => saying.of_locals rfl rfl)
    fun _ => .bind _ (returns_bind frame _) fun bound => .ite (fun _ => ?refused) fun _ => ?accepted
  case refused =>
    refine .bind (fun _ => Saying cfg (answeringSaid 0)) (.modify fun s saying =>
      frame.cancelChild s _ saying) fun _ => .bind (fun _ => Saying cfg (answeringSaid 0))
      (.tryCatch _ awaited fun x => .ite (fun _ => .pure fun s raising => raising.1) fun _ =>
        .raise fun s raising => .inl ⟨_, opening, raising⟩) fun _ => says_stop titled opening
  case accepted =>
    exact .bind (fun _ => Saying cfg (answeringSaid 0)) (awaited.weaken_exc fun x s raising =>
      .inl ⟨_, opening, raising⟩) fun _ => .bind _ handed fun _ =>
      .bind _ (returns_bind frame _) fun bound => .ite (fun _ => says_stop titled opening) fun _ =>
      says_loop titled preparation

theorem says_prepare (permit : StreamQueuePermit) :
    Triple (Undisturbed cfg q) Fitting (Saying cfg [.queued]) (prepare cfg permit)
      (fun _ => Spoken q) (Thrown cfg q) := by
  have frame : Framed cfg Fitting (Saying cfg [.queued, .preparing]) :=
    framed_saying Opening.preparing.fits
  refine .bind (fun _ => Saying cfg [.queued]) (.modify fun s saying => saying.of_locals rfl rfl)
    fun _ => .bind _ (says_opening .preparing rfl rfl .queued .preparing) fun _ =>
    .bind (fun _ => Saying cfg [.queued, .preparing]) (.modify fun s saying =>
      saying.of_locals rfl rfl) fun _ => .bind _ (returns_bind frame _) fun bound =>
    .ite (fun _ => says_stop titled .preparing) fun _ => .bind _ (says_awaitPreparation .preparing)
    fun preparation => .given fun encodable => ?_
  refine .bind (fun _ => Saying cfg [.queued, .preparing]) (.modify fun s saying => ?_) fun _ =>
    .bind _ (returns_isCancelled frame) fun cancelled => .ite
    (fun _ => says_stop titled .preparing) fun _ => says_answer titled preparation
  refine ⟨saying.said, fun preparation' same => ?_⟩
  obtain rfl : preparation = preparation' := Option.some_inj.mp same
  exact encodable

theorem says_tryBlock :
    Triple (Undisturbed cfg q) Fitting (Saying cfg []) (tryBlock cfg) (fun _ => Spoken q)
      (Thrown cfg q) := by
  have frame : Framed cfg Fitting (Saying cfg [.queued]) := framed_saying Opening.queued.fits
  refine .bind _ ((says_yieldEvent .queued rfl Opening.queued.fits).weaken_exc ?_) fun _ =>
    .bind _ (returns_isCancelled frame) fun _ => .ite (fun _ => says_stop titled .queued) fun _ =>
    .bind _ (returns_await frame (thrown_of_undisturbed .queued rfl)) fun admission => ?_
  · rintro x s (⟨unsendable, -⟩ | ⟨closed, alive, saying⟩)
    · simp [Json.encodes, Json.encodesFields] at unsendable
    · exact .inl ⟨_, .queued, saying, fun holds => (alive holds).elim⟩
  · split
    · exact says_stop titled .queued
    · exact says_yieldRejection titled
    · exact says_prepare titled _
    · exact (says_error .queued).weaken_exc fun _ _ => And.left

omit titled in
/-- `isCancelled` answers true where the entry is cancelled. -/
theorem says_isCancelled {exc : Raised → State → Prop} (fact : Prop) :
    Triple (Undisturbed cfg q) Fitting (fun s => Saying cfg said s ∧ (fact → Cancelled cfg s))
      (isCancelled cfg) (fun cancelled s => (fact → cancelled = true) ∧ Saying cfg said s) exc := by
  refine .bind (fun s t => (fact → Cancelled cfg s) ∧ Saying cfg said t)
    (.get fun s holds => ⟨holds.2, holds.1⟩) fun s => .given fun stopped => ?_
  exact .bind (fun _ => Saying cfg said) (.modify fun t saying => saying.of_locals rfl rfl) fun _ =>
    .pure fun t saying => ⟨stopped, saying⟩

/-- The handlers end what has been opened, unless the generator is interrupted. -/
theorem says_handleRaised (x : Raised) :
    Triple (Undisturbed cfg q) Fitting (Thrown cfg q x) (handleRaised cfg x) (fun _ => Spoken q)
      (fun _ => Spoken q) := by
  have cut {x : Raised} {s : State} (thrown : Thrown cfg q x s ∧ ¬ q) : Spoken q s :=
    ⟨thrown.1.fitting, fun holds => (thrown.2 holds).elim⟩
  refine .either (.each fun said => .given fun opening => ?opening) ?closed
  case closed =>
    by_cases closed : x = .generatorExit
    · subst closed
      exact .raise fun s thrown => cut ⟨.inr thrown, thrown.2.1⟩
    · exact .unreachable fun s thrown => closed thrown.1
  case opening =>
    have frame : Framed cfg Fitting (Saying cfg said) := framed_saying opening.fits
    have stop : Triple (Undisturbed cfg q) Fitting (Saying cfg said) (yieldCancel cfg)
        (fun _ => Spoken q) (fun _ => Spoken q) :=
      (says_yieldCancel titled opening).weaken_exc fun _ _ => cut
    have fail (message : String) : Triple (Undisturbed cfg q) Fitting (Saying cfg said)
        (do yieldEvent cfg "error" (errorData message); yieldEvent cfg "done" (taskData cfg))
        (fun _ => Spoken q) (fun _ => Spoken q) :=
      (says_error opening).weaken_exc
        fun _ _ thrown => cut ⟨thrown.1, thrown.2 (encodes_errorData message)⟩
    refine .ite (fun cancelled => ?_) fun other => .ite (fun failed => ?_) fun closed => ?_
    · refine .bind (fun cancelled s => (q → cancelled = true) ∧ Saying cfg said s)
        ((says_isCancelled q).strengthen_pre fun s raising => ⟨raising.1, fun holds => ?_⟩)
        fun stopped => .given fun known => .ite (fun _ => stop)
        fun running => .raise fun s saying => ⟨saying.fitting opening.fits, fun holds => ?_⟩
      · rcases raising.2 holds with failed | stopped
        · simp [cancelled, Raised.isException] at failed
        · exact stopped.2
      · exact (running (known holds)).elim
    · refine .bind (fun _ => Saying cfg said) ((returns_isCancelled frame).strengthen_pre
        fun _ => And.left) fun stopped =>
        .bind (fun _ => Saying cfg said) (.get fun _ => id) fun s => .ite (fun _ => stop) fun _ =>
        .ite (fun _ => fail _) fun _ => fail _
    · refine .raise fun s raising => ⟨raising.1.fitting opening.fits, fun holds => ?_⟩
      exact ((raising.2 holds).elim closed fun stopped => other stopped.1).elim

theorem says_stream :
    Triple (Undisturbed cfg q) Fitting (Saying cfg []) (stream cfg) (fun _ => Spoken q)
      (fun _ => Spoken q) := by
  have word : Word ([] ++ [Letter.error] ++ [Letter.done]) := .refused
  have frame : Framed cfg Fitting (Saying cfg []) := framed_saying word.fits.left.left
  refine .bind _ ((returns_register frame interrupted_backend).weaken_exc fun x s failed => ?_)
    fun registered => .ite (fun _ => .bind _ ((says_yieldEvent .error rfl
      word.fits.left).weaken_exc ?_) fun _ => (says_done word).weaken_exc fun x s closed => ?_)
      fun _ => .bind (fun _ => Saying cfg [])
      (.modify fun s saying => saying.of_locals rfl rfl) fun _ => ?_
  · exact ⟨failed.1.fitting word.fits.left.left, fun holds => (failed.2 holds).elim⟩
  · rintro x s (⟨unsendable, -⟩ | ⟨-, alive, saying⟩)
    · simp at unsendable
    · exact ⟨saying.fitting word.fits.left, fun holds => (alive holds).elim⟩
  · exact ⟨closed.2.2, fun holds => (closed.2.1 holds).elim⟩
  · have clean : Keeps (Undisturbed cfg q) Fitting (Spoken q) (cleanup cfg) :=
      keeps_cleanup framed_spoken fun s _ _ spoken => spoken.of_emitted rfl
    exact .tryFinally (fun _ => Spoken q) (fun _ => Spoken q)
      (.tryCatch _ (says_tryBlock titled) (says_handleRaised titled)) (fun _ => clean) fun _ => clean

end Body

section Granted

variable {cfg : Config}

/-- `acquire` answers with a permit. -/
def Grants : Visit State Point Raised Reply → Prop
  | ⟨.acquire, _, .ok ⟨.granted, some _⟩⟩ => True
  | _ => False

/-- Neither the preparation nor the model has been started. -/
def Unstarted (s : State) : Prop := s.preparationTask.isNone = true ∧ s.modelStartTask.isNone = true

theorem unstarted_unaffected : Unaffected cfg Unstarted Unstarted where
  waits _ := id
  act _ _ _ unstarted taken := ⟨(act_locals taken).preparing.trans unstarted.1,
    (act_locals taken).starting.trans unstarted.2⟩
  cancelChild s ref unstarted := ⟨(locals_cancelChild s ref).preparing.trans unstarted.1,
    (locals_cancelChild s ref).starting.trans unstarted.2⟩
  registry _ _ _ _ unstarted := unstarted
  lease _ unstarted := unstarted
  emits _ _ _ unstarted := unstarted
  persists _ _ _ _ unstarted := unstarted
  stream _ _ _ _ _ _ _ _ unstarted := unstarted

theorem unstarted_tryBlock : Keeps (¬ Grants ·) Unstarted Unstarted (tryBlock cfg) := by
  have frame : Unaffected cfg Unstarted Unstarted := unstarted_unaffected
  have refused : Triple (¬ Grants ·) Unstarted Unstarted (await cfg .acquire)
      (fun admission s => (∀ permit, admission ≠ ⟨.granted, some permit⟩) ∧ Unstarted s)
      (fun _ => Unstarted) := by
    refine .await frame.waits frame.act (fun s admission unstarted _ ungranted => ?_)
      fun s x unstarted _ _ => unstarted
    refine ⟨fun permit granted => ungranted ?_, unstarted⟩
    rw [granted]
    trivial
  refine .bind (frame.keeps_yieldEvent _ _) fun _ =>
    .bind (keeps_isCancelled frame.toFramed) fun _ => .ite frame.keeps_yieldCancel ?_
  refine Triple.bind _ refused fun ⟨status, permit⟩ => .given fun ungranted => ?_
  dsimp only
  split
  · exact frame.keeps_yieldCancel
  · exact keeps_yieldRejection frame
  · exact absurd rfl (ungranted _)
  · exact frame.keeps_yieldUnavailable

theorem unstarted_stream : Keeps (¬ Grants ·) Unstarted Unstarted (stream cfg) := by
  have frame : Unaffected cfg Unstarted Unstarted := unstarted_unaffected
  have clean : Keeps (¬ Grants ·) Unstarted Unstarted (cleanup cfg) :=
    keeps_cleanup frame.toFramed fun _ _ _ unstarted => unstarted
  refine .bind (keeps_register frame.toFramed) fun _ => .ite
    (frame.keeps_yieldTwo _ _ _ _) (.bind (.modify fun _ unstarted => unstarted)
    fun _ => ?_)
  exact Triple.tryFinally (fun _ => Unstarted) (fun _ => Unstarted)
    (.tryCatch _ unstarted_tryBlock fun x => frame.keeps_handleRaised x) (fun _ => clean)
    fun _ => clean

end Granted

/-- The events of every run fit the protocol; a run that has ended uninterrupted has sent a whole
word; and a child is started only after `acquire` has answered with a permit. -/
theorem stream_grammar (cfg : Config) (titled : Titled cfg) (now : ℚ)
    (tasks : StreamTaskManager ChildRef) (tape : List (Turn Action Point Raised Reply))
    (speakable : ∀ v ∈ (stream cfg (initial now tasks) tape).visits, Speakable cfg v) :
    Fitting (stream cfg (initial now tasks) tape).state ∧
      ((stream cfg (initial now tasks) tape).outcome.Finished →
        (∀ v ∈ (stream cfg (initial now tasks) tape).visits, ¬ Interrupted v) →
        ∃ said, Said (stream cfg (initial now tasks) tape).state said ∧ Word said) ∧
      (¬ Unstarted (stream cfg (initial now tasks) tape).state →
        ∃ v ∈ (stream cfg (initial now tasks) tape).visits, Grants v) := by
  have silent : Saying cfg [] (initial now tasks) := ⟨rfl, by simp [initial]⟩
  refine ⟨?_, fun finished uninterrupted => ?_, fun started => ?_⟩
  · refine Triple.always ((says_stream (q := False) titled).conseq (fun _ => id)
      (fun _ _ spoken => spoken.1) fun _ _ spoken => spoken.1) silent fun v member => ?_
    exact ⟨speakable v member, False.elim⟩
  · refine (Triple.finished (says_stream (q := True) titled) silent (fun v member => ?_)
      finished).2 trivial
    exact ⟨speakable v member, fun _ => uninterrupted v member⟩
  · by_contra ungranted
    refine started (Triple.always unstarted_stream ⟨rfl, rfl⟩ fun v member grants => ?_)
    exact ungranted ⟨v, member, grants⟩

theorem answeredRun_grammar :
    Fitting (stream exampleConfig (initial 0 {}) answeredRun).state ∧
      ((stream exampleConfig (initial 0 {}) answeredRun).outcome.Finished →
        (∀ v ∈ (stream exampleConfig (initial 0 {}) answeredRun).visits, ¬ Interrupted v) →
        ∃ said, Said (stream exampleConfig (initial 0 {}) answeredRun).state said ∧ Word said) ∧
      (¬ Unstarted (stream exampleConfig (initial 0 {}) answeredRun).state →
        ∃ v ∈ (stream exampleConfig (initial 0 {}) answeredRun).visits, Grants v) :=
  stream_grammar exampleConfig ⟨by decide +kernel, by simp [exampleConfig], by decide⟩ 0 {}
    answeredRun (by decide +kernel)

/-- A message with a lone surrogate, as JSON can carry it. -/
def surrogateConfig : Config := { exampleConfig with request := { message := [0xd800] } }

/-- The admission times out and nothing is persisted. -/
def rejectedRun : List (Turn Action Point Raised Reply) := [
  ⟨[], .yielding, .ok ()⟩,
  ⟨[], .acquire, .ok ⟨.timedOut, none⟩⟩,
  ⟨[], .resolveMemory, .ok false⟩,
  ⟨[], .yielding, .ok ()⟩,
  ⟨[], .yielding, .ok ()⟩,
  ⟨[], .yielding, .ok ()⟩]

/-- The title cannot be encoded, and an `error` takes the place of the `finish`. -/
theorem rejectedRun_breaks :
    let r := stream surrogateConfig (initial 0 {}) rejectedRun
    r.outcome.Finished ∧ (∀ v ∈ r.visits, v.signal.isOk) ∧ ¬ Fitting r.state := by
  refine ⟨by decide +kernel, by decide +kernel, ?_⟩
  rintro ⟨said, same, rest, word⟩
  have sent : ([.queued, .reject, .error, .done] : List Letter).map some = said.map some :=
    .trans (by decide +kernel) same
  rw [← List.map_injective_iff.mpr (Option.some_injective _) sent] at word
  generalize spoken : [Letter.queued, .reject, .error, .done] ++ rest = full at word
  cases word <;> simp at spoken

end HeyeeAgent.StreamChat.Lifecycle
