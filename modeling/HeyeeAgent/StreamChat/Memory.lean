import HeyeeAgent.StreamChat.Delivery
import HeyeeAgent.StreamChat.Grammar

/-! # The assistant message of a stream

Two paths append the answer: `complete` and `cancelled_payload`. The second sets its flag before it
appends, the first sets none, so a message appended by `complete` is pending until its `finish` is
sent. A queue timeout appends its fixed reply on a third path. Everywhere else nothing is appended
yet, and what would be appended is the text of the deltas taken.
-/

namespace HeyeeAgent.StreamChat.Lifecycle

open Python StreamQueueLimiter Coroutine

/-- The `response` deltas among the events. -/
def contents (events : List StreamEvent) : List Str := events.filterMap fun
  | .content delta => some delta
  | _ => none

/-- The stripped concatenation of the `response` deltas taken. -/
def text (s : State) : Str := Str.strip (contents s.taken).flatten

/-- A message is appended and neither its `finish` sent nor the stream stopped. -/
def Pending (s : State) : Prop := s.memory ≠ [] ∧ s.stopped = false ∧ ¬ Sent s "finish"

/-- The response of a complete answer. -/
def answerResponse (preparation : ChatPreparation) (reply : Str) (messageId : Option Str) :
    ChatResponse where
  conversationId := preparation.conversationId
  messageId := messageId
  interrupted := false
  reply := reply
  sources := preparation.retrievedSources
  toolCalls := preparation.toolCalls
  ragIntent := preparation.ragIntent

/-- The data of the `finish` of a queue timeout. -/
def rejectionData (rejection : QueueRejection) : Json := .obj [
  ("conversationId", .ofOption (rejection.conversationId.map .str)),
  ("messageId", .ofOption (rejection.messageId.map .str)), ("title", .str rejection.title),
  ("rejected", .bool true)]

/-- With this message id, the `finish` that follows the append is built and encoded. -/
def Answerable (cfg : Config) (held : Option ChatPreparation) (reply : Str)
    (messageId : Option Str) : Prop :=
  match held with
  | some preparation =>
    cfg.responseValidates (answerResponse preparation reply messageId) = true ∧
      (finishData cfg (answerResponse preparation reply messageId)).encodes = true
  | none =>
    (rejectionData ⟨some ((cfg.request.conversationId.filter (· ≠ [])).getD cfg.newConversationId),
      messageId, title cfg⟩).encodes = true

/-- Nothing is raised between the append of an answer and its `finish`. -/
def Uncut (cfg : Config) : Visit State Point Raised Reply → Prop
  | ⟨.memoryAppend, s, .ok messageId⟩ => s.stopped = false →
    Answerable cfg s.preparation (Str.strip s.responseParts.flatten)
      (Option.filter (· ≠ []) (messageId : Option Str))
  | ⟨_, s, .error _⟩ => ¬ Pending s
  | _ => True

/-- The storage works: the memory is enabled and there, and takes what is appended. -/
def Working (cfg : Config) : Visit State Point Raised Reply → Prop
  | ⟨.preparation, s, .ok _⟩ => ∀ preparation ∈ Child.result s.preparationTask,
      preparation.memoryEnabled = true ∧ preparation.memoryService = true
  | ⟨.resolveMemory, _, .ok service⟩ => cfg.memoryEnabled = true ∧ service = true
  | ⟨.resolveMemory, _, .error _⟩ | ⟨.loadAndAppend, _, .error _⟩ | ⟨.memoryAppend, _, .error _⟩ =>
    False
  | _ => True

/-- The admission times out. -/
def TimesOut : Visit State Point Raised Reply → Prop
  | ⟨.acquire, _, .ok admission⟩ => admission.status = .timedOut
  | _ => False

/-- At most one message is stored: the text shown, or under `r` the reply of a queue timeout. -/
def Contained (r : Prop) (s : State) : Prop :=
  s.memory = [] ∨ s.memory = [text s] ∧ s.preparation.isSome = true ∨
    r ∧ s.memory = [queueTimeoutReply] ∧ s.preparation.isNone = true

/-- What holds when the generator has ended. -/
structure Remembered (w r : Prop) (s : State) : Prop where
  content : Contained r s
  reached : s.memory ≠ [] → Sent s "finish" ∨ s.stopped = true ∧ text s ≠ []
  kept : w → Sent s "finish" ∨ s.stopped = true ∧ text s ≠ [] → s.memory ≠ []

/-- Nothing has been stored, and no attempt has been made that would forbid one. -/
structure Unstored (w : Prop) (s : State) : Prop where
  memory : s.memory = []
  unpersisted : s.cancellationPersisted = false
  unfinished : ¬ Sent s "finish"
  equipped : w → ∀ preparation ∈ s.preparation,
    preparation.memoryEnabled = true ∧ preparation.memoryService = true

/-- The parts are those of the events taken, and come after the start of the answer. -/
structure Collected (s : State) : Prop where
  parts : s.responseParts = contents s.taken
  answering : s.responseParts ≠ [] → s.preparation.isSome = true ∧ s.answerStartedAt.isSome = true

/-- An interrupted answer has been handed to the storage. -/
structure Persisted (w : Prop) (s : State) : Prop where
  stopped : s.stopped = true
  persisted : s.cancellationPersisted = true
  spoken : text s ≠ []
  prepared : s.preparation.isSome = true
  content : s.memory = [] ∨ s.memory = [text s]
  stored : w → s.memory ≠ []

/-- Where a cancellation may come: nothing is stored and a stop has found no text, or a stop has
stored the text. -/
def Open (w : Prop) (s : State) : Prop :=
  Unstored w s ∧ Collected s ∧ (s.stopped = true → text s = []) ∨ Persisted w s

/-- An exception on its way to the handlers. -/
def Leaving (w r : Prop) (x : Raised) (s : State) : Prop :=
  Open w s ∨ x = .generatorExit ∧ Remembered w r s

/-- The way to the end of the answer: what is held of the preparation, and whether the answer has
begun. -/
structure Going (w : Prop) (held : Option ChatPreparation) (begun : Bool) (s : State) : Prop where
  unstored : Unstored w s
  parts : s.responseParts = contents s.taken
  held : s.preparation = held
  started : s.answerStartedAt.isSome = begun
  early : begun = false → s.taken = []
  running : s.stopped = false

section Story

variable {cfg : Config} {w r : Prop} {s t : State} {held : Option ChatPreparation} {begun : Bool}

/-- What the assertions above read. -/
structure SameStory (s t : State) : Prop where
  memory : t.memory = s.memory
  stopped : t.stopped = s.stopped
  persisted : t.cancellationPersisted = s.cancellationPersisted
  finish : Sent t "finish" ↔ Sent s "finish"
  taken : t.taken = s.taken
  parts : t.responseParts = s.responseParts
  preparation : t.preparation = s.preparation
  begun : t.answerStartedAt = s.answerStartedAt

theorem SameStory.of_locals (same : SameLocals s t) : SameStory s t :=
  ⟨same.memory, same.stopped, same.cancellationPersisted, by rw [Sent, Sent, same.emitted],
    same.taken, same.responseParts, same.preparation, same.answerStartedAt⟩

theorem SameStory.text (same : SameStory s t) : Lifecycle.text t = Lifecycle.text s := by
  rw [Lifecycle.text, Lifecycle.text, same.taken]

theorem Contained.same (contained : Contained r s) (same : SameStory s t) : Contained r t := by
  rw [Contained, same.memory, same.text, same.preparation]
  exact contained

theorem Remembered.same (remembered : Remembered w r s) (same : SameStory s t) :
    Remembered w r t where
  content := remembered.content.same same
  reached := by
    rw [same.memory, same.finish, same.stopped, same.text]
    exact remembered.reached
  kept := by
    rw [same.memory, same.finish, same.stopped, same.text]
    exact remembered.kept

theorem Unstored.same (unstored : Unstored w s) (same : SameStory s t) : Unstored w t where
  memory := same.memory.trans unstored.memory
  unpersisted := same.persisted.trans unstored.unpersisted
  unfinished finish := unstored.unfinished (same.finish.mp finish)
  equipped := same.preparation ▸ unstored.equipped

theorem Collected.same (collected : Collected s) (same : SameStory s t) : Collected t where
  parts := by rw [same.parts, same.taken, collected.parts]
  answering := by
    rw [same.parts, same.preparation, same.begun]
    exact collected.answering

theorem Persisted.same (persisted : Persisted w s) (same : SameStory s t) : Persisted w t where
  stopped := same.stopped.trans persisted.stopped
  persisted := same.persisted.trans persisted.persisted
  spoken := same.text ▸ persisted.spoken
  prepared := same.preparation ▸ persisted.prepared
  content := by
    rw [same.memory, same.text]
    exact persisted.content
  stored := same.memory ▸ persisted.stored

theorem Open.same (open' : Open w s) (same : SameStory s t) : Open w t :=
  open'.imp (fun ⟨unstored, collected, blank⟩ => ⟨unstored.same same, collected.same same,
    fun stopped => same.text.trans (blank (same.stopped ▸ stopped))⟩) fun persisted =>
    persisted.same same

theorem Going.same (going : Going w held begun s) (same : SameStory s t) : Going w held begun t where
  unstored := going.unstored.same same
  parts := by rw [same.parts, same.taken, going.parts]
  held := same.preparation.trans going.held
  started := same.begun ▸ going.started
  early := same.taken ▸ going.early
  running := same.stopped.trans going.running

theorem Persisted.remembered (persisted : Persisted w s) : Remembered w r s where
  content := persisted.content.imp id fun stored => .inl ⟨stored, persisted.prepared⟩
  reached _ := .inr ⟨persisted.stopped, persisted.spoken⟩
  kept works _ := persisted.stored works

theorem Open.remembered (open' : Open w s) : Remembered w r s := by
  rcases open' with ⟨unstored, -, blank⟩ | persisted
  · refine ⟨.inl unstored.memory, fun stored => absurd unstored.memory stored, fun _ claimed => ?_⟩
    rcases claimed with finish | ⟨stopped, spoken⟩
    · exact absurd finish unstored.unfinished
    · exact absurd (blank stopped) spoken
  · exact persisted.remembered

theorem Going.open (going : Going w held begun s) (ready : begun = true → held.isSome = true) :
    Open w s := by
  refine .inl ⟨going.unstored, ⟨going.parts, fun spoken => ?_⟩, fun stopped => ?_⟩
  · cases begun with
    | false => simp [going.parts, going.early rfl, contents] at spoken
    | true => exact ⟨going.held ▸ ready rfl, going.started⟩
  · simp [going.running] at stopped

/-- An assertion about the story alone. -/
theorem framed_story {K : State → Prop} (respects : ∀ s t, K s → SameStory s t → K t)
    (contained : ∀ s, K s → Contained r s) : Framed cfg (Contained r) K where
  waits := contained
  act s _ t holds taken := respects s t holds (.of_locals (act_locals taken))
  cancelChild s ref holds := respects s _ holds (.of_locals (locals_cancelChild s ref))
  registry s _ _ _ holds := respects s _ holds ⟨rfl, rfl, rfl, .rfl, rfl, rfl, rfl, rfl⟩
  lease s holds := respects s _ holds ⟨rfl, rfl, rfl, .rfl, rfl, rfl, rfl, rfl⟩

theorem sameStory_emit (s : State) (data : Json) {name : String} (other : name ≠ "finish") :
    SameStory s { s with emitted := s.emitted ++ [⟨name, data⟩] } := by
  refine ⟨rfl, rfl, rfl, ⟨sent_append s data other, fun sent => ?_⟩, rfl, rfl, rfl, rfl⟩
  obtain ⟨event, member, named⟩ := sent
  exact ⟨event, List.mem_append_left _ member, named⟩

theorem emits_story {K : State → Prop} (respects : ∀ s t, K s → SameStory s t → K t)
    {name : String} (other : name ≠ "finish") : Emits K name := fun s data holds =>
  respects s _ holds (sameStory_emit s data other)

theorem emitsEnds_story {K : State → Prop} (respects : ∀ s t, K s → SameStory s t → K t) :
    EmitsEnds K :=
  ⟨emits_story respects (by decide), emits_story respects (by decide),
    emits_story respects (by decide)⟩

theorem framed_open : Framed cfg (Contained r) (Open w) :=
  framed_story (fun _ _ => Open.same) fun _ open' => (open'.remembered (r := r)).content

theorem framed_remembered : Framed cfg (Contained r) (Remembered w r) :=
  framed_story (fun _ _ => Remembered.same) fun _ remembered => remembered.content

theorem framed_persisted : Framed cfg (Contained r) (Persisted w) :=
  framed_story (fun _ _ => Persisted.same) fun _ persisted => (persisted.remembered (r := r)).content

theorem framed_going : Framed cfg (Contained r) (Going w held begun) :=
  framed_story (fun _ _ => Going.same) fun _ going => .inl going.unstored.memory

end Story

/-- The condition along the run: no append is cut off from its `finish`; under `w` the storage
works; and without `r` the admission does not time out. -/
def Careful (cfg : Config) (w r : Prop) (v : Visit State Point Raised Reply) : Prop :=
  Uncut cfg v ∧ (w → Working cfg v) ∧ (¬ r → ¬ TimesOut v)

section Persistence

variable {cfg : Config} {w r : Prop} {held : Option ChatPreparation} {begun : Bool} {reply : Str}

/-- The reply that may be stored on this way: the text of the answer, or that of a rejection. -/
def Fits (r : Prop) (held : Option ChatPreparation) (reply : Str) (s : State) : Prop :=
  held.isSome = true ∧ reply = text s ∨ r ∧ held = none ∧ reply = queueTimeoutReply

/-- The message is stored, and its `finish` is to come. -/
def Storing (r : Prop) (s : State) : Prop := Pending s ∧ Contained r s

theorem Storing.same {s t : State} (storing : Storing r s) (same : SameStory s t) : Storing r t := by
  refine ⟨?_, storing.2.same same⟩
  rw [Pending, same.memory, same.stopped, same.finish]
  exact storing.1

theorem framed_storing : Framed cfg (Contained r) (Storing r) :=
  framed_story (fun _ _ => Storing.same) fun _ storing => storing.2

/-- A pending message sees no exception. -/
theorem uncut_storing {p : Point} {exc : Raised → State → Prop} :
    Raises (Careful cfg w r) (Storing r) p exc := by
  intro s x storing _ careful
  refine absurd storing.1 ?_
  cases p <;> exact careful.1

theorem persists_reply (asyncCompress : Bool) :
    Triple (Careful cfg w r) (Contained r)
      (fun s => Going w held begun s ∧ Fits r held reply s)
      (persistMemoryReply cfg asyncCompress reply)
      (fun messageId s => Answerable cfg held reply messageId ∧ Storing r s)
      (fun _ s => ¬ w ∧ Going w held begun s) := by
  have contained (s : State) (holds : Going w held begun s ∧ Fits r held reply s) : Contained r s :=
    .inl holds.1.unstored.memory
  unfold persistMemoryReply
  refine .bind (fun messageId s => Answerable cfg held reply (messageId.filter (· ≠ [])) ∧
    Going w held begun s ∧ Fits r held reply s) (.call contained ?answered ?failed) fun messageId =>
    .given fun answerable => .bind (fun _ => Storing r) (.modify ?stored) fun _ =>
    .bind _ (returns_callOut framed_storing uncut_storing) fun awaitable => .ite
      (fun _ => .bind _ (returns_await framed_storing uncut_storing)
        fun _ => .pure fun s storing => ⟨answerable, storing⟩)
      fun _ => .pure fun s storing => ⟨answerable, storing⟩
  case answered =>
    rintro s messageId ⟨going, fits⟩ - ⟨uncut, -, -⟩
    have answerable := uncut going.running
    rw [going.held, going.parts] at answerable
    refine ⟨?_, going, fits⟩
    rcases fits with ⟨-, rfl⟩ | ⟨-, rfl, -⟩
    · exact answerable
    · exact answerable
  case failed =>
    exact fun s x holds _ careful => ⟨fun works => careful.2.1 works, holds.1⟩
  case stored =>
    rintro s ⟨going, fits⟩
    have stored : s.memory ++ [reply] = [reply] := by simp [going.unstored.memory]
    refine ⟨⟨by simp, going.running, going.unstored.unfinished⟩, .inr ?_⟩
    rcases fits with ⟨ready, rfl⟩ | ⟨rejected, rfl, rfl⟩
    · exact .inl ⟨stored, going.held ▸ ready⟩
    · exact .inr ⟨rejected, stored, by simp [going.held]⟩

/-- A complete answer is stored with a response that can be sent, unless its storage is disabled. -/
def Responding (w r : Prop) (held : Option ChatPreparation) (begun : Bool) (data : Json)
    (s : State) : Prop :=
  data.encodes = true ∧ Storing r s ∨ ¬ w ∧ Going w held begun s

theorem completes_answer (preparation : ChatPreparation) :
    Triple (Careful cfg w r) (Contained r)
      (fun s => Going w (some preparation) true s ∧ reply = text s)
      (completePreparation cfg preparation reply [] false)
      (fun response => Responding w r (some preparation) true (finishData cfg response))
      (fun _ => Going w (some preparation) true) := by
  refine .bind (fun messageId s => Answerable cfg (some preparation) reply messageId ∧ Storing r s ∨
    ¬ w ∧ Going w (some preparation) true s) ?stored fun messageId => ?built
  case stored =>
    refine .ite (fun disabled => .pure fun s holds => .inr ⟨fun works => ?_, holds.1⟩) fun _ =>
      (persists_reply _).conseq (fun s holds => ⟨holds.1, .inl ⟨rfl, holds.2⟩⟩) (fun _ _ => .inl)
      fun _ _ => And.right
    have equipped := holds.1.unstored.equipped works preparation holds.1.held
    simp [equipped.1, equipped.2] at disabled
  case built =>
    simp only [List.append_nil]
    change Triple _ _ _ (if cfg.responseValidates (answerResponse preparation reply messageId) = true
      then pure (answerResponse preparation reply messageId) else _) _ _
    refine .either (.given fun answerable => ?_) (.given fun idle => ?_)
    · rw [if_pos answerable.1]
      exact .pure fun s storing => .inl ⟨answerable.2, storing⟩
    · exact .ite (fun _ => .pure fun s going => .inr ⟨idle, going⟩) fun _ => .raise fun s => id

/-- An interrupted answer on its way to the storage. -/
structure Interrupting (w : Prop) (preparation : ChatPreparation) (reply : Str) (s : State) :
    Prop where
  memory : s.memory = []
  stopped : s.stopped = true
  persisted : s.cancellationPersisted = true
  spoken : reply ≠ []
  text : text s = reply
  held : s.preparation = some preparation
  equipped : w → preparation.memoryEnabled = true ∧ preparation.memoryService = true

/-- The storage has not taken it. -/
theorem Interrupting.failed {preparation : ChatPreparation} {s : State}
    (interrupting : Interrupting w preparation reply s) (broken : ¬ w) : Persisted w s :=
  ⟨interrupting.stopped, interrupting.persisted, interrupting.text ▸ interrupting.spoken,
    by simp [interrupting.held], .inl interrupting.memory, fun works => absurd works broken⟩

theorem completes_interrupted (preparation : ChatPreparation) :
    Triple (Careful cfg w r) (Contained r) (Interrupting w preparation reply)
      (completePreparation cfg preparation reply [] true) (fun _ => Persisted w)
      (fun _ => Persisted w) := by
  have frame : Framed cfg (Contained r) (Persisted w) := framed_persisted
  refine .bind (fun _ => Persisted w) (.ite (fun disabled => .pure fun s interrupting => ?disabled)
    fun _ => .bind (fun _ => Interrupting w preparation reply) (.call
      (fun s interrupting => .inl interrupting.memory) (fun s _ interrupting _ _ => interrupting)
      fun s x interrupting _ careful => interrupting.failed fun works => careful.2.1 works)
    fun messageId => .bind (fun _ => Persisted w) (.modify fun s interrupting => ?stored) fun _ =>
    .bind _ (keeps_callOut frame _) fun awaitable => .ite (fun _ => .bind _ (keeps_await frame _)
      fun _ => .pure fun _ => id) fun _ => .pure fun _ => id) fun messageId =>
    .ite (fun _ => .pure fun _ => id) fun _ => .raise fun _ => id
  case disabled =>
    refine interrupting.failed fun works => ?_
    have equipped := interrupting.equipped works
    simp [equipped.1, equipped.2] at disabled
  case stored =>
    have stored : s.memory ++ [reply] = [reply] := by simp [interrupting.memory]
    refine ⟨interrupting.stopped, interrupting.persisted, ?_, ?_, .inr ?_, fun _ => by simp⟩
    · exact interrupting.text ▸ interrupting.spoken
    · exact interrupting.held ▸ rfl
    · exact stored.trans (congrArg (fun reply => [reply]) interrupting.text.symm)

/-- Once a stop is known: nothing is stored yet, or the text is. -/
def Stopping (w : Prop) (s : State) : Prop :=
  Unstored w s ∧ Collected s ∧ s.stopped = true ∨ Persisted w s

theorem Open.stopping {s : State} (open' : Open w s) : Stopping w { s with stopped := true } := by
  rcases open' with ⟨unstored, collected, -⟩ | persisted
  · exact .inl ⟨⟨unstored.memory, unstored.unpersisted, unstored.unfinished, unstored.equipped⟩,
      ⟨collected.parts, collected.answering⟩, rfl⟩
  · exact .inr ⟨rfl, persisted.persisted, persisted.spoken, persisted.prepared, persisted.content,
      persisted.stored⟩

/-- There is nothing to store. -/
theorem Stopping.open {s : State} (stopping : Stopping w s)
    (blank : s.cancellationPersisted = false → Collected s → text s = []) : Open w s := by
  rcases stopping with ⟨unstored, collected, -⟩ | persisted
  · exact .inl ⟨unstored, collected, fun _ => blank unstored.unpersisted collected⟩
  · exact .inr persisted

/-- A stop stores the text unless it is blank or stored already. -/
theorem opens_cancelledPayload :
    Keeps (Careful cfg w r) (Contained r) (Open w) (cancelledPayload cfg) := by
  unfold cancelledPayload
  refine Triple.bind (fun _ => Stopping w) (.modify fun s open' => open'.stopping) fun _ =>
    .bind (fun s t => t = s ∧ Stopping w t) (.get fun s stopping => ⟨rfl, stopping⟩) fun s => ?_
  dsimp only
  split
  · rename_i preparation startedAt held begun
    refine .ite (fun storable => .bind (fun _ => Interrupting w preparation _) (.modify ?interrupts)
      fun _ => .tryCatch (fun _ => Persisted w) (.bind _ (completes_interrupted preparation)
        fun response => .pure fun _ => .inr) fun x => .ite (fun _ => .pure fun _ => .inr)
        fun _ => .raise fun _ => .inr) fun unstorable => .pure ?leaves
    case interrupts =>
      rintro t ⟨rfl, ⟨unstored, collected, stopped⟩ | persisted⟩
      · refine ⟨unstored.memory, stopped, rfl, storable.1, ?_, held, fun works => ?_⟩
        · exact congrArg (fun parts => Str.strip (List.flatten parts)) collected.parts.symm
        · exact unstored.equipped works preparation held
      · simp [persisted.persisted] at storable
    case leaves =>
      rintro t ⟨rfl, stopping⟩
      refine stopping.open fun unpersisted collected => ?_
      rw [text, ← collected.parts]
      by_contra spoken
      exact unstorable ⟨spoken, unpersisted⟩
  · rename_i unready
    refine .pure ?_
    rintro t ⟨rfl, stopping⟩
    refine stopping.open fun _ collected => ?_
    have silent : t.responseParts = [] := by
      by_contra spoken
      obtain ⟨prepared, begun⟩ := collected.answering spoken
      obtain ⟨preparation, held⟩ := Option.isSome_iff_exists.mp prepared
      obtain ⟨startedAt, started⟩ := Option.isSome_iff_exists.mp begun
      exact unready preparation startedAt held started
    rw [text, ← collected.parts, silent]
    rfl

theorem opens_yieldCancel : Keeps (Careful cfg w r) (Contained r) (Open w) (yieldCancel cfg) :=
  keeps_yieldCancel_of framed_open (emitsEnds_story fun _ _ => Open.same) opens_cancelledPayload

end Persistence

section Answer

variable {cfg : Config} {w r : Prop} {held : Option ChatPreparation} {begun : Bool}

/-- A part of the generator that keeps the way to the answer raises where a stop may come. -/
theorem leaves_of_keeps {α : Type} {m : StreamCo α} (ready : begun = true → held.isSome = true)
    (keeps : Keeps (Careful cfg w r) (Contained r) (Going w held begun) m) :
    Triple (Careful cfg w r) (Contained r) (Going w held begun) m (fun _ => Going w held begun)
      (Leaving w r) :=
  keeps.weaken_exc fun _ _ going => .inl (going.open ready)

/-- What a stop does to an open stream ends it. -/
theorem remembers_of_open {α : Type} {m : StreamCo α}
    (keeps : Keeps (Careful cfg w r) (Contained r) (Open w) m)
    (ready : begun = true → held.isSome = true) :
    Triple (Careful cfg w r) (Contained r) (Going w held begun) m (fun _ => Remembered w r)
      (Leaving w r) :=
  keeps.conseq (fun _ going => going.open ready) (fun _ _ open' => open'.remembered)
    fun _ _ => .inl

/-- An event after the `finish` is sent or the generator closed. -/
theorem remembers_done :
    Triple (Careful cfg w r) (Contained r) (Remembered w r) (yieldEvent cfg "done" (taskData cfg))
      (fun _ => Remembered w r) (Leaving w r) := by
  have frame : Framed cfg (Contained r) (Remembered w r) := framed_remembered
  unfold yieldEvent
  rw [if_pos encodes_taskData]
  refine .bind (fun _ => Remembered w r) (.modify fun s remembered =>
    remembered.same (sameStory_emit s _ (by decide))) fun _ => returns_await frame ?_
  intro s x remembered admitted _
  exact .inr ⟨by simpa [admits] using admitted, remembered⟩

/-- With the `finish` what is pending is settled. -/
theorem remembers_finish {data : Json} (ready : begun = true → held.isSome = true) :
    Triple (Careful cfg w r) (Contained r) (Responding w r held begun data)
      (yieldEvent cfg "finish" data) (fun _ => Remembered w r) (Leaving w r) := by
  have frame : Framed cfg (Contained r) (Remembered w r) := framed_remembered
  have sent (s : State) : Sent { s with emitted := s.emitted ++ [⟨"finish", data⟩] } "finish" :=
    ⟨_, List.mem_append_right _ (List.mem_singleton_self _), rfl⟩
  unfold yieldEvent
  refine .ite (fun _ => .bind (fun _ => Remembered w r) (.modify ?_) fun _ => returns_await frame ?_)
    fun unsendable => .raise ?_
  · rintro s (⟨-, pending, contained⟩ | ⟨broken, going⟩)
    · exact ⟨contained, fun _ => .inl (sent s), fun _ _ => pending.1⟩
    · exact ⟨.inl going.unstored.memory, fun _ => .inl (sent s), fun works => absurd works broken⟩
  · intro s x remembered admitted _
    exact .inr ⟨by simpa [admits] using admitted, remembered⟩
  · rintro s (⟨encodes, -⟩ | ⟨-, going⟩)
    · exact absurd encodes unsendable
    · exact .inl (going.open ready)

variable {preparation : ChatPreparation}

theorem remembers_answerComplete :
    Triple (Careful cfg w r) (Contained r) (Going w (some preparation) true)
      (answerComplete cfg preparation) (fun _ => Remembered w r) (Leaving w r) := by
  have frame : Framed cfg (Contained r) (Open w) := framed_open
  have ends : EmitsEnds (Open w) := emitsEnds_story fun _ _ => Open.same
  refine .bind (fun s t => t = s ∧ Going w (some preparation) true t) (.get fun s going => ⟨rfl, going⟩)
    fun s => ?_
  dsimp only
  refine .ite (fun _ => (remembers_of_open (keeps_yieldTwo frame ends.error ends.done _ _)
    fun _ => rfl).strengthen_pre fun _ => And.right) fun _ =>
    .bind (fun response => Responding w r (some preparation) true (finishData cfg response))
      ((completes_answer preparation).conseq ?_ (fun _ _ => id) fun _ _ going =>
        .inl (going.open fun _ => rfl)) fun response =>
    .bind _ (remembers_finish fun _ => rfl) fun _ => remembers_done
  rintro t ⟨rfl, going⟩
  exact ⟨going, congrArg (fun parts => Str.strip (List.flatten parts)) going.parts⟩

/-- The event just taken; its delta is not among the parts yet. -/
structure Fetching (w : Prop) (preparation : ChatPreparation) (event : StreamEvent) (s : State) :
    Prop where
  unstored : Unstored w s
  parts : ∃ earlier, s.taken = earlier ++ [event] ∧ s.responseParts = contents earlier
  held : s.preparation = some preparation
  started : s.answerStartedAt.isSome = true
  running : s.stopped = false

/-- An event without a `response` delta changes nothing. -/
theorem Fetching.going {event : StreamEvent} {s : State} (fetching : Fetching w preparation event s)
    (silent : contents [event] = []) : Going w (some preparation) true s := by
  obtain ⟨earlier, taken, parts⟩ := fetching.parts
  refine ⟨fetching.unstored, ?_, fetching.held, fetching.started, nofun, fetching.running⟩
  rw [parts, taken, contents, contents, List.filterMap_append]
  simpa [contents] using silent

theorem Fetching.content {delta : Str} {s : State}
    (fetching : Fetching w preparation (.content delta) s) :
    Going w (some preparation) true { s with responseParts := s.responseParts ++ [delta] } := by
  obtain ⟨earlier, taken, parts⟩ := fetching.parts
  refine ⟨⟨fetching.unstored.memory, fetching.unstored.unpersisted, fetching.unstored.unfinished,
    fetching.unstored.equipped⟩, ?_, fetching.held, fetching.started, nofun, fetching.running⟩
  change s.responseParts ++ [delta] = contents s.taken
  rw [parts, taken, contents, contents, List.filterMap_append]
  simp

/-- What a round leaves: the next round, or the end. -/
def Circling (w r : Prop) (preparation : ChatPreparation) (next : Option Unit) (s : State) : Prop :=
  if next.isSome then Remembered w r s else Going w (some preparation) true s

theorem remembers_delta (data : Json) :
    Triple (Careful cfg w r) (Contained r) (Going w (some preparation) true)
      (yieldEvent cfg "message" data) (fun _ => Going w (some preparation) true) (Leaving w r) :=
  leaves_of_keeps (fun _ => rfl) (keeps_yieldEvent framed_going
    (emits_story (fun _ _ => Going.same) (by decide)) data)

theorem remembers_consumeEvent (event : StreamEvent) :
    Triple (Careful cfg w r) (Contained r) (Fetching w preparation event)
      (consumeEvent cfg preparation event) (Circling w r preparation) (Leaving w r) := by
  have frame : Framed cfg (Contained r) (Open w) := framed_open
  have ends : EmitsEnds (Open w) := emitsEnds_story fun _ _ => Open.same
  cases event with
  | thinking delta =>
    exact .bind _ ((remembers_delta _).strengthen_pre fun _ fetching => fetching.going rfl) fun _ =>
      .pure fun _ => id
  | content delta =>
    exact .bind _ (.modify fun s fetching => fetching.content) fun _ =>
      .bind _ (remembers_delta _) fun _ => .pure fun _ => id
  | complete =>
    exact .bind _ (remembers_answerComplete.strengthen_pre fun _ fetching => fetching.going rfl)
      fun _ => .pure fun _ => id
  | error message =>
    exact .bind _ ((remembers_of_open
      (keeps_answerError_of frame ends.error ends.done opens_yieldCancel) fun _ => rfl).strengthen_pre
        fun _ fetching => fetching.going rfl) fun _ => .pure fun _ => id

/-- What `wait_for(queue.get())` leaves. -/
def Receiving (w : Prop) (preparation : ChatPreparation) : Option StreamEvent → State → Prop
  | some event, s => Fetching w preparation event s
  | none, s => Going w (some preparation) true s

theorem remembers_queueGet :
    Triple (Careful cfg w r) (Contained r) (Going w (some preparation) true) (queueGet cfg)
      (Receiving w preparation) (Leaving w r) := by
  refine .tryCatch (fun _ => Going w (some preparation) true) (.bind _ (keeps_await framed_going _)
    fun _ => .bind (fun s t => t = s ∧ Going w (some preparation) true t)
      (.get fun s going => ⟨rfl, going⟩) fun s => ?_) fun x => .ite (fun _ => .pure fun _ => id)
    fun _ => .raise fun s going => .inl (going.open fun _ => rfl)
  split
  · rename_i event queue next
    refine .bind (fun _ => Fetching w preparation event) (.modify ?_) fun _ => .pure fun _ => id
    rintro t ⟨rfl, going⟩
    exact ⟨⟨going.unstored.memory, going.unstored.unpersisted, going.unstored.unfinished,
      going.unstored.equipped⟩, ⟨t.taken, rfl, going.parts⟩, going.held, going.started, going.running⟩
  · exact .raise fun t => And.right

theorem remembers_consumeRound :
    Triple (Careful cfg w r) (Contained r) (Going w (some preparation) true)
      (consumeRound cfg preparation) (Circling w r preparation) (Leaving w r) := by
  have frame : Framed cfg (Contained r) (Open w) := framed_open
  have ends : EmitsEnds (Open w) := emitsEnds_story fun _ _ => Open.same
  have going : Framed cfg (Contained r) (Going w (some preparation) true) := framed_going
  have stops {m : StreamCo Unit} (keeps : Keeps (Careful cfg w r) (Contained r) (Open w) m) :
      Triple (Careful cfg w r) (Contained r) (Going w (some preparation) true)
        (m >>= fun _ => pure (some ())) (Circling w r preparation) (Leaving w r) :=
    .bind _ (remembers_of_open keeps fun _ => rfl) fun _ => .pure fun _ => id
  have passes {α : Type} {m : StreamCo α}
      (keeps : Keeps (Careful cfg w r) (Contained r) (Going w (some preparation) true) m) :=
    leaves_of_keeps (fun _ => rfl) keeps
  refine .bind (fun _ => Going w (some preparation) true) (.get fun _ => id) fun s =>
    .ite (fun _ => ?overflowed) fun _ => .bind _ (passes (keeps_disconnected going)) fun gone =>
    .ite (fun _ => ?gone) fun _ => .bind _ (passes (keeps_isCancelled going)) fun cancelled =>
    .ite (fun _ => stops opens_yieldCancel) fun _ => .bind _ remembers_queueGet fun event => ?event
  case overflowed =>
    exact .bind _ (passes (.modify fun s holds => going.cancelChild s _ holds)) fun _ =>
      .bind _ (passes (keeps_yieldEvent going (emits_story (fun _ _ => Going.same) (by decide)) _))
        fun _ => stops (keeps_yieldEvent frame ends.done _)
  case gone =>
    exact .bind _ (passes (keeps_taskManagerCancel going)) fun _ => .bind _
      (remembers_of_open opens_cancelledPayload fun _ => rfl) fun _ => .pure fun _ => id
  case event =>
    cases event with
    | none => exact .pure fun _ => id
    | some event => exact remembers_consumeEvent event

theorem remembers_answer :
    Triple (Careful cfg w r) (Contained r) (Going w (some preparation) false)
      (answer cfg preparation) (fun _ => Remembered w r) (Leaving w r) := by
  have going : Framed cfg (Contained r) (Going w (some preparation) true) := framed_going
  have passes {α : Type} {m : StreamCo α}
      (keeps : Keeps (Careful cfg w r) (Contained r) (Going w (some preparation) true) m) :=
    leaves_of_keeps (fun _ => rfl) keeps
  have stop : Triple (Careful cfg w r) (Contained r) (Going w (some preparation) true)
      (yieldCancel cfg) (fun _ => Remembered w r) (Leaving w r) :=
    remembers_of_open opens_yieldCancel fun _ => rfl
  refine .bind _ (leaves_of_keeps (fun _ => rfl) (keeps_yieldEvent framed_going
      (emits_story (fun _ _ => Going.same) (by decide)) _)) fun _ =>
    .bind (fun _ => Going w (some preparation) true) (.modify fun s early => ?begins) fun _ =>
    .bind _ (passes (keeps_bind going _)) fun bound => .ite (fun _ => ?refused) fun _ => ?accepted
  case begins =>
    exact ⟨⟨early.unstored.memory, early.unstored.unpersisted, early.unstored.unfinished,
      early.unstored.equipped⟩, early.parts, early.held, rfl, nofun, early.running⟩
  case refused =>
    exact .bind _ (passes (.modify fun s holds => going.cancelChild s _ holds)) fun _ =>
      .bind _ (passes (keeps_passCancelled (keeps_await going _))) fun _ => stop
  case accepted =>
    refine .bind _ (passes (keeps_await going _)) fun _ => .bind _ (passes (keeps_bindHandle going
      fun s holds => holds.same ⟨rfl, rfl, rfl, .rfl, rfl, rfl, rfl, rfl⟩)) fun _ =>
      .bind _ (passes (keeps_bind going _)) fun bound => .ite (fun _ => stop) fun _ =>
      .repeatUntil going.waits (remembers_consumeRound.weaken_post fun next s circling => ?_)
    cases next <;> exact circling

end Answer

section Stream

variable {cfg : Config} {w r : Prop}

/-- A preparation comes back; under `w` its memory works. -/
theorem remembers_awaitPreparation :
    Triple (Careful cfg w r) (Contained r) (Going w none false) (awaitPreparation cfg)
      (fun preparation s => (w → preparation.memoryEnabled = true ∧ preparation.memoryService = true) ∧
        Going w none false s) (Leaving w r) := by
  have going : Framed cfg (Contained r) (Going w none false) := framed_going
  have passes {α : Type} {m : StreamCo α}
      (keeps : Keeps (Careful cfg w r) (Contained r) (Going w none false) m) :=
    leaves_of_keeps (by decide) keeps
  have polled : Triple (Careful cfg w r) (Contained r) (Going w none false) (await cfg .preparation)
      (fun _ s => Going w none false s ∧ (w → Working cfg ⟨.preparation, s, .ok ()⟩))
      (fun _ => Going w none false) :=
    .await going.waits going.act (fun s _ holds _ careful => ⟨holds, careful.2.1⟩)
      fun _ _ holds _ _ => holds
  refine .repeatUntil going.waits (.bind _ (passes (keeps_disconnected going)) fun gone =>
    .bind _ (passes (.onlyIf (keeps_taskManagerCancel going))) fun _ =>
    .bind _ (passes (keeps_isCancelled going)) fun cancelled =>
    .bind _ (passes (.onlyIf (.modify fun s holds => going.cancelChild s _ holds))) fun _ =>
    .tryCatch _ (.bind _ polled fun _ => .bind (fun s t => (w → Working cfg ⟨.preparation, s, .ok ()⟩) ∧
      Going w none false t) (.get fun s holds => ⟨holds.2, holds.1⟩) fun s => .given fun works => ?_)
      fun x => .ite (fun _ => .pure fun _ => id) fun _ => .raise fun s holds => .inl (holds.open nofun))
  simp only [Working] at works
  split
  · rename_i preparation ended
    rw [ended] at works
    exact .pure fun t holds => ⟨fun known => works known preparation rfl, holds⟩
  · exact .raise fun t => id

/-- A rejection is stored and can be sent, unless its storage fails. -/
theorem rejects_recordQueueRejection (rejected : r) :
    Triple (Careful cfg w r) (Contained r) (Going w none false) (recordQueueRejection cfg)
      (fun rejection => Responding w r none false (rejectionData rejection))
      (fun _ => Going w none false) := by
  have going : Framed cfg (Contained r) (Going w none false) := framed_going
  have broken {s : State} (holds : ¬ w ∧ Going w none false s) (rejection : QueueRejection) :
      Responding w r none false (rejectionData rejection) s := .inr holds
  have stored : Triple (Careful cfg w r) (Contained r) (Going w none false)
      (orElse (do
        callOut cfg .loadAndAppend
        persistMemoryReply cfg cfg.memoryAsyncCompress queueTimeoutReply) (pure none))
      (fun messageId s => Answerable cfg none queueTimeoutReply messageId ∧ Storing r s ∨
        ¬ w ∧ Going w none false s) (fun _ s => ¬ w ∧ Going w none false s) := by
    refine .tryCatch (fun _ s => ¬ w ∧ Going w none false s) (.bind (fun _ => Going w none false)
      (returns_callOut going fun s x holds _ careful => ⟨fun works => careful.2.1 works, holds⟩)
      fun _ => (persists_reply _).conseq (fun s holds => ⟨holds, .inr ⟨rejected, rfl, rfl⟩⟩)
        (fun _ _ => .inl) fun _ _ => id) fun x => .ite (fun _ => .pure fun _ => .inr)
      fun _ => .raise fun _ => id
  refine .tryCatch (fun _ s => ¬ w ∧ Going w none false s) (.bind (fun service s =>
      (w → cfg.memoryEnabled = true ∧ service = true) ∧ Going w none false s) (.call going.waits
      (fun s service holds _ careful => ⟨careful.2.1, holds⟩)
      fun s x holds _ careful => ⟨fun works => careful.2.1 works, holds⟩) fun service =>
    .given fun works => .ite (fun _ => .bind _ stored fun messageId => .pure ?_) fun absent =>
      .pure fun s holds => broken ⟨fun known => ?_, holds⟩ _)
    fun x => .ite (fun _ => .pure fun s holds => broken holds _) fun _ => .raise fun _ => And.right
  · exact fun s holds => holds.imp id id
  · simp [works known] at absent

/-- `reject` comes between the append and the `finish`. -/
theorem remembers_reject {data : Json} (finish : Json) (encodes : data.encodes = true) :
    Triple (Careful cfg w r) (Contained r) (Responding w r none false finish)
      (yieldEvent cfg "reject" data) (fun _ => Responding w r none false finish) (Leaving w r) := by
  have respects (s t : State) (holds : Responding w r none false finish s) (same : SameStory s t) :
      Responding w r none false finish t :=
    holds.imp (fun storing => ⟨storing.1, storing.2.same same⟩) fun broken =>
      ⟨broken.1, broken.2.same same⟩
  have frame : Framed cfg (Contained r) (Responding w r none false finish) :=
    framed_story respects fun s holds => holds.elim (fun storing => storing.2.2)
      fun broken => .inl broken.2.unstored.memory
  unfold yieldEvent
  rw [if_pos encodes]
  refine .bind _ (.modify fun s holds => emits_story respects (by decide) s data holds) fun _ =>
    returns_await frame ?_
  rintro s x (⟨-, storing⟩ | ⟨-, going⟩) admitted careful
  · exact uncut_storing s x storing admitted careful
  · exact .inl (going.open nofun)

theorem remembers_yieldRejection (rejected : r) :
    Triple (Careful cfg w r) (Contained r) (Going w none false) (yieldRejection cfg)
      (fun _ => Remembered w r) (Leaving w r) := by
  refine .bind _ ((rejects_recordQueueRejection rejected).weaken_exc fun _ s going =>
    .inl (going.open nofun)) fun rejection =>
    .bind _ (remembers_reject _ ?_) fun _ => .bind _ (remembers_finish nofun) fun _ => remembers_done
  simp [Json.encodes, Json.encodesFields, queueTimeoutReply]

theorem remembers_prepare (permit : StreamQueuePermit) :
    Triple (Careful cfg w r) (Contained r) (Going w none false) (prepare cfg permit)
      (fun _ => Remembered w r) (Leaving w r) := by
  have going : Framed cfg (Contained r) (Going w none false) := framed_going
  have passes {α : Type} {m : StreamCo α}
      (keeps : Keeps (Careful cfg w r) (Contained r) (Going w none false) m) :=
    leaves_of_keeps (by decide) keeps
  have same (s : State) (queuePermit leaseTask preparationTask) :
      SameStory s { s with queuePermit, leaseTask, preparationTask } :=
    ⟨rfl, rfl, rfl, .rfl, rfl, rfl, rfl, rfl⟩
  refine .bind _ (passes (.modify fun s holds => holds.same (same s _ _ _))) fun _ =>
    .bind _ (passes (keeps_yieldEvent going (emits_story (fun _ _ => Going.same) (by decide)) _))
      fun _ => .bind _ (passes (.modify fun s holds => holds.same (same s _ _ _))) fun _ =>
    .bind _ (passes (keeps_bind going _)) fun bound => .ite
      (fun _ => remembers_of_open opens_yieldCancel nofun) fun _ =>
    .bind _ remembers_awaitPreparation fun preparation => .given fun works =>
    .bind (fun _ => Going w (some preparation) false) (.modify fun s holds => ?_) fun _ =>
    .bind _ (leaves_of_keeps (fun _ => rfl) (keeps_isCancelled framed_going)) fun cancelled =>
    .ite (fun _ => remembers_of_open opens_yieldCancel fun _ => rfl) fun _ => remembers_answer
  refine ⟨⟨holds.unstored.memory, holds.unstored.unpersisted, holds.unstored.unfinished, ?_⟩,
    holds.parts, rfl, holds.started, holds.early, holds.running⟩
  rintro known preparation' ⟨⟩
  exact works known

theorem remembers_tryBlock :
    Triple (Careful cfg w r) (Contained r) (Going w none false) (tryBlock cfg)
      (fun _ => Remembered w r) (Leaving w r) := by
  have going : Framed cfg (Contained r) (Going w none false) := framed_going
  have frame : Framed cfg (Contained r) (Open w) := framed_open
  have passes {α : Type} {m : StreamCo α}
      (keeps : Keeps (Careful cfg w r) (Contained r) (Going w none false) m) :=
    leaves_of_keeps (by decide) keeps
  have stop : Triple (Careful cfg w r) (Contained r) (Going w none false) (yieldCancel cfg)
      (fun _ => Remembered w r) (Leaving w r) := remembers_of_open opens_yieldCancel nofun
  have admitted : Triple (Careful cfg w r) (Contained r) (Going w none false) (await cfg .acquire)
      (fun admission s => (admission.status = .timedOut → r) ∧ Going w none false s) (Leaving w r) := by
    refine .await going.waits going.act (fun s admission holds _ careful => ⟨fun late => ?_, holds⟩)
      fun s x holds _ _ => .inl (holds.open nofun)
    by_contra refused
    exact careful.2.2 refused late
  refine .bind _ (passes (keeps_yieldEvent going (emits_story (fun _ _ => Going.same) (by decide)) _))
    fun _ => .bind _ (passes (keeps_isCancelled going)) fun _ => .ite (fun _ => stop) fun _ =>
    .bind _ admitted fun admission => .given fun late => ?_
  split
  · exact stop
  · exact remembers_yieldRejection (late (by assumption))
  · exact remembers_prepare _
  · exact remembers_of_open (keeps_yieldUnavailable frame (emitsEnds_story fun _ _ => Open.same)) nofun

theorem remembers_handleRaised (x : Raised) :
    Triple (Careful cfg w r) (Contained r) (Leaving w r x) (handleRaised cfg x)
      (fun _ => Remembered w r) (fun _ => Remembered w r) := by
  refine .either ?opened ?closed
  case opened =>
    have ends : EmitsEnds (Open w) := emitsEnds_story fun _ _ => Open.same
    exact (keeps_handleRaised_of framed_open ends.error ends.done opens_yieldCancel x).conseq
      (fun _ => id) (fun _ _ open' => open'.remembered)
      fun _ _ open' => open'.remembered
  case closed =>
    refine .given fun closed => ?_
    subst closed
    exact .raise fun _ => id

theorem remembers_stream :
    Triple (Careful cfg w r) (Contained r) (Going w none false) (stream cfg)
      (fun _ => Remembered w r) (fun _ => Remembered w r) := by
  have going : Framed cfg (Contained r) (Going w none false) := framed_going
  have ends : EmitsEnds (Going w none false) := emitsEnds_story fun _ _ => Going.same
  have passes {α : Type} {m : StreamCo α}
      (keeps : Keeps (Careful cfg w r) (Contained r) (Going w none false) m) :
      Triple (Careful cfg w r) (Contained r) (Going w none false) m (fun _ => Going w none false)
        (fun _ => Remembered w r) :=
    keeps.weaken_exc fun _ _ holds => (holds.open nofun).remembered
  have same (s t : State) (holds : Remembered w r s) (same : SameStory s t) : Remembered w r t :=
    holds.same same
  have clean : Keeps (Careful cfg w r) (Contained r) (Remembered w r) (cleanup cfg) :=
    keeps_cleanup framed_remembered fun s _ _ holds =>
      same s _ holds ⟨rfl, rfl, rfl, .rfl, rfl, rfl, rfl, rfl⟩
  refine .bind _ (passes (keeps_register going)) fun registered => .ite (fun _ =>
    (passes (keeps_yieldTwo going ends.error ends.done _ _)).weaken_post
      fun _ _ holds => (holds.open nofun).remembered) fun _ =>
    .bind (fun _ => Going w none false) (.modify fun s holds =>
      holds.same ⟨rfl, rfl, rfl, .rfl, rfl, rfl, rfl, rfl⟩) fun _ => ?_
  exact .tryFinally (fun _ => Remembered w r) (fun _ => Remembered w r)
    (.tryCatch _ remembers_tryBlock fun x => remembers_handleRaised x) (fun _ => clean) fun _ => clean

end Stream

section Runs

instance (s : State) (name : String) : Decidable (Sent s name) :=
  inferInstanceAs (Decidable (∃ event ∈ s.emitted, event.name = name))

instance (s : State) : Decidable (Pending s) := inferInstanceAs (Decidable (_ ∧ _ ∧ _))

instance (cfg : Config) (held : Option ChatPreparation) (reply : Str) (messageId : Option Str) :
    Decidable (Answerable cfg held reply messageId) :=
  match held with
  | some _ => inferInstanceAs (Decidable (_ ∧ _))
  | none => inferInstanceAs (Decidable (_ = true))

instance (cfg : Config) : DecidablePred (Uncut cfg)
  | ⟨.memoryAppend, s, .ok messageId⟩ => inferInstanceAs (Decidable (s.stopped = false →
      Answerable cfg s.preparation (Str.strip s.responseParts.flatten)
        (Option.filter (· ≠ []) (messageId : Option Str))))
  | ⟨.memoryAppend, s, .error _⟩ | ⟨.yielding, s, .error _⟩ | ⟨.backend, s, .error _⟩
  | ⟨.acquire, s, .error _⟩ | ⟨.isDisconnected, s, .error _⟩ | ⟨.resolveMemory, s, .error _⟩
  | ⟨.loadAndAppend, s, .error _⟩ | ⟨.compressIfNeeded, s, .error _⟩ | ⟨.compression, s, .error _⟩
  | ⟨.preparation, s, .error _⟩ | ⟨.modelStart, s, .error _⟩ | ⟨.queueGet, s, .error _⟩
  | ⟨.lease, s, .error _⟩ | ⟨.conditionLock, s, .error _⟩ | ⟨.zrem, s, .error _⟩
  | ⟨.publish, s, .error _⟩ => inferInstanceAs (Decidable (¬ Pending s))
  | ⟨.yielding, _, .ok _⟩ | ⟨.backend, _, .ok _⟩ | ⟨.acquire, _, .ok _⟩ | ⟨.isDisconnected, _, .ok _⟩
  | ⟨.resolveMemory, _, .ok _⟩ | ⟨.loadAndAppend, _, .ok _⟩ | ⟨.compressIfNeeded, _, .ok _⟩
  | ⟨.compression, _, .ok _⟩ | ⟨.preparation, _, .ok _⟩ | ⟨.modelStart, _, .ok _⟩
  | ⟨.queueGet, _, .ok _⟩ | ⟨.lease, _, .ok _⟩ | ⟨.conditionLock, _, .ok _⟩ | ⟨.zrem, _, .ok _⟩
  | ⟨.publish, _, .ok _⟩ => isTrue trivial

/-- Along every run that is not cut off between an append and its `finish`, at most one message is
stored: the stripped text of the deltas taken, or the reply of an admission that timed out. A run
that has ended has stored one only if it has sent a `finish` or was stopped with some text, and with
working storage in all these cases. -/
theorem stream_remembers (cfg : Config) (now : ℚ) (tasks : StreamTaskManager ChildRef)
    (tape : List (Turn Action Point Raised Reply))
    (uncut : ∀ v ∈ (stream cfg (initial now tasks) tape).visits, Uncut cfg v) :
    let r := stream cfg (initial now tasks) tape
    Contained (∃ v ∈ r.visits, TimesOut v) r.state ∧ (r.outcome.Finished →
      (r.state.memory ≠ [] →
        Sent r.state "finish" ∨ r.state.stopped = true ∧ text r.state ≠ []) ∧
      ((∀ v ∈ r.visits, Working cfg v) →
        Sent r.state "finish" ∨ r.state.stopped = true ∧ text r.state ≠ [] →
        r.state.memory ≠ [])) := by
  intro r
  have early (w : Prop) : Going w none false (initial now tasks) :=
    ⟨⟨rfl, rfl, fun ⟨_, member, _⟩ => (nomatch member), fun _ _ held => (nomatch held)⟩, rfl, rfl, rfl,
      fun _ => rfl, rfl⟩
  have careful (w : Prop) (works : w → ∀ v ∈ r.visits, Working cfg v) :
      ∀ v ∈ r.visits, Careful cfg w (∃ v ∈ r.visits, TimesOut v) v :=
    fun v member => ⟨uncut v member, fun known => works known v member,
      fun admitted late => admitted ⟨v, member, late⟩⟩
  refine ⟨?_, fun finished => ⟨?_, fun works => ?_⟩⟩
  · exact Triple.always (remembers_stream.conseq (fun _ => id) (fun _ _ holds => holds.content)
      fun _ _ holds => holds.content) (early False) (careful False False.elim)
  · exact (remembers_stream.finished (early False) (careful False False.elim) finished).reached
  · exact (remembers_stream.finished (early True) (careful True fun _ => works) finished).kept trivial

theorem answeredRun_remembers :
    let r := stream exampleConfig (initial 0 {}) answeredRun
    Contained (∃ v ∈ r.visits, TimesOut v) r.state ∧ (r.outcome.Finished →
      (r.state.memory ≠ [] →
        Sent r.state "finish" ∨ r.state.stopped = true ∧ text r.state ≠ []) ∧
      ((∀ v ∈ r.visits, Working exampleConfig v) →
        Sent r.state "finish" ∨ r.state.stopped = true ∧ text r.state ≠ [] →
        r.state.memory ≠ [])) :=
  stream_remembers exampleConfig 0 {} answeredRun (by decide +kernel)

/-- The admission times out, and the fixed reply is stored. -/
def timedOutRun : List (Turn Action Point Raised Reply) := [
  ⟨[], .yielding, .ok ()⟩,
  ⟨[], .acquire, .ok ⟨.timedOut, none⟩⟩,
  ⟨[], .resolveMemory, .ok true⟩,
  ⟨[], .loadAndAppend, .ok ()⟩,
  ⟨[], .memoryAppend, .ok (some [49])⟩,
  ⟨[], .compressIfNeeded, .ok false⟩,
  ⟨[], .yielding, .ok ()⟩,
  ⟨[], .yielding, .ok ()⟩,
  ⟨[], .yielding, .ok ()⟩]

/-- A preparation whose memory is compressed before the answer goes on. -/
def awaitedPreparation : ChatPreparation where
  conversationId := Str.lit "c"
  memoryService := true
  memoryAsyncCompress := false

/-- A user cancels while the compression that follows the append fails. -/
def compressedRun : List (Turn Action Point Raised Reply) := [
  ⟨[], .yielding, .ok ()⟩,
  ⟨[], .acquire, .ok ⟨.granted, some examplePermit⟩⟩,
  ⟨[], .yielding, .ok ()⟩,
  ⟨[.preparationEnds (.ok awaitedPreparation)], .preparation, .ok ()⟩,
  ⟨[], .yielding, .ok ()⟩,
  ⟨[.modelStartEnds (.ok ()), .callback (.content [104]), .callback .complete, .push, .push],
    .modelStart, .ok ()⟩,
  ⟨[], .queueGet, .ok ()⟩,
  ⟨[], .yielding, .ok ()⟩,
  ⟨[], .queueGet, .ok ()⟩,
  ⟨[], .memoryAppend, .ok (some [49])⟩,
  ⟨[], .compressIfNeeded, .ok true⟩,
  ⟨[.cancel], .compression, .error (.exception "timeout")⟩,
  ⟨[], .memoryAppend, .ok (some [50])⟩,
  ⟨[], .compressIfNeeded, .ok false⟩,
  ⟨[], .yielding, .ok ()⟩,
  ⟨[], .yielding, .ok ()⟩,
  ⟨[.leaseEnds true], .lease, .error .cancelledError⟩,
  ⟨[], .conditionLock, .ok ()⟩]

/-- The stored message need not be the text of any delta, and it can be stored twice. -/
theorem timedOutRun_stores :
    let r := stream exampleConfig (initial 0 {}) timedOutRun
    let r' := stream exampleConfig (initial 0 {}) compressedRun
    r.outcome.Finished ∧ r.state.memory = [queueTimeoutReply] ∧ text r.state = [] ∧
      r'.outcome.Finished ∧ r'.state.memory = [[104], [104]] := by
  decide +kernel

end Runs

end HeyeeAgent.StreamChat.Lifecycle
