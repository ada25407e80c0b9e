import HeyeeAgent.Frontend.ChatMessages
import HeyeeAgent.StreamChat.HeardAnswer

/-! # The answer that is shown and the answer that is stored

The events of a stream, encoded, cut into chunks anywhere, decoded and handled by the page that asked.
What an event does to the answer is told apart from how the page reads it, and the words of the
protocol tell what the events do together.
-/

namespace HeyeeAgent.Frontend.ChatPage

open Coroutine JavaScript Machine Python Streaming StreamChat StreamChat.Lifecycle

section Events

/-- The arguments of `_encode_event`. -/
def arguments (event : SseEvent) : Event where
  name := Str.lit event.name
  data := match event.data with
    | .obj fields => fields
    | _ => []

variable {event : SseEvent}

theorem obj_arguments (formed : Formed event) : .obj (arguments event).data = event.data := by
  obtain ⟨fields, object⟩ := formed.object
  simp only [arguments, object]

theorem named_arguments (formed : Formed event) :
    10 ∉ (arguments event).name ∧
      trim (arguments event).name = (arguments event).name := by
  have every : ∀ name ∈ eventNames, 10 ∉ Str.lit name ∧ trim (Str.lit name) = Str.lit name := by
    decide
  exact every _ formed.named

/-- What is sent can be encoded. -/
theorem exists_frames (repr : JsonEncoder.FloatRepr) {events : List SseEvent}
    (formed : ∀ event ∈ events, Formed event) :
    ∃ frames, (events.map arguments).mapM (Event.encode repr) = some frames := by
  induction events with
  | nil => exact ⟨[], rfl⟩
  | cons event events ih =>
    obtain ⟨first, formed⟩ := List.forall_mem_cons.mp formed
    obtain ⟨frames, sent⟩ := ih formed
    have encodes : (Event.encode repr (arguments event)).isSome = true := by
      rw [arguments, Event.isSome_encode_lit]
      exact (congrArg Json.encodes (obj_arguments first)).trans first.encodes
    obtain ⟨frame, encoded⟩ := Option.isSome_iff_exists.mp encodes
    refine ⟨frame :: frames, ?_⟩
    rw [List.map_cons, List.mapM_cons, encoded, sent]
    rfl

end Events

section Answer

/-- The page with an answer of this content under way, beside the messages before it. -/
structure Hearing (messages : List Message) (content : Str) (s : Page) : Prop where
  messages : s.messages = messages
  attached : s.attached = true
  answer : ∃ thinking, s.answer = some ⟨.assistant, .str content, thinking⟩

variable (numbers : Numbers) {s : Page} {messages : List Message} {content : Str} {event : SseEvent}

theorem orElse_str (value : Str) (default : Str) :
    JavaScript.orElse (some (.str value)) (.str default) = .str (textOr (some value) default) := by
  rw [JavaScript.orElse, textOr, Option.filter_some, Option.filter_some, truthy_str]
  cases value <;> rfl

theorem textOr_nil (value : Str) : textOr (some value) [] = value := by
  cases value <;> rfl

/-- The answer under way gets this content. -/
theorem Hearing.setContent (hearing : Hearing messages content s) (more : Str) (thinking : Str) :
    Hearing messages more { s with answer := some ⟨.assistant, .str more, thinking⟩ } where
  messages := hearing.messages
  attached := hearing.attached
  answer := ⟨thinking, rfl⟩

section Handled

variable {fields : List (String × Json)} {thinking : Str}

theorem handle_meta (hearing : Hearing messages content s) (answer : Message)
    (texts : ∀ id ∈ (Json.obj fields).field "conversationId", ∃ text, id = .str text) :
    ∃ t, s.handle numbers answer (Str.lit "meta") (.obj fields) = (t, true) ∧
      Hearing messages content t := by
  rw [Page.handle]
  dsimp only
  rw [if_pos rfl]
  cases given : (Json.obj fields).field "conversationId" with
  | none => exact ⟨s, rfl, hearing⟩
  | some id =>
    obtain ⟨text, rfl⟩ := texts id given
    dsimp only
    rw [text_str]
    split_ifs
    · exact ⟨_, rfl, hearing.messages, hearing.attached, hearing.answer⟩
    · exact ⟨s, rfl, hearing⟩

theorem handle_delta (hearing : Hearing messages content s) (taken : StreamEvent)
    {data : Json} (delta : taken.delta = some data) :
    ∃ t, s.handle numbers ⟨.assistant, .str content, thinking⟩ (Str.lit "message") data = (t, true) ∧
      Hearing messages (content ++ (responseDelta data).getD []) t := by
  have said (kind : String) (text : Str) :
      JavaScript.orElse (Json.field "delta" (deltaData kind text)) (.str []) = .str text :=
    (orElse_str text []).trans (congrArg Json.str (textOr_nil text))
  rw [Page.handle]
  dsimp only
  rw [if_neg (by decide), if_pos rfl]
  cases taken with
  | thinking text =>
    cases delta
    rw [said, if_pos (by rfl), text_str]
    refine ⟨_, rfl, ?_⟩
    have silent : content ++ (responseDelta (deltaData "think" text)).getD [] = content :=
      List.append_nil content
    rw [silent]
    exact hearing.setContent content (thinking ++ text)
  | content text =>
    cases delta
    rw [said, if_neg (by exact Bool.false_ne_true), if_pos (by rfl), add_texts]
    exact ⟨_, rfl, hearing.setContent _ thinking⟩
  | complete | error message => cases delta

theorem handle_reject (hearing : Hearing messages content s)
    (refusal : (Json.obj fields).field "delta" = some (.str queueTimeoutReply)) :
    ∃ t, s.handle numbers ⟨.assistant, .str content, thinking⟩ (Str.lit "reject") (.obj fields) =
      (t, true) ∧ Hearing messages (content ++ queueTimeoutReply) t := by
  have said (default : Json) : JavaScript.orElse (some (.str queueTimeoutReply)) default =
      .str queueTimeoutReply := rfl
  rw [Page.handle]
  dsimp only
  rw [if_neg (by decide), if_neg (by decide), if_pos rfl, if_neg (by exact Bool.false_ne_true),
    refusal, said, add_texts]
  exact ⟨_, rfl, hearing.setContent _ thinking⟩

theorem handle_error (thinking : Str) (hearing : Hearing messages content s) {text : Str}
    (failure : (Json.obj fields).field "message" = some (.str text)) :
    ∃ t, s.handle numbers ⟨.assistant, .str content, thinking⟩ (Str.lit "error") (.obj fields) =
      (t, true) ∧ Hearing messages (if content = [] then textOr (some text)
        (Str.lit "AI 流式回答失败。") else content) t := by
  rw [Page.handle]
  dsimp only
  rw [if_neg (by decide), if_neg (by decide), if_neg (by decide), if_neg (by decide), if_pos rfl,
    failure, Json.text, orElse_str, truthy_str]
  cases content with
  | nil => exact ⟨_, rfl, hearing.setContent _ thinking⟩
  | cons c content => exact ⟨s, rfl, hearing⟩

theorem handle_cancel (hearing : Hearing messages content s) :
    ∃ t, s.handle numbers ⟨.assistant, .str content, thinking⟩ (Str.lit "cancel") (.obj fields) =
      (t, true) ∧ Hearing messages (textOr (some content) (Str.lit "本次回答已停止。")) t := by
  rw [Page.handle]
  dsimp only
  rw [if_neg (by decide), if_neg (by decide), if_neg (by decide), if_neg (by decide),
    if_neg (by decide), if_pos rfl, if_neg (by exact Bool.false_ne_true), stopped, Json.text,
    orElse_str]
  exact ⟨_, rfl, hearing.setContent _ thinking⟩

theorem handle_finish (hearing : Hearing messages content s) (answer : Message) :
    ∃ t, s.handle numbers answer (Str.lit "finish") (.obj fields) = (t, true) ∧
      Hearing messages content t := by
  rw [Page.handle]
  dsimp only
  rw [if_neg (by decide), if_neg (by decide), if_neg (by decide), if_pos rfl]
  exact ⟨s, rfl, hearing⟩

theorem handle_done (hearing : Hearing messages content s) (answer : Message) :
    ∃ t, s.handle numbers answer (Str.lit "done") (.obj fields) = (t, true) ∧
      Hearing messages content t := by
  rw [Page.handle]
  dsimp only
  rw [if_neg (by decide), if_neg (by decide), if_neg (by decide), if_neg (by decide),
    if_neg (by decide), if_neg (by decide)]
  exact ⟨s, rfl, hearing⟩

end Handled

/-- An event of the service is handled as it is meant. -/
theorem hearing_event (hearing : Hearing messages content s) (formed : Formed event)
    (delta : event.name = "message" → ∃ taken : StreamEvent, taken.delta = some event.data) :
    ∃ t, pageStep numbers s (.event (Str.lit event.name) event.data) = some t ∧
      Hearing messages (heard content event) t := by
  obtain ⟨thinking, current⟩ := hearing.answer
  have handled : ∃ t, s.handle numbers ⟨.assistant, .str content, thinking⟩ (Str.lit event.name)
      event.data = (t, true) ∧ Hearing messages (heard content event) t := by
    have named := formed.named
    obtain ⟨fields, object⟩ := formed.object
    obtain ⟨name, data⟩ := event
    cases object
    simp only [eventNames, List.mem_cons, List.not_mem_nil, or_false] at named
    rcases named with rfl | rfl | rfl | rfl | rfl | rfl | rfl
    · exact handle_meta numbers hearing _ (formed.conversation rfl)
    · obtain ⟨taken, same⟩ := delta rfl
      exact handle_delta numbers hearing taken same
    · exact handle_reject numbers hearing (formed.refusal rfl)
    · exact handle_finish numbers hearing _
    · obtain ⟨text, failure⟩ := formed.failure rfl
      obtain ⟨t, handled, hearing⟩ := handle_error numbers thinking hearing failure
      refine ⟨t, handled, ?_⟩
      have read : dataText "message" (.obj fields) = some text := by rw [dataText, failure]
      rw [heard, read]
      exact hearing
    · exact handle_cancel numbers hearing
    · exact handle_done numbers hearing _
  obtain ⟨t, handled, hearing⟩ := handled
  refine ⟨t, ?_, hearing⟩
  rw [pageStep, current, Option.map_some]
  dsimp only
  rw [handled, if_pos rfl]

/-- The events of the service, one after another. -/
theorem hearing_events {events : List SseEvent} (hearing : Hearing messages content s)
    (formed : ∀ event ∈ events, Formed event)
    (deltas : ∀ event ∈ events, event.name = "message" →
      ∃ taken : StreamEvent, taken.delta = some event.data) :
    ∃ t, runFrom (pageStep numbers) s
        (events.map fun event => .event (Str.lit event.name) event.data) = some t ∧
      Hearing messages (events.foldl heard content) t := by
  induction events generalizing s content with
  | nil => exact ⟨s, rfl, hearing⟩
  | cons event events ih =>
    obtain ⟨formed, others⟩ := List.forall_mem_cons.mp formed
    obtain ⟨delta, deltas⟩ := List.forall_mem_cons.mp deltas
    obtain ⟨t, taken, hearing⟩ := hearing_event numbers hearing formed delta
    obtain ⟨u, run, hearing⟩ := ih hearing others deltas
    refine ⟨u, ?_, hearing⟩
    rw [List.map_cons, runFrom_cons, taken, Option.bind_some, run]

end Answer

section Arrival

variable {repr : JsonEncoder.FloatRepr} {decoder : TextDecoder} {parse : Str → Option Json}

/-- The page reads the events that were sent, wherever their bytes are cut. -/
theorem consumeStream_events {events : List SseEvent} {frames values : List Utf8.Bytes}
    (formed : ∀ event ∈ events, Formed event)
    (inverts : ∀ event ∈ events, parse ((arguments event).body repr) = some event.data)
    (sent : (events.map arguments).mapM (Event.encode repr) = some frames)
    (arrived : values.flatten = frames.flatten) :
    consumeStream parse decoder values = events.map fun event => (Str.lit event.name, event.data) := by
  have encoded := Event.encode_flatMap_frame repr sent
  rw [← arrived] at encoded
  have unmarked : ((events.map arguments).flatMap (Event.frame repr)).head? ≠ some 0xfeff := by
    cases events with
    | nil => exact Option.some_ne_none _ |>.symm
    | cons event events => simp [Event.frame, Event.content, Str.lit]
  have whole : ∀ event ∈ events.map arguments,
      untilSeparator eventEnd (event.frame repr) = some (event.content repr, []) := by
    intro arguments' member
    obtain ⟨event, listed, rfl⟩ := List.mem_map.mp member
    exact untilSeparator_frame (named_arguments (formed event listed)).1
  rw [consumeStream_of_complete whole unmarked encoded, List.map_map, List.filterMap_map,
    ← List.filterMap_eq_map]
  refine List.filterMap_congr fun event listed => ?_
  obtain ⟨oneLine, trimmed⟩ := named_arguments (formed event listed)
  have object := obj_arguments (formed event listed)
  have read := handleStreamEvent_content oneLine ((inverts event listed).trans (congrArg some object.symm))
  rw [trimmed, object] at read
  exact read

end Arrival

section Questions

variable (numbers : Numbers) {s t : Page} {question answer content : Str}

/-- The page shows and keeps the question and its answer after the messages that it had. -/
structure Shown (s : Page) (question answer : Str) (t : Page) : Prop where
  messages : ∃ thinking, t.messages =
    s.messages ++ [⟨.user, .str question, []⟩, ⟨.assistant, .str answer, thinking⟩]
  stored : t.storedMessages = some t.messages
  idle : t.answer = none

theorem hearing_sendMessage (idle : s.answer = none) (asked : trim question ≠ []) :
    Hearing (s.messages ++ [⟨.user, .str (trim question), []⟩]) [] (s.sendMessage question) := by
  rw [Page.sendMessage]
  dsimp only
  rw [if_neg (by simp [idle, asked])]
  exact ⟨rfl, rfl, [], rfl⟩

/-- The response has ended, in one way or another. -/
def EndsResponse (ending : PageEvent) : Prop := ending = .done ∨ ending = .abort ∨ ending = .fail

theorem Hearing.finish (hearing : Hearing (s.messages ++ [⟨.user, .str question, []⟩]) content t)
    {thinking : Str} (said : content ≠ []) :
    Shown s question content (t.finish ⟨.assistant, .str content, thinking⟩) := by
  have kept : truthy (.str content) = true := by simpa using said
  have ended : t.finish ⟨.assistant, .str content, thinking⟩ = Page.persistMessages { t with
      messages := t.messages ++ [⟨.assistant, .str content, thinking⟩]
      answer := none
      attached := false } := by
    rw [Page.finish]
    dsimp only
    rw [hearing.attached, if_pos rfl, if_neg (by simp [kept])]
  rw [ended, hearing.messages]
  refine ⟨⟨thinking, ?_⟩, ?_, rfl⟩
  · exact List.append_assoc _ _ _
  · exact congrArg some (List.append_nil _)

/-- However the response ends, an answer with some text stays. -/
theorem Hearing.ended (hearing : Hearing (s.messages ++ [⟨.user, .str question, []⟩]) content t)
    {ending : PageEvent} (ends : EndsResponse ending) (said : content ≠ []) :
    ∃ u, pageStep numbers t ending = some u ∧ Shown s question content u := by
  obtain ⟨thinking, current⟩ := hearing.answer
  rcases ends with rfl | rfl | rfl
  · exact ⟨_, by rw [pageStep, current, Option.map_some], hearing.finish said⟩
  · exact ⟨_, by rw [pageStep, current, Option.map_some], hearing.finish said⟩
  · refine ⟨_, by rw [pageStep, current, Option.map_some], ?_⟩
    rw [Page.fail]
    dsimp only
    rw [Json.text, orElse_str, textOr, Option.filter_some_pos (by simpa using said)]
    exact hearing.finish said

end Questions

section Runs

variable (cfg : Config) (now : ℚ) (tasks : StreamTaskManager ChildRef)
  (tape : List (Turn Action Point Raised Reply))

/-- A `message` event carries a delta that was taken. -/
theorem exists_delta : ∀ event ∈ (stream cfg (initial now tasks) tape).state.emitted,
    event.name = "message" → ∃ taken : StreamEvent, taken.delta = some event.data := by
  intro event member named
  have listed : event.data ∈ Lifecycle.messages (stream cfg (initial now tasks) tape).state :=
    List.mem_filterMap.mpr ⟨event, member, if_pos named⟩
  obtain ⟨taken, -, delta⟩ :=
    List.mem_filterMap.mp ((stream_flowing cfg now tasks tape).2.1.subset listed)
  exact ⟨taken, delta⟩

theorem fitting_stream (titled : Titled cfg)
    (speakable : ∀ v ∈ (stream cfg (initial now tasks) tape).visits, Speakable cfg v) :
    Fitting (stream cfg (initial now tasks) tape).state := by
  refine Triple.always ((says_stream (q := False) titled).conseq (fun _ => id)
    (fun _ _ spoken => spoken.1) fun _ _ spoken => spoken.1) ⟨rfl, ?_⟩ fun v member => ?_
  · exact fun _ held => (nomatch held)
  · exact ⟨speakable v member, False.elim⟩

theorem contained_stream
    (uncut : ∀ v ∈ (stream cfg (initial now tasks) tape).visits, Uncut cfg v) :
    Contained (∃ v ∈ (stream cfg (initial now tasks) tape).visits, TimesOut v)
      (stream cfg (initial now tasks) tape).state := by
  have early : Going False none false (initial now tasks) :=
    ⟨⟨rfl, rfl, fun ⟨_, member, _⟩ => (nomatch member), fun _ _ held => (nomatch held)⟩, rfl, rfl, rfl,
      fun _ => rfl, rfl⟩
  exact Triple.always (remembers_stream.conseq (fun _ => id) (fun _ _ holds => holds.content)
    fun _ _ holds => holds.content) early fun v member =>
      ⟨uncut v member, False.elim, fun admitted late => admitted ⟨v, member, late⟩⟩

/-- What is stored with a `finish` is what the events say, without white space at its ends. -/
theorem stored_heard {s : State} {late : Prop} (worded : Worded [] false s) (flowing : Flowing s)
    (fitting : Fitting s) (contained : Contained late s) (finish : Sent s "finish") :
    ∀ reply ∈ s.memory, s.emitted.foldl heard [] ≠ [] ∧
      Str.strip (s.emitted.foldl heard []) = reply := by
  intro reply stored
  have said : Lifecycle.text s = Str.strip (responseText s) := by
    rw [responseText_of_shown (flowing.2.2 finish).1]
    rfl
  have parts : s.responseParts = contents s.taken := (List.append_nil _).symm.trans worded.parts
  rcases contained with nothing | ⟨kept, prepared⟩ | ⟨-, kept, unprepared⟩
  · rw [nothing] at stored
    cases stored
  · have unrefused : ¬ Sent s "reject" := fun refused => by
      rw [worded.refused refused] at prepared
      cases prepared
    have spoken := ((worded.spoken finish).resolve_left unrefused).2
    rw [parts] at spoken
    rw [kept, List.mem_singleton] at stored
    obtain ⟨heard, -⟩ := ((heard_emitted fitting).2 finish).resolve_right fun refused =>
      unrefused refused.2
    rw [heard, stored, said]
    refine ⟨fun silent => spoken ?_, rfl⟩
    change Lifecycle.text s = []
    rw [said, silent]
    rfl
  · have refused : Sent s "reject" := (worded.spoken finish).resolve_right fun speaking => by
      rw [Speaking, Option.isNone_iff_eq_none.mp unprepared] at speaking
      cases speaking.1
    obtain ⟨heard, -⟩ := ((heard_emitted fitting).2 finish).resolve_left fun answered =>
      answered.2 refused
    rw [kept, List.mem_singleton] at stored
    rw [heard, stored]
    decide

end Runs

section Example

/-- A parser that knows the bodies of these events. -/
private def knownParse (events : List SseEvent) (text : Str) : Option Json :=
  (events.find? fun event => (arguments event).body noFloats = text).map (·.data)

private theorem knownParse_inverts {events : List SseEvent}
    (distinct : (events.map fun event => (arguments event).body noFloats).Nodup) :
    ∀ event ∈ events, knownParse events ((arguments event).body noFloats) = some event.data := by
  intro event member
  have found : events.find? (fun other =>
      (arguments other).body noFloats = (arguments event).body noFloats) = some event := by
    have known : (events.find? fun other =>
        (arguments other).body noFloats = (arguments event).body noFloats).isSome = true :=
      List.find?_isSome.mpr ⟨event, member, by simp⟩
    obtain ⟨other, listed⟩ := Option.isSome_iff_exists.mp known
    have same := List.find?_some listed
    rw [decide_eq_true_eq] at same
    rw [listed, List.inj_on_of_nodup_map distinct (List.mem_of_find?_eq_some listed) member same]
  rw [knownParse, found, Option.map_some]

/-- Numbers in a runtime without arithmetic. -/
private def plainNumbers : Numbers where
  text _ := []
  sum _ _ := .null

end Example

end HeyeeAgent.Frontend.ChatPage
