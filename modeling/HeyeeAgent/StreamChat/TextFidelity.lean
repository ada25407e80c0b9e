import HeyeeAgent.InfraAi.UpstreamText
import HeyeeAgent.StreamChat.AnswerEnd
import HeyeeAgent.StreamLlm.Start

/-! # From the upstream stream to the browser

The text of an upstream stream comes to the browser through the lines that the client reads, the
callbacks, the queue and the encoding of the events. The first loses the text of a line that
`splitlines` cuts, the last ends the answer at a delta with a lone surrogate, and the others lose
nothing. The browser joins what it gets in UTF-16, where two halves of a surrogate pair make one
character.
-/

namespace HeyeeAgent.StreamChat.Lifecycle

open Python Python.JsonDecoder StreamQueueLimiter Coroutine InfraAi StreamLlm

/-- A method of `_QueueStreamCallback` puts this event into the queue. -/
def StreamEvent.ofCall : CallbackCall → StreamEvent
  | .onThinking delta => .thinking delta
  | .onContent delta => .content delta
  | .onComplete => .complete
  | .onError message => .error message

/-- What `_FirstTokenStreamCallback` sees of a call: of a text, whether it is empty. -/
def callbackEvent : CallbackCall → CallbackEvent
  | .onThinking content => .thinking (visible content)
  | .onContent content => .content (visible content)
  | .onComplete => .complete
  | .onError error => .error (visible error)
where
  visible (text : Str) : String := String.ofList (text.map Char.ofNat)

/-- The calls that `_FirstTokenStreamCallback` passes on. -/
def passed (routed : FirstTokenStreamCallback) : List CallbackCall → List StreamEvent
  | [] => []
  | call :: calls =>
    let received := routed.receive (callbackEvent call)
    (if received.2.1 then [StreamEvent.ofCall call] else []) ++ passed received.1 calls

/-- The events that the stream service is called with for an upstream stream. -/
def delegated (repr : Value → Str) (reasoningEnabled : Bool) (text : Str) : List StreamEvent :=
  passed {} (upstreamCalls repr reasoningEnabled text)

/-- The text under a key of the data of an event. -/
def dataText (key : String) (data : Json) : Option Str :=
  match data.field key with
  | some (.str value) => some value
  | _ => none

/-- The `response` delta of a `message` event. -/
def responseDelta (data : Json) : Option Str :=
  if dataText "type" data = some (Str.lit "response") then dataText "delta" data else none

/-- The text that the browser gets. -/
def responseText (s : State) : Str := ((messages s).filterMap responseDelta).flatten

/-- A run that answers with these events and ends, and is not stopped and does not overflow. -/
structure Served (events : List StreamEvent)
    (r : Result State Action Point Raised Reply Unit) : Prop where
  returned : r.outcome = .returned ()
  begun : r.state.answerStartedAt.isSome = true
  running : r.state.stopped = false
  fits : r.state.overflowed = false
  thoughts : ∀ delta, .thinking delta ∈ events → Str.encodes delta = true
  called : r.state.called <+: events
  reached : ∀ v ∈ r.visits, Reached (events = []) v

/-- The `response` deltas make up this text, and no `error` is sent where nothing but a delta can
fail. A blank text is left out of the second part: it counts as an empty stream. -/
structure Carried (cfg : Config) (sent : Str)
    (r : Result State Action Point Raised Reply Unit) : Prop where
  text : utf16 (responseText r.state) = utf16 sent
  unerrored : Accepting cfg → (∀ v ∈ r.visits, Untroubled cfg v) → Str.strip sent ≠ [] →
    ¬ Errored r.state

/-- No line with text is cut, and the text of each line can be encoded. -/
structure Kept (text : Str) : Prop where
  unsplit : Unsplit text
  encodes : ∀ line ∈ textLines text, Str.encodes (lineText line) = true

section Calls

variable {repr : Value → Str} {reasoningEnabled : Bool} {text : Str}
  {routed : FirstTokenStreamCallback} {call : CallbackCall}

theorem isEmpty_visible (spoken : text ≠ []) : (callbackEvent.visible text).isEmpty = false := by
  rw [callbackEvent.visible, Bool.eq_false_iff, ne_eq, String.isEmpty_iff]
  simp [spoken]

/-- The first packet has come, and the calls go on to the stream. -/
structure Forwarding (routed : FirstTokenStreamCallback) : Prop where
  marked : routed.firstPacketStatus.isSome = true
  visible : routed.visibleOutput = true
  unsuppressed : routed.suppressed = false

theorem receive_chunk (routed : FirstTokenStreamCallback) (chunk : call.IsChunk)
    (unsuppressed : routed.suppressed = false)
    (fresh : routed.firstPacketStatus.isSome = true → routed.visibleOutput = true) :
    (routed.receive (callbackEvent call)).2.1 = true ∧
      Forwarding (routed.receive (callbackEvent call)).1 := by
  cases call with
  | onThinking delta | onContent delta =>
    unfold callbackEvent FirstTokenStreamCallback.receive
    dsimp only
    rw [isEmpty_visible chunk, if_neg Bool.false_ne_true]
    unfold FirstTokenStreamCallback.markFirstPacket
    split_ifs with marked
    · exact ⟨by rw [unsuppressed]; rfl, marked, fresh marked, unsuppressed⟩
    · exact ⟨by rw [unsuppressed]; rfl, rfl, by simp, unsuppressed⟩
  | onComplete | onError error => cases chunk

theorem receive_last (ends : Bool) (unsuppressed : routed.suppressed = false) :
    (routed.receive (callbackEvent (lastCall ends))).2.1 = routed.visibleOutput := by
  cases ends with
  | true =>
    unfold lastCall callbackEvent FirstTokenStreamCallback.receive
    cases visible : routed.visibleOutput <;> simp [unsuppressed]
  | false =>
    unfold lastCall callbackEvent FirstTokenStreamCallback.receive
    cases visible : routed.visibleOutput
    · simp
    · -- whether or not a failure is recorded, the call goes on
      simp only [Bool.false_eq_true, if_false, Bool.not_true]
      split_ifs <;> simp [unsuppressed]

theorem Forwarding.passed {spoken : List CallbackCall} (forwarding : Forwarding routed)
    (chunks : ∀ call ∈ spoken, call.IsChunk) (ends : Bool) :
    passed routed (spoken ++ [lastCall ends]) =
      (spoken ++ [lastCall ends]).map StreamEvent.ofCall := by
  induction spoken generalizing routed with
  | nil =>
    have forwarded := receive_last ends forwarding.unsuppressed
    rw [List.nil_append, Lifecycle.passed, forwarded, forwarding.visible]
    rfl
  | cons call spoken ih =>
    obtain ⟨first, chunks⟩ := List.forall_mem_cons.mp chunks
    obtain ⟨forwarded, forwarding⟩ :=
      receive_chunk routed first forwarding.unsuppressed fun _ => forwarding.visible
    rw [List.cons_append, Lifecycle.passed, forwarded, ih forwarding chunks]
    rfl

/-- Everything is passed on, unless nothing comes before the end. -/
theorem passed_calls {spoken : List CallbackCall} (chunks : ∀ call ∈ spoken, call.IsChunk)
    (ends : Bool) : passed {} (spoken ++ [lastCall ends]) =
      if spoken = [] then [] else (spoken ++ [lastCall ends]).map StreamEvent.ofCall := by
  cases spoken with
  | nil =>
    rw [List.nil_append, passed, receive_last ends rfl]
    rfl
  | cons call spoken =>
    obtain ⟨first, chunks⟩ := List.forall_mem_cons.mp chunks
    obtain ⟨forwarded, forwarding⟩ := receive_chunk {} first rfl nofun
    rw [if_neg (List.cons_ne_nil _ _), List.cons_append, passed, forwarded,
      forwarding.passed chunks ends]
    rfl

theorem contents_ofCall (calls : List CallbackCall) :
    contents (calls.map StreamEvent.ofCall) = InfraAi.contents calls := by
  rw [contents, InfraAi.contents, List.filterMap_map]
  congr 1
  funext call
  cases call <;> rfl

/-- What is read of a stream. -/
def readText (repr : Value → Str) (reasoningEnabled : Bool) (text : Str) : Str :=
  (answered repr reasoningEnabled (Str.pieces text)).flatMap (pieceText repr reasoningEnabled)

/-- The events for a stream: deltas with the text that is read, and the end; or nothing. -/
inductive Delegated (repr : Value → Str) (reasoningEnabled : Bool) (text : Str) :
    List StreamEvent → Prop where
  | nothing (silent : readText repr reasoningEnabled text = []) :
      Delegated repr reasoningEnabled text []
  | answer (spoken : List StreamEvent) (last : StreamEvent)
      (chunks : ∀ event ∈ spoken, ∃ delta ≠ [], event = .thinking delta ∨ event = .content delta)
      (read : (contents spoken).flatten = readText repr reasoningEnabled text)
      (ends : last = .complete ∨ ∃ message, last = .error message)
      (completed : (Str.pieces text).any (pieceEnds repr reasoningEnabled) = true →
        last = .complete) :
      Delegated repr reasoningEnabled text (spoken ++ [last])

theorem delegated_delegated (repr : Value → Str) (reasoningEnabled : Bool) (text : Str) :
    Delegated repr reasoningEnabled text (delegated repr reasoningEnabled text) := by
  obtain ⟨spoken, calls, chunks, read⟩ := readLines_calls repr reasoningEnabled
    (Str.pieces text)
  rw [delegated, upstreamCalls, runStream]
  dsimp only
  rw [readLines_splitlines, calls, passed_calls chunks]
  split_ifs with silent
  · refine .nothing ?_
    rw [readText, ← read, silent]
    rfl
  · rw [List.map_append, List.map_singleton]
    refine .answer _ _ (fun event member => ?_) ?_ ?_ fun completed => ?_
    · obtain ⟨call, listed, rfl⟩ := List.mem_map.mp member
      have chunk := chunks call listed
      cases call with
      | onThinking delta => exact ⟨delta, chunk, .inl rfl⟩
      | onContent delta => exact ⟨delta, chunk, .inr rfl⟩
      | onComplete | onError message => cases chunk
    · rw [contents_ofCall, read, readText]
    · unfold lastCall
      split_ifs
      · exact .inl rfl
      · exact .inr ⟨_, rfl⟩
    · rw [completed]
      rfl

end Calls

section Runs

variable {events : List StreamEvent}

/-- The `response` deltas of the `message` events are those of the events taken. -/
theorem responseDelta_deltas (events : List StreamEvent) :
    (deltas events).filterMap responseDelta = contents events := by
  rw [deltas, contents, List.filterMap_filterMap]
  congr 1
  funext event
  cases event <;> rfl

theorem contents_append (events more : List StreamEvent) :
    contents (events ++ more) = contents events ++ contents more := List.filterMap_append

theorem responseText_of_shown {s : State} (shown : messages s = deltas events) :
    responseText s = (contents events).flatten := by
  rw [responseText, shown, responseDelta_deltas]

/-- How a run answers with these events. -/
inductive Answered (w : Prop) (events : List StreamEvent) (s : State) : Prop where
  | silent (none : events = []) (text : responseText s = [])
  | broken (earlier later : List StreamEvent) (event : StreamEvent)
      (split : events = earlier ++ event :: later) (unsound : event.sound = false)
      (text : responseText s = (contents earlier).flatten) (failed : Errored s)
  | whole (earlier later : List StreamEvent) (split : events = earlier ++ .complete :: later)
      (sound : ∀ event ∈ earlier, event.sound = true)
      (text : responseText s = (contents earlier).flatten)
      (unerrored : w → Str.strip (contents earlier).flatten ≠ [] → ¬ Errored s)

theorem answered_stream (cfg : Config) (now : ℚ) (tasks : StreamTaskManager ChildRef)
    (tape : List (Turn Action Point Raised Reply))
    (served : Served events (stream cfg (initial now tasks) tape)) :
    Answered (Accepting cfg ∧ ∀ v ∈ (stream cfg (initial now tasks) tape).visits, Untroubled cfg v)
      events (stream cfg (initial now tasks) tape).state := by
  have flowing := stream_flowing cfg now tasks tape
  obtain ⟨rest, called, -, -⟩ := flowing.1.flow
  -- what is taken is the beginning of the events
  obtain ⟨more, split⟩ : (stream cfg (initial now tasks) tape).state.taken <+: events := by
    refine List.IsPrefix.trans ?_ served.called
    rw [called, List.append_assoc]
    exact List.prefix_append _ _
  have concluded := stream_concludes cfg (Accepting cfg ∧
    ∀ v ∈ (stream cfg (initial now tasks) tape).visits, Untroubled cfg v) (events = []) now tasks
    tape And.left (fun v member => ⟨served.reached v member, fun works => works.2 v member⟩)
    served.returned
  rcases concluded with excused | ⟨broken, failed⟩ | ⟨whole, unerrored⟩
  · rcases excused with halted | flooded | unbegun
    · cases served.running.symm.trans halted
    · cases served.fits.symm.trans flooded
    · cases served.begun.symm.trans unbegun
  · rcases broken with none | ⟨earlier, event, taken, shown, unsound⟩
    · refine .silent none ?_
      have shown := flowing.2.1
      rw [(List.append_eq_nil_iff.mp (split.trans none)).1] at shown
      have nothing : messages _ = deltas [] := List.prefix_nil.mp shown
      exact responseText_of_shown nothing
    · refine .broken earlier more event ?_ unsound (responseText_of_shown shown) failed
      rw [← split, taken, List.append_assoc, List.singleton_append]
  · obtain ⟨earlier, taken⟩ := whole.complete
    have same : contents (earlier ++ [.complete]) = contents earlier := by
      rw [contents_append]
      exact List.append_nil _
    rw [text, taken, same] at unerrored
    refine .whole earlier more ?_ (fun event member => whole.sound event ?_) ?_ unerrored
    · rw [← split, taken, List.append_assoc, List.singleton_append]
    · rw [taken]
      exact List.mem_append_left _ member
    · rw [responseText_of_shown whole.shown, taken, same]

/-- Nothing is sent that was not called. -/
theorem Answered.prefix_contents {w : Prop} {s : State} (answered : Answered w events s) :
    responseText s <+: (contents events).flatten := by
  have begins {earlier later : List StreamEvent} :
      (contents earlier).flatten <+: (contents (earlier ++ later)).flatten := by
    rw [contents_append, List.flatten_append]
    exact List.prefix_append _ _
  cases answered with
  | silent none text =>
    rw [text]
    exact List.nil_prefix
  | broken earlier later event split unsound text failed =>
    rw [text, split]
    exact begins
  | whole earlier later split sound text unerrored =>
    rw [text, split]
    exact begins

end Runs

section Fidelity

variable {repr : Value → Str} {reasoningEnabled : Bool} {text : Str} {events : List StreamEvent}

theorem Delegated.contents (delegated : Delegated repr reasoningEnabled text events) :
    (Lifecycle.contents events).flatten = readText repr reasoningEnabled text := by
  cases delegated with
  | nothing silent => exact silent.symm
  | answer spoken last chunks read ends completed =>
    rw [contents_append, List.flatten_append, read]
    rcases ends with rfl | ⟨message, rfl⟩ <;> exact List.append_nil _

/-- Before the end come only deltas. -/
theorem Delegated.ends_complete (delegated : Delegated repr reasoningEnabled text events)
    {earlier later : List StreamEvent} (split : events = earlier ++ .complete :: later) :
    later = [] := by
  cases delegated with
  | nothing silent => simp at split
  | answer spoken last chunks read ends completed =>
    rcases List.eq_nil_or_concat later with nil | ⟨before, event, rfl⟩
    · exact nil
    · rw [List.concat_eq_append, ← List.cons_append, ← List.append_assoc] at split
      obtain ⟨rfl, -⟩ := List.append_inj' split rfl
      obtain ⟨delta, -, same⟩ := chunks .complete (by simp)
      rcases same with same | same <;> cases same

/-- What is unsound in the events of a stream that is completed: a delta that cannot be encoded. -/
theorem Delegated.unsound (delegated : Delegated repr reasoningEnabled text events)
    (completed : (Str.pieces text).any (pieceEnds repr reasoningEnabled) = true)
    (thoughts : ∀ delta, .thinking delta ∈ events → Str.encodes delta = true) {event : StreamEvent}
    (listed : event ∈ events) (unsound : event.sound = false) :
    ∃ delta ≠ [], event = .content delta ∧ Str.encodes delta = false := by
  cases delegated with
  | nothing silent => cases listed
  | answer spoken last chunks read ends complete =>
    rcases List.mem_append.mp listed with member | final
    · obtain ⟨delta, spoken, rfl | rfl⟩ := chunks event member
      · cases unsound.symm.trans (thoughts delta listed)
      · exact ⟨delta, spoken, rfl, unsound⟩
    · rw [List.mem_singleton.mp final, complete completed] at unsound
      cases unsound

theorem encodes_flatMap {α : Type} (part : α → Str) (items : List α) :
    Str.encodes (items.flatMap part) = true ↔ ∀ item ∈ items, Str.encodes (part item) = true := by
  simp only [Str.encodes, List.all_flatMap, List.all_eq_true]

end Fidelity

section Examples

/-- An event stream with these JSON strings, without their quotes, as the contents. -/
def eventStream (contents : List Str) : Str :=
  contents.flatMap (fun content =>
    Str.lit "data: \x7b\"choices\":[\x7b\"delta\":\x7b\"content\":\"" ++ content ++
      Str.lit "\"\x7d\x7d]\x7d\n\n") ++ Str.lit "data: [DONE]\n\n"

theorem answeredRun_served (text : Str)
    (events : delegated (fun _ => []) false text = [.content [104], .complete]) :
    Served (delegated (fun _ => []) false text)
      (stream exampleConfig (initial 0 {}) answeredRun) := by
  rw [events]
  exact ⟨by decide +kernel, by decide +kernel, by decide +kernel, by decide +kernel, by simp,
    by decide +kernel, by decide +kernel⟩

/-- A smiley as two escaped surrogates, each in a delta of its own. -/
def smileyStream : Str := eventStream [.lit "\\ud83d", .lit "\\ude00"]

/-- The client calls back with the deltas of the smiley. -/
def smileyRun : List (Turn Action Point Raised Reply) := [
  ⟨[], .yielding, .ok ()⟩,
  ⟨[], .acquire, .ok ⟨.granted, some examplePermit⟩⟩,
  ⟨[], .yielding, .ok ()⟩,
  ⟨[.preparationEnds (.ok { conversationId := Str.lit "c", memoryService := true })],
    .preparation, .ok ()⟩,
  ⟨[], .yielding, .ok ()⟩,
  ⟨[.modelStartEnds (.ok ()), .callback (.content [0xd83d]), .callback (.content [0xde00]),
    .callback .complete, .modelStreamEnds, .push, .push, .push], .modelStart, .ok ()⟩,
  ⟨[], .queueGet, .ok ()⟩,
  ⟨[], .yielding, .ok ()⟩,
  ⟨[], .yielding, .ok ()⟩,
  ⟨[.leaseEnds true], .lease, .error .cancelledError⟩,
  ⟨[], .conditionLock, .ok ()⟩]

/-- A raw line separator inside a delta. -/
def separatorStream : Str := eventStream [.lit "h", [98, 0x2028, 99]]

end Examples

end HeyeeAgent.StreamChat.Lifecycle
