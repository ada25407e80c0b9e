import HeyeeAgent.Frontend.ChatMessages

/-! # The history that the page sends

A message is accepted as an item of the history if its content is a string that is not empty. Every
question is, and `finally` gives an answer that has shown nothing a content. What is left are the
answers that were kept before they were finished, those that have only thoughts, and those whose error
event brought something else than a text.
-/

namespace HeyeeAgent.Frontend.ChatPage

open JavaScript Machine Memory Python

variable {numbers : Numbers} {s t : Page}

def isText : Json → Bool
  | .str _ => true
  | _ => false

/-- The page is not reloaded while an answer is under way, an answer does not end with thoughts and
no content, and an error event of an answer without content brings a text or nothing. -/
def Orderly (s : Page) : PageEvent → Prop
  | .reload => s.attached = false
  | .done | .abort => s.attached = true → ∀ answer ∈ s.answer, truthy answer.content = false →
      answer.thinking = []
  | .event eventName data => eventName = Str.lit "error" → s.attached = true →
      ∀ answer ∈ s.answer, truthy answer.content = false →
        ∀ message ∈ data.field "message", truthy message = true → isText message = true
  | _ => True

instance (s : Page) : DecidablePred (Orderly s)
  | .reload => inferInstanceAs (Decidable (s.attached = false))
  | .done | .abort => inferInstanceAs (Decidable (s.attached = true → ∀ answer ∈ s.answer, _))
  | .event _ _ => inferInstanceAs (Decidable (_ → _ → ∀ answer ∈ s.answer, _))
  | .send _ | .fail | .clear => inferInstanceAs (Decidable True)

/-- Every request was sent with items that are accepted. -/
def HistoriesAccepted (s : Page) : Prop :=
  ∀ request ∈ s.requests, ∀ item ∈ request.history, item.Accepted

instance : DecidablePred HistoriesAccepted := fun s =>
  inferInstanceAs (Decidable (∀ request ∈ s.requests, ∀ item ∈ request.history, item.Accepted))

/-- What the page may send later: its messages, and once it is reloaded the stored ones. -/
structure Sendable (s : Page) : Prop where
  messages : ∀ message ∈ s.messages, message.item.Accepted
  answer : s.attached = true → ∀ answer ∈ s.answer, isText answer.content = true
  stored : s.attached = false → ∀ messages ∈ s.storedMessages, ∀ message ∈ messages,
    message.item.Accepted
  sent : HistoriesAccepted s

section Content

theorem isText_iff {value : Json} : isText value = true ↔ ∃ text, value = .str text := by
  cases value <;> simp [isText]

/-- A content that is a text is accepted once it is not empty. -/
theorem accepted_of_truthy {message : Message} (text : isText message.content = true)
    (shown : truthy message.content = true) : message.item.Accepted := by
  obtain ⟨content, same⟩ := isText_iff.mp text
  rw [same, truthy_str, Bool.not_eq_true', List.isEmpty_eq_false_iff] at shown
  exact ⟨content, same, List.length_pos_iff.mpr shown⟩

theorem isText_orElse {value : Option Json} {default : Json}
    (texts : ∀ v ∈ value, truthy v = true → isText v = true) (text : isText default = true) :
    isText (orElse value default) = true := by
  unfold orElse
  cases chosen : value.filter truthy with
  | none => exact text
  | some v =>
    obtain ⟨present, shown⟩ := Option.filter_eq_some_iff.mp chosen
    exact texts v present shown

theorem isText_add {value right sum : Json} (text : isText value = true)
    (added : add numbers value right = some sum) : isText sum = true := by
  obtain ⟨content, rfl⟩ := isText_iff.mp text
  rw [add_str] at added
  obtain ⟨more, -, rfl⟩ := Option.map_eq_some_iff.mp added
  rfl

theorem truthy_orElse {value : Option Json} {default : Json} (shown : truthy default = true) :
    truthy (orElse value default) = true := by
  unfold orElse
  cases chosen : value.filter truthy with
  | none => exact shown
  | some v => exact (Option.filter_eq_some_iff.mp chosen).2

end Content

section Steps

theorem Sendable.sendMessage (sendable : Sendable s) (inputText : Str) :
    Sendable (s.sendMessage inputText) := by
  unfold Page.sendMessage
  dsimp only
  split
  · exact sendable
  · next sends =>
    rw [Bool.or_eq_true, not_or, Bool.not_eq_true, List.isEmpty_eq_false_iff] at sends
    have messages : ∀ message ∈ s.messages ++
        [({ role := .user, content := .str (trim inputText) } : Message)],
          message.item.Accepted := by
      intro message member
      rcases List.mem_append.mp member with old | new
      · exact sendable.messages message old
      · rw [List.mem_singleton.mp new]
        exact ⟨trim inputText, rfl, List.length_pos_iff.mpr sends.1⟩
    constructor
    · exact messages
    · rintro - answer ⟨⟩
      rfl
    · rintro ⟨⟩
    · intro request member
      rcases List.mem_append.mp member with old | new
      · exact sendable.sent request old
      · rw [List.mem_singleton.mp new]
        intro item listed
        obtain ⟨message, recent, rfl⟩ := List.mem_map.mp listed
        exact messages message (List.mem_of_mem_drop recent)

/-- An answer that has a text ends with a content, unless it has thoughts alone. -/
theorem Sendable.finish {answer : Message} (sendable : Sendable s)
    (text : s.attached = true → isText answer.content = true)
    (spoken : s.attached = true → truthy answer.content = false → answer.thinking = []) :
    Sendable (s.finish answer) := by
  unfold Page.finish
  dsimp only
  have messages : ∀ message ∈ s.messages ++ (if s.attached then
      [if !truthy answer.content && answer.thinking.isEmpty then
        { answer with content := stopped } else answer] else []), message.item.Accepted := by
    intro message member
    rcases List.mem_append.mp member with old | new
    · exact sendable.messages message old
    · split at new
      · next attached =>
        rw [List.mem_singleton.mp new]
        split
        · exact ⟨_, rfl, by decide⟩
        · next kept =>
          apply accepted_of_truthy (text attached)
          by_contra silent
          rw [Bool.not_eq_true] at silent
          apply kept
          rw [silent, spoken attached silent]
          rfl
      · exact absurd new List.not_mem_nil
  unfold Page.persistMessages
  constructor
  · exact messages
  · rintro ⟨⟩
  · rintro - stored ⟨⟩
    simpa using messages
  · exact sendable.sent

theorem Sendable.fail {answer : Message} (sendable : Sendable s)
    (text : s.attached = true → isText answer.content = true) : Sendable (s.fail answer) := by
  unfold Page.fail
  apply sendable.finish
  · intro attached
    apply isText_orElse _ rfl
    rintro v ⟨⟩ -
    exact text attached
  · intro _ silent
    rw [truthy_orElse (by decide)] at silent
    cases silent

theorem Sendable.clear (sendable : Sendable s) : Sendable s.clear where
  messages message member := by cases member
  answer attached := by cases attached
  stored _ messages stored := by cases stored
  sent := sendable.sent

theorem Sendable.reload (sendable : Sendable s) (settled : s.attached = false) :
    Sendable s.reload where
  messages message member := by
    unfold Page.reload at member
    dsimp only at member
    cases stored : s.storedMessages with
    | none =>
      rw [stored] at member
      cases member
    | some messages =>
      rw [stored] at member
      exact sendable.stored settled messages stored message member
  answer attached := by cases attached
  stored _ := sendable.stored settled
  sent := sendable.sent

/-- An answer that goes on is under way with a text, beside what the page had. -/
theorem Sendable.setAnswer {answer : Message} (sendable : Sendable s)
    (text : s.attached = true → isText answer.content = true) :
    Sendable { s with answer := some answer } where
  messages := sendable.messages
  answer attached := by
    rintro _ ⟨⟩
    exact text attached
  stored := sendable.stored
  sent := sendable.sent

/-- What an event leaves: the answer as it was, one with more thoughts, one with more content, or one
that got a content in place of none. -/
inductive Left (numbers : Numbers) (s : Page) (answer : Message) (eventName : Str) (data : Json) :
    Page → Prop where
  | same (conversationId storedConversationId) :
    Left numbers s answer eventName data { s with conversationId, storedConversationId }
  | thinking (thinking) :
    Left numbers s answer eventName data { s with answer := some { answer with thinking } }
  | added {delta content} (more : add numbers answer.content delta = some content) :
    Left numbers s answer eventName data { s with answer := some { answer with content } }
  | error (isError : eventName = Str.lit "error") (silent : truthy answer.content = false) :
    Left numbers s answer eventName data { s with answer := some { answer with
      content := orElse (data.field "message") (.text "AI 流式回答失败。") } }
  | cancel : Left numbers s answer eventName data
      { s with answer := some { answer with content := orElse (some answer.content) stopped } }

theorem left_handle (numbers : Numbers) (s : Page) (answer : Message) (eventName : Str)
    (data : Json) :
    Left numbers s answer eventName data (s.handle numbers answer eventName data).1 := by
  have unchanged : Left numbers s answer eventName data s := .same _ _
  unfold Page.handle
  dsimp only
  split_ifs with isMeta isMessage think response isReject null isFinish isError shown null isCancel
    null
  · split
    · split_ifs
      · split <;> exact .same _ _
      · exact unchanged
    · exact unchanged
  · split
    · exact .thinking _
    · exact unchanged
  · split
    · next content more => exact .added more
    · exact unchanged
  · exact unchanged
  · exact unchanged
  · split
    · next content more => exact .added more
    · exact unchanged
  · exact unchanged
  · exact unchanged
  · exact unchanged
  · exact .error isError (Bool.not_eq_true _ ▸ shown)
  · exact unchanged
  · exact .cancel
  · exact unchanged

/-- An event leaves a page that may go on. -/
theorem Sendable.handle (numbers : Numbers) {answer : Message} {eventName : Str} {data : Json}
    (sendable : Sendable s) (current : s.answer = some answer)
    (orderly : Orderly s (.event eventName data)) :
    Sendable (s.handle numbers answer eventName data).1 := by
  have text (attached : s.attached = true) : isText answer.content = true :=
    sendable.answer attached answer current
  have left := left_handle numbers s answer eventName data
  generalize (s.handle numbers answer eventName data).1 = page at left ⊢
  cases left with
  | same => exact ⟨sendable.messages, sendable.answer, sendable.stored, sendable.sent⟩
  | thinking => exact sendable.setAnswer text
  | added more => exact sendable.setAnswer fun attached => isText_add (text attached) more
  | error isError silent =>
    apply sendable.setAnswer
    intro attached
    exact isText_orElse (orderly isError attached answer current silent) rfl
  | cancel =>
    apply sendable.setAnswer
    intro attached
    apply isText_orElse _ rfl
    rintro v ⟨⟩ -
    exact text attached

theorem handle_attached (numbers : Numbers) (s : Page) (answer : Message) (eventName : Str)
    (data : Json) :
    (s.handle numbers answer eventName data).1.attached = s.attached := by
  have left := left_handle numbers s answer eventName data
  generalize (s.handle numbers answer eventName data).1 = page at left ⊢
  cases left <;> rfl

theorem Sendable.step {e : PageEvent} (sendable : Sendable s) (orderly : Orderly s e)
    (taken : pageStep numbers s e = some t) : Sendable t := by
  have text (answer : Message) (current : s.answer = some answer) (attached : s.attached = true) :
      isText answer.content = true := sendable.answer attached answer current
  cases e with
  | send inputText =>
    cases taken
    exact sendable.sendMessage inputText
  | event eventName data =>
    obtain ⟨answer, current, rfl⟩ := Option.map_eq_some_iff.mp taken
    have kept := sendable.handle numbers current orderly
    have attached := handle_attached numbers s answer eventName data
    rcases outcome : s.handle numbers answer eventName data with ⟨page, handled⟩
    rw [outcome] at kept attached
    cases handled with
    | true => exact kept
    | false =>
      apply kept.fail
      rw [attached]
      exact text answer current
  | done | abort =>
    obtain ⟨answer, current, rfl⟩ := Option.map_eq_some_iff.mp taken
    exact sendable.finish (text answer current) fun attached => orderly attached answer current
  | fail =>
    obtain ⟨answer, current, rfl⟩ := Option.map_eq_some_iff.mp taken
    exact sendable.fail (text answer current)
  | clear =>
    cases taken
    exact sendable.clear
  | reload =>
    cases taken
    exact sendable.reload orderly

end Steps

theorem Sendable.initial : Sendable {} where
  messages message member := by cases member
  answer attached := by cases attached
  stored _ messages stored := by cases stored
  sent request member := by cases member

/-- On a page that is not reloaded during an answer, whose answers do not end with thoughts alone and
whose error events bring texts, every item of every history that is sent is accepted. -/
theorem sent_histories_accepted (numbers : Numbers) (es : List PageEvent)
    (orderly : Along (pageStep numbers) Orderly {} es) :
    Always (pageStep numbers) HistoriesAccepted {} es :=
  (always_of_along (fun _ _ _ sendable orderly taken => sendable.step orderly taken)
    Sendable.initial orderly).mono fun _ sendable => sendable.sent

/-- Numbers in a runtime without arithmetic. -/
private def constantNumbers : Numbers where
  text _ := Str.lit "0"
  sum _ _ := .int 0

/-- A question whose answer is stopped before it says anything, a reload and another question. -/
private def stoppedRun : List PageEvent :=
  [.send (Str.lit "hi"), .event (Str.lit "cancel") (.obj []), .done, .reload,
    .send (Str.lit "again")]

theorem sent_histories_accepted_stopped :
    Along (pageStep constantNumbers) Orderly {} stoppedRun ∧
      Always (pageStep constantNumbers) HistoriesAccepted {} stoppedRun := by
  have orderly : Along (pageStep constantNumbers) Orderly {} stoppedRun := by decide +kernel
  exact ⟨orderly, sent_histories_accepted constantNumbers stoppedRun orderly⟩

/-- A question, a reload while its answer is under way and another question. -/
private def interruptedRun : List PageEvent :=
  [.send (Str.lit "hi"), .reload, .send (Str.lit "again")]

/-- The history of the second request has an item without content. -/
theorem reload_keeps_empty_answer :
    ¬ ∀ numbers es, Always (pageStep numbers) HistoriesAccepted {} es := by
  intro accepted
  have refused : ((runFrom (pageStep constantNumbers) {} interruptedRun).filter
      fun page => ¬ HistoriesAccepted page).isSome = true := by decide +kernel
  obtain ⟨page, reached⟩ := Option.isSome_iff_exists.mp refused
  obtain ⟨run, refused⟩ := Option.filter_eq_some_iff.mp reached
  exact of_decide_eq_true refused ((accepted constantNumbers interruptedRun).last run)

end HeyeeAgent.Frontend.ChatPage
