import HeyeeAgent.Frontend.ChatMessages
import HeyeeAgent.Memory.ChatContext

/-! # The two sources of a conversation

A question of the chat page goes to `prepare` with the history that the page sends. With a memory
service the model gets the earlier turns from the tables, which are read before the question is
appended. Without one it gets the history, and the page takes that after it has added the question to
its messages.
-/

namespace HeyeeAgent.Frontend.ChatPage

open JavaScript Machine Memory Python

section Requests

/-- `ChatHistoryItem`; none if it is refused. -/
def HistoryItem.accept (item : HistoryItem) : Option ChatHistoryItem :=
  match item.content with
  | .str content => if nonempty : 1 ≤ content.length then some ⟨item.role, content, nonempty⟩ else none
  | _ => none

/-- `conversationId` has at most 20 characters; none if it is refused. -/
def acceptConversationId : Json → Option (Option Str)
  | .null => some none
  | .str conversationId => if conversationId.length ≤ 20 then some (some conversationId) else none
  | _ => none

/-- `ChatRequest`; none if the body is refused. -/
def ChatBody.toRequest (body : ChatBody) : Option ChatRequest := do
  let conversationId ← acceptConversationId body.conversationId
  let history ← body.history.mapM HistoryItem.accept
  let message := Str.strip body.message
  if message = [] then none else some { conversationId, message, history }

theorem accept_eq_some {item : HistoryItem} {accepted : ChatHistoryItem}
    (taken : item.accept = some accepted) : item = ⟨accepted.role, .str accepted.content⟩ := by
  unfold HistoryItem.accept at taken
  split at taken
  · next content same =>
    split_ifs at taken
    cases taken
    obtain ⟨role, _⟩ := item
    rw [← same]
  · cases taken

theorem mapM_accept {items : List HistoryItem} {accepted : List ChatHistoryItem}
    (taken : items.mapM HistoryItem.accept = some accepted) :
    items = accepted.map fun item => ⟨item.role, .str item.content⟩ := by
  induction items generalizing accepted with
  | nil =>
    cases taken
    rfl
  | cons item items ih =>
    rw [List.mapM_cons] at taken
    obtain ⟨first, acceptedFirst, taken⟩ := Option.bind_eq_some_iff.mp taken
    obtain ⟨rest, acceptedRest, taken⟩ := Option.bind_eq_some_iff.mp taken
    cases taken
    rw [List.map_cons, ← ih acceptedRest, ← accept_eq_some acceptedFirst]

/-- What the model is given for an item whose content is a text. -/
def HistoryItem.toPrompt (item : HistoryItem) : PromptMessage where
  role := item.role.toPrompt
  content := match item.content with
    | .str content => content
    | _ => []

theorem toPrompt_toRequest {body : ChatBody} {request : ChatRequest}
    (accepted : body.toRequest = some request) :
    request.history.map ChatHistoryItem.toPrompt = body.history.map HistoryItem.toPrompt := by
  unfold ChatBody.toRequest at accepted
  obtain ⟨conversationId, -, accepted⟩ := Option.bind_eq_some_iff.mp accepted
  obtain ⟨history, taken, accepted⟩ := Option.bind_eq_some_iff.mp accepted
  dsimp only at accepted
  split_ifs at accepted
  cases accepted
  rw [mapM_accept taken, List.map_map]
  rfl

end Requests

section Dialogues

/-- A turn that is completed. -/
structure DialogueTurn where
  question : Str
  answer : Str

/-- The turn as the page shows it. -/
def DialogueTurn.shown (turn : DialogueTurn) : List HistoryItem :=
  [⟨.user, .str turn.question⟩, ⟨.assistant, .str turn.answer⟩]

/-- The turn as the tables hold it. -/
def DialogueTurn.stored (turn : DialogueTurn) : List PromptMessage :=
  [⟨.user, Str.strip turn.question⟩, ⟨.assistant, turn.answer⟩]

variable {dialogue : List DialogueTurn} {s : Page}

/-- The page shows the turns and has no answer under way. -/
structure Page.Shows (s : Page) (dialogue : List DialogueTurn) : Prop where
  idle : s.answer = none
  messages : s.messages.map Message.item = dialogue.flatMap DialogueTurn.shown

/-- The tables hold the turns, and nothing else that is visible. -/
def Stores (messages : List MemoryMessage) (dialogue : List DialogueTurn) : Prop :=
  messages.map MemoryMessage.toPrompt = dialogue.flatMap DialogueTurn.stored

/-- The history that the page sends has the question. -/
theorem history_sendMessage (shows : s.Shows dialogue) (short : s.messages.length ≤ 9)
    {inputText : Str} {body : ChatBody}
    (sent : (s.sendMessage inputText).requests = s.requests ++ [body]) :
    body.history =
      dialogue.flatMap DialogueTurn.shown ++ [⟨.user, .str (trim inputText)⟩] := by
  unfold Page.sendMessage at sent
  dsimp only at sent
  split at sent
  · exact absurd sent (by simp)
  · obtain rfl := List.singleton_inj.mp (List.append_cancel_left sent)
    have all : (s.messages ++ [({ role := .user, content := .str (trim inputText) } : Message)]).length
        ≤ 10 := by
      rw [List.length_append, List.length_singleton]
      omega
    dsimp only
    rw [Nat.sub_eq_zero_of_le all, List.drop_zero, List.map_append, shows.messages]
    rfl

theorem Stores.starts {messages : List MemoryMessage} (stores : Stores messages dialogue) :
    ∀ first ∈ messages.head?, first.role = .user := by
  intro first starts
  obtain ⟨rest, rfl⟩ := List.head?_eq_some_iff.mp starts
  cases dialogue with
  | nil => cases stores
  | cons turn turns =>
    have same : first.role.toPrompt = .user :=
      congrArg PromptMessage.role (List.cons.inj stores).1
    cases role : first.role with
    | user => rfl
    | assistant =>
      rw [role] at same
      cases same

theorem length_stored (dialogue : List DialogueTurn) :
    (dialogue.flatMap DialogueTurn.stored).length =
      (dialogue.flatMap DialogueTurn.shown).length := by
  induction dialogue with
  | nil => rfl
  | cons turn turns ih =>
    rw [List.flatMap_cons, List.flatMap_cons, List.length_append, List.length_append, ih]
    rfl

section Turns

/-- A question, an answer in one piece and the end of the response. -/
def turnEvents (inputText answer : Str) : List PageEvent :=
  [.send inputText,
    .event (Str.lit "message") (.obj [("type", .text "response"), ("delta", .str answer)]), .done]

/-- The page shows a turn once its response has ended. -/
theorem Page.Shows.turn (numbers : Numbers) (shows : s.Shows dialogue) (inputText : Str)
    {answer : Str} (asked : trim inputText ≠ []) (answered : answer ≠ []) :
    ∃ t, runFrom (pageStep numbers) s (turnEvents inputText answer) = some t ∧
      t.Shows (dialogue ++ [⟨trim inputText, answer⟩]) := by
  have sent : ∃ t, s.sendMessage inputText = t ∧ t.attached = true ∧
      t.answer = some { role := .assistant, content := .str [] } ∧ t.messages.map Message.item =
        dialogue.flatMap DialogueTurn.shown ++ [⟨.user, .str (trim inputText)⟩] := by
    refine ⟨_, rfl, ?_⟩
    unfold Page.sendMessage
    dsimp only
    rw [if_neg (by simp [shows.idle, asked])]
    refine ⟨rfl, rfl, ?_⟩
    rw [← shows.messages]
    exact List.map_append
  have said : truthy (.str answer) = true := by simp [answered]
  obtain ⟨t, sent, attached, current, shown⟩ := sent
  let told : Message := { role := .assistant, content := .str answer }
  have heard : t.handle numbers { role := .assistant, content := .str [] } (Str.lit "message")
      (.obj [("type", .text "response"), ("delta", .str answer)]) =
        ({ t with answer := some told }, true) := by
    have delta : orElse (Json.field "delta" (.obj [("type", .text "response"),
        ("delta", .str answer)])) (.str []) = .str answer := by
      change orElse (some (.str answer)) (.str []) = .str answer
      rw [orElse, Option.filter_some_pos said, Option.getD_some]
    have joined : add numbers (.str []) (.str answer) = some (.str answer) := by
      rw [add_str]
      simp [text]
    unfold Page.handle
    dsimp only
    rw [if_neg (by decide), if_pos rfl, delta, if_neg (by exact Bool.false_ne_true),
      if_pos (by rfl), joined]
  refine ⟨({ t with answer := some told } : Page).finish told, ?_, ?_⟩
  · simp only [turnEvents, runFrom_cons, pageStep, sent, current, heard, Option.bind_some,
      Option.map_some, if_true, runFrom_nil]
  · unfold Page.finish
    dsimp only
    rw [if_pos attached, if_neg (by simp [told, said])]
    constructor
    · rfl
    · change (t.messages ++ [told]).map Message.item = _
      rw [List.map_append, shown, List.flatMap_append, List.append_assoc]
      rfl

/-- The tables hold the turns in the order of their times, which have passed. -/
structure Stored (tables : Tables) (conversationId userId : Str) (now : ℕ)
    (messages : List PromptMessage) : Prop where
  ordered : (tables.visible conversationId userId).Pairwise fun row other =>
    row.createTime ≤ other.createTime
  past : ∀ row ∈ tables.visible conversationId userId, row.createTime ≤ now
  messages : ((tables.visible conversationId userId).map MessageRow.toMessage).map
    MemoryMessage.toPrompt = messages

variable {tables : Tables} {conversationId userId : Str} {now : ℕ} {messages : List PromptMessage}

theorem Stored.empty (conversationId userId : Str) (now : ℕ) :
    Stored {} conversationId userId now [] where
  ordered := List.Pairwise.nil
  past _ member := absurd member List.not_mem_nil
  messages := rfl

theorem Stored.listed (stored : Stored tables conversationId userId now messages) :
    tables.listConversationMessages conversationId userId =
      (tables.visible conversationId userId).map MessageRow.toMessage := by
  unfold Tables.listConversationMessages Tables.byCreateTime
  rw [List.mergeSort_of_pairwise (stored.ordered.imp decide_eq_true)]

theorem Stored.append (stored : Stored tables conversationId userId now messages)
    (rowId messageId : Str) (rowTime : ℕ) {messageTime : ℕ} (later : now ≤ messageTime)
    (role : MemoryRole) (content : Str) :
    Stored (tables.append rowId messageId rowTime messageTime conversationId userId role content)
      conversationId userId messageTime (messages ++ [⟨role.toPrompt, content⟩]) := by
  have visible : (tables.append rowId messageId rowTime messageTime conversationId userId role
      content).visible conversationId userId = tables.visible conversationId userId ++
        [Tables.insertedMessage messageTime messageId conversationId userId role content] := by
    have kept : (tables.createOrUpdateConversation rowTime rowId conversationId userId
        (appendTitle content)).messages = tables.messages := by
      unfold Tables.createOrUpdateConversation
      split <;> rfl
    unfold Tables.append Tables.appendMessage Tables.insertMessage Tables.visible
    dsimp only
    rw [kept, List.filter_append, List.filter_cons_of_pos, List.filter_nil]
    exact OwnedRow.shows_iff.mpr ⟨OwnedRow.isOf_iff.mpr ⟨rfl, rfl⟩, rfl⟩
  constructor
  · rw [visible, List.pairwise_append]
    refine ⟨stored.ordered, List.pairwise_singleton _ _, ?_⟩
    intro row member other new
    rw [List.mem_singleton.mp new]
    exact (stored.past row member).trans later
  · rw [visible]
    intro row member
    rcases List.mem_append.mp member with old | new
    · exact (stored.past row old).trans later
    · rw [List.mem_singleton.mp new]
      exact le_refl _
  · rw [visible, List.map_append, List.map_append, stored.messages]
    rfl

/-- Turn by turn, the page comes to show any dialogue and the tables come to hold it. -/
theorem exists_dialogue (numbers : Numbers) (conversationId userId : Str)
    (dialogue : List DialogueTurn) (complete : ∀ turn ∈ dialogue,
      trim turn.question = turn.question ∧ turn.question ≠ [] ∧ turn.answer ≠ []) :
    ∃ s tables now, Reachable (pageStep numbers) {} s ∧ s.Shows dialogue ∧
      Stored tables conversationId userId now (dialogue.flatMap DialogueTurn.stored) := by
  induction dialogue using List.reverseRecOn with
  | nil => exact ⟨{}, {}, 0, .refl _ _, ⟨rfl, rfl⟩, .empty conversationId userId 0⟩
  | append_singleton earlier turn ih =>
    obtain ⟨s, tables, now, reached, shows, stored⟩ :=
      ih fun turn member => complete turn (List.mem_append_left _ member)
    obtain ⟨trimmed, asked, answered⟩ :=
      complete turn (List.mem_append_right _ (List.mem_singleton_self turn))
    obtain ⟨t, run, shows⟩ := shows.turn numbers turn.question (by rwa [trimmed]) answered
    have asks := stored.append [] [] now le_rfl .user
      (Str.strip turn.question)
    have answers := asks.append [] [] now le_rfl .assistant
      turn.answer
    rw [trimmed] at shows
    rw [List.append_assoc] at answers
    rw [List.flatMap_append]
    exact ⟨t, _, now, reached.trans ⟨_, run⟩, shows, answers⟩

end Turns

/-- The tables give the turns to the model, and the history of the page gives the turns and the
question, which the last message repeats. -/
theorem memory_modes_differ (shows : s.Shows dialogue) (short : s.messages.length ≤ 9)
    {inputText : Str} {body : ChatBody} {request : ChatRequest}
    (sent : (s.sendMessage inputText).requests = s.requests ++ [body])
    (accepted : body.toRequest = some request) (plan otherPlan : MemoryContext → PromptBuildPlan)
    (drawn userId : Str) (memory : PersistentMemory) {conversation : List MemoryMessage}
    (listed : memory.tables.listConversationMessages (request.conversation drawn) userId =
      conversation)
    (stores : Stores conversation dialogue) (fits : memory.service.Fits conversation) :
    let persistent := prepare plan drawn userId request (some memory)
    let history := prepare otherPlan drawn userId request none
    HasHistory (dialogue.flatMap DialogueTurn.stored) persistent ∧
      HasHistory ((dialogue.flatMap DialogueTurn.shown).map HistoryItem.toPrompt ++
        [⟨.user, trim inputText⟩]) history ∧
      persistent ≠ history := by
  intro persistent history
  have items := history_sendMessage shows short sent
  have stored : HasHistory (dialogue.flatMap DialogueTurn.stored) persistent := by
    rw [← stores]
    exact hasHistory_persistent listed fits stores.starts
  have repeated : HasHistory ((dialogue.flatMap DialogueTurn.shown).map HistoryItem.toPrompt ++
      [⟨.user, trim inputText⟩]) history := by
    have given := toPrompt_toRequest accepted
    rw [items, List.map_append] at given
    change HasHistory (_ ++ [HistoryItem.toPrompt ⟨.user, .str (trim inputText)⟩]) history
    rw [← List.map_singleton, ← given]
    apply hasHistory_request
    have lengths := congrArg List.length given
    rw [List.length_map, List.length_append, List.length_map, List.length_map,
      List.length_singleton, ← shows.messages, List.length_map] at lengths
    omega
  refine ⟨stored, repeated, fun same => ?_⟩
  have lengths := congrArg List.length ((same ▸ stored).unique repeated)
  rw [length_stored, List.length_append, List.length_map, List.length_singleton] at lengths
  omega

section Questions

private def greeting : DialogueTurn := ⟨Str.lit "hi", Str.lit "hello"⟩

/-- A page with one turn. -/
private def greetedPage : Page where
  messages := [{ role := .user, content := .text "hi" },
    { role := .assistant, content := .text "hello" }]
  conversationId := .text "conv"

/-- The service with its defaults. -/
private def memoryWith (tables : Tables) : PersistentMemory where
  service := {
    historyKeepTurns := 8
    summaryEnabled := false
    summaryBatchSize := 8
    maxContextChars := 6000 }
  tables := tables
  rowId := []
  messageId := Str.lit "m3"
  rowTime := 4
  messageTime := 5

/-- Tables with the same turn. -/
private def greetedMemory : PersistentMemory :=
  memoryWith ((({} : Tables).append [] (Str.lit "m1") 0 1 (Str.lit "conv") (Str.lit "0") .user
    (Str.lit "hi")).append [] (Str.lit "m2") 2 3 (Str.lit "conv") (Str.lit "0") .assistant
    (Str.lit "hello"))

/-- A plan without evidence. -/
private def plainPlan (question : Str) (_ : MemoryContext) : PromptBuildPlan :=
  ⟨Str.lit "system", question⟩

private def secondRequest : ChatRequest where
  conversationId := some (Str.lit "conv")
  message := Str.lit "and you"
  history := [⟨.user, Str.lit "hi", by decide⟩, ⟨.assistant, Str.lit "hello", by decide⟩,
    ⟨.user, Str.lit "and you", by decide⟩]

private def secondBody : ChatBody where
  conversationId := .text "conv"
  message := Str.lit "and you"
  history := [⟨.user, .text "hi"⟩, ⟨.assistant, .text "hello"⟩, ⟨.user, .text "and you"⟩]

theorem memory_modes_differ_second_question :
    prepare (plainPlan (Str.lit "and you")) [] (Str.lit "0") secondRequest (some greetedMemory) ≠
      prepare (plainPlan (Str.lit "and you")) [] (Str.lit "0") secondRequest none := by
  have stored : Stored greetedMemory.tables (Str.lit "conv") (Str.lit "0") 3
      ([greeting].flatMap DialogueTurn.stored) :=
    ((Stored.empty _ _ 0).append [] (Str.lit "m1") 0 (by decide) .user (Str.lit "hi")).append []
      (Str.lit "m2") 2 (by decide) .assistant (Str.lit "hello")
  have fits : greetedMemory.service.Fits
      ((greetedMemory.tables.visible (Str.lit "conv") (Str.lit "0")).map MessageRow.toMessage) :=
    ⟨rfl, by decide +kernel, by decide +kernel⟩
  have sent : (greetedPage.sendMessage (Str.lit "and you")).requests = [] ++ [secondBody] := by rfl
  have accepted : secondBody.toRequest = some secondRequest := by rfl
  exact (memory_modes_differ ⟨rfl, rfl⟩ (by decide) sent accepted (plainPlan _) (plainPlan _) []
    (Str.lit "0") greetedMemory stored.listed stored.messages fits).2.2

private def firstBody : ChatBody where
  conversationId := .text ""
  message := Str.lit "hi"
  history := [⟨.user, .text "hi"⟩]

private def firstRequest : ChatRequest where
  conversationId := some []
  message := Str.lit "hi"
  history := [⟨.user, Str.lit "hi", by decide⟩]

/-- The first question of a conversation. -/
theorem first_question_repeated :
    (({} : Page).sendMessage (Str.lit "hi")).requests = [firstBody] ∧
      firstBody.toRequest = some firstRequest ∧
      prepare (plainPlan (Str.lit "hi")) (Str.lit "conv") (Str.lit "0") firstRequest
        (some (memoryWith {})) = [⟨.system, Str.lit "system"⟩, ⟨.user, Str.lit "hi"⟩] ∧
      prepare (plainPlan (Str.lit "hi")) (Str.lit "conv") (Str.lit "0") firstRequest none =
        [⟨.system, Str.lit "system"⟩, ⟨.user, Str.lit "hi"⟩, ⟨.user, Str.lit "hi"⟩] := by
  refine ⟨by rfl, by rfl, by decide +kernel, by decide +kernel⟩

end Questions

end Dialogues

end HeyeeAgent.Frontend.ChatPage
