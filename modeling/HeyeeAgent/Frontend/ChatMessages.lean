import HeyeeAgent.Frontend.ChatPage
import HeyeeAgent.JavaScript.Values
import HeyeeAgent.Machine.Run
import HeyeeAgent.Memory.ConversationMemoryRepository

/-! # The messages of the chat page

The messages that the page shows, keeps in the session storage and sends as history. `sendMessage`
runs from its click to its `finally` block while other handlers come between; it is the only one at a
time, so the answer under way is the last message, unless the chat was cleared since. The labels and
the sources that the page shows beside an answer are left out.
-/

namespace HeyeeAgent.Frontend.ChatPage

open JavaScript Memory Python

structure Message where
  role : MemoryRole
  content : Json
  thinking : Str := []

/-- `{ role: m.role, content: m.content }` -/
structure HistoryItem where
  role : MemoryRole
  content : Json

def Message.item (message : Message) : HistoryItem := ⟨message.role, message.content⟩

/-- `ChatHistoryItem` accepts the item: its content is a string of length 1 at least. -/
def HistoryItem.Accepted (item : HistoryItem) : Prop :=
  ∃ text, item.content = .str text ∧ 1 ≤ text.length

instance : DecidablePred HistoryItem.Accepted := fun item =>
  match content : item.content with
  | .str text => decidable_of_iff (1 ≤ text.length) (by simp [HistoryItem.Accepted, content])
  | .null | .bool _ | .int _ | .float _ | .arr _ | .obj _ =>
    isFalse (by simp [HistoryItem.Accepted, content])

/-- The body of a request. -/
structure ChatBody where
  conversationId : Json
  message : Str
  history : List HistoryItem

/-- `answer` is the `assistantMessage` of the call under way and `attached` tells whether it is still
among the messages; `messages` are the others. `requests` are the bodies sent so far. -/
structure Page where
  messages : List Message := []
  answer : Option Message := none
  attached : Bool := false
  conversationId : Json := .str []
  storedMessages : Option (List Message) := none
  storedConversationId : Option Str := none
  requests : List ChatBody := []

/-- `data[key] === value` -/
def fieldIs (data : Json) (key value : String) : Bool :=
  match data.field key with
  | some (.str text) => text == Str.lit value
  | _ => false

def isNull : Json → Bool
  | .null => true
  | _ => false

def stopped : Json := .text "本次回答已停止。"

namespace Page

variable (numbers : Numbers)

/-- `persistMessages` -/
def persistMessages (s : Page) : Page :=
  { s with storedMessages := some (s.messages ++ if s.attached then s.answer.toList else []) }

/-- `sendMessage` up to the `fetch`. -/
def sendMessage (s : Page) (inputText : Str) : Page :=
  let content := trim inputText
  if content.isEmpty || s.answer.isSome then s
  else
    let messages := s.messages ++ [{ role := .user, content := .str content }]
    let history := (messages.drop (messages.length - 10)).map Message.item
    let s := { s with messages, answer := some { role := .assistant, content := .str [] },
                      attached := true }
    { s.persistMessages with requests := s.requests ++ [⟨s.conversationId, content, history⟩] }

/-- The `finally` block of `sendMessage`. -/
def finish (s : Page) (answer : Message) : Page :=
  let answer := if !truthy answer.content && answer.thinking.isEmpty then
      { answer with content := stopped } else answer
  let messages := s.messages ++ if s.attached then [answer] else []
  persistMessages { s with messages, answer := none, attached := false }

/-- The `catch` block for anything but an `AbortError`, and the `finally` block. -/
def fail (s : Page) (answer : Message) : Page :=
  let unavailable := Json.text "AI 流式聊天暂时不可用，请稍后重试。"
  s.finish { answer with content := orElse (some answer.content) unavailable }

/-- The branches of `handleStreamEvent`, with false where one raises a `TypeError`. -/
def handle (s : Page) (answer : Message) (eventName : Str) (data : Json) : Page × Bool :=
  let set (content : Json) : Page := { s with answer := some { answer with content } }
  if eventName = Str.lit "meta" then
    match data.field "conversationId" with
    | some conversationId =>
      if truthy conversationId then
        let s := { s with conversationId }
        match text numbers conversationId with
        | some stored => ({ s with storedConversationId := some stored }, true)
        | none => (s, false)
      else (s, true)
    | none => (s, !isNull data)
  else if eventName = Str.lit "message" then
    let delta := orElse (data.field "delta") (.str [])
    if fieldIs data "type" "think" then
      match text numbers delta with
      | some more =>
        ({ s with answer := some { answer with thinking := answer.thinking ++ more } }, true)
      | none => (s, false)
    else if fieldIs data "type" "response" then
      match add numbers answer.content delta with
      | some content => (set content, true)
      | none => (s, false)
    else (s, !isNull data)
  else if eventName = Str.lit "reject" then
    if isNull data then (s, false)
    else
      let busy := Json.text "系统繁忙，请稍后重试。"
      match add numbers answer.content (orElse (data.field "delta")
          (orElse (data.field "message") busy)) with
      | some content => (set content, true)
      | none => (s, false)
  else if eventName = Str.lit "finish" then (s, !isNull data)
  else if eventName = Str.lit "error" then
    if truthy answer.content then (s, true)
    else if isNull data then (s, false)
    else (set (orElse (data.field "message") (.text "AI 流式回答失败。")), true)
  else if eventName = Str.lit "cancel" then
    if isNull data then (s, false) else (set (orElse (some answer.content) stopped), true)
  else (s, true)

/-- `startNewChat`, and `clearChat` once it is confirmed. -/
def clear (s : Page) : Page :=
  { s with
    messages := []
    attached := false
    conversationId := .str []
    storedMessages := none
    storedConversationId := none }

/-- The page is left and `created` again. -/
def reload (s : Page) : Page where
  messages := s.storedMessages.getD []
  conversationId := .str (s.storedConversationId.getD [])
  storedMessages := s.storedMessages
  storedConversationId := s.storedConversationId
  requests := s.requests

end Page

inductive PageEvent where
  | send (inputText : Str)
  /-- `handleStreamEvent` acts on an event of the response -/
  | event (eventName : Str) (data : Json)
  /-- the response has ended -/
  | done
  /-- the request is refused, or it or its response breaks off -/
  | fail
  /-- `cancelStream` aborts the request -/
  | abort
  | clear
  | reload

def pageStep (numbers : Numbers) (s : Page) : PageEvent → Option Page
  | .send inputText => some (s.sendMessage inputText)
  | .event eventName data => s.answer.map fun answer =>
    let (s, handled) := s.handle numbers answer eventName data
    if handled then s else s.fail answer
  | .done | .abort => s.answer.map s.finish
  | .fail => s.answer.map s.fail
  | .clear => some s.clear
  | .reload => some s.reload

end HeyeeAgent.Frontend.ChatPage
