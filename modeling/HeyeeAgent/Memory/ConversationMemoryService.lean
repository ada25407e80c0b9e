import HeyeeAgent.Memory.ConversationMemoryRepository

/-! # The conversation memory

What a request reads of its conversation and what it appends to it. The messages that are read start
with one of the user and fit a budget of characters, up to the newest message.
-/

namespace HeyeeAgent.Memory

open Python

structure MemoryContext where
  summary : Option MemorySummary := none
  messages : List MemoryMessage := []

/-- The settings of `ConversationMemoryService`. -/
structure ConversationMemoryService where
  historyKeepTurns : ℕ
  summaryEnabled : Bool
  summaryBatchSize : ℕ
  maxContextChars : ℕ

def normalizeHistory (messages : List MemoryMessage) : List MemoryMessage :=
  messages.dropWhile fun message => message.role = .assistant

def countPendingUserTurns (messages : List MemoryMessage) : ℕ :=
  messages.countP fun message => message.role = .user

/-- The loop of `_trim_messages_to_budget` over the messages from the newest on. What it has selected
is kept oldest first. -/
def selectMessages (maxContextChars : ℕ) (selected : List MemoryMessage) (totalChars : ℕ) :
    List MemoryMessage → List MemoryMessage
  | [] => selected
  | message :: older =>
    let messageChars := message.content.length
    if selected ≠ [] ∧ maxContextChars < totalChars + messageChars then selected
    else selectMessages maxContextChars (message :: selected) (totalChars + messageChars) older

theorem normalizeHistory_suffix (messages : List MemoryMessage) :
    normalizeHistory messages <:+ messages :=
  List.dropWhile_suffix _

theorem normalizeHistory_eq_self {listed : List MemoryMessage}
    (starts : ∀ first ∈ listed.head?, first.role = .user) : normalizeHistory listed = listed := by
  cases listed with
  | nil => rfl
  | cons first rest =>
    have user := starts first rfl
    rw [normalizeHistory, List.dropWhile_cons_of_neg]
    rw [user]
    decide

theorem mem_selectMessages {maxContextChars totalChars : ℕ} {selected older : List MemoryMessage}
    {message : MemoryMessage}
    (member : message ∈ selectMessages maxContextChars selected totalChars older) :
    message ∈ selected ∨ message ∈ older := by
  induction older generalizing selected totalChars with
  | nil => exact .inl member
  | cons first older ih =>
    rw [selectMessages] at member
    split at member
    · exact .inl member
    · rcases ih member with chosen | left
      · rcases List.mem_cons.mp chosen with rfl | chosen
        · exact .inr List.mem_cons_self
        · exact .inl chosen
      · exact .inr (List.mem_cons_of_mem first left)

/-- Messages within the budget are all selected. -/
theorem selectMessages_eq {maxContextChars totalChars : ℕ} {selected older : List MemoryMessage}
    (fits : totalChars + (older.flatMap MemoryMessage.content).length ≤ maxContextChars) :
    selectMessages maxContextChars selected totalChars older = older.reverse ++ selected := by
  induction older generalizing selected totalChars with
  | nil => rfl
  | cons first older ih =>
    rw [List.flatMap_cons, List.length_append] at fits
    rw [selectMessages, if_neg (by omega), ih (by omega), List.reverse_cons, List.append_assoc]
    rfl

namespace ConversationMemoryService

def shouldCompress (service : ConversationMemoryService) (messages : List MemoryMessage) : Bool :=
  service.summaryBatchSize ≤ countPendingUserTurns messages

def trimMessagesToBudget (service : ConversationMemoryService) (messages : List MemoryMessage) :
    List MemoryMessage :=
  let normalized := normalizeHistory messages
  let trimmed := normalizeHistory (selectMessages service.maxContextChars [] 0 normalized.reverse)
  if trimmed ≠ [] then trimmed
  else (normalized.reverse.find? fun message => message.role = .user).toList

def load (service : ConversationMemoryService) (tables : Tables) (conversationId userId : Str) :
    MemoryContext :=
  if service.summaryEnabled then
    let summary := tables.getLatestSummary conversationId userId
    { summary := summary
      messages := service.trimMessagesToBudget (tables.listMessagesAfter conversationId userId
        (summary.map MemorySummary.lastMessageId)) }
  else
    { messages := service.trimMessagesToBudget
        (tables.listRecentTurnMessages conversationId userId service.historyKeepTurns) }

theorem mem_of_mem_trimMessagesToBudget {service : ConversationMemoryService}
    {messages : List MemoryMessage} {message : MemoryMessage}
    (member : message ∈ service.trimMessagesToBudget messages) : message ∈ messages := by
  apply (normalizeHistory_suffix messages).mem
  unfold trimMessagesToBudget at member
  dsimp only at member
  split at member
  · rcases mem_selectMessages ((normalizeHistory_suffix _).mem member) with none | chosen
    · exact absurd none List.not_mem_nil
    · exact List.mem_reverse.mp chosen
  · exact List.mem_reverse.mp (List.mem_of_find?_eq_some (Option.mem_toList.mp member))

/-- Messages that start with one of the user and fit the budget are not trimmed. -/
theorem trimMessagesToBudget_eq_self {service : ConversationMemoryService}
    {messages : List MemoryMessage} (starts : ∀ first ∈ messages.head?, first.role = .user)
    (fits : (messages.flatMap MemoryMessage.content).length ≤ service.maxContextChars) :
    service.trimMessagesToBudget messages = messages := by
  have selected : selectMessages service.maxContextChars [] 0 messages.reverse = messages := by
    rw [selectMessages_eq, List.reverse_reverse, List.append_nil]
    rwa [Nat.zero_add, (messages.reverse_perm.flatMap_right _).length_eq]
  unfold trimMessagesToBudget
  dsimp only
  rw [normalizeHistory_eq_self starts, selected, normalizeHistory_eq_self starts]
  cases messages with
  | nil => rfl
  | cons first rest => rfl

/-- A message in the context of a request is visible. -/
theorem exists_of_mem_load {service : ConversationMemoryService} {tables : Tables}
    {conversationId userId : Str} {message : MemoryMessage}
    (member : message ∈ (service.load tables conversationId userId).messages) :
    ∃ row ∈ tables.visible conversationId userId, row.toMessage = message := by
  unfold load at member
  split at member
  · exact Tables.exists_of_mem_listMessagesAfter (mem_of_mem_trimMessagesToBudget member)
  · exact Tables.exists_of_mem_listRecentTurnMessages (mem_of_mem_trimMessagesToBudget member)

end ConversationMemoryService

/-- The title that `append` gives a new conversation. -/
def appendTitle (content : Str) : Str :=
  match content.take 128 with
  | [] => .lit "new conversation"
  | title => title

/-- `append` with the two identifiers that it makes, its two transactions at the times given. -/
def Tables.append (tables : Tables) (rowId messageId : Str) (rowTime messageTime : ℕ)
    (conversationId userId : Str) (role : MemoryRole) (content : Str) : Tables :=
  (tables.createOrUpdateConversation rowTime rowId conversationId userId
    (appendTitle content)).appendMessage messageTime messageId conversationId userId role content

end HeyeeAgent.Memory
