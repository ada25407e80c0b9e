import HeyeeAgent.Python.Text
import Mathlib.Data.List.Sort

/-! # The tables of the conversation memory

The rows of conversations, messages and summaries, and the transactions on them. Every row belongs to
a user's conversation and is deleted by a flag. The time of a transaction is the time of its start.
-/

namespace HeyeeAgent.Memory

open Python

inductive MemoryRole where
  | user
  | assistant
deriving DecidableEq

/-- The columns that the three tables share. -/
structure OwnedRow where
  id : Str
  conversationId : Str
  userId : Str
  updateTime : ℕ
  deleted : Bool := false
deriving DecidableEq

/-- A row of `t_conversation`. -/
structure ConversationRow extends OwnedRow where
  title : Str
  lastTime : ℕ
deriving DecidableEq

/-- A row of `t_message`. -/
structure MessageRow extends OwnedRow where
  role : MemoryRole
  content : Str
  createTime : ℕ
deriving DecidableEq

/-- A row of `t_conversation_summary`. -/
structure SummaryRow extends OwnedRow where
  lastMessageId : Str
  content : Str
deriving DecidableEq

structure MemoryMessage where
  id : Str
  role : MemoryRole
  content : Str
  createTime : ℕ
deriving DecidableEq

structure MemorySummary where
  id : Str
  conversationId : Str
  userId : Str
  lastMessageId : Str
  content : Str
deriving DecidableEq

structure ConversationRecord where
  conversationId : Str
  title : Str
  lastTime : ℕ
  updateTime : ℕ
deriving DecidableEq

structure Tables where
  conversations : List ConversationRow := []
  messages : List MessageRow := []
  summaries : List SummaryRow := []

/-- `conversation_id = :conversation_id AND user_id = :user_id`. -/
def OwnedRow.isOf (row : OwnedRow) (conversationId userId : Str) : Bool :=
  row.conversationId == conversationId && row.userId == userId

/-- The row of a user's conversation, not deleted. -/
def OwnedRow.shows (row : OwnedRow) (conversationId userId : Str) : Bool :=
  row.isOf conversationId userId && !row.deleted

@[simp] theorem OwnedRow.isOf_iff {row : OwnedRow} {conversationId userId : Str} :
    row.isOf conversationId userId = true ↔
      row.conversationId = conversationId ∧ row.userId = userId := by
  simp [isOf]

theorem OwnedRow.shows_iff {row : OwnedRow} {conversationId userId : Str} :
    row.shows conversationId userId = true ↔
      row.isOf conversationId userId = true ∧ row.deleted = false := by
  simp [shows]

def MessageRow.toMessage (row : MessageRow) : MemoryMessage where
  id := row.id
  role := row.role
  content := row.content
  createTime := row.createTime

def SummaryRow.toSummary (row : SummaryRow) : MemorySummary where
  id := row.id
  conversationId := row.conversationId
  userId := row.userId
  lastMessageId := row.lastMessageId
  content := row.content

def ConversationRow.toRecord (row : ConversationRow) : ConversationRecord where
  conversationId := row.conversationId
  title := row.title
  lastTime := row.lastTime
  updateTime := row.updateTime

namespace Tables

def createOrUpdateConversation (tables : Tables) (now : ℕ)
    (rowId conversationId userId title : Str) : Tables :=
  if tables.conversations.any fun row => row.isOf conversationId userId then
    { tables with conversations := tables.conversations.map fun row =>
        if row.isOf conversationId userId then { row with lastTime := now, updateTime := now }
        else row }
  else
    { tables with conversations := tables.conversations ++ [{
        id := rowId
        conversationId := conversationId
        userId := userId
        updateTime := now
        title := title.take 128
        lastTime := now }] }

/-- The message that `append_message` inserts. -/
def insertedMessage (now : ℕ) (messageId conversationId userId : Str) (role : MemoryRole)
    (content : Str) : MessageRow where
  id := messageId
  conversationId := conversationId
  userId := userId
  updateTime := now
  role := role
  content := content
  createTime := now

def insertMessage (tables : Tables) (row : MessageRow) : Tables :=
  { tables with messages := tables.messages ++ [row] }

def appendMessage (tables : Tables) (now : ℕ) (messageId conversationId userId : Str)
    (role : MemoryRole) (content : Str) : Tables :=
  tables.insertMessage (insertedMessage now messageId conversationId userId role content)

def getLatestSummary (tables : Tables) (conversationId userId : Str) : Option MemorySummary :=
  (((tables.summaries.filter fun row => row.shows conversationId userId).mergeSort
    fun row other => other.updateTime ≤ row.updateTime).head?).map SummaryRow.toSummary

/-- The visible messages of a conversation, in the order of the table. -/
def visible (tables : Tables) (conversationId userId : Str) : List MessageRow :=
  tables.messages.filter fun row => row.shows conversationId userId

/-- `ORDER BY create_time ASC`, ties in the order of the table. -/
def byCreateTime (rows : List MessageRow) : List MessageRow :=
  rows.mergeSort fun row other => row.createTime ≤ other.createTime

def listRecentTurnMessages (tables : Tables) (conversationId userId : Str) (keepTurns : ℕ) :
    List MemoryMessage :=
  let recentUsers := ((((tables.visible conversationId userId).filter (·.role = .user)).map
    MessageRow.createTime).mergeSort fun time other => other ≤ time).take keepTurns
  let rows := (tables.visible conversationId userId).filter fun row =>
    match recentUsers.min? with
    | some cutoffTime => cutoffTime ≤ row.createTime
    | none => true
  (byCreateTime rows).map MessageRow.toMessage

/-- The time of the message that a summary ends at, if it is visible. -/
def watermarkTime (tables : Tables) (conversationId userId afterMessageId : Str) : Option ℕ :=
  ((tables.visible conversationId userId).find? fun row => row.id == afterMessageId).map
    MessageRow.createTime

/-- The rows that `list_messages_after` selects. Nothing is later than the time of a message that is
not there. -/
def rowsAfter (tables : Tables) (conversationId userId : Str) (afterMessageId : Option Str) :
    List MessageRow :=
  match afterMessageId with
  | none | some [] => tables.visible conversationId userId
  | some messageId => (tables.visible conversationId userId).filter fun row =>
      match tables.watermarkTime conversationId userId messageId with
      | some time => time < row.createTime
      | none => false

def listMessagesAfter (tables : Tables) (conversationId userId : Str)
    (afterMessageId : Option Str) : List MemoryMessage :=
  (byCreateTime (tables.rowsAfter conversationId userId afterMessageId)).map MessageRow.toMessage

def listConversations (tables : Tables) (userId : Str) (limit : ℕ) : List ConversationRecord :=
  (((tables.conversations.filter fun row => row.userId == userId && !row.deleted).mergeSort
    fun row other => other.lastTime < row.lastTime ||
      other.lastTime == row.lastTime && other.updateTime ≤ row.updateTime).take limit).map
    ConversationRow.toRecord

def listConversationMessages (tables : Tables) (conversationId userId : Str) :
    List MemoryMessage :=
  (byCreateTime (tables.visible conversationId userId)).map MessageRow.toMessage

/-- `SET deleted = 1, update_time = CURRENT_TIMESTAMP` in the rows of the three tables whose
`conversation_id` and `user_id` meet the condition. -/
def softDelete (tables : Tables) (now : ℕ) (condition : Str → Str → Bool) : Tables where
  conversations := tables.conversations.map fun row =>
    if condition row.conversationId row.userId then { row with deleted := true, updateTime := now }
    else row
  messages := tables.messages.map fun row =>
    if condition row.conversationId row.userId then { row with deleted := true, updateTime := now }
    else row
  summaries := tables.summaries.map fun row =>
    if condition row.conversationId row.userId then { row with deleted := true, updateTime := now }
    else row

def deleteConversation (tables : Tables) (now : ℕ) (conversationId userId : Str) : Tables :=
  tables.softDelete now fun conversation user => conversation == conversationId && user == userId

def clearConversations (tables : Tables) (now : ℕ) (userId : Str) : Tables :=
  tables.softDelete now fun _ user => user == userId

def upsertSummary (tables : Tables) (now : ℕ)
    (summaryId conversationId userId lastMessageId content : Str) : Tables :=
  if tables.summaries.any fun row => row.shows conversationId userId then
    { tables with summaries := tables.summaries.map fun row =>
        if row.shows conversationId userId then
          { row with lastMessageId := lastMessageId, content := content, updateTime := now }
        else row }
  else
    { tables with summaries := tables.summaries ++ [{
        id := summaryId
        conversationId := conversationId
        userId := userId
        updateTime := now
        lastMessageId := lastMessageId
        content := content }] }

theorem mem_visible {tables : Tables} {conversationId userId : Str} {row : MessageRow} :
    row ∈ tables.visible conversationId userId ↔
      row ∈ tables.messages ∧ row.shows conversationId userId = true :=
  List.mem_filter

theorem mem_byCreateTime {rows : List MessageRow} {row : MessageRow} :
    row ∈ byCreateTime rows ↔ row ∈ rows :=
  (List.mergeSort_perm rows _).mem_iff

theorem pairwise_byCreateTime (rows : List MessageRow) :
    (byCreateTime rows).Pairwise fun row other => row.createTime ≤ other.createTime := by
  have sorted : (byCreateTime rows).Pairwise fun row other =>
      decide (row.createTime ≤ other.createTime) = true := by
    apply List.pairwise_mergeSort
    · intro a b c first second
      simp only [decide_eq_true_eq] at first second ⊢
      omega
    · intro a b
      simp only [Bool.or_eq_true, decide_eq_true_eq]
      omega
  exact sorted.imp of_decide_eq_true

theorem mem_visible_of_mem_rowsAfter {tables : Tables} {conversationId userId : Str}
    {afterMessageId : Option Str} {row : MessageRow}
    (listed : row ∈ tables.rowsAfter conversationId userId afterMessageId) :
    row ∈ tables.visible conversationId userId := by
  unfold rowsAfter at listed
  split at listed
  · exact listed
  · exact listed
  · exact List.mem_of_mem_filter listed

/-- Every message that a query lists is that of a visible row. -/
theorem exists_of_mem_listMessagesAfter {tables : Tables} {conversationId userId : Str}
    {afterMessageId : Option Str} {message : MemoryMessage}
    (listed : message ∈ tables.listMessagesAfter conversationId userId afterMessageId) :
    ∃ row ∈ tables.visible conversationId userId, row.toMessage = message := by
  obtain ⟨row, member, same⟩ := List.mem_map.mp listed
  exact ⟨row, mem_visible_of_mem_rowsAfter (mem_byCreateTime.mp member), same⟩

theorem exists_of_mem_listRecentTurnMessages {tables : Tables} {conversationId userId : Str}
    {keepTurns : ℕ} {message : MemoryMessage}
    (listed : message ∈ tables.listRecentTurnMessages conversationId userId keepTurns) :
    ∃ row ∈ tables.visible conversationId userId, row.toMessage = message := by
  obtain ⟨row, member, same⟩ := List.mem_map.mp listed
  exact ⟨row, List.mem_of_mem_filter (mem_byCreateTime.mp member), same⟩

theorem exists_of_mem_listConversationMessages {tables : Tables} {conversationId userId : Str}
    {message : MemoryMessage}
    (listed : message ∈ tables.listConversationMessages conversationId userId) :
    ∃ row ∈ tables.visible conversationId userId, row.toMessage = message := by
  obtain ⟨row, member, same⟩ := List.mem_map.mp listed
  exact ⟨row, mem_byCreateTime.mp member, same⟩

/-- The latest summary is that of a row that is not deleted. -/
theorem exists_of_getLatestSummary {tables : Tables} {conversationId userId : Str}
    {summary : MemorySummary} (found : tables.getLatestSummary conversationId userId = some summary) :
    ∃ row ∈ tables.summaries, row.shows conversationId userId = true ∧
      row.toSummary = summary := by
  obtain ⟨row, first, same⟩ := Option.map_eq_some_iff.mp found
  have member := (List.mergeSort_perm _ _).mem_iff.mp (List.mem_of_head? first)
  obtain ⟨stored, shown⟩ := List.mem_filter.mp member
  exact ⟨row, stored, shown, same⟩

end Tables

end HeyeeAgent.Memory
