import HeyeeAgent.Machine.Run
import HeyeeAgent.Memory.ConversationMemoryService

/-! # Appends and compressions of one conversation

Any number of tasks append messages to a conversation of a user or run `compress_if_needed` for it.
Each query and each transaction is one step, except that an insert takes the time of its start and
appears with its commit. The lock may be granted to several runs at once, as without Redis or after
its time to live.
-/

namespace HeyeeAgent.Memory

open Python Machine

/-- What a run has of the summary that it read: beside the summary, the messages that were visible
and the messages that were summarised in it. -/
structure SummaryRead where
  summary : Option MemorySummary
  seen : List MessageRow
  chain : List (List MemoryMessage)
deriving DecidableEq

def SummaryRead.lastMessageId (read : SummaryRead) : Option Str :=
  read.summary.map MemorySummary.lastMessageId

inductive Task where
  /-- `append` before its first transaction. -/
  | appending (messageId : Str) (role : MemoryRole) (content : Str)
  /-- The row of the conversation is stored. -/
  | saved (messageId : Str) (role : MemoryRole) (content : Str)
  /-- The transaction of the message is open. -/
  | inserting (row : MessageRow)
  /-- `compress_if_needed` before its lock. -/
  | compressing
  | locked
  | summaryRead (read : SummaryRead)
  /-- `summarize` runs on the messages that were listed, normalised. -/
  | summarising (read : SummaryRead) (listed : List MemoryMessage)
  | storing (read : SummaryRead) (listed : List MemoryMessage) (content : Str)
deriving DecidableEq

/-- The tables, the time, the tasks and, as history, the lists that were given to `summarize` on the
way to the current summary. -/
structure State (N : Type) where
  tables : Tables
  clock : ℕ := 0
  tasks : N → Option Task := fun _ => none
  chain : List (List MemoryMessage) := []

inductive Event (N : Type) where
  | tick
  | append (n : N) (messageId : Str) (role : MemoryRole) (content : Str)
  | saveConversation (n : N) (rowId : Str)
  | openInsert (n : N)
  | commitInsert (n : N)
  | compress (n : N)
  | acquire (n : N) (granted : Bool)
  | readSummary (n : N)
  | listMessages (n : N) (rows : List MessageRow)
  | summarize (n : N) (content : Str)
  | storeSummary (n : N) (summaryId : Str)
  /-- A query, a transaction or the model fails, or the task is cancelled. -/
  | fail (n : N)

/-- Rows as a query ordered by `create_time` returns them, ties in any order. -/
def Listing (rows selected : List MessageRow) : Prop :=
  rows.Perm selected ∧ rows.Pairwise fun row other => row.createTime ≤ other.createTime

instance (rows selected : List MessageRow) : Decidable (Listing rows selected) :=
  inferInstanceAs (Decidable (_ ∧ _))

namespace State

variable {N : Type} [DecidableEq N]

def set (s : State N) (n : N) (task : Task) : State N :=
  { s with tasks := Function.update s.tasks n (some task) }

def finish (s : State N) (n : N) : State N :=
  { s with tasks := Function.update s.tasks n none }

theorem set_tasks (s : State N) (n : N) (task : Task) :
    (s.set n task).tasks = Function.update s.tasks n (some task) := rfl

theorem finish_tasks (s : State N) (n : N) :
    (s.finish n).tasks = Function.update s.tasks n none := rfl

def step (service : ConversationMemoryService) (conversationId userId : Str) (s : State N) :
    Event N → Option (State N)
  | .tick => some { s with clock := s.clock + 1 }
  | .append n messageId role content =>
    if s.tasks n = none ∧ messageId ≠ [] then some (s.set n (.appending messageId role content))
    else none
  | .saveConversation n rowId =>
    match s.tasks n with
    | some (.appending messageId role content) =>
      some { s.set n (.saved messageId role content) with
        tables := s.tables.createOrUpdateConversation s.clock rowId conversationId userId
          (appendTitle content) }
    | _ => none
  | .openInsert n =>
    match s.tasks n with
    | some (.saved messageId role content) =>
      some (s.set n (.inserting
        (Tables.insertedMessage s.clock messageId conversationId userId role content)))
    | _ => none
  | .commitInsert n =>
    match s.tasks n with
    | some (.inserting row) =>
      -- `id` is the primary key
      if ∀ other ∈ s.tables.messages, other.id ≠ row.id then
        some { s.finish n with tables := s.tables.insertMessage row }
      else none
    | _ => none
  | .compress n =>
    if s.tasks n = none then
      some (if service.summaryEnabled then s.set n .compressing else s)
    else none
  | .acquire n granted =>
    match s.tasks n with
    | some .compressing => some (if granted then s.set n .locked else s.finish n)
    | _ => none
  | .readSummary n =>
    match s.tasks n with
    | some .locked => some (s.set n (.summaryRead {
        summary := s.tables.getLatestSummary conversationId userId
        seen := s.tables.visible conversationId userId
        chain := s.chain }))
    | _ => none
  | .listMessages n rows =>
    match s.tasks n with
    | some (.summaryRead read) =>
      if Listing rows (s.tables.rowsAfter conversationId userId read.lastMessageId) then
        let listed := rows.map MessageRow.toMessage
        let pending := normalizeHistory listed
        some (if pending = [] ∨ service.shouldCompress pending = false then s.finish n
          else s.set n (.summarising read listed))
      else none
    | _ => none
  | .summarize n content =>
    match s.tasks n with
    | some (.summarising read listed) =>
      some (if content = [] then s.finish n else s.set n (.storing read listed content))
    | _ => none
  | .storeSummary n summaryId =>
    match s.tasks n with
    | some (.storing read listed content) =>
      let pending := normalizeHistory listed
      pending.getLast?.map fun last => { s.finish n with
        tables := s.tables.upsertSummary s.clock summaryId conversationId userId last.id content
        chain := read.chain ++ [pending] }
    | _ => none
  | .fail n => if s.tasks n = none then none else some (s.finish n)

/-- The last message of the current summary. -/
def watermark (conversationId userId : Str) (s : State N) : Option Str :=
  (s.tables.getLatestSummary conversationId userId).map MemorySummary.lastMessageId

/-- Every message is either still listed after the current summary or summarised in it. -/
def Kept (conversationId userId : Str) (s : State N) : Prop :=
  ∀ row ∈ s.tables.visible conversationId userId,
    row.toMessage ∈ s.tables.listMessagesAfter conversationId userId
        (s.watermark conversationId userId) ∨
      ∃ pending ∈ s.chain, row.toMessage ∈ pending

instance (conversationId userId : Str) (s : State N) :
    Decidable (s.Kept conversationId userId) :=
  inferInstanceAs (Decidable (∀ row ∈ _, _ ∨ ∃ pending ∈ _, _))

/-- A message commits with a time after the last message of the current summary. A run that stores a
summary was given a list that starts with a message of the user, and every message that was not
there when it read the previous summary is in that list or later than its last message. -/
def Meets (conversationId userId : Str) (s : State N) : Event N → Prop
  | .commitInsert n =>
    match s.tasks n with
    | some (.inserting row) => ∀ last ∈ s.tables.visible conversationId userId,
        s.watermark conversationId userId = some last.id → last.createTime < row.createTime
    | _ => True
  | .storeSummary n _ =>
    match s.tasks n with
    | some (.storing read listed _) =>
      (∀ first ∈ listed.head?, first.role = .user) ∧
        ∀ row ∈ s.tables.visible conversationId userId, row ∉ read.seen →
          row.toMessage ∈ listed ∨ ∀ last ∈ listed.getLast?, last.createTime < row.createTime
    | _ => True
  | _ => True

instance (conversationId userId : Str) (s : State N) (e : Event N) :
    Decidable (s.Meets conversationId userId e) := by
  unfold Meets
  split
  · split <;> infer_instance
  · split <;> infer_instance
  · infer_instance

/-- Tables in which the conversation is not summarised yet. -/
structure Start (conversationId userId : Str) (tables : Tables) : Prop where
  ids : ((tables.visible conversationId userId).map fun row => row.id).Nodup
  named : ∀ row ∈ tables.visible conversationId userId, row.id ≠ []
  unsummarised : ∀ row ∈ tables.summaries, row.shows conversationId userId = false

end State

end HeyeeAgent.Memory
