import HeyeeAgent.Memory.ConversationMemoryService

/-! # The memory in a prompt

`prepare` puts the conversation so far between the system prompt and the question. It comes from the
tables, where the question is appended once they are read, or from the history of the request when
there is no memory service. What is retrieved for the question is part of the plan.
-/

namespace HeyeeAgent.Memory

open Python

section Prompt

inductive PromptRole where
  | system
  | user
  | assistant
deriving DecidableEq

structure PromptMessage where
  role : PromptRole
  content : Str
deriving DecidableEq

/-- What the messages take from the plan. -/
structure PromptBuildPlan where
  systemPrompt : Str
  userContent : Str

def MemoryRole.toPrompt : MemoryRole → PromptRole
  | .user => .user
  | .assistant => .assistant

def MemoryMessage.toPrompt (message : MemoryMessage) : PromptMessage where
  role := message.role.toPrompt
  content := message.content

def MemoryContext.toPromptMessages (context : MemoryContext) : List PromptMessage :=
  let summary := (context.summary.map fun summary => Str.strip summary.content).filter (· ≠ [])
  (summary.map fun content => ⟨.system, Str.lit "对话摘要：" ++ content⟩).toList ++
    context.messages.map MemoryMessage.toPrompt

def buildMessagesFromPlan (memoryContext : MemoryContext) (plan : PromptBuildPlan) :
    List PromptMessage :=
  ⟨.system, plan.systemPrompt⟩ :: memoryContext.toPromptMessages ++ [⟨.user, plan.userContent⟩]

theorem buildMessagesFromPlan_messages (messages : List MemoryMessage) (plan : PromptBuildPlan) :
    buildMessagesFromPlan { messages } plan =
      ⟨.system, plan.systemPrompt⟩ :: messages.map MemoryMessage.toPrompt ++
        [⟨.user, plan.userContent⟩] := rfl

end Prompt

section Request

structure ChatHistoryItem where
  role : MemoryRole
  content : Str
  nonempty : 1 ≤ content.length

def ChatHistoryItem.toPrompt (item : ChatHistoryItem) : PromptMessage where
  role := item.role.toPrompt
  content := item.content

/-- What `prepare` reads of a request for its memory. -/
structure ChatRequest where
  conversationId : Option Str := none
  message : Str
  history : List ChatHistoryItem := []

def ChatHistoryItem.toMessage (index : ℕ) (item : ChatHistoryItem) : MemoryMessage where
  id := Str.lit "request_" ++ Str.lit (toString index)
  role := item.role
  content := item.content
  -- `None` in the source, which nothing reads
  createTime := 0

/-- `_context_from_request_history` -/
def contextFromRequestHistory (request : ChatRequest) : MemoryContext where
  messages := (request.history.drop (request.history.length - 10)).mapIdx ChatHistoryItem.toMessage

/-- `request.conversationId`, or the one drawn. -/
def ChatRequest.conversation (request : ChatRequest) (drawn : Str) : Str :=
  (request.conversationId.filter (· ≠ [])).getD drawn

end Request

section Prepare

/-- The memory service with what its tables hold, and the identifiers and times of one `append`. -/
structure PersistentMemory where
  service : ConversationMemoryService
  tables : Tables
  rowId : Str
  messageId : Str
  rowTime : ℕ
  messageTime : ℕ

def loadAndAppend (memory : PersistentMemory) (conversationId userId content : Str) :
    MemoryContext × Tables :=
  (memory.service.load memory.tables conversationId userId,
    memory.tables.append memory.rowId memory.messageId memory.rowTime memory.messageTime
      conversationId userId .user content)

variable (plan : MemoryContext → PromptBuildPlan) (drawn userId : Str) (request : ChatRequest)

/-- The memory context of `prepare`, and the tables after it. There is a memory if `memory_enabled` is
set and the memory service is found. -/
def memoryContext : Option PersistentMemory → MemoryContext × Option Tables
  | some memory =>
    let (context, tables) :=
      loadAndAppend memory (request.conversation drawn) userId request.message
    (context, some tables)
  | none => (contextFromRequestHistory request, none)

/-- The messages that `prepare` builds. The plan follows from the question and what intent recognition
and retrieval make of it with the context. -/
def prepare (memory : Option PersistentMemory) : List PromptMessage :=
  let context := (memoryContext drawn userId request memory).1
  buildMessagesFromPlan context (plan context)

end Prepare

namespace ConversationMemoryService

/-- All that is visible is within the limits of the service, which makes no summaries. -/
structure Fits (service : ConversationMemoryService) (messages : List MemoryMessage) : Prop where
  summaries : service.summaryEnabled = false
  turns : countPendingUserTurns messages ≤ service.historyKeepTurns
  chars : (messages.flatMap MemoryMessage.content).length ≤ service.maxContextChars

variable {service : ConversationMemoryService} {tables : Tables} {conversationId userId : Str}

/-- Where every turn is kept and the user has spoken first, the recent turns are the conversation. -/
theorem listRecentTurnMessages_eq {keepTurns : ℕ}
    (turns : countPendingUserTurns (tables.listConversationMessages conversationId userId) ≤
      keepTurns)
    (starts : ∀ first ∈ (tables.listConversationMessages conversationId userId).head?,
      first.role = .user) :
    tables.listRecentTurnMessages conversationId userId keepTurns =
      tables.listConversationMessages conversationId userId := by
  unfold Tables.listRecentTurnMessages Tables.listConversationMessages
  dsimp only
  congr 2
  rw [List.filter_eq_self]
  intro row visible
  have all : ((((tables.visible conversationId userId).filter (·.role = .user)).map
      MessageRow.createTime).mergeSort fun time other => other ≤ time).length ≤ keepTurns := by
    rw [List.length_mergeSort, List.length_map, ← List.countP_eq_length_filter]
    apply le_of_eq_of_le _ turns
    unfold Tables.listConversationMessages countPendingUserTurns
    rw [List.countP_map]
    exact ((List.mergeSort_perm _ _).countP_eq _).symm
  split
  · next cutoffTime least =>
    rw [List.take_of_length_le all] at least
    obtain ⟨-, lower⟩ := List.min?_eq_some_iff.mp least
    have listed : row ∈ Tables.byCreateTime (tables.visible conversationId userId) :=
      Tables.mem_byCreateTime.mpr visible
    cases rows : Tables.byCreateTime (tables.visible conversationId userId) with
    | nil =>
      rw [rows] at listed
      exact absurd listed List.not_mem_nil
    | cons first later =>
      have earliest : first.createTime ≤ row.createTime := by
        have sorted := Tables.pairwise_byCreateTime (tables.visible conversationId userId)
        rw [rows] at sorted listed
        rcases List.mem_cons.mp listed with rfl | after
        · exact le_refl _
        · exact (List.pairwise_cons.mp sorted).1 row after
      have user : first.role = .user := starts first.toMessage (by
        rw [Tables.listConversationMessages, rows]
        rfl)
      apply decide_eq_true
      apply le_trans (lower first.createTime _) earliest
      have shown : first ∈ tables.visible conversationId userId :=
        Tables.mem_byCreateTime.mp (rows ▸ List.mem_cons_self)
      rw [List.mem_mergeSort]
      exact List.mem_map_of_mem (List.mem_filter.mpr ⟨shown, decide_eq_true user⟩)
  · rfl

theorem load_eq (fits : service.Fits (tables.listConversationMessages conversationId userId))
    (starts : ∀ first ∈ (tables.listConversationMessages conversationId userId).head?,
      first.role = .user) :
    service.load tables conversationId userId =
      { messages := tables.listConversationMessages conversationId userId } := by
  unfold load
  rw [if_neg (by rw [fits.summaries]; exact Bool.false_ne_true),
    listRecentTurnMessages_eq fits.turns starts, trimMessagesToBudget_eq_self starts fits.chars]

end ConversationMemoryService

section Messages

/-- `[system, history..., user]` -/
def HasHistory (history messages : List PromptMessage) : Prop :=
  ∃ plan : PromptBuildPlan,
    messages = ⟨.system, plan.systemPrompt⟩ :: history ++ [⟨.user, plan.userContent⟩]

/-- Nothing else is the history of a list of messages. -/
theorem HasHistory.unique {history other messages : List PromptMessage}
    (has : HasHistory history messages) (hasOther : HasHistory other messages) :
    history = other := by
  obtain ⟨plan, rfl⟩ := has
  obtain ⟨otherPlan, same⟩ := hasOther
  rw [List.cons_append, List.cons_append] at same
  exact (List.append_inj' (List.cons.inj same).2 rfl).1

variable {plan : MemoryContext → PromptBuildPlan} {drawn userId : Str} {request : ChatRequest}

theorem map_toPrompt_mapIdx (items : List ChatHistoryItem) :
    (items.mapIdx ChatHistoryItem.toMessage).map MemoryMessage.toPrompt =
      items.map ChatHistoryItem.toPrompt := by
  apply List.ext_getElem
  · simp only [List.length_map, List.length_mapIdx]
  · intro index _ _
    rw [List.getElem_map, List.getElem_mapIdx, List.getElem_map]
    rfl

/-- A request with ten items at most gives all of them to the model. -/
theorem hasHistory_request (short : request.history.length ≤ 10) :
    HasHistory (request.history.map ChatHistoryItem.toPrompt)
      (prepare plan drawn userId request none) := by
  refine ⟨plan (contextFromRequestHistory request), ?_⟩
  unfold prepare memoryContext contextFromRequestHistory
  dsimp only
  rw [buildMessagesFromPlan_messages, Nat.sub_eq_zero_of_le short, List.drop_zero,
    map_toPrompt_mapIdx]

/-- A conversation within the limits is given to the model as it was before the question. -/
theorem hasHistory_persistent {memory : PersistentMemory} {conversation : List MemoryMessage}
    (stored : memory.tables.listConversationMessages (request.conversation drawn) userId =
      conversation)
    (fits : memory.service.Fits conversation)
    (starts : ∀ first ∈ conversation.head?, first.role = .user) :
    HasHistory (conversation.map MemoryMessage.toPrompt)
      (prepare plan drawn userId request (some memory)) := by
  subst stored
  refine ⟨plan (memoryContext drawn userId request (some memory)).1, ?_⟩
  unfold prepare memoryContext loadAndAppend
  dsimp only
  rw [ConversationMemoryService.load_eq fits starts, buildMessagesFromPlan_messages]

end Messages

end HeyeeAgent.Memory
