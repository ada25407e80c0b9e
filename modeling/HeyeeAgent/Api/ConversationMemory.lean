import HeyeeAgent.Api.Chat
import HeyeeAgent.Machine.Isolation
import HeyeeAgent.Memory.ConversationMemoryService

/-! # The memory of each user

The endpoints of the conversation memory and the chats of all users read and write the same tables,
in the name of the user that the `X-User-Id` header names. Every query and every statement selects by
that user, so nobody sees what others do.
-/

namespace HeyeeAgent.Api.ConversationMemory

open Python Machine Memory Api.Chat

/-- The endpoints of the conversation memory. -/
inductive Route where
  | listConversations (limit : ℤ)
  | listConversationMessages (conversationId : Str)
  | deleteConversation (conversationId : Str)
  | clearConversations

/-- What a chat does with the memory of its user, one transaction each. -/
inductive Access where
  | listRecentTurnMessages (conversationId : Str) (keepTurns : ℕ)
  | getLatestSummary (conversationId : Str)
  | listMessagesAfter (conversationId : Str) (afterMessageId : Option Str)
  | createOrUpdateConversation (rowId conversationId title : Str)
  | appendMessage (messageId conversationId : Str) (role : MemoryRole) (content : Str)
  | upsertSummary (summaryId conversationId lastMessageId content : Str)

/-- A request to an endpoint with the `userId` of its query, or an access of a chat whose request came
with the `userId` of its body. -/
inductive Call where
  | endpoint (userId : String) (route : Route)
  | chat (userId : Option ℤ) (access : Access)

structure Request where
  header : Option String
  time : ℕ
  call : Call

inductive Reply where
  | rejected (error : HTTPException)
  /-- 422: a parameter is not valid. -/
  | invalid
  | conversations (records : List ConversationRecord)
  | messages (messages : List MemoryMessage)
  | summary (summary : Option MemorySummary)
  | done

section Service

variable (requireAuthenticatedUser : Bool)

/-- `resolve_request_user_id` -/
def resolveRequestUserId (userId : String) (header : Option String) :
    Except HTTPException String :=
  let authenticatedUserId := Python.strip (header.getD "")
  if authenticatedUserId ≠ "" ∧ authenticatedUserId ≠ userId then .error forbidden
  else if requireAuthenticatedUser ∧ authenticatedUserId = "" then
    .error ⟨401, "Missing authenticated user identity"⟩
  else if authenticatedUserId ≠ "" then .ok authenticatedUserId
  else .ok userId

/-- The handler of an endpoint, for its user -/
def handle (tables : Tables) (now : ℕ) (userId : Str) : Route → Tables × Reply
  | .listConversations limit =>
    if 1 ≤ limit ∧ limit ≤ 200 then
      (tables, .conversations (tables.listConversations userId limit.toNat))
    else (tables, .invalid)
  | .listConversationMessages conversationId =>
    (tables, .messages (tables.listConversationMessages conversationId userId))
  | .deleteConversation conversationId =>
    (tables.deleteConversation now conversationId userId, .done)
  | .clearConversations => (tables.clearConversations now userId, .done)

def perform (tables : Tables) (now : ℕ) (userId : Str) : Access → Tables × Reply
  | .listRecentTurnMessages conversationId keepTurns =>
    (tables, .messages (tables.listRecentTurnMessages conversationId userId keepTurns))
  | .getLatestSummary conversationId =>
    (tables, .summary (tables.getLatestSummary conversationId userId))
  | .listMessagesAfter conversationId afterMessageId =>
    (tables, .messages (tables.listMessagesAfter conversationId userId afterMessageId))
  | .createOrUpdateConversation rowId conversationId title =>
    (tables.createOrUpdateConversation now rowId conversationId userId title, .done)
  | .appendMessage messageId conversationId role content =>
    (tables.appendMessage now messageId conversationId userId role content, .done)
  | .upsertSummary summaryId conversationId lastMessageId content =>
    (tables.upsertSummary now summaryId conversationId userId lastMessageId content, .done)

/-- The user in whose name a request is served. -/
def Request.identity (request : Request) : Except Reply String :=
  match request.call with
  | .endpoint userId _ =>
    if userId = "" then .error .invalid
    else (resolveRequestUserId requireAuthenticatedUser userId request.header).mapError .rejected
  | .chat userId _ =>
    (withTrustedIdentity requireAuthenticatedUser userId request.header).mapError .rejected

def Request.caller (request : Request) : Option Str :=
  match request.identity requireAuthenticatedUser with
  | .ok userId => some (Str.lit userId)
  | .error _ => none

def serveFor (tables : Tables) (now : ℕ) (userId : Str) : Call → Tables × Reply
  | .endpoint _ route => handle tables now userId route
  | .chat _ access => perform tables now userId access

def serve (tables : Tables) (request : Request) : Tables × Reply :=
  match request.identity requireAuthenticatedUser with
  | .ok userId => serveFor tables request.time (Str.lit userId) request.call
  | .error reply => (tables, reply)

end Service

section Rows

/-- The rows of a user. -/
def rowsOf (userId : Str) (tables : Tables) : Tables where
  conversations := tables.conversations.filter fun row => row.userId = userId
  messages := tables.messages.filter fun row => row.userId = userId
  summaries := tables.summaries.filter fun row => row.userId = userId

variable {tables : Tables} {now : ℕ} {conversationId userId other : Str}

/-- A condition on rows that only those of a user meet. -/
theorem filter_own {row : Type} {owner : row → Str} {p : row → Bool} (rows : List row)
    (own : ∀ r, p r = true → owner r = userId) :
    (rows.filter fun r => owner r = userId).filter p = rows.filter p := by
  rw [List.filter_filter]
  congr 1
  funext r
  by_cases met : p r = true
  · simp [met, own r met]
  · simp [met]

theorem any_own {row : Type} {owner : row → Str} {p : row → Bool} (rows : List row)
    (own : ∀ r, p r = true → owner r = userId) :
    (rows.filter fun r => owner r = userId).any p = rows.any p := by
  rw [List.any_filter]
  congr 1
  funext r
  by_cases met : p r = true
  · simp [met, own r met]
  · simp [met]

/-- An update that leaves every row with its user. -/
theorem filter_update {row : Type} {owner : row → Str} {update : row → row} (rows : List row)
    (kept : ∀ r, owner (update r) = owner r) :
    (rows.map update).filter (fun r => owner r = userId) =
      (rows.filter fun r => owner r = userId).map update := by
  rw [List.filter_map]
  congr 2
  funext r
  simp [kept]

/-- An update of the rows of others. -/
theorem map_foreign {row : Type} {owner : row → Str} {update : row → row} (rows : List row)
    (same : ∀ r, owner r = userId → update r = r) :
    (rows.filter fun r => owner r = userId).map update =
      rows.filter fun r => owner r = userId := by
  conv_rhs => rw [← List.map_id (rows.filter fun r => owner r = userId)]
  refine List.map_congr_left fun r member => same r ?_
  simpa using (List.mem_filter.mp member).2

theorem user_of_shows {row : OwnedRow} (shown : row.shows conversationId userId = true) :
    row.userId = userId :=
  (OwnedRow.isOf_iff.mp (OwnedRow.shows_iff.mp shown).1).2

theorem user_of_isOf {row : OwnedRow} (owned : row.isOf conversationId userId = true) :
    row.userId = userId :=
  (OwnedRow.isOf_iff.mp owned).2

theorem rowsOf_rowsOf (userId : Str) (tables : Tables) :
    rowsOf userId (rowsOf userId tables) = rowsOf userId tables := by
  simp only [rowsOf, List.filter_filter, Bool.and_self]

end Rows

section Queries

variable (tables : Tables) (conversationId userId : Str)

@[simp] theorem visible_rowsOf :
    (rowsOf userId tables).visible conversationId userId =
      tables.visible conversationId userId :=
  filter_own _ fun _ => user_of_shows

@[simp] theorem getLatestSummary_rowsOf :
    (rowsOf userId tables).getLatestSummary conversationId userId =
      tables.getLatestSummary conversationId userId := by
  have selected : (rowsOf userId tables).summaries.filter
      (fun row => row.shows conversationId userId) =
        tables.summaries.filter fun row => row.shows conversationId userId :=
    filter_own _ fun _ => user_of_shows
  unfold Tables.getLatestSummary
  rw [selected]

@[simp] theorem listRecentTurnMessages_rowsOf (keepTurns : ℕ) :
    (rowsOf userId tables).listRecentTurnMessages conversationId userId keepTurns =
      tables.listRecentTurnMessages conversationId userId keepTurns := by
  unfold Tables.listRecentTurnMessages
  rw [visible_rowsOf]

@[simp] theorem listMessagesAfter_rowsOf (afterMessageId : Option Str) :
    (rowsOf userId tables).listMessagesAfter conversationId userId afterMessageId =
      tables.listMessagesAfter conversationId userId afterMessageId := by
  unfold Tables.listMessagesAfter Tables.rowsAfter Tables.watermarkTime
  rw [visible_rowsOf]

@[simp] theorem listConversations_rowsOf (limit : ℕ) :
    (rowsOf userId tables).listConversations userId limit =
      tables.listConversations userId limit := by
  have selected : (rowsOf userId tables).conversations.filter
      (fun row => row.userId == userId && !row.deleted) =
        tables.conversations.filter fun row => row.userId == userId && !row.deleted :=
    filter_own _ fun row met => by simpa using (Bool.and_eq_true_iff.mp met).1
  unfold Tables.listConversations
  rw [selected]

@[simp] theorem listConversationMessages_rowsOf :
    (rowsOf userId tables).listConversationMessages conversationId userId =
      tables.listConversationMessages conversationId userId := by
  unfold Tables.listConversationMessages
  rw [visible_rowsOf]

end Queries

section Statements

variable (tables : Tables) (now : ℕ) (conversationId : Str) {userId other : Str}

theorem rowsOf_softDelete (condition : Str → Str → Bool) :
    rowsOf userId (tables.softDelete now condition) =
      (rowsOf userId tables).softDelete now condition := by
  unfold rowsOf Tables.softDelete
  congr 1
  all_goals
    refine filter_update _ fun row => ?_
    split <;> rfl

/-- A deletion that no row of the user meets. -/
theorem softDelete_rowsOf {condition : Str → Str → Bool}
    (unmet : ∀ conversation, condition conversation userId = false) :
    (rowsOf userId tables).softDelete now condition = rowsOf userId tables := by
  unfold rowsOf Tables.softDelete
  congr 1
  all_goals
    refine map_foreign _ fun row owned => ?_
    rw [owned, unmet, if_neg Bool.false_ne_true]

theorem rowsOf_createOrUpdateConversation (rowId title : Str) :
    rowsOf userId (tables.createOrUpdateConversation now rowId conversationId userId title) =
      (rowsOf userId tables).createOrUpdateConversation now rowId conversationId userId title := by
  have present : (rowsOf userId tables).conversations.any
      (fun row => row.isOf conversationId userId) =
        tables.conversations.any fun row => row.isOf conversationId userId :=
    any_own _ fun _ => user_of_isOf
  unfold Tables.createOrUpdateConversation
  rw [present]
  split
  · unfold rowsOf
    congr 1
    refine filter_update _ fun row => ?_
    split <;> rfl
  · unfold rowsOf
    simp only [List.filter_append, decide_true, List.filter_cons_of_pos, List.filter_nil]

/-- The row of a conversation of another user. -/
theorem createOrUpdateConversation_foreign (foreign : other ≠ userId) (rowId title : Str) :
    rowsOf userId (tables.createOrUpdateConversation now rowId conversationId other title) =
      rowsOf userId tables := by
  unfold Tables.createOrUpdateConversation
  split
  · unfold rowsOf
    congr 1
    rw [filter_update]
    · refine map_foreign _ fun row owned => if_neg fun met => foreign ?_
      rw [← owned, user_of_isOf met]
    · intro row
      split <;> rfl
  · unfold rowsOf
    simp [foreign]

theorem rowsOf_upsertSummary (summaryId lastMessageId content : Str) :
    rowsOf userId (tables.upsertSummary now summaryId conversationId userId lastMessageId content) =
      (rowsOf userId tables).upsertSummary now summaryId conversationId userId lastMessageId
        content := by
  have present : (rowsOf userId tables).summaries.any
      (fun row => row.shows conversationId userId) =
        tables.summaries.any fun row => row.shows conversationId userId :=
    any_own _ fun _ => user_of_shows
  unfold Tables.upsertSummary
  rw [present]
  split
  · unfold rowsOf
    congr 1
    refine filter_update _ fun row => ?_
    split <;> rfl
  · unfold rowsOf
    simp only [List.filter_append, decide_true, List.filter_cons_of_pos, List.filter_nil]

theorem upsertSummary_foreign (foreign : other ≠ userId) (summaryId lastMessageId content : Str) :
    rowsOf userId (tables.upsertSummary now summaryId conversationId other lastMessageId content) =
      rowsOf userId tables := by
  unfold Tables.upsertSummary
  split
  · unfold rowsOf
    congr 1
    rw [filter_update]
    · refine map_foreign _ fun row owned => if_neg fun met => foreign ?_
      rw [← owned, user_of_shows met]
    · intro row
      split <;> rfl
  · unfold rowsOf
    simp [foreign]

end Statements

section Isolation

variable (requireAuthenticatedUser : Bool) {tables : Tables} {now : ℕ} {userId other : Str}

/-- What a user asks for is answered from their rows, and changes them as it would alone. -/
theorem serveFor_own (tables : Tables) (now : ℕ) (userId : Str) (call : Call) :
    (serveFor tables now userId call).2 = (serveFor (rowsOf userId tables) now userId call).2 ∧
      rowsOf userId (serveFor tables now userId call).1 =
        (serveFor (rowsOf userId tables) now userId call).1 := by
  cases call with
  | endpoint query route =>
    cases route with
    | listConversations limit =>
      simp only [serveFor, handle]
      split <;> simp
    | listConversationMessages conversationId => simp [serveFor, handle]
    | deleteConversation conversationId => exact ⟨rfl, rowsOf_softDelete tables now _⟩
    | clearConversations => exact ⟨rfl, rowsOf_softDelete tables now _⟩
  | chat body access =>
    cases access with
    | createOrUpdateConversation rowId conversationId title =>
      exact ⟨rfl, rowsOf_createOrUpdateConversation ..⟩
    | appendMessage messageId conversationId role content =>
      refine ⟨rfl, ?_⟩
      simp [serveFor, perform, rowsOf, Tables.appendMessage, Tables.insertMessage,
        Tables.insertedMessage]
    | upsertSummary summaryId conversationId lastMessageId content =>
      exact ⟨rfl, rowsOf_upsertSummary ..⟩
    | _ => simp [serveFor, perform]

/-- What another user asks for leaves the rows of a user as they are. -/
theorem serveFor_foreign (tables : Tables) (now : ℕ) (foreign : other ≠ userId) (call : Call) :
    rowsOf userId (serveFor tables now other call).1 = rowsOf userId tables := by
  cases call with
  | endpoint query route =>
    cases route with
    | listConversations limit =>
      simp only [serveFor, handle]
      split <;> rfl
    | listConversationMessages conversationId => rfl
    | deleteConversation conversationId =>
      refine (rowsOf_softDelete tables now _).trans (softDelete_rowsOf tables now fun _ => ?_)
      simp [Ne.symm foreign]
    | clearConversations =>
      refine (rowsOf_softDelete tables now _).trans (softDelete_rowsOf tables now fun _ => ?_)
      simp [Ne.symm foreign]
  | chat body access =>
    cases access with
    | createOrUpdateConversation rowId conversationId title =>
      exact createOrUpdateConversation_foreign tables now conversationId foreign rowId title
    | appendMessage messageId conversationId role content =>
      simp [serveFor, perform, rowsOf, Tables.appendMessage, Tables.insertMessage,
        Tables.insertedMessage, foreign]
    | upsertSummary summaryId conversationId lastMessageId content =>
      exact upsertSummary_foreign tables now conversationId foreign summaryId lastMessageId content
    | _ => rfl

/-- Two states of the tables with the same rows of a user. -/
def Alike (userId : Str) (tables tables' : Tables) : Prop :=
  rowsOf userId tables = rowsOf userId tables'

theorem isolates_serve :
    Isolates (serve requireAuthenticatedUser) (Request.caller requireAuthenticatedUser) Alike where
  own user s t request called same := by
    unfold Request.caller at called
    unfold serve
    split at called
    · next userId _ =>
      obtain rfl : Str.lit userId = user := Option.some.inj called
      have first := serveFor_own s request.time (Str.lit userId) request.call
      have second := serveFor_own t request.time (Str.lit userId) request.call
      unfold Alike at same ⊢
      rw [same] at first
      exact ⟨first.1.trans second.1.symm, first.2.trans second.2.symm⟩
    · cases called
  others user s t request foreign same := by
    unfold Request.caller at foreign
    unfold serve
    split at foreign
    · next userId _ =>
      have other : Str.lit userId ≠ user := fun equal => foreign (congrArg some equal)
      exact (serveFor_foreign s request.time other request.call).trans same
    · exact same

/-- With the setting on, a user's requests carry their name in the header. -/
theorem header_of_caller {request : Request} (called : request.caller true = some userId) :
    ∃ header, request.header = some header ∧ Python.strip header ≠ "" ∧
      Str.lit (Python.strip header) = userId := by
  obtain ⟨header, time, call⟩ := request
  unfold Request.caller Request.identity at called
  cases header with
  | none =>
    cases call with
    | endpoint query route =>
      by_cases given : query = ""
      · simp [given] at called
      · simp [given, resolveRequestUserId, Except.mapError, Python.strip, stripChars] at called
    | chat body access => simp [withTrustedIdentity, Except.mapError] at called
  | some header =>
    refine ⟨header, rfl, ?_⟩
    cases call with
    | endpoint query route =>
      by_cases given : query = ""
      · simp [given] at called
      · simp only [given, if_false, resolveRequestUserId, Option.getD_some] at called
        split_ifs at called <;> simp_all [Except.mapError]
    | chat body access =>
      simp only [withTrustedIdentity] at called
      split_ifs at called <;> simp_all [Except.mapError]

/-- Whatever requests of any users come in any order, a user gets the answers that they would get
from their own rows alone and leaves the rows that they would leave alone; and if the setting asks for
it, whoever sends those requests is named in their header. -/
theorem requests_isolated (tables : Tables) (requests : List Request) (userId : Str) :
    let own := requestsOf (Request.caller requireAuthenticatedUser) userId requests
    let serve := serve requireAuthenticatedUser
    (answers serve tables requests).filter (fun answer =>
        answer.1.caller requireAuthenticatedUser = some userId) =
          answers serve (rowsOf userId tables) own ∧
      rowsOf userId (served serve tables requests) =
        rowsOf userId (served serve (rowsOf userId tables) own) ∧
      (requireAuthenticatedUser = true → ∀ request ∈ own, ∃ header,
        request.header = some header ∧ Str.lit (Python.strip header) = userId) := by
  intro own serve
  have isolates := isolates_serve requireAuthenticatedUser
  have same : Alike userId tables (rowsOf userId tables) := (rowsOf_rowsOf userId tables).symm
  refine ⟨isolates.answers_eq same requests, isolates.served_alike same requests, ?_⟩
  rintro rfl request member
  have called : request.caller true = some userId := by simpa using (List.mem_filter.mp member).2
  obtain ⟨header, carried, -, named⟩ := header_of_caller called
  exact ⟨header, carried, named⟩

end Isolation

end HeyeeAgent.Api.ConversationMemory
