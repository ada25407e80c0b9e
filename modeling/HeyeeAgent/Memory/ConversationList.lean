import HeyeeAgent.Machine.Run
import HeyeeAgent.Memory.ConversationMemoryService

/-! # The conversation list and the messages

Appends and deletions of any users and conversations, one after another. The list shows the
conversations that have messages until a message is appended to a conversation that was deleted: the
conflict branch of the upsert leaves the row deleted. Nothing else separates the two tables.
-/

namespace HeyeeAgent.Memory

open Python Machine

inductive Operation where
  | append (rowId messageId : Str) (rowTime messageTime : ℕ) (conversationId userId : Str)
      (role : MemoryRole) (content : Str)
  | deleteConversation (time : ℕ) (conversationId userId : Str)
  | clearConversations (time : ℕ) (userId : Str)

namespace Tables

def step (tables : Tables) : Operation → Option Tables
  | .append rowId messageId rowTime messageTime conversationId userId role content =>
    some (tables.append rowId messageId rowTime messageTime conversationId userId role content)
  | .deleteConversation time conversationId userId =>
    some (tables.deleteConversation time conversationId userId)
  | .clearConversations time userId => some (tables.clearConversations time userId)

/-- `(conversation_id, user_id)` is unique in `t_conversation`. -/
def Keyed (tables : Tables) : Prop :=
  (tables.conversations.map fun row => (row.conversationId, row.userId)).Nodup

/-- A conversation has a message exactly if it has a row, neither of them deleted. -/
def Paired (tables : Tables) : Prop :=
  ∀ conversationId userId,
    (∃ row ∈ tables.messages, row.shows conversationId userId = true) ↔
      ∃ row ∈ tables.conversations, row.shows conversationId userId = true

/-- A summary that is not deleted is one of a conversation that is not deleted. -/
def Summarised (tables : Tables) : Prop :=
  ∀ conversationId userId, (∃ row ∈ tables.summaries, row.shows conversationId userId = true) →
    ∃ row ∈ tables.conversations, row.shows conversationId userId = true

/-- A request of the conversation would be given some context. -/
def Usable (tables : Tables) (conversationId userId : Str) : Prop :=
  ∃ service : ConversationMemoryService,
    (service.load tables conversationId userId).summary ≠ none ∨
      (service.load tables conversationId userId).messages ≠ []

/-- How many conversations a user has. -/
def conversationCount (tables : Tables) (userId : Str) : ℕ :=
  tables.conversations.countP fun row => row.userId == userId && !row.deleted

/-- The conversation list and the messages agree. A list that is long enough has every conversation
with messages or context, and a deleted conversation has neither. -/
structure Agrees (tables : Tables) : Prop where
  paired : tables.Paired
  listed : ∀ conversationId userId limit,
    tables.listConversationMessages conversationId userId ≠ [] ∨
      tables.Usable conversationId userId →
    tables.conversationCount userId ≤ limit →
    conversationId ∈ (tables.listConversations userId limit).map ConversationRecord.conversationId
  hidden : ∀ row ∈ tables.conversations, row.deleted = true →
    tables.listConversationMessages row.conversationId row.userId = [] ∧
      ¬ tables.Usable row.conversationId row.userId

/-- An append does not meet a deleted row of its conversation. -/
def Meets (tables : Tables) : Operation → Prop
  | .append _ _ _ _ conversationId userId _ _ =>
    ∀ row ∈ tables.conversations, row.isOf conversationId userId = true → row.deleted = false
  | _ => True

instance (tables : Tables) : ∀ operation, Decidable (tables.Meets operation)
  | .append .. => inferInstanceAs (Decidable (∀ row ∈ _, _ → _))
  | .deleteConversation .. => inferInstanceAs (Decidable True)
  | .clearConversations .. => inferInstanceAs (Decidable True)

/-- Two rows of one conversation are the same row. -/
theorem Keyed.row_unique {tables : Tables} (keyed : tables.Keyed) {row other : ConversationRow}
    (member : row ∈ tables.conversations) (other_member : other ∈ tables.conversations)
    (same : other.isOf row.conversationId row.userId = true) : other = row := by
  obtain ⟨conversation, user⟩ := OwnedRow.isOf_iff.mp same
  exact List.inj_on_of_nodup_map keyed other_member member (by rw [conversation, user])

/-- What leaves the key of each row leaves the keys of the table. -/
theorem keys_map {change : ConversationRow → ConversationRow}
    (same : ∀ row, (change row).conversationId = row.conversationId ∧
      (change row).userId = row.userId) (rows : List ConversationRow) :
    (rows.map change).map (fun row => (row.conversationId, row.userId)) =
      rows.map fun row => (row.conversationId, row.userId) := by
  rw [List.map_map]
  apply List.map_congr_left
  intro row _
  exact Prod.ext (same row).1 (same row).2

/-- A conversation with context has a message or a summary. -/
theorem Usable.exists_shows {tables : Tables} {conversationId userId : Str}
    (usable : tables.Usable conversationId userId) :
    (∃ row ∈ tables.messages, row.shows conversationId userId = true) ∨
      ∃ row ∈ tables.summaries, row.shows conversationId userId = true := by
  obtain ⟨service, summary | messages⟩ := usable
  · right
    obtain ⟨found, some⟩ := Option.ne_none_iff_exists'.mp summary
    have latest : tables.getLatestSummary conversationId userId = .some found := by
      unfold ConversationMemoryService.load at some
      split at some
      · exact some
      · cases some
    obtain ⟨row, member, shown, -⟩ := exists_of_getLatestSummary latest
    exact ⟨row, member, shown⟩
  · left
    obtain ⟨message, member⟩ := List.exists_mem_of_ne_nil _ messages
    obtain ⟨row, visible, -⟩ := ConversationMemoryService.exists_of_mem_load member
    exact ⟨row, mem_visible.mp visible⟩

theorem exists_shows_of_listed {tables : Tables} {conversationId userId : Str}
    (listed : tables.listConversationMessages conversationId userId ≠ []) :
    ∃ row ∈ tables.messages, row.shows conversationId userId = true := by
  obtain ⟨message, member⟩ := List.exists_mem_of_ne_nil _ listed
  obtain ⟨row, visible, -⟩ := exists_of_mem_listConversationMessages member
  exact ⟨row, mem_visible.mp visible⟩

/-- A list that is long enough has every row that is not deleted. -/
theorem mem_listConversations {tables : Tables} {conversationId userId : Str} {limit : ℕ}
    {row : ConversationRow} (member : row ∈ tables.conversations)
    (shown : row.shows conversationId userId = true)
    (enough : tables.conversationCount userId ≤ limit) :
    conversationId ∈
      (tables.listConversations userId limit).map ConversationRecord.conversationId := by
  obtain ⟨owned, live⟩ := OwnedRow.shows_iff.mp shown
  obtain ⟨conversation, user⟩ := OwnedRow.isOf_iff.mp owned
  unfold listConversations
  rw [List.take_of_length_le]
  · rw [List.map_map]
    apply List.mem_map.mpr
    refine ⟨row, (List.mergeSort_perm _ _).mem_iff.mpr (List.mem_filter.mpr ⟨member, ?_⟩), ?_⟩
    · simp [user, live]
    · exact conversation
  · rw [List.length_mergeSort, ← List.countP_eq_length_filter]
    exact enough

/-- Whatever the list and the context show follows from the two relations between the tables. -/
theorem Paired.agrees {tables : Tables} (keyed : tables.Keyed) (summarised : tables.Summarised)
    (paired : tables.Paired) : tables.Agrees := by
  have shown : ∀ conversationId userId,
      tables.listConversationMessages conversationId userId ≠ [] ∨
        tables.Usable conversationId userId →
      ∃ row ∈ tables.conversations, row.shows conversationId userId = true := by
    rintro conversationId userId (messages | usable)
    · exact (paired conversationId userId).mp (exists_shows_of_listed messages)
    · rcases usable.exists_shows with message | summary
      · exact (paired conversationId userId).mp message
      · exact summarised conversationId userId summary
  constructor
  · exact paired
  · intro conversationId userId limit visible enough
    obtain ⟨row, member, row_shown⟩ := shown conversationId userId visible
    exact mem_listConversations member row_shown enough
  · intro row member deleted
    have none : ¬ (tables.listConversationMessages row.conversationId row.userId ≠ [] ∨
        tables.Usable row.conversationId row.userId) := by
      intro visible
      obtain ⟨other, other_member, other_shown⟩ := shown _ _ visible
      obtain ⟨owned, live⟩ := OwnedRow.shows_iff.mp other_shown
      rw [keyed.row_unique member other_member owned, deleted] at live
      cases live
    rw [not_or, not_not] at none
    exact none

/-- With summaries enabled, a summary is context by itself. -/
theorem Agrees.summarised {tables : Tables} (agrees : tables.Agrees) : tables.Summarised := by
  rintro conversationId userId ⟨row, member, shown⟩
  have usable : tables.Usable conversationId userId := by
    refine ⟨⟨0, true, 0, 0⟩, .inl ?_⟩
    change tables.getLatestSummary conversationId userId ≠ none
    intro nothing
    rw [getLatestSummary, Option.map_eq_none_iff, List.head?_eq_none_iff] at nothing
    have listed := (List.mergeSort_perm (tables.summaries.filter fun row =>
      row.shows conversationId userId) fun row other => other.updateTime ≤ row.updateTime).mem_iff.mpr
        (List.mem_filter.mpr ⟨member, shown⟩)
    rw [nothing] at listed
    cases listed
  have listed := agrees.listed conversationId userId _ (.inr usable) le_rfl
  obtain ⟨record, record_member, same⟩ := List.mem_map.mp listed
  obtain ⟨found, found_member, rfl⟩ := List.mem_map.mp record_member
  have stored := (List.mergeSort_perm _ _).mem_iff.mp (List.mem_of_mem_take found_member)
  obtain ⟨found_member, kept⟩ := List.mem_filter.mp stored
  simp only [Bool.and_eq_true, beq_iff_eq, Bool.not_eq_true'] at kept
  exact ⟨found, found_member,
    OwnedRow.shows_iff.mpr ⟨OwnedRow.isOf_iff.mpr ⟨same, kept.1⟩, kept.2⟩⟩

/-- A deletion hides the rows of the conversations that meet its condition, and no others. -/
theorem exists_shows_map_iff {ρ : Type} {rows : List ρ} (owned : ρ → OwnedRow) (mark : ρ → ρ)
    {now : ℕ} {condition : Str → Str → Bool} {conversationId userId : Str}
    (marked : ∀ row, owned (mark row) = { owned row with deleted := true, updateTime := now }) :
    (∃ row ∈ rows.map fun row =>
        if condition (owned row).conversationId (owned row).userId then mark row else row,
      (owned row).shows conversationId userId = true) ↔
      condition conversationId userId = false ∧
        ∃ row ∈ rows, (owned row).shows conversationId userId = true := by
  constructor
  · rintro ⟨row, member, shown⟩
    obtain ⟨before, before_member, rfl⟩ := List.mem_map.mp member
    split at shown
    · rw [marked] at shown
      simp [OwnedRow.shows] at shown
    · rename_i unmet
      obtain ⟨conversation, user⟩ := OwnedRow.isOf_iff.mp (OwnedRow.shows_iff.mp shown).1
      rw [conversation, user] at unmet
      exact ⟨Bool.eq_false_iff.mpr unmet, before, before_member, shown⟩
  · rintro ⟨unmet, row, member, shown⟩
    obtain ⟨conversation, user⟩ := OwnedRow.isOf_iff.mp (OwnedRow.shows_iff.mp shown).1
    refine ⟨row, List.mem_map.mpr ⟨row, member, ?_⟩, shown⟩
    rw [conversation, user, unmet]
    rfl

section SoftDelete

variable {tables : Tables} {now : ℕ} {condition : Str → Str → Bool} {conversationId userId : Str}

theorem exists_message_softDelete :
    (∃ row ∈ (tables.softDelete now condition).messages,
      row.shows conversationId userId = true) ↔
      condition conversationId userId = false ∧
        ∃ row ∈ tables.messages, row.shows conversationId userId = true :=
  exists_shows_map_iff MessageRow.toOwnedRow
    (fun row => { row with deleted := true, updateTime := now }) fun _ => rfl

theorem exists_conversation_softDelete :
    (∃ row ∈ (tables.softDelete now condition).conversations,
      row.shows conversationId userId = true) ↔
      condition conversationId userId = false ∧
        ∃ row ∈ tables.conversations, row.shows conversationId userId = true :=
  exists_shows_map_iff ConversationRow.toOwnedRow
    (fun row => { row with deleted := true, updateTime := now }) fun _ => rfl

theorem exists_summary_softDelete :
    (∃ row ∈ (tables.softDelete now condition).summaries,
      row.shows conversationId userId = true) ↔
      condition conversationId userId = false ∧
        ∃ row ∈ tables.summaries, row.shows conversationId userId = true :=
  exists_shows_map_iff SummaryRow.toOwnedRow
    (fun row => { row with deleted := true, updateTime := now }) fun _ => rfl

theorem Keyed.softDelete (keyed : tables.Keyed) : (tables.softDelete now condition).Keyed := by
  unfold Keyed Tables.softDelete
  rw [keys_map]
  · exact keyed
  · intro row
    split <;> exact ⟨rfl, rfl⟩

theorem Summarised.softDelete (summarised : tables.Summarised) :
    (tables.softDelete now condition).Summarised := by
  intro conversationId userId summary
  obtain ⟨unmet, summary⟩ := exists_summary_softDelete.mp summary
  exact exists_conversation_softDelete.mpr ⟨unmet, summarised conversationId userId summary⟩

/-- A deletion treats messages and conversations alike. -/
theorem Paired.softDelete (paired : tables.Paired) :
    (tables.softDelete now condition).Paired := by
  intro conversationId userId
  rw [exists_message_softDelete, exists_conversation_softDelete, paired conversationId userId]

end SoftDelete

section Append

variable {tables : Tables} {rowId messageId conversationId userId title content : Str}
  {rowTime messageTime : ℕ} {role : MemoryRole}

theorem exists_message_append {conversation user : Str} :
    (∃ row ∈ (tables.append rowId messageId rowTime messageTime conversationId userId role
        content).messages, row.shows conversation user = true) ↔
      (∃ row ∈ tables.messages, row.shows conversation user = true) ∨
        conversationId = conversation ∧ userId = user := by
  have messages : (tables.append rowId messageId rowTime messageTime conversationId userId role
      content).messages = tables.messages ++
        [insertedMessage messageTime messageId conversationId userId role content] := by
    unfold append createOrUpdateConversation
    split <;> rfl
  rw [messages]
  simp [or_and_right, exists_or, OwnedRow.shows_iff, insertedMessage]

/-- An upsert finds the row of its conversation, deleted or not, and leaves the flag; or it inserts a
row. -/
theorem exists_conversation_createOrUpdate {conversation user : Str} :
    (∃ row ∈ (tables.createOrUpdateConversation rowTime rowId conversationId userId
        title).conversations, row.shows conversation user = true) ↔
      (∃ row ∈ tables.conversations, row.shows conversation user = true) ∨
        (conversationId = conversation ∧ userId = user ∧
          ∀ row ∈ tables.conversations, row.isOf conversationId userId = false) := by
  unfold createOrUpdateConversation
  split
  · rename_i found
    obtain ⟨row, member, owned⟩ := List.any_eq_true.mp found
    have updated : ∀ row : ConversationRow, OwnedRow.shows (if row.isOf conversationId userId then
        { row with lastTime := rowTime, updateTime := rowTime } else row : ConversationRow).toOwnedRow
          conversation user = row.shows conversation user := by
      intro row
      split <;> rfl
    simp only [List.mem_map, exists_exists_and_eq_and, updated]
    constructor
    · exact .inl
    · rintro (shown | ⟨-, -, absent⟩)
      · exact shown
      · rw [absent row member] at owned
        cases owned
  · rename_i absent
    rw [List.any_eq_true, not_exists] at absent
    have absent : ∀ row ∈ tables.conversations, row.isOf conversationId userId = false := by
      intro row member
      exact Bool.eq_false_iff.mpr fun owned => absent row ⟨member, owned⟩
    simp only [List.mem_append, List.mem_singleton, or_and_right, exists_or, exists_eq_left,
      OwnedRow.shows_iff, OwnedRow.isOf_iff, and_true, and_assoc]
    exact or_congr_right ⟨fun same => ⟨same.1, same.2, absent⟩, fun same => ⟨same.1, same.2.1⟩⟩

theorem conversations_append :
    (tables.append rowId messageId rowTime messageTime conversationId userId role
      content).conversations = (tables.createOrUpdateConversation rowTime rowId conversationId userId
        (appendTitle content)).conversations := rfl

theorem Keyed.append (keyed : tables.Keyed) :
    (tables.append rowId messageId rowTime messageTime conversationId userId role content).Keyed := by
  unfold Keyed
  rw [conversations_append, createOrUpdateConversation]
  split
  · rw [keys_map]
    · exact keyed
    · intro row
      split <;> exact ⟨rfl, rfl⟩
  · rename_i absent
    rw [List.map_append, List.map_singleton, List.nodup_append]
    refine ⟨keyed, List.nodup_singleton _, ?_⟩
    rintro key member _ (_ | ⟨_, ⟨⟩⟩) rfl
    obtain ⟨row, row_member, same⟩ := List.mem_map.mp member
    obtain ⟨conversation, user⟩ := Prod.mk.inj same
    exact absent (List.any_eq_true.mpr
      ⟨row, row_member, OwnedRow.isOf_iff.mpr ⟨conversation, user⟩⟩)

theorem Summarised.append (summarised : tables.Summarised) :
    (tables.append rowId messageId rowTime messageTime conversationId userId role
      content).Summarised := by
  intro conversation user summary
  rw [conversations_append]
  apply exists_conversation_createOrUpdate.mpr
  left
  apply summarised
  have summaries : (tables.append rowId messageId rowTime messageTime conversationId userId role
      content).summaries = tables.summaries := by
    unfold Tables.append createOrUpdateConversation
    split <;> rfl
  rwa [summaries] at summary

/-- An append keeps the two tables paired exactly if it meets no deleted row. -/
theorem paired_append_iff (keyed : tables.Keyed) (paired : tables.Paired) :
    (tables.append rowId messageId rowTime messageTime conversationId userId role content).Paired ↔
      ∀ row ∈ tables.conversations, row.isOf conversationId userId = true → row.deleted = false := by
  constructor
  · intro after row member owned
    have message : ∃ row ∈ (tables.append rowId messageId rowTime messageTime conversationId userId
        role content).messages, row.shows conversationId userId = true :=
      exists_message_append.mpr (.inr ⟨rfl, rfl⟩)
    have listed := (after conversationId userId).mp message
    rw [conversations_append, exists_conversation_createOrUpdate] at listed
    rcases listed with ⟨other, other_member, shown⟩ | ⟨-, -, absent⟩
    · obtain ⟨conversation, user⟩ := OwnedRow.isOf_iff.mp owned
      obtain ⟨other_owned, live⟩ := OwnedRow.shows_iff.mp shown
      rw [← conversation, ← user] at other_owned
      rw [← keyed.row_unique member other_member other_owned]
      exact live
    · rw [absent row member] at owned
      cases owned
  · intro meets conversation user
    rw [exists_message_append, conversations_append, exists_conversation_createOrUpdate,
      paired conversation user]
    apply or_congr_right'
    intro unlisted
    constructor
    · rintro ⟨rfl, rfl⟩
      refine ⟨rfl, rfl, fun row member => Bool.eq_false_iff.mpr fun owned => unlisted ?_⟩
      exact ⟨row, member, OwnedRow.shows_iff.mpr ⟨owned, meets row member owned⟩⟩
    · exact fun inserted => ⟨inserted.1, inserted.2.1⟩

end Append

/-- The key and the summaries, whatever the operations. -/
theorem keyed_step {tables next : Tables} {operation : Operation}
    (invariant : tables.Keyed ∧ tables.Summarised) (taken : tables.step operation = some next) :
    next.Keyed ∧ next.Summarised := by
  obtain ⟨keyed, summarised⟩ := invariant
  cases operation with
  | append => cases taken; exact ⟨keyed.append, summarised.append⟩
  | deleteConversation => cases taken; exact ⟨keyed.softDelete, summarised.softDelete⟩
  | clearConversations => cases taken; exact ⟨keyed.softDelete, summarised.softDelete⟩

theorem paired_step_iff {tables next : Tables} {operation : Operation} (keyed : tables.Keyed)
    (paired : tables.Paired) (taken : tables.step operation = some next) :
    next.Paired ↔ tables.Meets operation := by
  cases operation with
  | append => cases taken; exact paired_append_iff keyed paired
  | deleteConversation => cases taken; exact iff_of_true paired.softDelete trivial
  | clearConversations => cases taken; exact iff_of_true paired.softDelete trivial

/-- The list and the messages agree throughout a sequence of operations exactly if no append meets
the deleted row of its conversation. -/
theorem always_agrees_iff {tables : Tables} (keyed : tables.Keyed) (agrees : tables.Agrees)
    (operations : List Operation) :
    Always step Agrees tables operations ↔ Along step Meets tables operations := by
  apply always_iff_along (I := fun tables => tables.Keyed ∧ tables.Summarised)
  · intro tables operation next invariant taken
    exact keyed_step invariant taken
  · intro tables operation next invariant agrees taken
    rw [← paired_step_iff invariant.1 agrees.paired taken]
    constructor
    · exact Agrees.paired
    · obtain ⟨keyed, summarised⟩ := keyed_step invariant taken
      exact fun paired => paired.agrees keyed summarised
  · exact ⟨keyed, agrees.summarised⟩
  · exact agrees

theorem keyed_empty : ({} : Tables).Keyed := List.nodup_nil

/-- A data base without conversations agrees with itself. -/
theorem agrees_empty : ({} : Tables).Agrees := by
  apply Paired.agrees keyed_empty
  · rintro conversationId userId ⟨row, member, -⟩
    cases member
  · intro conversationId userId
    constructor <;> rintro ⟨row, member, -⟩ <;> cases member

/-- A conversation of two users: each has one message, and one deletes it and starts it again under
another name. -/
def twoUsers : List Operation := [
  .append (.lit "convrow_1") (.lit "msg_1") 1 2 (.lit "c") (.lit "7") .user (.lit "hello"),
  .append (.lit "convrow_2") (.lit "msg_2") 3 4 (.lit "c") (.lit "8") .user (.lit "hi"),
  .deleteConversation 5 (.lit "c") (.lit "7"),
  .append (.lit "convrow_3") (.lit "msg_3") 6 7 (.lit "d") (.lit "7") .user (.lit "again"),
  .clearConversations 8 (.lit "8")]

theorem always_agrees_twoUsers : Always step Agrees {} twoUsers :=
  (always_agrees_iff keyed_empty agrees_empty twoUsers).mpr (by decide)

/-- The reply of a running stream is appended after its conversation was deleted. -/
def replyAfterDelete : List Operation := [
  .append (.lit "convrow_1") (.lit "msg_1") 1 2 (.lit "c") (.lit "7") .user (.lit "hello"),
  .deleteConversation 3 (.lit "c") (.lit "7"),
  .append (.lit "convrow_2") (.lit "msg_2") 4 5 (.lit "c") (.lit "7") .assistant (.lit "hi")]

/-- The list does not show the conversation, whose reply is a message of it. -/
theorem not_always_agrees : ¬ Always step Agrees {} replyAfterDelete := by
  intro always
  obtain ⟨tables, run, shown, unlisted⟩ : ∃ tables, runFrom step {} replyAfterDelete = some tables ∧
      (∃ row ∈ tables.messages, row.shows (.lit "c") (.lit "7") = true) ∧
      ¬ ∃ row ∈ tables.conversations, row.shows (.lit "c") (.lit "7") = true :=
    ⟨_, rfl, by decide, by decide⟩
  exact unlisted (((always.last run).paired _ _).mp shown)

end Tables

end HeyeeAgent.Memory
