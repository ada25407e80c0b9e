import HeyeeAgent.Memory.Compression

/-! # No message between summary and history

The last message of a summary is its mark: what is later is listed, and what is not later has to be in
one of the lists that were summarised. A list contains all that was later than the mark when the
summary was read. A message is lost in two ways. It commits with a time before the mark, or before
the last message of a list that was read without it; or it is a reply at the start of a list.
-/

namespace HeyeeAgent.Memory

open Python Machine

/-- A time is later than the message that a mark names. -/
def Later (rows : List MessageRow) (mark : Option Str) (time : ℕ) : Prop :=
  ∀ last ∈ rows, mark = some last.id → last.createTime < time

/-- A mark names a message, and no message that was summarised is later. -/
structure Marked (rows : List MessageRow) (mark : Option Str)
    (chain : List (List MemoryMessage)) : Prop where
  named : ∀ id, mark = some id → ∃ last ∈ rows, last.id = id
  covered : ∀ pending ∈ chain, ∀ message ∈ pending,
    ∃ row ∈ rows, row.toMessage = message ∧ ¬ Later rows mark row.createTime

/-- Every message is later than the mark or summarised. -/
def Covers (rows : List MessageRow) (mark : Option Str) (chain : List (List MemoryMessage)) : Prop :=
  ∀ row ∈ rows, Later rows mark row.createTime ∨ ∃ pending ∈ chain, row.toMessage ∈ pending

/-- What was read with the summary is still there, and was marked and covered. -/
structure ReadOf (rows : List MessageRow) (read : SummaryRead) : Prop where
  subset : read.seen ⊆ rows
  marked : Marked read.seen read.lastMessageId read.chain
  covers : Covers read.seen read.lastMessageId read.chain

/-- A list has messages that are later than the mark, in the order of time, and among them all that
were there when the summary was read. -/
structure ListedOf (rows : List MessageRow) (read : SummaryRead) (listed : List MemoryMessage) :
    Prop where
  sorted : listed.Pairwise fun message other => message.createTime ≤ other.createTime
  ids : (listed.map MemoryMessage.id).Nodup
  later : ∀ message ∈ listed, ∃ row ∈ rows, row.toMessage = message ∧
    Later read.seen read.lastMessageId row.createTime
  complete : ∀ row ∈ read.seen, Later read.seen read.lastMessageId row.createTime →
    row.toMessage ∈ listed

/-- What a task relies on. -/
def TaskOf (conversationId userId : Str) (rows : List MessageRow) : Task → Prop
  | .appending messageId _ _ | .saved messageId _ _ => messageId ≠ []
  | .inserting row => row.shows conversationId userId = true ∧ row.id ≠ []
  | .compressing | .locked => True
  | .summaryRead read => ReadOf rows read
  | .summarising read listed | .storing read listed _ => ReadOf rows read ∧ ListedOf rows read listed

theorem later_none (rows : List MessageRow) (time : ℕ) : Later rows none time := by
  intro last _ marked
  cases marked

/-- Rows with the ids of other rows are those rows. -/
theorem row_eq_of_id {rows : List MessageRow} (ids : (rows.map fun row => row.id).Nodup)
    {row other : MessageRow} (member : row ∈ rows) (other_member : other ∈ rows)
    (same : row.id = other.id) : row = other :=
  List.inj_on_of_nodup_map ids member other_member same

theorem later_some_iff {rows : List MessageRow} (ids : (rows.map fun row => row.id).Nodup)
    {last : MessageRow} (member : last ∈ rows) {time : ℕ} :
    Later rows (some last.id) time ↔ last.createTime < time := by
  constructor
  · exact fun later => later last member rfl
  · intro less other other_member marked
    rw [row_eq_of_id ids other_member member (Option.some_inj.mp marked).symm]
    exact less

/-- More rows leave what is later than a mark. -/
theorem later_iff_of_subset {rows seen : List MessageRow} {mark : Option Str} {time : ℕ}
    (ids : (rows.map fun row => row.id).Nodup) (subset : seen ⊆ rows)
    (named : ∀ id, mark = some id → ∃ last ∈ seen, last.id = id) :
    Later rows mark time ↔ Later seen mark time := by
  constructor
  · intro later last member marked
    exact later last (subset member) marked
  · intro later last member marked
    obtain ⟨first, first_member, same⟩ := named last.id marked
    rw [← row_eq_of_id ids (subset first_member) member same] at marked ⊢
    exact later first first_member marked

theorem ReadOf.mono {rows more : List MessageRow} {read : SummaryRead} (subset : rows ⊆ more)
    (given : ReadOf rows read) : ReadOf more read :=
  { given with subset := List.Subset.trans given.subset subset }

theorem ListedOf.mono {rows more : List MessageRow} {read : SummaryRead}
    {listed : List MemoryMessage} (subset : rows ⊆ more) (given : ListedOf rows read listed) :
    ListedOf more read listed := by
  refine { given with later := fun message member => ?_ }
  obtain ⟨row, row_member, same, later⟩ := given.later message member
  exact ⟨row, subset row_member, same, later⟩

theorem TaskOf.mono {conversationId userId : Str} {rows more : List MessageRow} {task : Task}
    (subset : rows ⊆ more) (given : TaskOf conversationId userId rows task) :
    TaskOf conversationId userId more task := by
  cases task with
  | appending | saved | inserting | compressing | locked => exact given
  | summaryRead => exact ReadOf.mono subset given
  | summarising | storing => exact ⟨given.1.mono subset, given.2.mono subset⟩

namespace Tables

variable {tables : Tables} {conversationId userId : Str}

/-- The summaries of the conversation that are not deleted. -/
def shownSummaries (tables : Tables) (conversationId userId : Str) : List SummaryRow :=
  tables.summaries.filter fun row => row.shows conversationId userId

/-- The rows of a query are those that are later than its mark. -/
theorem mem_rowsAfter {mark : Option Str} {row : MessageRow}
    (ids : ((tables.visible conversationId userId).map fun row => row.id).Nodup)
    (blank : ∀ row ∈ tables.visible conversationId userId, row.id ≠ [])
    (named : ∀ id, mark = some id → ∃ last ∈ tables.visible conversationId userId, last.id = id) :
    row ∈ tables.rowsAfter conversationId userId mark ↔
      row ∈ tables.visible conversationId userId ∧
        Later (tables.visible conversationId userId) mark row.createTime := by
  unfold rowsAfter
  split
  · exact (and_iff_left (later_none _ _)).symm
  · obtain ⟨last, member, same⟩ := named [] rfl
    exact absurd same (blank last member)
  · rename_i id _
    obtain ⟨last, member, rfl⟩ := named id rfl
    have found : tables.watermarkTime conversationId userId last.id = some last.createTime := by
      unfold watermarkTime
      cases first : (tables.visible conversationId userId).find? fun row => row.id == last.id with
      | none =>
        have absent := List.find?_eq_none.mp first last member
        simp at absent
      | some other =>
        have same := List.find?_some first
        rw [row_eq_of_id ids (List.mem_of_find?_eq_some first) member (beq_iff_eq.mp same)]
        rfl
    rw [List.mem_filter, found]
    rw [later_some_iff ids member, decide_eq_true_iff]

theorem getLatestSummary_of_shown {row : SummaryRow}
    (shown : tables.shownSummaries conversationId userId = [row]) :
    tables.getLatestSummary conversationId userId = some row.toSummary := by
  unfold shownSummaries at shown
  rw [getLatestSummary, shown, List.mergeSort_singleton]
  rfl

theorem getLatestSummary_of_none (none : tables.shownSummaries conversationId userId = []) :
    tables.getLatestSummary conversationId userId = .none := by
  unfold shownSummaries at none
  rw [getLatestSummary, none, List.mergeSort_nil]
  rfl

/-- The summary that an upsert leaves. -/
theorem shown_upsertSummary (single : (tables.shownSummaries conversationId userId).length ≤ 1)
    (now : ℕ) (summaryId lastMessageId content : Str) :
    ∃ row, (tables.upsertSummary now summaryId conversationId userId lastMessageId
      content).shownSummaries conversationId userId = [row] ∧ row.lastMessageId = lastMessageId := by
  unfold upsertSummary
  split
  · rename_i found
    obtain ⟨row, member, shown⟩ := List.any_eq_true.mp found
    obtain ⟨only, same⟩ := List.length_eq_one_iff.mp
      (single.antisymm (List.length_pos_of_mem (List.mem_filter.mpr ⟨member, shown⟩)))
    have kept : (fun row : SummaryRow => row.shows conversationId userId) ∘ (fun row : SummaryRow =>
        if row.shows conversationId userId then
          { row with lastMessageId := lastMessageId, content := content, updateTime := now }
        else row) = fun row : SummaryRow => row.shows conversationId userId := by
      funext row
      dsimp only [Function.comp]
      split <;> rfl
    have only_shown : only ∈ tables.shownSummaries conversationId userId := by
      rw [same]
      exact List.mem_singleton_self only
    have updated := (List.mem_filter.mp only_shown).2
    unfold shownSummaries at same ⊢
    rw [List.filter_map, kept, same, List.map_singleton, if_pos updated]
    exact ⟨_, rfl, rfl⟩
  · rename_i absent
    rw [List.any_eq_true, not_exists] at absent
    have none : tables.shownSummaries conversationId userId = [] := by
      apply List.filter_eq_nil_iff.mpr
      exact fun row member shown => absent row ⟨member, shown⟩
    unfold shownSummaries at none ⊢
    rw [List.filter_append, none]
    simp [OwnedRow.shows]

end Tables

/-- Of a list in the order of time, no message is later than the last. -/
theorem le_getLast_of_sorted {listed : List MemoryMessage} {message last : MemoryMessage}
    (sorted : listed.Pairwise fun message other => message.createTime ≤ other.createTime)
    (member : message ∈ listed) (ending : listed.getLast? = some last) :
    message.createTime ≤ last.createTime := by
  obtain ⟨front, rfl⟩ := List.getLast?_eq_some_iff.mp ending
  rcases List.mem_append.mp member with earlier | final
  · exact (List.pairwise_append.mp sorted).2.2 message earlier last (List.mem_singleton_self last)
  · rw [List.mem_singleton.mp final]

/-- Normalising keeps the last message of the user and all that follows. -/
theorem getLast?_normalizeHistory {listed : List MemoryMessage} {last : MemoryMessage}
    (ending : (normalizeHistory listed).getLast? = some last) : listed.getLast? = some last := by
  obtain ⟨front, same⟩ := normalizeHistory_suffix listed
  rw [← same, List.getLast?_append, ending]
  rfl

/-- A reply at the start of a list is not in the list that is summarised. -/
theorem not_mem_normalizeHistory {first : MemoryMessage} {rest : List MemoryMessage}
    (ids : ((first :: rest).map MemoryMessage.id).Nodup) (reply : first.role = .assistant) :
    first ∉ normalizeHistory (first :: rest) := by
  intro member
  rw [normalizeHistory, List.dropWhile_cons_of_pos (by rw [reply]; rfl)] at member
  have later := (List.dropWhile_suffix _).mem member
  exact (List.nodup_cons.mp ids).1 (List.mem_map_of_mem later)

/-- What was summarised before is neither later than the mark nor new. -/
theorem not_mem_chain {rows : List MessageRow} {read : SummaryRead} {row : MessageRow}
    (ids : (rows.map fun row => row.id).Nodup) (given : ReadOf rows read) (member : row ∈ rows)
    (apart : Later read.seen read.lastMessageId row.createTime ∨ row ∉ read.seen) :
    ∀ pending ∈ read.chain, row.toMessage ∉ pending := by
  intro pending chained summarised
  obtain ⟨earlier, seen, same, not_later⟩ := given.marked.covered pending chained _ summarised
  have same_id : earlier.id = row.id := congrArg MemoryMessage.id same
  obtain rfl := row_eq_of_id ids (given.subset seen) member same_id
  rcases apart with later | unseen
  · exact not_later later
  · exact unseen seen

/-- What a run that stores a summary covers: all of it exactly if its list starts with the user and
no message appeared behind the end of the list while the run read. -/
theorem covers_stored_iff {rows : List MessageRow} {read : SummaryRead}
    {listed : List MemoryMessage} {last : MemoryMessage}
    (ids : (rows.map fun row => row.id).Nodup) (given : ReadOf rows read)
    (listing : ListedOf rows read listed)
    (ending : (normalizeHistory listed).getLast? = some last) :
    Covers rows (some last.id) (read.chain ++ [normalizeHistory listed]) ↔
      (∀ first ∈ listed.head?, first.role = .user) ∧
        ∀ row ∈ rows, row ∉ read.seen →
          row.toMessage ∈ listed ∨ ∀ last ∈ listed.getLast?, last.createTime < row.createTime := by
  have listed_ending := getLast?_normalizeHistory ending
  obtain ⟨ended, ended_member, rfl, -⟩ := listing.later last (List.mem_of_getLast? listed_ending)
  have later_iff (time : ℕ) : Later rows (some ended.toMessage.id) time ↔ ended.createTime < time :=
    later_some_iff ids ended_member
  rw [listed_ending]
  constructor
  · intro covers
    constructor
    · intro first heads
      by_contra reply
      have reply : first.role = .assistant := by
        cases role : first.role
        · exact absurd role reply
        · rfl
      obtain ⟨rest, rfl⟩ := List.head?_eq_some_iff.mp heads
      obtain ⟨row, member, rfl, later⟩ := listing.later first List.mem_cons_self
      rcases covers row member with after | ⟨pending, chained, summarised⟩
      · have before := le_getLast_of_sorted listing.sorted List.mem_cons_self listed_ending
        have after := (later_iff _).mp after
        exact absurd after (not_lt_of_ge before)
      · rcases List.mem_append.mp chained with chained | new
        · exact not_mem_chain ids given member (.inl later) pending chained summarised
        · rw [List.mem_singleton.mp new] at summarised
          exact not_mem_normalizeHistory listing.ids reply summarised
    · intro row member unseen
      rcases covers row member with after | ⟨pending, chained, summarised⟩
      · right
        rintro _ ⟨⟩
        exact (later_iff _).mp after
      · left
        rcases List.mem_append.mp chained with chained | new
        · exact absurd summarised (not_mem_chain ids given member (.inr unseen) pending chained)
        · rw [List.mem_singleton.mp new] at summarised
          exact (normalizeHistory_suffix listed).mem summarised
  · rintro ⟨starts, arrived⟩ row member
    rw [normalizeHistory_eq_self starts]
    have summarised (found : row.toMessage ∈ listed) :
        ∃ pending ∈ read.chain ++ [listed], row.toMessage ∈ pending :=
      ⟨listed, List.mem_append_right _ (List.mem_singleton_self listed), found⟩
    by_cases seen : row ∈ read.seen
    · right
      rcases given.covers row seen with later | ⟨pending, chained, before⟩
      · exact summarised (listing.complete row seen later)
      · exact ⟨pending, List.mem_append_left _ chained, before⟩
    · rcases arrived row member seen with found | after
      · exact .inr (summarised found)
      · exact .inl ((later_iff _).mpr (after _ rfl))

/-- The mark of a summary that is stored, and what it leaves in its chain. -/
theorem marked_stored {rows : List MessageRow} {read : SummaryRead} {listed : List MemoryMessage}
    {last : MemoryMessage} (ids : (rows.map fun row => row.id).Nodup) (given : ReadOf rows read)
    (listing : ListedOf rows read listed)
    (ending : (normalizeHistory listed).getLast? = some last) :
    Marked rows (some last.id) (read.chain ++ [normalizeHistory listed]) := by
  have listed_ending := getLast?_normalizeHistory ending
  obtain ⟨ended, ended_member, rfl, later⟩ :=
    listing.later last (List.mem_of_getLast? listed_ending)
  constructor
  · rintro _ ⟨⟩
    exact ⟨ended, ended_member, rfl⟩
  · intro pending chained message summarised
    rcases List.mem_append.mp chained with chained | new
    · obtain ⟨row, seen, same, not_later⟩ := given.marked.covered pending chained message summarised
      refine ⟨row, given.subset seen, same, fun after => not_later ?_⟩
      have after := (later_some_iff ids ended_member).mp after
      exact fun first first_member marked => (later first first_member marked).trans after
    · rw [List.mem_singleton.mp new] at summarised
      have found := (normalizeHistory_suffix listed).mem summarised
      obtain ⟨row, member, rfl, -⟩ := listing.later message found
      refine ⟨row, member, rfl, fun after => ?_⟩
      have after := (later_some_iff ids ended_member).mp after
      have before := le_getLast_of_sorted listing.sorted found listed_ending
      exact absurd after (not_lt_of_ge before)

/-- A message that commits keeps what is covered exactly if it is later than the mark. -/
theorem covers_concat_iff {rows : List MessageRow} {mark : Option Str}
    {chain : List (List MemoryMessage)} {row : MessageRow}
    (ids : ((rows ++ [row]).map fun row => row.id).Nodup) (marked : Marked rows mark chain)
    (covers : Covers rows mark chain) :
    Covers (rows ++ [row]) mark chain ↔
      ∀ last ∈ rows, mark = some last.id → last.createTime < row.createTime := by
  have later_iff (time : ℕ) : Later (rows ++ [row]) mark time ↔ Later rows mark time :=
    later_iff_of_subset ids (List.subset_append_left rows [row]) marked.named
  have new : row ∈ rows ++ [row] := List.mem_append_right _ (List.mem_singleton_self row)
  constructor
  · intro after
    rcases after row new with later | ⟨pending, chained, summarised⟩
    · exact (later_iff _).mp later
    · obtain ⟨earlier, member, same, -⟩ := marked.covered pending chained _ summarised
      have same_id : earlier.id = row.id := congrArg MemoryMessage.id same
      rw [List.map_append, List.nodup_append] at ids
      exact absurd same_id (ids.2.2 _ (List.mem_map_of_mem member) _ (List.mem_singleton_self _))
  · intro later other member
    rw [later_iff]
    rcases List.mem_append.mp member with member | final
    · exact covers other member
    · rw [List.mem_singleton.mp final]
      exact .inl later

theorem marked_concat {rows : List MessageRow} {mark : Option Str}
    {chain : List (List MemoryMessage)} {row : MessageRow}
    (ids : ((rows ++ [row]).map fun row => row.id).Nodup) (marked : Marked rows mark chain) :
    Marked (rows ++ [row]) mark chain := by
  constructor
  · intro id same
    obtain ⟨last, member, named⟩ := marked.named id same
    exact ⟨last, List.mem_append_left _ member, named⟩
  · intro pending chained message summarised
    obtain ⟨earlier, member, same, not_later⟩ := marked.covered pending chained message summarised
    refine ⟨earlier, List.mem_append_left _ member, same, ?_⟩
    rwa [later_iff_of_subset ids (List.subset_append_left rows [row]) marked.named]

namespace State

variable {N : Type} {conversationId userId : Str}

structure Inv (conversationId userId : Str) (s : State N) : Prop where
  ids : ((s.tables.visible conversationId userId).map fun row => row.id).Nodup
  blank : ∀ row ∈ s.tables.visible conversationId userId, row.id ≠ []
  single : (s.tables.shownSummaries conversationId userId).length ≤ 1
  marked : Marked (s.tables.visible conversationId userId) (s.watermark conversationId userId)
    s.chain
  tasks : ∀ n task, s.tasks n = some task →
    TaskOf conversationId userId (s.tables.visible conversationId userId) task

/-- With distinct ids, a message is listed after the mark exactly if it is later. -/
theorem kept_iff_covers {s : State N} (inv : Inv conversationId userId s) :
    s.Kept conversationId userId ↔ Covers (s.tables.visible conversationId userId)
      (s.watermark conversationId userId) s.chain := by
  apply forall₂_congr
  intro row member
  apply or_congr_left
  have listed_iff : row ∈ s.tables.rowsAfter conversationId userId
      (s.watermark conversationId userId) ↔ Later (s.tables.visible conversationId userId)
        (s.watermark conversationId userId) row.createTime :=
    (Tables.mem_rowsAfter inv.ids inv.blank inv.marked.named).trans (and_iff_right member)
  rw [← listed_iff]
  constructor
  · intro listed
    obtain ⟨other, other_member, same⟩ := List.mem_map.mp listed
    have other_member := Tables.mem_byCreateTime.mp other_member
    have same_id : other.id = row.id := congrArg MemoryMessage.id same
    rwa [row_eq_of_id inv.ids (Tables.mem_visible_of_mem_rowsAfter other_member) member same_id]
      at other_member
  · exact fun found => List.mem_map_of_mem (Tables.mem_byCreateTime.mpr found)

/-- A step that leaves the messages, the summaries and their chain, with what its tasks rely on. -/
structure Quiet (conversationId userId : Str) (s t : State N) : Prop where
  messages : t.tables.messages = s.tables.messages
  summaries : t.tables.summaries = s.tables.summaries
  chain : t.chain = s.chain
  tasks : ∀ n task, t.tasks n = some task →
    TaskOf conversationId userId (s.tables.visible conversationId userId) task

theorem Quiet.visible {s t : State N} (quiet : Quiet conversationId userId s t) :
    t.tables.visible conversationId userId = s.tables.visible conversationId userId := by
  rw [Tables.visible, quiet.messages, Tables.visible]

theorem Quiet.watermark {s t : State N} (quiet : Quiet conversationId userId s t) :
    t.watermark conversationId userId = s.watermark conversationId userId := by
  rw [State.watermark, Tables.getLatestSummary, quiet.summaries, State.watermark,
    Tables.getLatestSummary]

theorem Quiet.inv {s t : State N} (quiet : Quiet conversationId userId s t)
    (inv : Inv conversationId userId s) : Inv conversationId userId t where
  ids := by
    rw [quiet.visible]
    exact inv.ids
  blank := by
    rw [quiet.visible]
    exact inv.blank
  single := by
    rw [Tables.shownSummaries, quiet.summaries]
    exact inv.single
  marked := by
    rw [quiet.visible, quiet.watermark, quiet.chain]
    exact inv.marked
  tasks := by
    rw [quiet.visible]
    exact quiet.tasks

section Tasks

variable [DecidableEq N]

theorem tasks_set {s : State N} (inv : Inv conversationId userId s) (n : N) {task : Task}
    (given : TaskOf conversationId userId (s.tables.visible conversationId userId) task) :
    ∀ m found, (s.set n task).tasks m = some found →
      TaskOf conversationId userId (s.tables.visible conversationId userId) found := by
  intro m found at_m
  by_cases same : m = n
  · rw [set_tasks, same, Function.update_self] at at_m
    cases at_m
    exact given
  · rw [set_tasks, Function.update_of_ne same] at at_m
    exact inv.tasks m found at_m

theorem tasks_finish {s : State N} (inv : Inv conversationId userId s) (n : N) :
    ∀ m found, (s.finish n).tasks m = some found →
      TaskOf conversationId userId (s.tables.visible conversationId userId) found := by
  intro m found at_m
  by_cases same : m = n
  · rw [finish_tasks, same, Function.update_self] at at_m
    cases at_m
  · rw [finish_tasks, Function.update_of_ne same] at at_m
    exact inv.tasks m found at_m

theorem quiet_set {s : State N} (inv : Inv conversationId userId s) (n : N) {task : Task}
    (given : TaskOf conversationId userId (s.tables.visible conversationId userId) task) :
    Quiet conversationId userId s (s.set n task) :=
  ⟨rfl, rfl, rfl, tasks_set inv n given⟩

theorem quiet_finish {s : State N} (inv : Inv conversationId userId s) (n : N) :
    Quiet conversationId userId s (s.finish n) :=
  ⟨rfl, rfl, rfl, tasks_finish inv n⟩

end Tasks

/-- A run reads the summary with what is covered at that moment. -/
theorem readOf_current {s : State N} (inv : Inv conversationId userId s)
    (covers : Covers (s.tables.visible conversationId userId) (s.watermark conversationId userId)
      s.chain) :
    ReadOf (s.tables.visible conversationId userId) {
      summary := s.tables.getLatestSummary conversationId userId
      seen := s.tables.visible conversationId userId
      chain := s.chain } :=
  ⟨List.Subset.refl _, inv.marked, covers⟩

/-- A list that a query returns has every message that was there when the summary was read. -/
theorem listedOf_listing {s : State N} {read : SummaryRead} {rows : List MessageRow}
    (inv : Inv conversationId userId s)
    (given : ReadOf (s.tables.visible conversationId userId) read)
    (listing : Listing rows (s.tables.rowsAfter conversationId userId read.lastMessageId)) :
    ListedOf (s.tables.visible conversationId userId) read (rows.map MessageRow.toMessage) := by
  obtain ⟨selected, sorted⟩ := listing
  have named (id : Str) (mark : read.lastMessageId = some id) :
      ∃ last ∈ s.tables.visible conversationId userId, last.id = id := by
    obtain ⟨last, seen, same⟩ := given.marked.named id mark
    exact ⟨last, given.subset seen, same⟩
  have mem_iff (row : MessageRow) : row ∈ rows ↔ row ∈ s.tables.visible conversationId userId ∧
      Later read.seen read.lastMessageId row.createTime := by
    rw [selected.mem_iff, Tables.mem_rowsAfter inv.ids inv.blank named,
      later_iff_of_subset inv.ids given.subset given.marked.named]
  constructor
  · exact List.pairwise_map.mpr sorted
  · rw [List.map_map]
    have selected_ids : ((s.tables.rowsAfter conversationId userId read.lastMessageId).map
        fun row => row.id).Nodup := by
      apply List.Nodup.sublist _ inv.ids
      apply List.Sublist.map
      unfold Tables.rowsAfter
      split
      · exact List.Sublist.refl _
      · exact List.Sublist.refl _
      · exact List.filter_sublist
    exact (selected.map _).nodup_iff.mpr selected_ids
  · intro message member
    obtain ⟨row, row_member, same⟩ := List.mem_map.mp member
    obtain ⟨visible, later⟩ := (mem_iff row).mp row_member
    exact ⟨row, visible, same, later⟩
  · intro row seen later
    exact List.mem_map_of_mem ((mem_iff row).mpr ⟨given.subset seen, later⟩)

theorem Start.getLatestSummary {tables : Tables} (start : Start conversationId userId tables) :
    tables.shownSummaries conversationId userId = [] ∧
      tables.getLatestSummary conversationId userId = none := by
  have none : tables.shownSummaries conversationId userId = [] := by
    apply List.filter_eq_nil_iff.mpr
    intro row member shown
    rw [start.unsummarised row member] at shown
    cases shown
  exact ⟨none, Tables.getLatestSummary_of_none none⟩

theorem inv_start {tables : Tables} (start : Start conversationId userId tables) :
    Inv conversationId userId ({ tables := tables } : State N) := by
  obtain ⟨shown, latest⟩ := start.getLatestSummary
  constructor
  · exact start.ids
  · exact start.named
  · rw [shown]
    exact Nat.zero_le 1
  · rw [State.watermark, latest]
    constructor
    · rintro id ⟨⟩
    · rintro pending ⟨⟩
  · rintro n task ⟨⟩

/-- Without a summary every message is listed. -/
theorem kept_start {tables : Tables} (start : Start conversationId userId tables) :
    ({ tables := tables } : State N).Kept conversationId userId := by
  rw [kept_iff_covers (inv_start start)]
  intro row member
  left
  rw [State.watermark, start.getLatestSummary.2]
  exact later_none _ _

variable [DecidableEq N]

/-- All but a commit of a message and the storing of a summary. -/
theorem quiet_step {service : ConversationMemoryService} {s t : State N} {e : Event N}
    (inv : Inv conversationId userId s)
    (covers : Covers (s.tables.visible conversationId userId) (s.watermark conversationId userId)
      s.chain)
    (uncommitted : ∀ n, e ≠ .commitInsert n) (unstored : ∀ n summaryId, e ≠ .storeSummary n summaryId)
    (taken : s.step service conversationId userId e = some t) :
    Quiet conversationId userId s t := by
  cases e with
  | tick =>
    cases taken
    exact ⟨rfl, rfl, rfl, inv.tasks⟩
  | append n messageId role content =>
    rw [step] at taken
    split at taken
    · rename_i enabled
      cases taken
      exact quiet_set inv n enabled.2
    · cases taken
  | saveConversation n rowId =>
    rw [step] at taken
    split at taken
    · rename_i messageId role content found
      cases taken
      have kept : (s.tables.createOrUpdateConversation s.clock rowId conversationId userId
          (appendTitle content)).messages = s.tables.messages ∧
          (s.tables.createOrUpdateConversation s.clock rowId conversationId userId
          (appendTitle content)).summaries = s.tables.summaries := by
        unfold Tables.createOrUpdateConversation
        split <;> exact ⟨rfl, rfl⟩
      exact ⟨kept.1, kept.2, rfl,
        tasks_set inv n (inv.tasks n (.appending messageId role content) found)⟩
    · cases taken
  | openInsert n =>
    rw [step] at taken
    split at taken
    · rename_i messageId role content found
      cases taken
      apply quiet_set inv n
      constructor
      · exact OwnedRow.shows_iff.mpr ⟨OwnedRow.isOf_iff.mpr ⟨rfl, rfl⟩, rfl⟩
      · exact inv.tasks n _ found
    · cases taken
  | commitInsert n => exact absurd rfl (uncommitted n)
  | compress n =>
    rw [step] at taken
    split at taken
    · cases taken
      split
      · exact quiet_set inv n trivial
      · exact ⟨rfl, rfl, rfl, inv.tasks⟩
    · cases taken
  | acquire n granted =>
    rw [step] at taken
    split at taken
    · cases taken
      split
      · exact quiet_set inv n trivial
      · exact quiet_finish inv n
    · cases taken
  | readSummary n =>
    rw [step] at taken
    split at taken
    · cases taken
      exact quiet_set inv n (readOf_current inv covers)
    · cases taken
  | listMessages n rows =>
    rw [step] at taken
    split at taken
    · rename_i read found
      split at taken
      · rename_i listing
        cases taken
        split
        · exact quiet_finish inv n
        · have given := inv.tasks n _ found
          exact quiet_set inv n ⟨given, listedOf_listing inv given listing⟩
      · cases taken
    · cases taken
  | summarize n content =>
    rw [step] at taken
    split at taken
    · rename_i read listed found
      cases taken
      split
      · exact quiet_finish inv n
      · exact quiet_set inv n (inv.tasks n (.summarising read listed) found)
    · cases taken
  | storeSummary n summaryId => exact absurd rfl (unstored n summaryId)
  | fail n =>
    rw [step] at taken
    split at taken
    · cases taken
    · cases taken
      exact quiet_finish inv n

/-- A commit makes a message visible. -/
theorem commit_step {service : ConversationMemoryService} {s t : State N} {n : N}
    (inv : Inv conversationId userId s)
    (taken : s.step service conversationId userId (.commitInsert n) = some t) :
    ∃ row, s.tasks n = some (.inserting row) ∧
      t.tables.visible conversationId userId = s.tables.visible conversationId userId ++ [row] ∧
      t.watermark conversationId userId = s.watermark conversationId userId ∧ t.chain = s.chain ∧
      Inv conversationId userId t := by
  rw [step] at taken
  split at taken
  · rename_i row found
    split at taken
    · rename_i fresh
      cases taken
      obtain ⟨shown, named⟩ := inv.tasks n _ found
      have visible : (s.tables.insertMessage row).visible conversationId userId =
          s.tables.visible conversationId userId ++ [row] := by
        rw [Tables.visible, Tables.insertMessage, List.filter_append, Tables.visible]
        simp [shown]
      have ids : ((s.tables.visible conversationId userId ++ [row]).map fun row => row.id).Nodup := by
        rw [List.map_append, List.nodup_append]
        refine ⟨inv.ids, List.nodup_singleton _, ?_⟩
        intro id member other other_member
        obtain ⟨earlier, visible, rfl⟩ := List.mem_map.mp member
        rw [List.mem_singleton.mp other_member]
        exact fresh earlier (Tables.mem_visible.mp visible).1
      refine ⟨row, found, visible, rfl, rfl, ?_⟩
      constructor
      · rw [visible]
        exact ids
      · rw [visible]
        intro other member
        rcases List.mem_append.mp member with member | final
        · exact inv.blank other member
        · rw [List.mem_singleton.mp final]
          exact named
      · exact inv.single
      · rw [visible]
        exact marked_concat ids inv.marked
      · rw [visible]
        intro m task at_m
        exact (tasks_finish inv n m task at_m).mono (List.subset_append_left _ _)
    · cases taken
  · cases taken

/-- The storing of a summary moves the mark to the last message of the list. -/
theorem store_step {service : ConversationMemoryService} {s t : State N} {n : N} {summaryId : Str}
    (inv : Inv conversationId userId s)
    (taken : s.step service conversationId userId (.storeSummary n summaryId) = some t) :
    ∃ read listed content last, s.tasks n = some (.storing read listed content) ∧
      (normalizeHistory listed).getLast? = some last ∧
      t.tables.visible conversationId userId = s.tables.visible conversationId userId ∧
      t.watermark conversationId userId = some last.id ∧
      t.chain = read.chain ++ [normalizeHistory listed] ∧ Inv conversationId userId t := by
  rw [step] at taken
  split at taken
  · rename_i read listed content found
    obtain ⟨last, ending, rfl⟩ := Option.map_eq_some_iff.mp taken
    obtain ⟨given, listing⟩ := inv.tasks n _ found
    have messages : (s.tables.upsertSummary s.clock summaryId conversationId userId last.id
        content).messages = s.tables.messages := by
      unfold Tables.upsertSummary
      split <;> rfl
    have visible : (s.tables.upsertSummary s.clock summaryId conversationId userId last.id
        content).visible conversationId userId = s.tables.visible conversationId userId := by
      rw [Tables.visible, messages, Tables.visible]
    obtain ⟨row, shown, marks⟩ :=
      Tables.shown_upsertSummary inv.single s.clock summaryId last.id content
    have watermark : (s.tables.upsertSummary s.clock summaryId conversationId userId last.id
        content).getLatestSummary conversationId userId = some row.toSummary :=
      Tables.getLatestSummary_of_shown shown
    have mark : ((s.tables.upsertSummary s.clock summaryId conversationId userId last.id
        content).getLatestSummary conversationId userId).map MemorySummary.lastMessageId =
          some last.id := by
      rw [watermark, ← marks]
      rfl
    refine ⟨read, listed, content, last, found, ending, visible, mark, rfl, ?_⟩
    constructor
    · rw [visible]
      exact inv.ids
    · rw [visible]
      exact inv.blank
    · rw [shown]
      exact le_rfl
    · rw [visible, State.watermark, mark]
      exact marked_stored inv.ids given listing ending
    · rw [visible]
      exact tasks_finish inv n
  · cases taken

theorem inv_step {service : ConversationMemoryService} {s t : State N} {e : Event N}
    (inv : Inv conversationId userId s) (kept : s.Kept conversationId userId)
    (taken : s.step service conversationId userId e = some t) : Inv conversationId userId t := by
  by_cases commits : ∃ n, e = .commitInsert n
  · obtain ⟨n, rfl⟩ := commits
    obtain ⟨row, -, -, -, -, inv⟩ := commit_step inv taken
    exact inv
  · by_cases stores : ∃ n summaryId, e = .storeSummary n summaryId
    · obtain ⟨n, summaryId, rfl⟩ := stores
      obtain ⟨read, listed, content, last, -, -, -, -, -, inv⟩ := store_step inv taken
      exact inv
    · push Not at commits stores
      exact (quiet_step inv ((kept_iff_covers inv).mp kept) commits stores taken).inv inv

/-- One step keeps every message exactly if it meets the condition. -/
theorem kept_step_iff {service : ConversationMemoryService} {s t : State N} {e : Event N}
    (inv : Inv conversationId userId s) (kept : s.Kept conversationId userId)
    (taken : s.step service conversationId userId e = some t) :
    t.Kept conversationId userId ↔ s.Meets conversationId userId e := by
  have covers := (kept_iff_covers inv).mp kept
  rw [kept_iff_covers (inv_step inv kept taken)]
  have quiet (uncommitted : ∀ n, e ≠ .commitInsert n)
      (unstored : ∀ n summaryId, e ≠ .storeSummary n summaryId) :
      Covers (t.tables.visible conversationId userId) (t.watermark conversationId userId)
        t.chain := by
    have quiet := quiet_step inv covers uncommitted unstored taken
    rw [quiet.visible, quiet.watermark, quiet.chain]
    exact covers
  cases e with
  | commitInsert n =>
    obtain ⟨row, found, visible, watermark, chain, after⟩ := commit_step inv taken
    have ids := after.ids
    rw [visible] at ids
    rw [visible, watermark, chain, Meets, found]
    exact covers_concat_iff ids inv.marked covers
  | storeSummary n summaryId =>
    obtain ⟨read, listed, content, last, found, ending, visible, watermark, chain, -⟩ :=
      store_step inv taken
    obtain ⟨given, listing⟩ := inv.tasks n _ found
    rw [visible, watermark, chain, Meets, found]
    exact covers_stored_iff inv.ids given listing ending
  | _ =>
    apply iff_of_true (quiet _ _) trivial
    · rintro n ⟨⟩
    · rintro n summaryId ⟨⟩

/-- No message is lost between summary and history exactly if every commit is later than the current
summary and every run that stores a summary was given all that is not later than its list. -/
theorem always_remembered_iff {service : ConversationMemoryService} {tables : Tables}
    (start : Start conversationId userId tables) (events : List (Event N)) :
    Always (step service conversationId userId) (Kept conversationId userId) { tables := tables }
        events ↔
      Along (step service conversationId userId) (Meets conversationId userId) { tables := tables }
        events :=
  always_iff_along_while (I := Inv conversationId userId)
    (fun _ _ _ inv kept taken => inv_step inv kept taken)
    (fun _ _ _ inv kept taken => kept_step_iff inv kept taken) (inv_start start) (kept_start start)

theorem start_empty : Start conversationId userId {} :=
  ⟨List.nodup_nil, nofun, nofun⟩

/-- One append from its start to its commit. -/
def appended (n : N) (messageId : String) (role : MemoryRole) (content : String) : List (Event N) :=
  [.tick, .append n (.lit messageId) role (.lit content), .saveConversation n (.lit "convrow"),
    .openInsert n, .commitInsert n]

/-- One compression from its lock to its summary. -/
def compressed (n : N) (rows : List MessageRow) (content : String) : List (Event N) :=
  [.compress n, .acquire n true, .readSummary n, .listMessages n rows, .summarize n (.lit content),
    .storeSummary n (.lit "sum")]

/-- A message of the conversation of the runs below. -/
def rowOf (messageId : String) (role : MemoryRole) (content : String) (time : ℕ) : MessageRow :=
  Tables.insertedMessage time (.lit messageId) (.lit "c") (.lit "7") role (.lit content)

def summarising : ConversationMemoryService where
  historyKeepTurns := 8
  summaryEnabled := true
  summaryBatchSize := 1
  maxContextChars := 6000

/-- Two turns, and two runs with one lock each: the second question commits while the first run
summarises. -/
def twoTurns : List (Event (Fin 2)) :=
  appended 0 "m1" .user "one" ++ appended 0 "m2" .assistant "two" ++
  [.compress 0, .acquire 0 true, .readSummary 0,
    .listMessages 0 [rowOf "m1" .user "one" 1, rowOf "m2" .assistant "two" 2]] ++
  appended 1 "m3" .user "three" ++
  [.summarize 0 (.lit "first"), .storeSummary 0 (.lit "sum")] ++
  compressed 1 [rowOf "m3" .user "three" 3] "second"

theorem always_remembered_twoTurns :
    Always (step summarising (.lit "c") (.lit "7")) (Kept (.lit "c") (.lit "7")) { tables := {} }
      twoTurns :=
  (always_remembered_iff start_empty twoTurns).mpr (by decide +kernel)

/-- The reply to the first of two questions commits after both were summarised, and the next list
starts with it. -/
def replyFirst : List (Event (Fin 2)) :=
  appended 0 "m1" .user "one" ++ appended 1 "m2" .user "two" ++
  compressed 1 [rowOf "m1" .user "one" 1, rowOf "m2" .user "two" 2] "first" ++
  appended 0 "m3" .assistant "answer" ++ appended 1 "m4" .user "three" ++
  compressed 1 [rowOf "m3" .assistant "answer" 3, rowOf "m4" .user "three" 4] "second"

/-- A question whose transaction starts first commits after a later question was summarised. -/
def lateCommit : List (Event (Fin 2)) :=
  [.tick, .append 0 (.lit "m1") .user (.lit "one"), .saveConversation 0 (.lit "convrow"),
    .openInsert 0] ++
  appended 1 "m2" .user "two" ++ compressed 1 [rowOf "m2" .user "two" 2] "first" ++
  [.commitInsert 0]

/-- Both runs lose a message. -/
theorem not_always_remembered :
    (¬ Always (step summarising (.lit "c") (.lit "7")) (Kept (.lit "c") (.lit "7")) { tables := {} }
      replyFirst) ∧
    ¬ Always (step summarising (.lit "c") (.lit "7")) (Kept (.lit "c") (.lit "7")) { tables := {} }
      lateCommit := by
  have lost : (runFrom (step summarising (.lit "c") (.lit "7")) { tables := {} } replyFirst).any
      (fun s => decide (¬ s.Kept (.lit "c") (.lit "7"))) = true ∧
      (runFrom (step summarising (.lit "c") (.lit "7")) { tables := {} } lateCommit).any
      (fun s => decide (¬ s.Kept (.lit "c") (.lit "7"))) = true := by decide +kernel
  constructor
  · intro always
    obtain ⟨t, run, lost⟩ := (Option.any_eq_true _ _).mp lost.1
    exact of_decide_eq_true lost (always.last run)
  · intro always
    obtain ⟨t, run, lost⟩ := (Option.any_eq_true _ _).mp lost.2
    exact of_decide_eq_true lost (always.last run)

end State

end HeyeeAgent.Memory
