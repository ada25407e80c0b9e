import HeyeeAgent.Memory.ConversationMemoryService

/-! # Messages within the budget

What `_trim_messages_to_budget` leaves of a history. The newest messages are taken up to the budget
and the first of them are dropped up to one of the user. Where none is left, the newest message of
the user stands alone.
-/

namespace HeyeeAgent.Memory

open Python

/-- The characters of messages -/
def chars (messages : List MemoryMessage) : ℕ :=
  (messages.flatMap MemoryMessage.content).length

@[simp] theorem chars_cons (message : MemoryMessage) (messages : List MemoryMessage) :
    chars (message :: messages) = message.content.length + chars messages := by
  rw [chars, List.flatMap_cons, List.length_append, chars]

theorem chars_le_of_suffix {later messages : List MemoryMessage} (ends : later <:+ messages) :
    chars later ≤ chars messages := by
  obtain ⟨front, rfl⟩ := ends
  rw [chars, chars, List.flatMap_append, List.length_append]
  exact Nat.le_add_left _ _

def StartsWithUser (messages : List MemoryMessage) : Prop :=
  ∃ first ∈ messages.head?, first.role = .user

/-- A message of the user after which only the assistant writes -/
def NewestOfUser (messages : List MemoryMessage) (newest : MemoryMessage) : Prop :=
  newest.role = .user ∧ ∃ before after, messages = before ++ newest :: after ∧
    ∀ message ∈ after, message.role = .assistant

/-- What is left of a history with a message of the user -/
structure Trimmed (budget : ℕ) (messages trimmed : List MemoryMessage) : Prop where
  starts : StartsWithUser trimmed
  ends : trimmed <:+ messages ∨ ∃ newest, NewestOfUser messages newest ∧ trimmed = [newest]
  fits : chars trimmed ≤ budget ∨ trimmed.length = 1
  longest : ∀ longer, longer <:+ messages → trimmed.length < longer.length →
    StartsWithUser longer → budget < chars longer

theorem NewestOfUser.of_suffix {later messages : List MemoryMessage} {newest : MemoryMessage}
    (is_newest : NewestOfUser later newest) (ends : later <:+ messages) :
    NewestOfUser messages newest := by
  obtain ⟨user, before, after, rfl, replies⟩ := is_newest
  obtain ⟨front, rfl⟩ := ends
  exact ⟨user, front ++ before, after, (List.append_assoc _ _ _).symm, replies⟩

theorem role_ne_user {message : MemoryMessage} : message.role ≠ .user ↔ message.role = .assistant := by
  cases message.role <;> simp

theorem startsWithUser_normalizeHistory {messages : List MemoryMessage}
    (some : normalizeHistory messages ≠ []) : StartsWithUser (normalizeHistory messages) := by
  induction messages with
  | nil => exact absurd rfl some
  | cons message messages ih =>
    by_cases reply : message.role = .assistant
    · rw [normalizeHistory, List.dropWhile_cons_of_pos (by simpa using reply)] at some ⊢
      exact ih some
    · rw [normalizeHistory, List.dropWhile_cons_of_neg (by simpa using reply)]
      exact ⟨message, rfl, not_ne_iff.mp (mt role_ne_user.mp reply)⟩

/-- A later part that starts with a message of the user is kept. -/
theorem suffix_normalizeHistory {later messages : List MemoryMessage} (ends : later <:+ messages)
    (starts : StartsWithUser later) : later <:+ normalizeHistory messages := by
  induction messages with
  | nil => exact ends
  | cons message messages ih =>
    by_cases reply : message.role = .assistant
    · rw [normalizeHistory, List.dropWhile_cons_of_pos (by simpa using reply)]
      apply ih
      rcases List.suffix_cons_iff.mp ends with rfl | ends
      · obtain ⟨first, ⟨⟩, user⟩ := starts
        rw [reply] at user
        cases user
      · exact ends
    · rwa [normalizeHistory, List.dropWhile_cons_of_neg (by simpa using reply)]

theorem normalizeHistory_eq_nil_iff {messages : List MemoryMessage} :
    normalizeHistory messages = [] ↔ ∀ message ∈ messages, message.role ≠ .user := by
  rw [normalizeHistory, List.dropWhile_eq_nil_iff]
  simp only [role_ne_user, decide_eq_true_eq]

/-- What the loop has taken: the newest messages, more than the budget holds only for one, and no
more of them fit. -/
structure Selected (budget : ℕ) (messages selected : List MemoryMessage) : Prop where
  ends : selected <:+ messages
  some : messages ≠ [] → selected ≠ []
  fits : chars selected ≤ budget ∨ selected.length ≤ 1
  longest : ∀ longer, longer <:+ messages → selected.length < longer.length → budget < chars longer

theorem selected_selectMessages {budget totalChars : ℕ} {selected older : List MemoryMessage}
    (counted : totalChars = chars selected) (fits : chars selected ≤ budget ∨ selected.length ≤ 1) :
    Selected budget (older.reverse ++ selected)
      (selectMessages budget selected totalChars older) := by
  induction older generalizing selected totalChars with
  | nil =>
    refine ⟨List.suffix_rfl, id, fits, fun longer ends more => ?_⟩
    exact absurd ends.length_le (Nat.not_le.mpr more)
  | cons message older ih =>
    rw [selectMessages]
    split_ifs with stop
    · obtain ⟨some, exceeds⟩ := stop
      refine ⟨List.suffix_append _ _, fun _ => some, fits, fun longer ends more => ?_⟩
      -- the next message would be part of what is longer
      have next : message :: selected <:+ longer := by
        refine List.suffix_of_suffix_length_le ?_ ends more
        exact ⟨older.reverse, by simp⟩
      have := chars_le_of_suffix next
      rw [chars_cons] at this
      omega
    · have taken := @ih (totalChars + message.content.length) (message :: selected)
        (by rw [chars_cons]; omega) ?_
      · simpa using taken
      · by_cases none : selected = []
        · exact .inr (by simp [none])
        · rw [chars_cons]
          simp only [none, not_false_eq_true, ne_eq, true_and, not_lt] at stop
          omega

namespace ConversationMemoryService

variable (service : ConversationMemoryService) (messages : List MemoryMessage)

/-- The newest message of the user, found from the end -/
theorem newestOfUser_of_find? {messages : List MemoryMessage} {newest : MemoryMessage}
    (found : messages.reverse.find? (fun message => decide (message.role = .user)) = some newest) :
    NewestOfUser messages newest := by
  obtain ⟨user, after, before, split, replies⟩ := List.find?_eq_some_iff_append.mp found
  refine ⟨of_decide_eq_true user, before.reverse, after.reverse, ?_, fun message member => ?_⟩
  · rw [← List.reverse_reverse messages, split]
    simp
  · have reply := replies message (List.mem_reverse.mp member)
    exact role_ne_user.mp (by simpa using reply)

variable {service messages} in
/-- Some of what is taken starts with a message of the user. -/
theorem trimmed_normalizeHistory {budget : ℕ} {selected : List MemoryMessage}
    (taken : Selected budget (normalizeHistory messages) selected)
    (some : normalizeHistory selected ≠ []) :
    Trimmed budget messages (normalizeHistory selected) := by
  have part : normalizeHistory selected <:+ selected := normalizeHistory_suffix selected
  refine ⟨startsWithUser_normalizeHistory some,
    .inl (part.trans (taken.ends.trans (normalizeHistory_suffix messages))), ?_,
    fun longer ends more starts => ?_⟩
  · rcases taken.fits with fits | single
    · exact .inl ((chars_le_of_suffix part).trans fits)
    · have positive := List.length_pos_iff.mpr some
      have short := part.length_le
      exact .inr (by omega)
  · have ends := suffix_normalizeHistory ends starts
    refine taken.longest longer ends (Nat.lt_of_not_le fun short => ?_)
    -- what is no longer than the selection is a part of it
    have inside := List.suffix_of_suffix_length_le ends taken.ends short
    exact absurd (suffix_normalizeHistory inside starts).length_le (Nat.not_le.mpr more)

variable {service messages} in
/-- Nothing that is taken is a message of the user. -/
theorem trimmed_newest {budget : ℕ} {selected : List MemoryMessage} {newest : MemoryMessage}
    (taken : Selected budget (normalizeHistory messages) selected)
    (none : normalizeHistory selected = []) (is_newest : NewestOfUser messages newest) :
    Trimmed budget messages [newest] := by
  refine ⟨⟨newest, rfl, is_newest.1⟩, .inr ⟨newest, is_newest, rfl⟩, .inr rfl,
    fun longer ends _ starts => ?_⟩
  have ends := suffix_normalizeHistory ends starts
  refine taken.longest longer ends (Nat.lt_of_not_le fun short => ?_)
  have inside := List.suffix_of_suffix_length_le ends taken.ends short
  have kept := suffix_normalizeHistory inside starts
  rw [none, List.suffix_nil] at kept
  obtain ⟨first, head, -⟩ := starts
  rw [kept] at head
  cases head

/-- The history is trimmed to the longest part that fits the budget and starts with a message of the
user. -/
theorem trimmed_trimMessagesToBudget :
    (service.trimMessagesToBudget messages = [] ↔
      ∀ message ∈ messages, message.role ≠ .user) ∧
    (service.trimMessagesToBudget messages = [] ∨
      Trimmed service.maxContextChars messages (service.trimMessagesToBudget messages)) := by
  have taken : Selected service.maxContextChars (normalizeHistory messages)
      (selectMessages service.maxContextChars [] 0 (normalizeHistory messages).reverse) := by
    have loop := @selected_selectMessages service.maxContextChars 0 []
      (normalizeHistory messages).reverse rfl (.inr (Nat.zero_le 1))
    rwa [List.reverse_reverse, List.append_nil] at loop
  rw [← normalizeHistory_eq_nil_iff, trimMessagesToBudget]
  by_cases chosen : normalizeHistory
      (selectMessages service.maxContextChars [] 0 (normalizeHistory messages).reverse) = []
  · rw [if_neg (not_not.mpr chosen)]
    cases found : (normalizeHistory messages).reverse.find? fun message => message.role = .user with
    | none =>
      refine ⟨iff_of_true rfl ?_, .inl rfl⟩
      by_contra some
      obtain ⟨first, head, user⟩ := startsWithUser_normalizeHistory some
      have member := List.mem_reverse.mpr (List.mem_of_head? head)
      exact List.find?_eq_none.mp found first member (decide_eq_true user)
    | some newest =>
      have is_newest := (newestOfUser_of_find? found).of_suffix (normalizeHistory_suffix messages)
      refine ⟨iff_of_false (List.cons_ne_nil _ _) fun none => ?_,
        .inr (trimmed_newest taken chosen is_newest)⟩
      rw [none] at found
      cases found
  · rw [if_pos chosen]
    refine ⟨iff_of_false chosen fun none => chosen ?_, .inr (trimmed_normalizeHistory taken chosen)⟩
    rw [none]
    rfl

end ConversationMemoryService

end HeyeeAgent.Memory
