import HeyeeAgent.Machine.Selection
import HeyeeAgent.Python.StrMethods

/-! # The history in a rewriting

`_latest_history_messages` takes the messages since one of the last questions, the newest first, and
cuts each of them. One that does not fit behind the others is left out, and the first one is cut to
the limit of all.
-/

namespace HeyeeAgent.Rag

open Python Machine

/-- What the rewriting reads of a message; any text may stand as its role. -/
structure MemoryMessage where
  id : Str
  role : Str
  content : Str

/-- `text[:stop]` -/
def textTo (text : Str) (stop : ℤ) : Str :=
  text.take (if 0 ≤ stop then stop.toNat else (text.length + stop).toNat)

/-- The limits of a `QueryRewriteService` -/
structure HistoryLimits where
  historyTurns : ℤ
  historyMaxChars : ℤ
  historyMessageMaxChars : ℤ

/-- The first loop, over the messages from the newest one on, with the questions seen so far -/
def selectMessages (turns userSeen : ℤ) : List MemoryMessage → List MemoryMessage
  | [] => []
  | message :: older =>
    if message.role = .lit "user" then
      if turns ≤ userSeen + 1 then [message]
      else message :: selectMessages turns (userSeen + 1) older
    else message :: selectMessages turns userSeen older

/-- The variables of the second loop -/
structure Budget where
  budgeted : List MemoryMessage := []
  totalChars : ℤ := 0

def Budget.append (budget : Budget) (message : MemoryMessage) (content : Str) : Budget where
  budgeted := budget.budgeted ++ [{ message with content }]
  totalChars := budget.totalChars + (message.role.length + content.length)

namespace HistoryLimits

variable (limits : HistoryLimits)

def trimMessageContent (content : Str) : Str :=
  let stripped := content.strip
  if stripped.length ≤ limits.historyMessageMaxChars then stripped
  else textTo stripped limits.historyMessageMaxChars

/-- A turn of the second loop -/
def addMessage (budget : Budget) (message : MemoryMessage) : Budget :=
  let content := limits.trimMessageContent message.content
  if content = [] then budget
  else
    let projected := budget.totalChars + message.role.length + content.length
    if budget.budgeted ≠ [] ∧ limits.historyMaxChars < projected then budget
    else if limits.historyMaxChars < projected then
      let content := textTo content (max 0 (limits.historyMaxChars - message.role.length))
      if content = [] then budget else budget.append message content
    else budget.append message content

def latestHistoryMessages (history : List MemoryMessage) : List MemoryMessage :=
  if limits.historyTurns ≤ 0 ∨ limits.historyMaxChars ≤ 0 then []
  else
    let selected := selectMessages limits.historyTurns 0 history.reverse
    (selected.foldl limits.addMessage {}).budgeted.reverse

end HistoryLimits

def isUser (message : MemoryMessage) : Bool := message.role = .lit "user"

/-- The later part begins with the question that is so many from the end, or it is the whole. -/
def FromTurn (turns : ℤ) (older recent : List MemoryMessage) : Prop :=
  (recent.countP isUser = turns ∧ ∃ first ∈ recent.head?, isUser first = true) ∨
    older = [] ∧ recent.countP isUser < turns

/-- The characters of roles and contents -/
def historyChars (messages : List MemoryMessage) : ℕ :=
  (messages.flatMap fun message => message.role ++ message.content).length

section Turns

variable {turns userSeen : ℤ} {message : MemoryMessage} {selected older messages : List MemoryMessage}

/-- What the first loop has selected ends with the question that is so many from the end, or nothing
is left. -/
def Reaches (turns userSeen : ℤ) (selected older : List MemoryMessage) : Prop :=
  (userSeen + selected.countP isUser = turns ∧ ∃ last ∈ selected.getLast?, isUser last = true) ∨
    older = [] ∧ userSeen + selected.countP isUser < turns

theorem Reaches.cons
    (reaches : Reaches turns (userSeen + if isUser message then 1 else 0) selected older) :
    Reaches turns userSeen (message :: selected) older := by
  have count : userSeen + (message :: selected).countP isUser =
      userSeen + (if isUser message then 1 else 0) + selected.countP isUser := by
    rw [List.countP_cons]
    split_ifs <;> push_cast <;> omega
  rw [Reaches, count]
  rcases reaches with ⟨enough, last, ends, user⟩ | few
  · refine .inl ⟨enough, last, ?_, user⟩
    rw [List.getLast?_cons, Option.mem_def.mp ends]
    rfl
  · exact .inr few

theorem selectMessages_reaches (messages : List MemoryMessage) (left : userSeen < turns) :
    ∃ older, messages = selectMessages turns userSeen messages ++ older ∧
      Reaches turns userSeen (selectMessages turns userSeen messages) older := by
  induction messages generalizing userSeen with
  | nil => exact ⟨[], rfl, .inr ⟨rfl, by simpa [selectMessages] using left⟩⟩
  | cons message messages ih =>
    rw [selectMessages]
    split_ifs with user enough
    · have is_user : isUser message = true := decide_eq_true user
      refine ⟨messages, rfl, .inl ⟨?_, message, rfl, is_user⟩⟩
      rw [List.countP_singleton, if_pos is_user]
      omega
    · have is_user : isUser message = true := decide_eq_true user
      obtain ⟨older, split, reaches⟩ := ih (show userSeen + 1 < turns by omega)
      refine ⟨older, congrArg (message :: ·) split, .cons ?_⟩
      rwa [if_pos is_user]
    · have other : isUser message = false := decide_eq_false user
      obtain ⟨older, split, reaches⟩ := ih left
      refine ⟨older, congrArg (message :: ·) split, .cons ?_⟩
      rwa [other, if_neg Bool.false_ne_true, add_zero]

/-- The newest message is one of them. -/
theorem FromTurn.getLast? {recent : List MemoryMessage}
    (from_turn : FromTurn turns older recent) :
    (older ++ recent).getLast? = recent.getLast? := by
  rcases from_turn with ⟨-, first, head, -⟩ | ⟨rfl, -⟩
  · obtain ⟨rest, rfl⟩ := List.head?_eq_some_iff.mp head
    rw [List.getLast?_append, List.getLast?_cons, Option.some_or]
  · rfl

/-- The messages since the question that is so many from the end -/
theorem fromTurn_selectMessages (history : List MemoryMessage) (positive : 0 < turns) :
    ∃ older recent, history = older ++ recent ∧ FromTurn turns older recent ∧
      selectMessages turns 0 history.reverse = recent.reverse := by
  obtain ⟨older, split, reaches⟩ := selectMessages_reaches history.reverse positive
  generalize selectMessages turns 0 history.reverse = selected at split reaches
  refine ⟨older.reverse, selected.reverse, ?_, ?_, selected.reverse_reverse.symm⟩
  · rw [← List.reverse_append, ← split, List.reverse_reverse]
  · rw [FromTurn, List.countP_reverse, List.head?_reverse, List.reverse_eq_nil_iff]
    rwa [Reaches, zero_add] at reaches

end Turns

section Budget

variable {limits : HistoryLimits} {budget : Budget} {message : MemoryMessage} {content : Str}

theorem textTo_prefix (text : Str) (stop : ℤ) : textTo text stop <+: text := List.take_prefix _ _

theorem length_textTo (text : Str) {stop : ℤ} (positive : 0 ≤ stop) :
    ((textTo text stop).length : ℤ) = min stop text.length := by
  rw [textTo, if_pos positive, List.length_take]
  omega

/-- What is left of a message -/
structure Kept (limits : HistoryLimits) (message kept : MemoryMessage) : Prop where
  id : kept.id = message.id
  role : kept.role = message.role
  nonempty : kept.content ≠ []
  starts : kept.content <+: message.content.strip
  fits : kept.content.length ≤ limits.historyMessageMaxChars

theorem trimMessageContent_starts (content : Str) :
    limits.trimMessageContent content <+: content.strip := by
  simp only [HistoryLimits.trimMessageContent]
  split
  · exact List.prefix_rfl
  · exact textTo_prefix _ _

theorem length_trimMessageContent (positive : 0 < limits.historyMessageMaxChars) (content : Str) :
    ((limits.trimMessageContent content).length : ℤ) =
      min limits.historyMessageMaxChars content.strip.length := by
  simp only [HistoryLimits.trimMessageContent]
  split
  · omega
  · rw [length_textTo _ positive.le]

theorem historyChars_append (messages others : List MemoryMessage) :
    historyChars (messages ++ others) = historyChars messages + historyChars others := by
  rw [historyChars, List.flatMap_append, List.length_append, historyChars, historyChars]

theorem historyChars_reverse (messages : List MemoryMessage) :
    historyChars messages.reverse = historyChars messages := by
  induction messages with
  | nil => rfl
  | cons message messages ih =>
    have both := historyChars_append [message] messages
    rw [List.reverse_cons, historyChars_append, ih, Nat.add_comm]
    exact both.symm

/-- The characters are counted, and there are not too many. -/
structure Budget.Sound (limits : HistoryLimits) (budget : Budget) : Prop where
  counted : budget.totalChars = historyChars budget.budgeted
  fits : budget.totalChars ≤ limits.historyMaxChars

theorem Budget.Sound.append (sound : budget.Sound limits)
    (fits : budget.totalChars + message.role.length + content.length ≤ limits.historyMaxChars) :
    (budget.append message content).Sound limits where
  counted := by
    have more : historyChars [{ message with content }] = message.role.length + content.length := by
      simp [historyChars]
    rw [Budget.append, sound.counted, historyChars_append, more]
    push_cast
    rfl
  fits := by
    simp only [Budget.append]
    omega

/-- A message is left out, or a part of it is added that fits. -/
theorem addMessage_cases (positive : 0 < limits.historyMessageMaxChars) (budget : Budget)
    (message : MemoryMessage) :
    limits.addMessage budget message = budget ∨ ∃ content,
      limits.addMessage budget message = budget.append message content ∧
      Kept limits message { message with content } ∧
      (budget.Sound limits →
        budget.totalChars + message.role.length + content.length ≤ limits.historyMaxChars) := by
  have starts : limits.trimMessageContent message.content <+: message.content.strip :=
    trimMessageContent_starts message.content
  have length := length_trimMessageContent positive message.content
  simp only [HistoryLimits.addMessage]
  generalize limits.trimMessageContent message.content = content at starts length
  split_ifs with empty full exceeds none_left
  · exact .inl rfl
  · exact .inl rfl
  · exact .inl rfl
  · -- the first message, cut to what its role leaves
    have alone : budget.budgeted = [] := by
      by_contra some
      exact full ⟨some, exceeds⟩
    have cut := length_textTo content (le_max_left 0 (limits.historyMaxChars - message.role.length))
    have begins := textTo_prefix content (max 0 (limits.historyMaxChars - message.role.length))
    generalize textTo content (max 0 (limits.historyMaxChars - message.role.length)) = part at *
    have long := List.length_pos_iff.mpr none_left
    refine .inr ⟨part, rfl, ⟨rfl, rfl, none_left, begins.trans starts, ?_⟩, fun sound => ?_⟩
    · simp only
      omega
    · have counted := sound.counted
      rw [alone, historyChars, List.flatMap_nil, List.length_nil] at counted
      omega
  · refine .inr ⟨content, rfl, ⟨rfl, rfl, empty, starts, ?_⟩, fun _ => by omega⟩
    simp only
    omega

theorem selects_addMessage (positive : 0 < limits.historyMessageMaxChars) :
    Selects (Kept limits) Budget.budgeted limits.addMessage := by
  intro budget message
  rcases addMessage_cases positive budget message with same | ⟨content, added, kept, -⟩
  · exact .inl (by rw [same])
  · exact .inr ⟨_, kept, by rw [added]; rfl⟩

theorem Budget.Sound.run (positive : 0 < limits.historyMessageMaxChars) (sound : budget.Sound limits)
    (messages : List MemoryMessage) : (messages.foldl limits.addMessage budget).Sound limits := by
  induction messages generalizing budget with
  | nil => exact sound
  | cons message messages ih =>
    apply ih
    rcases addMessage_cases positive budget message with same | ⟨content, added, -, fits⟩
    · rwa [same]
    · rw [added]
      exact sound.append (fits sound)

/-- The first message is added, unless its role takes up everything. -/
theorem addMessage_first (positive : 0 < limits.historyMessageMaxChars)
    (visible : message.content.strip ≠ []) (short : message.role.length < limits.historyMaxChars) :
    (limits.addMessage {} message).budgeted ≠ [] := by
  have length := length_trimMessageContent positive message.content
  have shown := List.length_pos_iff.mpr visible
  have full (content : Str) : (Budget.append {} message content).budgeted ≠ [] :=
    List.append_ne_nil_of_right_ne_nil _ (List.cons_ne_nil _ _)
  simp only [HistoryLimits.addMessage]
  generalize limits.trimMessageContent message.content = content at length
  split_ifs with empty skipped exceeds none_left
  · rw [empty, List.length_nil] at length
    omega
  · exact absurd rfl skipped.1
  · have cut := length_textTo content (le_max_left 0 (limits.historyMaxChars - message.role.length))
    rw [none_left, List.length_nil] at cut
    omega
  · exact full _
  · exact full _

end Budget

/-- What the rewriting reads of a history -/
structure Latest (limits : HistoryLimits) (history latest : List MemoryMessage) : Prop where
  chosen : ∃ older recent chosen, history = older ++ recent ∧
    FromTurn limits.historyTurns older recent ∧ chosen.Sublist recent ∧
    List.Forall₂ (Kept limits) chosen latest ∧
    ∀ newest ∈ history.getLast?, newest.content.strip ≠ [] →
      newest.role.length < limits.historyMaxChars → chosen.getLast? = some newest
  fits : historyChars latest ≤ limits.historyMaxChars

/-- The latest messages of any history are cut to the limits. -/
theorem latest_latestHistoryMessages {limits : HistoryLimits} (turns : 0 < limits.historyTurns)
    (total : 0 < limits.historyMaxChars) (each : 0 < limits.historyMessageMaxChars)
    (history : List MemoryMessage) : Latest limits history (limits.latestHistoryMessages history) := by
  obtain ⟨older, recent, split, from_turn, selected⟩ := fromTurn_selectMessages history turns
  have on : ¬(limits.historyTurns ≤ 0 ∨ limits.historyMaxChars ≤ 0) := by omega
  rw [HistoryLimits.latestHistoryMessages, if_neg on, selected]
  have sound : (Budget.mk [] 0).Sound limits := ⟨rfl, total.le⟩
  have run := sound.run each recent.reverse
  obtain ⟨chosen, part, images, newest⟩ := (selects_addMessage each).foldl_reverse recent
    (show (Budget.mk [] 0).budgeted = [] from rfl)
  refine ⟨⟨older, recent, chosen, split, from_turn, part, images, ?_⟩, ?_⟩
  · intro message last visible short
    rw [split, from_turn.getLast?] at last
    exact newest message last (addMessage_first each visible short)
  · have fits := run.fits
    rw [run.counted] at fits
    rwa [historyChars_reverse]

/-- Two questions with their answers -/
def phoneHistory : List MemoryMessage :=
  [⟨.lit "m1", .lit "user", .lit "I want a phone"⟩, ⟨.lit "m2", .lit "assistant", .lit "See these"⟩,
    ⟨.lit "m3", .lit "user", .lit "Does it charge wirelessly?"⟩,
    ⟨.lit "m4", .lit "assistant", .lit " Yes, and the answer is long "⟩]

def phoneLimits : HistoryLimits := ⟨1, 40, 13⟩

theorem latest_latestHistoryMessages_phone :
    Latest phoneLimits phoneHistory (phoneLimits.latestHistoryMessages phoneHistory) :=
  latest_latestHistoryMessages (by decide) (by decide) (by decide) phoneHistory

example : (phoneLimits.latestHistoryMessages phoneHistory).map MemoryMessage.content =
    [.lit "Does it charg", .lit "Yes, and the "] := by decide +kernel

end HeyeeAgent.Rag
