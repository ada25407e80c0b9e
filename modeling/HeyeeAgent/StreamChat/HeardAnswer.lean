import HeyeeAgent.StreamChat.EventData
import HeyeeAgent.StreamChat.TextFidelity

/-! # What the events say together

An event appends to the answer, or gives it a text where it has none. Read along a word of the
protocol, the events of a stream say the answer and nothing else, or the reply of a queue timeout.
-/

namespace HeyeeAgent.StreamChat.Lifecycle

open Python StreamQueueLimiter Coroutine

/-- A text, or another one in place of none. -/
def textOr (text : Option Str) (default : Str) : Str := (text.filter (· ≠ [])).getD default

/-- What an event makes of the content of the answer. -/
def heard (content : Str) (event : SseEvent) : Str :=
  match event.name with
  | "message" => content ++ (responseDelta event.data).getD []
  | "reject" => content ++ queueTimeoutReply
  | "error" => if content = [] then textOr (dataText "message" event.data) (Str.lit "AI 流式回答失败。")
    else content
  | "cancel" => textOr (some content) (Str.lit "本次回答已停止。")
  | _ => content


/-- The `response` deltas of the events. -/
def spoken (events : List SseEvent) : Str :=
  ((events.filterMap fun event => if event.name = "message" then some event.data else none).filterMap
    responseDelta).flatten

section Letters

variable {content : Str} {event : SseEvent} {events more : List SseEvent} {letter : Letter}
  {said : List Letter} {s : State}

namespace Letter

/-- The name of the events with this letter. -/
def name : Letter → String
  | .queued | .preparing | .answering => "meta"
  | .message => "message"
  | .reject => "reject"
  | .finish => "finish"
  | .error => "error"
  | .cancel => "cancel"
  | .done => "done"

/-- A letter of the events before the terminal one. -/
def Opens (letter : Letter) : Prop := letter.name = "meta" ∨ letter = .message

/-- A letter of the last events of a stream that has not failed. -/
def Closes (letter : Letter) : Prop := letter = .finish ∨ letter = .done

instance : DecidablePred Opens := fun _ => inferInstanceAs (Decidable (_ ∨ _))

instance : DecidablePred Closes := fun _ => inferInstanceAs (Decidable (_ ∨ _))

/-- The letters from the terminal one on; a `finish` comes with its `done` alone. -/
structure Tail (ending : List Letter) : Prop where
  ends : ∀ letter ∈ ending, letter.Closes ∨ letter = .cancel ∨ letter = .error
  alone : .finish ∈ ending → ∀ letter ∈ ending, letter.Closes

theorem Tail.nil : Tail [] := ⟨fun _ member => absurd member List.not_mem_nil,
  fun member => absurd member List.not_mem_nil⟩

theorem tail_of_ending {ending : Letter} (kind : ending = .cancel ∨ ending = .error ∨ ending = .finish) :
    Tail [ending, .done] := by
  rcases kind with rfl | rfl | rfl <;> constructor <;> simp [Closes]

theorem Tail.left {ending rest : List Letter} (tail : Tail (ending ++ rest)) : Tail ending where
  ends letter member := tail.ends letter (List.mem_append_left _ member)
  alone finish letter member :=
    tail.alone (List.mem_append_left _ finish) letter (List.mem_append_left _ member)

end Letter

theorem name_of_letter (read : event.letter = some letter) : event.name = letter.name := by
  rw [SseEvent.letter] at read
  split at read
  · next named =>
    rw [named]
    split_ifs at read <;> cases read <;> rfl
  all_goals cases read
  all_goals assumption

/-- The events are those of an opening and of a part of its ending, or of a rejection. -/
inductive Parted : List Letter → Prop where
  | answer (opening ending : List Letter) (opens : ∀ letter ∈ opening, letter.Opens)
      (tail : Letter.Tail ending) : Parted (opening ++ ending)
  | rejection (ending : List Letter) (closes : ∀ letter ∈ ending, letter.Closes) :
      Parted ([.queued, .reject] ++ ending)

theorem parted_of_cut (opening : List Letter) {ending rest : List Letter} (full : said ++ rest = opening ++ ending)
    (opens : ∀ letter ∈ opening, letter.Opens) (tail : Letter.Tail ending) : Parted said := by
  rcases List.append_eq_append_iff.mp full with ⟨more, early, -⟩ | ⟨part, late, split⟩
  · have opened := Parted.answer said [] (fun letter member => opens letter ?_) .nil
    · rwa [List.append_nil] at opened
    · rw [early]
      exact List.mem_append_left _ member
  · rw [late]
    rw [split] at tail
    exact .answer opening part opens tail.left

/-- A prefix of a word. -/
theorem Prefix.parted (fits : Prefix said) : Parted said := by
  obtain ⟨rest, word⟩ := fits
  generalize full : said ++ rest = whole at word
  cases word with
  | refused => exact parted_of_cut [] full (by simp) (Letter.tail_of_ending (by simp))
  | stopped | unavailable =>
    exact parted_of_cut [.queued] full (by simp [Letter.Opens, Letter.name])
      (Letter.tail_of_ending (by simp))
  | prepared ending kind =>
    exact parted_of_cut [.queued, .preparing] full
      (by simp [Letter.Opens, Letter.name]) (Letter.tail_of_ending (by tauto))
  | answered n ending kind =>
    refine parted_of_cut _ full (fun letter member => ?_) (Letter.tail_of_ending kind)
    rcases List.mem_append.mp member with opening | message
    · simp only [List.mem_cons, List.not_mem_nil, or_false] at opening
      rcases opening with rfl | rfl | rfl <;> exact .inl rfl
    · exact .inr (List.eq_of_mem_replicate message)
  | rejected =>
    have queued : Parted [.queued] := .answer [.queued] [] (by simp [Letter.Opens, Letter.name]) .nil
    match said, full with
    | [], _ => exact .answer [] [] (by simp) .nil
    | [_], full =>
      cases full
      exact queued
    | first :: second :: ending, full =>
      obtain ⟨rfl, rfl, full⟩ := List.cons_eq_cons.mp full |>.imp id List.cons_eq_cons.mp
      refine .rejection ending fun letter member => ?_
      have listed : letter ∈ [Letter.finish, .done] := by
        rw [← (List.cons.inj (List.cons.inj full).2).2]
        exact List.mem_append_left _ member
      simpa [Letter.Closes] using listed

/-- The answer goes on as it is. -/
theorem heard_of_name (content : Str)
    (silent : event.name = "meta" ∨ event.name = "finish" ∨ event.name = "done") :
    heard content event = content := by
  rw [heard]
  rcases silent with named | named | named <;> rw [named] <;> rfl

theorem spoken_append (events more : List SseEvent) :
    spoken (events ++ more) = spoken events ++ spoken more := by
  rw [spoken, List.filterMap_append, List.filterMap_append, List.flatten_append, spoken, spoken]

theorem spoken_of_other (other : event.name ≠ "message") : spoken [event] = [] := by
  rw [spoken, List.filterMap_cons, if_neg other]
  rfl

theorem spoken_cons (event : SseEvent) (events : List SseEvent) :
    spoken (event :: events) = spoken [event] ++ spoken events := spoken_append [event] events

theorem heard_of_opens (content : Str) (read : event.letter = some letter) (opens : letter.Opens) :
    heard content event = content ++ spoken [event] := by
  have named := name_of_letter read
  rcases opens with isMeta | rfl
  · have silent : spoken [event] = [] := spoken_of_other (by rw [named, isMeta]; decide)
    rw [heard_of_name content (.inl (named.trans isMeta)), silent, List.append_nil]
  · have said : spoken [event] = (responseDelta event.data).getD [] := by
      rw [spoken, List.filterMap_cons, if_pos (by exact named)]
      cases delta : responseDelta event.data <;> simp [delta]
    rw [said, heard, named]
    rfl

theorem heard_of_closes (content : Str) (read : event.letter = some letter) (closes : letter.Closes) :
    heard content event = content := by
  have named := name_of_letter read
  rcases closes with rfl | rfl
  · exact heard_of_name content (.inr (.inl named))
  · exact heard_of_name content (.inr (.inr named))

/-- What has some text keeps it from the terminal event on. -/
theorem heard_of_tail (spoken : content ≠ []) (read : event.letter = some letter)
    (tail : letter.Closes ∨ letter = .cancel ∨ letter = .error) : heard content event = content := by
  rcases tail with closes | rfl | rfl
  · exact heard_of_closes content read closes
  · rw [heard, name_of_letter read]
    exact congrArg (Option.getD · _) (Option.filter_some_pos (by simpa using spoken))
  · rw [heard, name_of_letter read]
    exact if_neg spoken

/-- An opening says its deltas. -/
theorem foldl_heard_opens (content : Str)
    (opens : ∀ event ∈ events, ∃ letter, event.letter = some letter ∧ letter.Opens) :
    events.foldl heard content = content ++ spoken events := by
  induction events generalizing content with
  | nil => exact (List.append_nil content).symm
  | cons event events ih =>
    obtain ⟨⟨letter, read, first⟩, opens⟩ := List.forall_mem_cons.mp opens
    rw [List.foldl_cons, heard_of_opens content read first, ih _ opens, List.append_assoc,
      ← spoken_cons]

theorem foldl_heard_same (same : ∀ event ∈ events, heard content event = content) :
    events.foldl heard content = content := by
  induction events with
  | nil => rfl
  | cons event events ih =>
    obtain ⟨first, same⟩ := List.forall_mem_cons.mp same
    rw [List.foldl_cons, first, ih same]

theorem spoken_eq_nil (others : ∀ event ∈ events, event.name ≠ "message") : spoken events = [] := by
  induction events with
  | nil => rfl
  | cons event events ih =>
    obtain ⟨first, others⟩ := List.forall_mem_cons.mp others
    rw [spoken_cons, spoken_of_other first, ih others]
    rfl

/-- The letters of the events, one by one. -/
theorem exists_letter (read : events.map SseEvent.letter = said.map some) :
    ∀ event ∈ events, ∃ letter ∈ said, event.letter = some letter := by
  intro event member
  have listed : event.letter ∈ said.map some := read ▸ List.mem_map_of_mem member
  obtain ⟨letter, member, same⟩ := List.mem_map.mp listed
  exact ⟨letter, member, same.symm⟩

theorem letter_of_finish (named : event.name = "finish") : event.letter = some .finish := by
  rw [SseEvent.letter, named]
  rfl

theorem letter_of_reject (named : event.name = "reject") : event.letter = some .reject := by
  rw [SseEvent.letter, named]
  rfl

/-- An opening, and what comes from the terminal event on. -/
theorem heard_answer {first last : List SseEvent} {opening ending : List Letter}
    (opened : first.map SseEvent.letter = opening.map some)
    (opens : ∀ letter ∈ opening, letter.Opens)
    (ended : last.map SseEvent.letter = ending.map some) (tail : Letter.Tail ending) :
    (spoken (first ++ last) ≠ [] → (first ++ last).foldl heard [] = spoken (first ++ last)) ∧
      ((∃ event ∈ first ++ last, event.name = "finish") →
        (first ++ last).foldl heard [] = spoken (first ++ last) ∧
          ¬ ∃ event ∈ first ++ last, event.name = "reject") := by
  have before : ∀ event ∈ first, ∃ letter, event.letter = some letter ∧ letter.Opens := by
    intro event member
    obtain ⟨letter, listed, read⟩ := exists_letter opened event member
    exact ⟨letter, read, opens letter listed⟩
  have quiet : spoken last = [] := by
    refine spoken_eq_nil fun event member named => ?_
    obtain ⟨letter, listed, read⟩ := exists_letter ended event member
    rw [name_of_letter read] at named
    rcases tail.ends letter listed with (rfl | rfl) | rfl | rfl <;> simp [Letter.name] at named
  have all : spoken (first ++ last) = spoken first := by
    rw [spoken_append, quiet, List.append_nil]
  rw [all, List.foldl_append, foldl_heard_opens [] before, List.nil_append]
  refine ⟨fun said => foldl_heard_same fun event member => ?_, fun finish => ⟨?_, ?_⟩⟩
  · obtain ⟨letter, listed, read⟩ := exists_letter ended event member
    exact heard_of_tail said read (tail.ends letter listed)
  · obtain ⟨finish, listed, named⟩ := finish
    have closing : Letter.finish ∈ ending := by
      rcases List.mem_append.mp listed with early | late
      · obtain ⟨letter, read, opens⟩ := before finish early
        rw [letter_of_finish named] at read
        cases read
        exact absurd opens (by decide)
      · obtain ⟨letter, listed, read⟩ := exists_letter ended finish late
        rw [letter_of_finish named] at read
        cases read
        exact listed
    refine foldl_heard_same fun event member => ?_
    obtain ⟨letter, listed, read⟩ := exists_letter ended event member
    exact heard_of_closes _ read (tail.alone closing letter listed)
  · rintro ⟨event, listed, named⟩
    rcases List.mem_append.mp listed with early | late
    · obtain ⟨letter, read, opens⟩ := before event early
      rw [letter_of_reject named] at read
      cases read
      exact absurd opens (by decide)
    · obtain ⟨letter, listed, read⟩ := exists_letter ended event late
      rw [letter_of_reject named] at read
      cases read
      exact absurd (tail.ends _ listed) (by decide)

/-- A rejection says the reply of the queue timeout. -/
theorem heard_rejection {ending : List Letter} (closes : ∀ letter ∈ ending, letter.Closes)
    (read : events.map SseEvent.letter = ([Letter.queued, .reject] ++ ending).map some) :
    spoken events = [] ∧ events.foldl heard [] = queueTimeoutReply ∧
      ∃ event ∈ events, event.name = "reject" := by
  rw [List.map_append] at read
  obtain ⟨first, last, rfl, opened, ended⟩ := List.map_eq_append_iff.mp read
  obtain ⟨queued, rest, rfl, queue, others⟩ := List.map_eq_cons_iff.mp opened
  obtain ⟨reject, none, rfl, refused, nothing⟩ := List.map_eq_cons_iff.mp others
  obtain rfl := List.map_eq_nil_iff.mp nothing
  have quiet : spoken last = [] := by
    refine spoken_eq_nil fun event member named => ?_
    obtain ⟨letter, listed, read⟩ := exists_letter ended event member
    rw [name_of_letter read] at named
    rcases closes letter listed with rfl | rfl <;> simp [Letter.name] at named
  have named := name_of_letter queue
  have named' := name_of_letter refused
  refine ⟨?_, ?_, reject, by simp, named'⟩
  · rw [spoken_append, spoken_cons, quiet, spoken_of_other (by rw [named]; decide),
      spoken_of_other (by rw [named']; decide)]
    rfl
  · have reply : heard [] reject = queueTimeoutReply := by
      rw [heard, named']
      rfl
    rw [List.foldl_append, List.foldl_cons, List.foldl_cons, List.foldl_nil,
      heard_of_name [] (.inl named), reply]
    refine foldl_heard_same fun event member => ?_
    obtain ⟨letter, listed, read⟩ := exists_letter ended event member
    exact heard_of_closes _ read (closes letter listed)

/-- What the events of a stream say. -/
theorem heard_emitted (fitting : Fitting s) :
    (responseText s ≠ [] → s.emitted.foldl heard [] = responseText s) ∧
      (Sent s "finish" → s.emitted.foldl heard [] = responseText s ∧ ¬ Sent s "reject" ∨
        s.emitted.foldl heard [] = queueTimeoutReply ∧ Sent s "reject") := by
  obtain ⟨said, read, fits⟩ := fitting
  have same : responseText s = spoken s.emitted := rfl
  rw [Said] at read
  rw [same, Sent, Sent]
  generalize s.emitted = events at read ⊢
  cases fits.parted with
  | answer opening ending opens tail =>
    rw [List.map_append] at read
    obtain ⟨first, last, rfl, opened, ended⟩ := List.map_eq_append_iff.mp read
    exact (heard_answer opened opens ended tail).imp_right fun whole finish => .inl (whole finish)
  | rejection ending closes =>
    obtain ⟨silent, reply, refused⟩ := heard_rejection closes read
    exact ⟨fun said => absurd silent said, fun _ => .inr ⟨reply, refused⟩⟩

end Letters

end HeyeeAgent.StreamChat.Lifecycle
