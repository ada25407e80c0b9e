import HeyeeAgent.InfraAi.ChatTask

/-! # The callback protocol of the chat clients

The calls of a task are the pieces of the lines in their order and one terminal call, unless the
handle is cancelled before; after a cancellation nothing is called. They are also the calls of the
clients as functions of the response.
-/

namespace HeyeeAgent.InfraAi.ChatTask

open Python Python.JsonDecoder Coroutine

def isPiece : CallbackCall → Bool
  | .onThinking _ | .onContent _ => true
  | _ => false

/-- The calls of a task that has ended: the pieces of the lines, then one terminal call unless the
handle was cancelled before, and nothing after its cancellation. -/
structure Protocol (reading : Str → LineReading) (s : StreamTask) : Prop where
  quiet : s.Quiet
  pieces : ∀ call ∈ s.pieces reading, isPiece call = true
  terminal : ∃ terminal, s.calls = s.pieces reading ++ terminal ∧
    (terminal = [] ∧ s.cancelled = true ∨ terminal = [.onComplete] ∨
      (∃ error, terminal = [.onError error]) ∧ s.cancelled = false)
  completes : .onComplete ∈ s.calls ↔ ∃ line ∈ s.lines, (reading line).ending = .completes

section Grammar

variable {setting : ClientSetting} {reading : Str → LineReading} {s : StreamTask}

theorem isPiece_event (event : StreamEvent) : ∀ call ∈ event.calls, isPiece call = true := by
  intro call member
  rcases List.mem_append.mp member with thought | content
  · obtain ⟨_, -, rfl⟩ := Option.map_eq_some_iff.mp (Option.mem_toList.mp thought)
    rfl
  · obtain ⟨_, -, rfl⟩ := Option.map_eq_some_iff.mp (Option.mem_toList.mp content)
    rfl

theorem isPiece_sseReading (line : Str) :
    ∀ call ∈ (sseReading setting line).calls, isPiece call = true := by
  unfold sseReading
  dsimp only
  split
  · simp
  · exact isPiece_event _

theorem isPiece_ollamaLine (repr : Value → Str) (reasoningEnabled : Bool) (line : Str) :
    ∀ call ∈ (ollamaLine repr reasoningEnabled line).1, isPiece call = true := by
  unfold ollamaLine
  split
  · dsimp only
    split
    · intro call member
      rcases List.mem_append.mp member with thought | content
      · split_ifs at thought
        · obtain ⟨_, -, rfl⟩ := Option.map_eq_some_iff.mp (Option.mem_toList.mp thought)
          rfl
        · cases thought
      · obtain ⟨_, -, rfl⟩ := Option.map_eq_some_iff.mp (Option.mem_toList.mp content)
        rfl
    · simp
  · simp

theorem isPiece_ollamaReading (line : Str) :
    ∀ call ∈ (ollamaReading setting line).calls, isPiece call = true := by
  unfold ollamaReading
  split
  · simp
  · exact isPiece_ollamaLine _ _ line

theorem isPiece_pieces (each : ∀ line, ∀ call ∈ (reading line).calls, isPiece call = true) :
    ∀ call ∈ s.pieces reading, isPiece call = true := by
  intro call member
  obtain ⟨line, -, called⟩ := List.mem_flatMap.mp member
  exact each line call called

theorem Ended.protocol (ended : Ended reading s)
    (each : ∀ line, ∀ call ∈ (reading line).calls, isPiece call = true) : Protocol reading s := by
  have pieces := isPiece_pieces (s := s) each
  have no_terminal : CallbackCall.onComplete ∉ s.pieces reading := by
    intro member
    have piece := pieces _ member
    cases piece
  cases ended with
  | completed completed =>
    obtain ⟨before, line, lines, completes, -⟩ := completed.last
    refine ⟨completed.quiet, pieces, ⟨_, completed.calls, .inr (.inl rfl)⟩, iff_of_true ?_ ?_⟩
    · simp [completed.calls]
    · exact ⟨line, by simp [lines], completes⟩
  | stopped opened cancelled =>
    refine ⟨opened.quiet, pieces, ⟨[], by simp [opened.calls], .inl ⟨rfl, cancelled⟩⟩,
      iff_of_false ?_ ?_⟩
    · rwa [opened.calls]
    · rintro ⟨line, member, completes⟩
      exact opened.incomplete line member completes
  | failed failed =>
    obtain ⟨error, calls⟩ := failed.calls
    have running := not_cancelled_iff.mpr failed.uncancelled
    refine ⟨.of_uncancelled failed.uncancelled, pieces,
      ⟨_, calls, .inr (.inr ⟨⟨error, rfl⟩, running⟩)⟩, iff_of_false ?_ ?_⟩
    · simp [calls, no_terminal]
    · rintro ⟨line, member, completes⟩
      exact failed.incomplete line member completes

end Grammar

/-- What a task that ends has come to. -/
def EndsWith (reading : Str → LineReading) (task : TaskCo Unit)
    (tape : List (Turn HandleCall StreamPoint StreamRaised StreamReply)) : Prop :=
  (task {} tape).outcome.Finished →
    (task {} tape).outcome = .returned () ∧ Protocol reading (task {} tape).state

theorem endsWith_of_triple {reading : Str → LineReading} {task : TaskCo Unit}
    (each : ∀ line, ∀ call ∈ (reading line).calls, isPiece call = true)
    (triple : TaskTriple (Open reading) task (fun _ => Ended reading) fun _ _ => False)
    (tape : List (Turn HandleCall StreamPoint StreamRaised StreamReply)) :
    EndsWith reading task tape := by
  intro finished
  have ends := triple {} tape (open_initial reading) fun _ _ => trivial
  cases outcome : (task {} tape).outcome with
  | returned =>
    rw [outcome] at ends
    exact ⟨rfl, Ended.protocol ends each⟩
  | raised x =>
    rw [outcome] at ends
    exact ends.elim
  | suspended =>
    rw [outcome] at finished
    exact finished.elim

section Response

variable {setting : ClientSetting} {reading : Str → LineReading} {s : StreamTask}

/-- The calls that a client makes for a response, by the readings of its lines. -/
def respond (reading : Str → LineReading) (ending : List CallbackCall) : List Str → List CallbackCall
  | [] => ending
  | line :: lines =>
    (reading line).calls ++
      if (reading line).ending = .completes then [.onComplete] else respond reading ending lines

theorem readLines_uncancelled (unlimited : ∀ text, setting.limit text = none) (ending : ResponseEnd)
    (lines : List Str) :
    readLines setting.repr setting.reasoningEnabled ending (uncancelled lines) =
      respond (sseReading setting) (ending.calls "chat stream ended before completion") lines := by
  induction lines with
  | nil => rfl
  | cons line lines ih =>
    change readLines setting.repr setting.reasoningEnabled ending
      ((line, false) :: uncancelled lines) = _
    rw [readLines, respond, sseReading, if_neg Bool.false_ne_true, ih]
    simp only [unlimited, Option.isSome_none, Bool.and_false, Bool.false_eq_true, ↓reduceIte]
    cases parseSseLine setting.repr setting.reasoningEnabled line with
    | none => simp
    | some event => cases event.completed <;> simp

theorem readOllamaLines_uncancelled (unlimited : ∀ text, setting.limit text = none)
    (ending : ResponseEnd) (lines : List Str) :
    readOllamaLines setting.repr setting.reasoningEnabled ending (uncancelled lines) =
      respond (ollamaReading setting) (ending.calls "Ollama stream ended before completion")
        lines := by
  induction lines with
  | nil => rfl
  | cons line lines ih =>
    change readOllamaLines setting.repr setting.reasoningEnabled ending
      ((line, false) :: uncancelled lines) = _
    rw [readOllamaLines, respond, ollamaReading, if_neg Bool.false_ne_true, ih, unlimited line]
    dsimp only
    split_ifs <;> simp_all

/-- Lines that do not complete the stream are passed on one after the other. -/
theorem respond_append {before lines : List Str} {ending : List CallbackCall}
    (incomplete : ∀ line ∈ before, (reading line).ending ≠ .completes) :
    respond reading ending (before ++ lines) =
      (before.flatMap fun line => (reading line).calls) ++ respond reading ending lines := by
  induction before with
  | nil => rfl
  | cons line before ih =>
    have first := incomplete line List.mem_cons_self
    rw [List.cons_append, respond, if_neg first,
      ih fun other member => incomplete other (List.mem_cons_of_mem line member),
      List.flatMap_cons, List.append_assoc]

theorem respond_open {lines : List Str} (ending : List CallbackCall)
    (incomplete : ∀ line ∈ lines, (reading line).ending ≠ .completes) :
    respond reading ending lines = (lines.flatMap fun line => (reading line).calls) ++ ending := by
  rw [← List.append_nil lines, respond_append incomplete, List.append_nil, respond]

/-- A task makes the calls of the response that it saw. -/
theorem Ended.responds (ended : Ended reading s) (incomplete : String) :
    ∃ ending : ResponseEnd, s.calls = respond reading (ending.calls incomplete) s.lines := by
  cases ended with
  | completed completed =>
    obtain ⟨before, line, lines, completes, earlier⟩ := completed.last
    refine ⟨.cancelledError, ?_⟩
    rw [completed.calls, StreamTask.pieces, lines, respond_append earlier, respond, if_pos completes]
    simp
  | stopped opened =>
    refine ⟨.cancelledError, ?_⟩
    rw [opened.calls, respond_open _ opened.incomplete]
    exact (List.append_nil _).symm
  | failed failed =>
    obtain ⟨error, calls⟩ := failed.calls
    refine ⟨.raised error false, ?_⟩
    rw [calls, respond_open _ failed.incomplete]
    rfl

/-- The calls of the tasks are those of the clients on the lines that they handled. -/
theorem calls_runStream (unlimited : ∀ text, setting.limit text = none)
    (ended : Ended (sseReading setting) s) :
    ∃ ending, s.calls =
      runStream setting.repr setting.reasoningEnabled ⟨uncancelled s.lines, ending⟩ := by
  obtain ⟨ending, calls⟩ := ended.responds "chat stream ended before completion"
  exact ⟨ending, calls.trans (readLines_uncancelled unlimited ending s.lines).symm⟩

theorem calls_runOllamaStream (unlimited : ∀ text, setting.limit text = none)
    (ended : Ended (ollamaReading setting) s) :
    ∃ ending, s.calls =
      runOllamaStream setting.repr setting.reasoningEnabled ⟨uncancelled s.lines, ending⟩ := by
  obtain ⟨ending, calls⟩ := ended.responds "Ollama stream ended before completion"
  exact ⟨ending, calls.trans (readOllamaLines_uncancelled unlimited ending s.lines).symm⟩

end Response

/-- A provider that is given nothing special. -/
def plainSetting : ClientSetting where
  repr := fun _ => []
  limit := fun _ => none
  statusError := fun _ => .lit "error"
  providerName := .lit "provider"
  reasoningEnabled := true

/-- A stream that is completed, and whose handle is cancelled while its response is closed. -/
def cancelledClosing : List (Turn HandleCall StreamPoint StreamRaised StreamReply) :=
  [⟨[], .opening, .ok (200 : ℕ)⟩, ⟨[], .nextLine, .ok (some (Str.lit "data: [DONE]"))⟩,
    ⟨[.cancel], .closing, .error .cancelledError⟩, ⟨[], .closing, .ok ()⟩]

end HeyeeAgent.InfraAi.ChatTask
