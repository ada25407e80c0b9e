import HeyeeAgent.Coroutine.Rules
import HeyeeAgent.InfraAi.StreamedText

/-! # The tasks of the chat clients

The task of a stream as a coroutine whose handle others may cancel wherever it is suspended: until
the response is there, at the body of an error, at each line and while the response is closed. A
cancelled task is resumed with `CancelledError`; that a library keeps it back is allowed too. Calls
of the callback neither raise nor suspend. The task keeps the lines that its loop has handled.
-/

namespace HeyeeAgent.InfraAi.ChatTask

open Python Python.JsonDecoder Coroutine Co

inductive StreamPoint where
  | opening
  | errorBody
  | nextLine
  | closing
deriving DecidableEq

/-- The status of the response, the text of an error, and the next line if there is one. -/
abbrev StreamReply : StreamPoint → Type
  | .opening => ℕ
  | .errorBody => Str
  | .nextLine => Option Str
  | .closing => Unit

inductive StreamRaised where
  | cancelledError
  | exception (text : Str)
deriving DecidableEq

structure StreamTask where
  /-- the number of calls before the handle was cancelled -/
  cancelledAfter : Option ℕ := none
  calls : List CallbackCall := []
  lines : List Str := []
deriving DecidableEq

def StreamTask.cancelled (s : StreamTask) : Bool := s.cancelledAfter.isSome

/-- `StreamCancellationHandle.cancel` -/
def StreamTask.cancel (s : StreamTask) : StreamTask :=
  if s.cancelled then s else { s with cancelledAfter := some s.calls.length }

inductive HandleCall where
  | cancel

/-- Closing raises nothing but the cancellation. -/
def streamWorld : World StreamTask HandleCall StreamPoint StreamRaised StreamReply where
  act s _ := some s.cancel
  admits
    | _, s, .error .cancelledError => s.cancelled
    | p, _, .error (.exception _) => decide (p ≠ .closing)
    | _, _, .ok _ => true

abbrev TaskCo := Co StreamTask HandleCall StreamPoint StreamRaised StreamReply

def awaitStream (p : StreamPoint) : TaskCo (StreamReply p) := Co.await streamWorld p

/-- `_notify_callback` -/
def notify (call : CallbackCall) : TaskCo Unit :=
  modify fun s => { s with calls := s.calls ++ [call] }

/-- `async with httpx.AsyncClient(...)` and `client.stream(...)` within it. -/
def withResponse {α : Type} (body : ℕ → TaskCo α) : TaskCo α :=
  (do let status ← awaitStream .opening
      (body status).tryFinally (awaitStream .closing)).tryFinally (awaitStream .closing)

inductive LineEnd where
  | goesOn
  | completes
  | raises (error : Str)
deriving DecidableEq

/-- What the body of the loop makes of a line. -/
structure LineReading where
  calls : List CallbackCall
  ending : LineEnd

/-- `async for line in response.aiter_lines()`, left with whether the task returns. -/
def forLines (reading : Str → LineReading) : TaskCo Bool :=
  repeatUntil do
    match ← awaitStream .nextLine with
    | none => pure (some false)
    | some line =>
      let s ← get
      if s.cancelled then pure (some true)
      else
        modify fun s =>
          { s with calls := s.calls ++ (reading line).calls, lines := s.lines ++ [line] }
        match (reading line).ending with
        | .goesOn => pure none
        | .completes =>
          notify .onComplete
          pure (some true)
        | .raises error => raise (.exception error)

/-- The check after the response and the two handlers; `completed` is set only where the task
returns. -/
def untilCompleted (incomplete : String) (response : TaskCo Bool) : TaskCo Unit :=
  (do let returned ← response
      let s ← get
      onlyIf (!returned && !s.cancelled) (raise (.exception (.lit incomplete)))).tryCatch fun
    | .cancelledError => pure ()
    | .exception error => do
      let s ← get
      onlyIf (!s.cancelled) (notify (.onError error))

section Clients

/-- What a client is given: `repr` and `json.loads` of Python, the error of a text that is over a
limit of the interpreter and so raises something else than a `JSONDecodeError`, and the error of
`raise_for_status`. -/
structure ClientSetting where
  repr : Value → Str
  limit : Str → Option Str
  statusError : ℕ → Str
  providerName : Str
  reasoningEnabled : Bool

variable (setting : ClientSetting)

/-- The line of `_run_stream`; whatever `parse_sse_line` raises, it is skipped. -/
def sseReading (line : Str) : LineReading :=
  let refused := !isDone (ssePayload line) && (setting.limit (ssePayload line)).isSome
  match if refused then none else parseSseLine setting.repr setting.reasoningEnabled line with
  | none => ⟨[], .goesOn⟩
  | some event => ⟨event.calls, if event.completed then .completes else .goesOn⟩

/-- `AbstractOpenAIStyleChatModelClient._run_stream` -/
def runStreamTask : TaskCo Unit :=
  untilCompleted "chat stream ended before completion" <| withResponse fun status => do
    if 400 ≤ status ∧ status ≤ 599 then
      let errorBody ← awaitStream .errorBody
      raise (.exception (setting.providerName ++ .lit " stream chat API failed: HTTP " ++
        .lit (toString status) ++ .lit " body=" ++ errorBody.take 500))
    else forLines (sseReading setting)

def ollamaReading (line : Str) : LineReading :=
  match setting.limit line with
  | some error => ⟨[], .raises error⟩
  | none =>
    let (calls, done) := ollamaLine setting.repr setting.reasoningEnabled line
    ⟨calls, if done then .completes else .goesOn⟩

/-- `OllamaChatModelClient._run_ollama_stream` -/
def runOllamaTask : TaskCo Unit :=
  untilCompleted "Ollama stream ended before completion" <| withResponse fun status => do
    if status < 200 ∨ 299 < status then raise (.exception (setting.statusError status))
    else forLines (ollamaReading setting)

end Clients

section Protocol

variable {reading : Str → LineReading} {s : StreamTask}

/-- Nothing was called since the handle was cancelled. -/
def StreamTask.Quiet (s : StreamTask) : Prop := ∀ n, s.cancelledAfter = some n → s.calls.length = n

/-- The pieces of the lines so far. -/
def StreamTask.pieces (reading : Str → LineReading) (s : StreamTask) : List CallbackCall :=
  s.lines.flatMap fun line => (reading line).calls

/-- The lines so far were passed on, and none of them completes the stream. -/
structure Open (reading : Str → LineReading) (s : StreamTask) : Prop where
  quiet : s.Quiet
  calls : s.calls = s.pieces reading
  incomplete : ∀ line ∈ s.lines, (reading line).ending ≠ .completes

/-- The last line has completed the stream. -/
structure Completed (reading : Str → LineReading) (s : StreamTask) : Prop where
  quiet : s.Quiet
  calls : s.calls = s.pieces reading ++ [.onComplete]
  last : ∃ before line, s.lines = before ++ [line] ∧ (reading line).ending = .completes ∧
    ∀ earlier ∈ before, (reading earlier).ending ≠ .completes

/-- The error was passed on. -/
structure Failed (reading : Str → LineReading) (s : StreamTask) : Prop where
  uncancelled : s.cancelledAfter = none
  calls : ∃ error, s.calls = s.pieces reading ++ [.onError error]
  incomplete : ∀ line ∈ s.lines, (reading line).ending ≠ .completes

/-- The ways in which a task ends. -/
inductive Ended (reading : Str → LineReading) (s : StreamTask) : Prop
  | completed (completed : Completed reading s)
  | stopped (opened : Open reading s) (cancelled : s.cancelled = true)
  | failed (failed : Failed reading s)

theorem StreamTask.Quiet.cancel (quiet : s.Quiet) : s.cancel.Quiet := by
  unfold StreamTask.cancel
  split_ifs with cancelled
  · exact quiet
  · rintro n ⟨⟩
    rfl

@[simp] theorem StreamTask.cancel_calls : s.cancel.calls = s.calls := by
  unfold StreamTask.cancel
  split_ifs <;> rfl

@[simp] theorem StreamTask.cancel_lines : s.cancel.lines = s.lines := by
  unfold StreamTask.cancel
  split_ifs <;> rfl

@[simp] theorem StreamTask.cancelled_cancel : s.cancel.cancelled = true := by
  unfold StreamTask.cancel
  split_ifs with cancelled
  · exact cancelled
  · rfl

theorem Open.cancel (opened : Open reading s) : Open reading s.cancel where
  quiet := opened.quiet.cancel
  calls := by simpa [StreamTask.pieces] using opened.calls
  incomplete := by simpa using opened.incomplete

theorem Completed.cancel (completed : Completed reading s) : Completed reading s.cancel where
  quiet := completed.quiet.cancel
  calls := by simpa [StreamTask.pieces] using completed.calls
  last := by simpa using completed.last

theorem not_cancelled_iff : s.cancelled = false ↔ s.cancelledAfter = none := by
  simp [StreamTask.cancelled]

theorem StreamTask.Quiet.of_uncancelled (uncancelled : s.cancelledAfter = none) : s.Quiet := by
  intro n cancelled
  rw [uncancelled] at cancelled
  cases cancelled

/-- What a task may have come to inside the response, by whether it returns from there. -/
def Leaves (reading : Str → LineReading) (returned : Bool) (s : StreamTask) : Prop :=
  if returned then Completed reading s ∨ Open reading s ∧ s.cancelled = true else Open reading s

/-- What the task may have come to where something is raised. -/
def Raises (reading : Str → LineReading) : StreamRaised → StreamTask → Prop
  | .cancelledError, s => (Completed reading s ∨ Open reading s) ∧ s.cancelled = true
  | .exception _, s => Open reading s

theorem Leaves.cancel {returned : Bool} (leaves : Leaves reading returned s) :
    Leaves reading returned s.cancel := by
  cases returned with
  | false => exact Open.cancel leaves
  | true =>
    rcases leaves with completed | ⟨opened, -⟩
    · exact .inl completed.cancel
    · exact .inr ⟨opened.cancel, s.cancelled_cancel⟩

theorem Raises.cancel {x : StreamRaised} (raises : Raises reading x s) :
    Raises reading x s.cancel := by
  cases x with
  | exception error => exact Open.cancel raises
  | cancelledError =>
    obtain ⟨completed | opened, -⟩ := raises
    · exact ⟨.inl completed.cancel, s.cancelled_cancel⟩
    · exact ⟨.inr opened.cancel, s.cancelled_cancel⟩

abbrev TaskTriple {α : Type} (pre : StreamTask → Prop) (m : TaskCo α)
    (post : α → StreamTask → Prop) (exc : StreamRaised → StreamTask → Prop) : Prop :=
  Triple (fun _ => True) (fun _ => True) pre m post exc

/-- While nothing has been closed, a suspension leaves the task open. -/
theorem await_open (p : StreamPoint) :
    TaskTriple (Open reading) (awaitStream p) (fun _ => Open reading) (Raises reading) := by
  refine Triple.await (fun _ _ => trivial) ?_ (fun _ _ opened _ _ => opened) ?_
  · rintro s event t opened ⟨⟩
    exact opened.cancel
  · intro s x opened admitted _
    cases x with
    | cancelledError => exact ⟨.inr opened, admitted⟩
    | exception error => exact opened

/-- Closing keeps what the cancellation keeps, and raises only the cancellation. -/
theorem await_closing {pre : StreamTask → Prop} {exc : StreamRaised → StreamTask → Prop}
    (stable : ∀ s, pre s → pre s.cancel)
    (raises : ∀ s, pre s → s.cancelled = true → exc .cancelledError s) :
    TaskTriple pre (awaitStream .closing) (fun _ => pre) exc := by
  refine Triple.await (fun _ _ => trivial) ?_ (fun _ _ holds _ _ => holds) ?_
  · rintro s event t holds ⟨⟩
    exact stable s holds
  · intro s x holds admitted _
    cases x with
    | cancelledError => exact raises s holds admitted
    | exception error => exact absurd admitted (by simp [streamWorld])

theorem Leaves.raises {returned : Bool} (leaves : Leaves reading returned s)
    (cancelled : s.cancelled = true) : Raises reading .cancelledError s := by
  cases returned with
  | false => exact ⟨.inr leaves, cancelled⟩
  | true => exact ⟨leaves.imp_right And.left, cancelled⟩

theorem Raises.raises {x : StreamRaised} (raises : Raises reading x s)
    (cancelled : s.cancelled = true) : Raises reading .cancelledError s := by
  cases x with
  | exception error => exact ⟨.inr raises, cancelled⟩
  | cancelledError => exact raises

/-- `async with`: closing comes after any end of the block. -/
theorem closes {pre : StreamTask → Prop} {block : TaskCo Bool}
    (body : TaskTriple pre block (Leaves reading) (Raises reading)) :
    TaskTriple pre (block.tryFinally (awaitStream .closing)) (Leaves reading) (Raises reading) :=
  Triple.tryFinally (Leaves reading) (Raises reading) body
    (fun _ => await_closing (fun _ => Leaves.cancel) fun _ => Leaves.raises)
    (fun _ => await_closing (fun _ => Raises.cancel) fun _ => Raises.raises)

theorem withResponse_triple {body : ℕ → TaskCo Bool}
    (each : ∀ status, TaskTriple (Open reading) (body status) (Leaves reading) (Raises reading)) :
    TaskTriple (Open reading) (withResponse body) (Leaves reading) (Raises reading) :=
  closes <| Triple.bind (fun _ => Open reading) (await_open .opening) fun status =>
    closes (each status)

/-- The task after a line. -/
def StreamTask.handle (reading : Str → LineReading) (line : Str) (s : StreamTask) : StreamTask :=
  { s with calls := s.calls ++ (reading line).calls, lines := s.lines ++ [line] }

theorem pieces_handle (line : Str) :
    (s.handle reading line).pieces reading = s.pieces reading ++ (reading line).calls := by
  simp [StreamTask.handle, StreamTask.pieces]

theorem calls_handle (opened : Open reading s) (line : Str) :
    (s.handle reading line).calls = (s.handle reading line).pieces reading := by
  rw [pieces_handle, ← opened.calls]
  rfl

theorem Open.handle {line : Str} (opened : Open reading s) (uncancelled : s.cancelledAfter = none)
    (goes_on : (reading line).ending ≠ .completes) : Open reading (s.handle reading line) where
  quiet := .of_uncancelled uncancelled
  calls := calls_handle opened line
  incomplete := by
    intro other member
    rcases List.mem_append.mp member with earlier | last
    · exact opened.incomplete other earlier
    · rw [List.mem_singleton.mp last]
      exact goes_on

theorem Open.completes {line : Str} (opened : Open reading s)
    (uncancelled : s.cancelledAfter = none) (completes : (reading line).ending = .completes) :
    Completed reading
      { s.handle reading line with calls := (s.handle reading line).calls ++ [.onComplete] } where
  quiet := .of_uncancelled uncancelled
  calls := congrArg (· ++ [CallbackCall.onComplete]) (calls_handle opened line)
  last := ⟨s.lines, line, rfl, completes, opened.incomplete⟩

theorem forLines_triple :
    TaskTriple (Open reading) (forLines reading) (Leaves reading) (Raises reading) := by
  refine Triple.repeatUntil (fun _ _ => trivial) ?_
  refine Triple.bind (fun _ => Open reading) (await_open .nextLine) fun line? => ?_
  cases line? with
  | none => exact .pure fun _ opened => opened
  | some line =>
    refine Triple.bind (fun seen s => Open reading s ∧ seen = s)
      (.get fun s opened => ⟨opened, rfl⟩) fun seen => ?_
    refine Triple.ite (fun cancelled => ?_) fun running => ?_
    · refine .pure ?_
      rintro s ⟨opened, rfl⟩
      exact .inr ⟨opened, cancelled⟩
    · have uncancelled := not_cancelled_iff.mp (Bool.eq_false_iff.mpr running)
      -- the line is handled without a suspension, so the cancellation cannot come in between
      refine Triple.bind (fun _ s => ∃ before, Open reading before ∧ before.cancelledAfter = none ∧
        s = before.handle reading line) (.modify ?_) fun _ => ?_
      · rintro s ⟨opened, rfl⟩
        exact ⟨seen, opened, uncancelled, rfl⟩
      · cases ending : (reading line).ending with
        | goesOn =>
          refine .pure ?_
          rintro s ⟨before, opened, uncancelled, rfl⟩
          exact opened.handle uncancelled (by simp [ending])
        | raises error =>
          refine .raise ?_
          rintro s ⟨before, opened, uncancelled, rfl⟩
          exact opened.handle uncancelled (by simp [ending])
        | completes =>
          refine Triple.bind (fun _ => Completed reading) (.modify ?_) fun _ =>
            .pure fun _ completed => .inl completed
          rintro s ⟨before, opened, uncancelled, rfl⟩
          exact opened.completes uncancelled ending

/-- Every task ends in one of the three ways, and raises nothing. -/
theorem untilCompleted_triple {response : TaskCo Bool} (incomplete : String)
    (leaves : TaskTriple (Open reading) response (Leaves reading) (Raises reading)) :
    TaskTriple (Open reading) (untilCompleted incomplete response) (fun _ => Ended reading)
      (fun _ _ => False) := by
  refine Triple.tryCatch (fun x s => Raises reading x s) ?_ fun x => ?_
  · refine Triple.bind (Leaves reading) leaves fun returned => ?_
    refine Triple.bind (fun seen s => Leaves reading returned s ∧ seen = s)
      (.get fun s left => ⟨left, rfl⟩) fun seen => ?_
    refine Triple.onlyIf (fun raised => ?_) fun ends => ?_
    · obtain ⟨exhausted, -⟩ := Bool.and_eq_true_iff.mp raised
      have not_returned : returned = false := by simpa using exhausted
      subst not_returned
      exact .raise fun _ left => left.1
    · rintro s ⟨left, rfl⟩
      cases returned with
      | false => exact .stopped left (by simpa using ends)
      | true =>
        rcases left with completed | ⟨opened, cancelled⟩
        · exact .completed completed
        · exact .stopped opened cancelled
  · cases x with
    | cancelledError =>
      refine .pure ?_
      rintro s ⟨completed | opened, cancelled⟩
      · exact .completed completed
      · exact .stopped opened cancelled
    | exception error =>
      refine Triple.bind (fun seen s => Open reading s ∧ seen = s)
        (.get fun s opened => ⟨opened, rfl⟩) fun seen => ?_
      refine Triple.onlyIf (fun running => .modify ?_) fun cancelled => ?_
      · rintro s ⟨opened, rfl⟩
        have uncancelled : seen.cancelled = false := by simpa using running
        exact .failed ⟨not_cancelled_iff.mp uncancelled,
          ⟨error, congrArg (· ++ [CallbackCall.onError error]) opened.calls⟩, opened.incomplete⟩
      · rintro s ⟨opened, rfl⟩
        exact .stopped opened (by simpa using cancelled)

end Protocol

section Tasks

variable (setting : ClientSetting)

theorem open_initial (reading : Str → LineReading) : Open reading {} where
  quiet := .of_uncancelled rfl
  calls := rfl
  incomplete := by
    intro line member
    cases member

theorem runStreamTask_triple :
    TaskTriple (Open (sseReading setting)) (runStreamTask setting)
      (fun _ => Ended (sseReading setting)) (fun _ _ => False) := by
  refine untilCompleted_triple _ (withResponse_triple fun status => ?_)
  refine Triple.ite (fun _ => ?_) fun _ => forLines_triple
  exact Triple.bind (fun _ => Open _) (await_open .errorBody) fun _ => .raise fun _ opened => opened

theorem runOllamaTask_triple :
    TaskTriple (Open (ollamaReading setting)) (runOllamaTask setting)
      (fun _ => Ended (ollamaReading setting)) (fun _ _ => False) := by
  refine untilCompleted_triple _ (withResponse_triple fun status => ?_)
  exact Triple.ite (fun _ => .raise fun _ opened => opened) fun _ => forLines_triple

end Tasks

end HeyeeAgent.InfraAi.ChatTask
