import HeyeeAgent.Knowledge.StartChunking

/-! # Starting the chunking in mock mode and with RocketMQ

What follows the conditional update in a call touches nothing that another call reads, so a call is
its start and the step of its local transaction. The mock raises what the local transaction raises;
`local_execute` turns it into a rollback, after which the send returns as after a commit.
-/

namespace HeyeeAgent.Knowledge.ProducerModes

open Python Machine StartChunking

inductive Mode where
  | mock
  | rocketmq

inductive Failure where
  | http (status : ℕ) (detail : Str)
  | database
  /-- of `json.dumps` -/
  | typeError
  /-- of the encoding of the message's body -/
  | unicodeError
  /-- the target is not in `transaction_state` -/
  | keyError

inductive Outcome where
  | response (response : KnowledgeDocumentChunkStartResponse)
  | failed (failure : Failure)

structure Call where
  documentId : Str
  outcome : Option Outcome := none

structure State (C : Type) where
  db : Database
  calls : C → Option Call := fun _ => none

inductive Event (C : Type) where
  | start (c : C) (documentId : Str)
  /-- the local transaction, and the identifier that the broker gives to the message -/
  | execute (c : C) (commit : Commit) (msgId : Option Str)
  /-- any other write to the documents -/
  | change (docId : Str) (row : Option DocumentRow)

def required : Failure := .http 400 (.lit "document id is required")

def refused : Failure := .http 409 (.lit "document not found or current status cannot start chunking")

variable {C : Type} [DecidableEq C] (cfg : Config)

/-- `local_transaction` -/
def localTransaction (db : Database) (documentId : Str) :
    Commit → Database × Except Failure KnowledgeDocumentChunkTarget
  | .returned =>
    match markDocumentChunkRunningCas db documentId cfg.uploadCreatedBy with
    | (db, some target) => (db, .ok target)
    | (db, none) => (db, .error refused)
  | .failed => (db, .error .database)
  | .unacknowledged =>
    ((markDocumentChunkRunningCas db documentId cfg.uploadCreatedBy).1, .error .database)

/-- The message id that `send_in_transaction` returns, or what it raises -/
def sendInTransaction (key : Str) (result : Except Failure KnowledgeDocumentChunkTarget)
    (msgId : Option Str) : Mode → Except Failure (Option Str)
  | .mock =>
    match result with
    | .ok target =>
      match cfg.dumps (buildChunkMessage target) with
      | some _ => .ok (some (.lit "mock-" ++ key))
      | none => .error .typeError
    | .error failure => .error failure
  -- `local_execute` catches every exception, and the send returns after either status
  | .rocketmq => .ok msgId

/-- What `start_chunking` comes to after the send -/
def respond (sent : Except Failure (Option Str))
    (result : Except Failure KnowledgeDocumentChunkTarget) : Outcome :=
  match sent, result with
  | .error failure, _ => .failed failure
  | .ok messageId, .ok target =>
    .response
      { id := target.id
        knowledgeBaseId := target.kbId
        status := target.status
        messageId := messageId }
  | .ok _, .error _ => .failed .keyError

/-- What a call comes to before its local transaction -/
def startOutcome (documentId : Str) : Mode → Option Outcome
  | .mock => if documentId = [] then some (.failed required) else none
  | .rocketmq =>
    if documentId = [] then some (.failed required)
    else if documentId.encodes then none
    else some (.failed .unicodeError)

def State.call (s : State C) (c : C) (call : Call) : State C :=
  { s with calls := Function.update s.calls c (some call) }

def step (mode : Mode) (s : State C) : Event C → Option (State C)
  | .start c documentId =>
    match s.calls c with
    | some _ => none
    | none =>
      some (s.call c
        { documentId := documentId.strip, outcome := startOutcome documentId.strip mode })
  | .execute c commit msgId =>
    match s.calls c with
    | some call =>
      match call.outcome with
      | some _ => none
      | none =>
        let (db, result) := localTransaction cfg s.db call.documentId commit
        let sent := sendInTransaction cfg call.documentId result msgId mode
        some ({ s with db }.call c { call with outcome := some (respond sent result) })
    | none => none
  | .change docId row =>
    some { s with db := { s.db with documents := Function.update s.db.documents docId row } }

/-- Both modes take the same step. -/
def both (s : State C × State C) (e : Event C) : Option (State C × State C) := do
  let mock ← step cfg .mock s.1 e
  let rocketmq ← step cfg .rocketmq s.2 e
  return (mock, rocketmq)

/-- The same answer, but for the message id -/
def Outcome.Same : Outcome → Outcome → Prop
  | .response r, .response r' =>
    r.id = r'.id ∧ r.knowledgeBaseId = r'.knowledgeBaseId ∧ r.status = r'.status
  | .failed failure, .failed failure' => failure = failure'
  | _, _ => False

/-- Calls for the same document, both without an outcome or with the same one -/
def Call.Same (call call' : Call) : Prop :=
  call.documentId = call'.documentId ∧ Option.Rel Outcome.Same call.outcome call'.outcome

/-- The documents are the same, and so is what every call has come to. -/
structure Same (s : State C × State C) : Prop where
  db : s.1.db = s.2.db
  calls : ∀ c, Option.Rel Call.Same (s.1.calls c) (s.2.calls c)

/-- The row that the conditional update leaves of a pending one -/
def runningRow (row : DocumentRow) : DocumentRow :=
  { row with status := .running, updatedBy := some cfg.uploadCreatedBy }

/-- The local transaction finds the document pending, returns, and its message can be dumped. -/
def Goes (db : Database) (documentId : Str) (commit : Commit) : Prop :=
  commit = .returned ∧ ∃ row ∈ db.pendingDocument documentId,
    (cfg.dumps (buildChunkMessage ((runningRow cfg row).chunkTarget documentId))).isSome = true

/-- The condition under which a step has the same answer in both modes -/
def Meets (s : State C × State C) : Event C → Prop
  | .start _ documentId => documentId.strip = [] ∨ documentId.strip.encodes = true
  | .execute c commit _ => ∀ call ∈ s.1.calls c, Goes cfg s.1.db call.documentId commit
  | .change _ _ => True

section Answers

variable {cfg} {db : Database} {documentId : Str} {commit : Commit}

theorem localTransaction_of_goes (goes : Goes cfg db documentId commit) : ∃ db' target message,
    localTransaction cfg db documentId commit = (db', .ok target) ∧
      cfg.dumps (buildChunkMessage target) = some message := by
  obtain ⟨rfl, row, pending, dumps⟩ := goes
  obtain ⟨message, dumps⟩ := Option.isSome_iff_exists.mp dumps
  rw [Option.mem_def] at pending
  refine ⟨db.updateDocument documentId fun _ => runningRow cfg row, _, message, ?_, dumps⟩
  rw [localTransaction, markDocumentChunkRunningCas, pending]
  rfl

/-- A local transaction that gives a target whose message can be dumped has found it pending. -/
theorem goes_of_localTransaction {db' : Database} {target : KnowledgeDocumentChunkTarget}
    (executed : localTransaction cfg db documentId commit = (db', .ok target))
    (dumps : (cfg.dumps (buildChunkMessage target)).isSome = true) :
    Goes cfg db documentId commit := by
  cases commit with
  | failed => cases executed
  | unacknowledged => cases executed
  | returned =>
    rw [localTransaction, markDocumentChunkRunningCas] at executed
    cases pending : db.pendingDocument documentId with
    | none =>
      rw [pending] at executed
      cases executed
    | some row =>
      rw [pending] at executed
      cases executed
      exact ⟨rfl, row, pending, dumps⟩

/-- A local transaction fails with an answer or an error of the database. -/
theorem failure_ne_keyError {db' : Database} {failure : Failure}
    (executed : localTransaction cfg db documentId commit = (db', .error failure)) :
    failure ≠ .keyError := by
  rintro rfl
  cases commit with
  | failed => cases executed
  | unacknowledged => cases executed
  | returned =>
    rw [localTransaction, markDocumentChunkRunningCas] at executed
    cases pending : db.pendingDocument documentId <;> rw [pending] at executed <;> cases executed

/-- The answers are the same exactly if the local transaction goes through. -/
theorem same_respond_iff {db' : Database} {result : Except Failure KnowledgeDocumentChunkTarget}
    (msgId : Option Str) (executed : localTransaction cfg db documentId commit = (db', result)) :
    Outcome.Same (respond (sendInTransaction cfg documentId result msgId .mock) result)
      (respond (sendInTransaction cfg documentId result msgId .rocketmq) result) ↔
    Goes cfg db documentId commit := by
  constructor
  · intro same
    cases result with
    | error failure => exact absurd same (failure_ne_keyError executed)
    | ok target =>
      cases dumps : cfg.dumps (buildChunkMessage target) with
      | none =>
        rw [sendInTransaction, dumps] at same
        cases same
      | some message => exact goes_of_localTransaction executed (by rw [dumps]; rfl)
  · intro goes
    obtain ⟨db'', target, message, executed', dumps⟩ := localTransaction_of_goes goes
    cases executed.symm.trans executed'
    rw [sendInTransaction, dumps]
    exact ⟨rfl, rfl, rfl⟩

theorem same_startOutcome_iff : Option.Rel Outcome.Same (startOutcome documentId .mock)
    (startOutcome documentId .rocketmq) ↔ documentId = [] ∨ documentId.encodes = true := by
  rw [startOutcome, startOutcome]
  split_ifs with blank encodes
  · exact iff_of_true (.some rfl) (.inl blank)
  · exact iff_of_true .none (.inr encodes)
  · refine iff_of_false (fun same => by cases same) ?_
    rintro (blank' | encodes')
    · exact blank blank'
    · exact encodes encodes'

/-- The call of the broker's model answers as this one does with RocketMQ. -/
theorem respond_localTransaction (messageId : Option Str) :
    (StartChunking.localTransaction cfg db { documentId } commit).1 =
      (localTransaction cfg db documentId commit).1 ∧
    StartChunking.respond (StartChunking.localTransaction cfg db { documentId } commit).2 true
      messageId =
      match respond (.ok messageId) (localTransaction cfg db documentId commit).2 with
      | .response response => .responded response
      | .failed _ => .raised := by
  cases commit with
  | failed => exact ⟨rfl, rfl⟩
  | returned =>
    rw [StartChunking.localTransaction, localTransaction, markDocumentChunkRunningCas]
    cases pending : db.pendingDocument documentId <;> exact ⟨rfl, rfl⟩
  | unacknowledged =>
    rw [StartChunking.localTransaction, localTransaction, markDocumentChunkRunningCas]
    cases pending : db.pendingDocument documentId <;> exact ⟨rfl, rfl⟩

end Answers

section Steps

variable {cfg} {s t : State C × State C} {e : Event C}

theorem both_some_iff : both cfg s e = some t ↔
    step cfg .mock s.1 e = some t.1 ∧ step cfg .rocketmq s.2 e = some t.2 := by
  obtain ⟨mock, rocketmq⟩ := t
  simp only [both, Option.bind_eq_bind, Option.bind_eq_some_iff, Option.pure_def, Option.some_inj,
    Prod.mk.injEq]
  constructor
  · rintro ⟨mock', first, rocketmq', second, rfl, rfl⟩
    exact ⟨first, second⟩
  · rintro ⟨first, second⟩
    exact ⟨mock, first, rocketmq, second, rfl, rfl⟩

/-- Calls that are written back in both modes -/
theorem same_call_iff {c : C} {call call' : Call} {db : Database} (same : Same s) :
    Same ({ s.1 with db }.call c call, { s.2 with db }.call c call') ↔ Call.Same call call' := by
  constructor
  · intro later
    have here := later.calls c
    simp only [State.call, Function.update_self] at here
    cases here with
    | some same => exact same
  · intro here
    refine ⟨rfl, fun other => ?_⟩
    by_cases equal : other = c
    · rw [equal]
      simp only [State.call, Function.update_self]
      exact .some here
    · simp only [State.call, Function.update_of_ne equal]
      exact same.calls other

theorem step_start_iff {mode : Mode} {s t : State C} {c : C} {documentId : Str} :
    step cfg mode s (.start c documentId) = some t ↔ s.calls c = none ∧
      s.call c ⟨documentId.strip, startOutcome documentId.strip mode⟩ = t := by
  rw [step]
  cases s.calls c <;> simp

/-- The call after its local transaction -/
def Call.executed (cfg : Config) (mode : Mode) (db : Database) (commit : Commit)
    (msgId : Option Str) (call : Call) : Call :=
  let result := (localTransaction cfg db call.documentId commit).2
  { call with
    outcome := some (respond (sendInTransaction cfg call.documentId result msgId mode) result) }

theorem step_execute_iff {mode : Mode} {s t : State C} {c : C} {commit : Commit}
    {msgId : Option Str} : step cfg mode s (.execute c commit msgId) = some t ↔
      ∃ call, s.calls c = some call ∧ call.outcome = none ∧
        { s with db := (localTransaction cfg s.db call.documentId commit).1 }.call c
          (call.executed cfg mode s.db commit msgId) = t := by
  rw [step]
  cases s.calls c with
  | none => simp
  | some call => cases waiting : call.outcome <;> simp [Call.executed, waiting]

theorem rel_none_iff {α β : Type*} {R : α → β → Prop} {a : Option α} {b : Option β}
    (same : Option.Rel R a b) : a = none ↔ b = none := by
  cases same <;> simp

theorem rel_some {α β : Type*} {R : α → β → Prop} {a : α} {b : Option β}
    (same : Option.Rel R (some a) b) : ∃ b', b = some b' ∧ R a b' := by
  cases same with
  | some related => exact ⟨_, rfl, related⟩

/-- While the answers are the same, an event is enabled in both modes or in none. -/
theorem enabled_iff (same : Same s) :
    (step cfg .mock s.1 e).isSome ↔ (step cfg .rocketmq s.2 e).isSome := by
  cases e with
  | start c documentId =>
    rw [Option.isSome_iff_exists, Option.isSome_iff_exists]
    simp only [step_start_iff, exists_and_left, exists_eq', and_true]
    exact rel_none_iff (same.calls c)
  | execute c commit msgId =>
    rw [Option.isSome_iff_exists, Option.isSome_iff_exists]
    simp only [step_execute_iff]
    constructor
    · rintro ⟨-, call, found, waiting, -⟩
      obtain ⟨call', found', equal⟩ := rel_some (found ▸ same.calls c)
      exact ⟨_, call', found', (rel_none_iff equal.2).mp waiting, rfl⟩
    · rintro ⟨-, call', found', waiting, -⟩
      have calls := same.calls c
      rw [found'] at calls
      cases found : s.1.calls c with
      | none => rw [found] at calls; cases calls
      | some call =>
        rw [found] at calls
        cases calls with
        | some equal => exact ⟨_, call, rfl, (rel_none_iff equal.2).mpr waiting, rfl⟩
  | change docId row => exact Iff.rfl

/-- A step keeps the answers the same exactly if it meets the condition. -/
theorem same_step_iff (same : Same s) (taken : both cfg s e = some t) :
    Same t ↔ Meets cfg s e := by
  obtain ⟨mock, rocketmq⟩ := t
  obtain ⟨first, second⟩ := both_some_iff.mp taken
  cases e with
  | start c documentId =>
    obtain ⟨-, rfl⟩ := step_start_iff.mp first
    obtain ⟨-, rfl⟩ := step_start_iff.mp second
    have db : s.2 = { s.2 with db := s.1.db } := by rw [same.db]
    rw [db]
    refine (same_call_iff same).trans ?_
    rw [Call.Same, same_startOutcome_iff]
    exact and_iff_right rfl
  | execute c commit msgId =>
    obtain ⟨call, found, waiting, rfl⟩ := step_execute_iff.mp first
    obtain ⟨call', found', waiting', rfl⟩ := step_execute_iff.mp second
    obtain ⟨other, found'', sameId, -⟩ := rel_some (found ▸ same.calls c)
    obtain rfl := Option.some.inj (found'.symm.trans found'')
    rw [← same.db, ← sameId]
    refine (same_call_iff same).trans ?_
    have answers := same_respond_iff msgId
      (Prod.mk.eta (p := localTransaction cfg s.1.db call.documentId commit)).symm
    rw [Meets, found]
    simp only [Option.mem_def, Option.some_inj, forall_eq']
    rw [← answers, Call.Same, Call.executed, Call.executed, ← sameId]
    constructor
    · rintro ⟨-, outcomes⟩
      cases outcomes with
      | some equal => exact equal
    · exact fun equal => ⟨rfl, .some equal⟩
  | change docId row =>
    obtain rfl := Option.some.inj first
    obtain rfl := Option.some.inj second
    exact iff_of_true ⟨by rw [same.db], same.calls⟩ trivial

end Steps

def initial (db : Database) : State C := { db }

/-- In every run of calls, from any documents, each call has the same answer and effect in both modes
exactly as long as every local transaction goes through. -/
theorem always_same_iff (cfg : Config) (db : Database) (es : List (Event C)) :
    Always (both cfg) Same (initial db, initial db) es ↔
      Along (both cfg) (Meets cfg) (initial db, initial db) es :=
  always_iff_along (I := fun _ => True) (fun _ _ _ _ _ => trivial)
    (fun _ _ _ _ same taken => same_step_iff same taken) trivial ⟨rfl, fun _ => .none⟩

section Runs

/-- A document whose chunking has started -/
private def startedManual : Database where
  documents docId :=
    if docId = .lit "doc-1" then
      some
        { kbId := .lit "kb-1"
          docName := .lit "manual.pdf"
          fileUrl := .lit "s3://bucket/manual.pdf"
          fileType := .lit "pdf"
          fileSize := some 123
          status := .running
          sourceType := .lit "FILE"
          chunkStrategy := .lit "fixed_size"
          chunkConfig := none
          createdBy := none
          updatedBy := none }
    else none

private def dumping : Config where
  dumps _ := some []

/-- Started once more, the mock answers that the document cannot be started, and the producer of
RocketMQ leaves the call without a target. -/
theorem startedManual_not_same : ¬ ∀ (cfg : Config) (db : Database) (es : List (Event ℕ)),
    Always (both cfg) Same (initial db, initial db) es := by
  intro all
  have always := all dumping startedManual
    [.start 0 (.lit "doc-1"), .execute 0 .returned (some (.lit "msg-1"))]
  have last := always.last (by rfl)
  have here : Option.Rel Call.Same (some ⟨.lit "doc-1", some (.failed refused)⟩)
      (some ⟨.lit "doc-1", some (.failed .keyError)⟩) := last.calls 0
  cases here with
  | some same =>
    cases same.2 with
    | some equal => cases equal

end Runs

end HeyeeAgent.Knowledge.ProducerModes
