import HeyeeAgent.Knowledge.Repository
import HeyeeAgent.Machine.Run
import HeyeeAgent.Messaging.HalfMessages

/-! # Starting the chunking of a document

Any number of `start_chunking` calls, each with a `TransactionMQProducer` of its own in one producer
group. `send_message_in_transaction` stores the half message, runs `local_execute` and gives its
verdict; the broker may ask any live producer of the group about a message that is undecided. What a
commit acknowledges can be lost on its way, and a process can stop.
-/

namespace HeyeeAgent.Knowledge.StartChunking

open Python Python.JsonDecoder Machine Messaging

structure Config where
  uploadCreatedBy : Str := .lit "agent"
  /-- `json.dumps`, which can raise -/
  dumps : Value → Option Str

/-- `_build_chunk_message` -/
def buildChunkMessage (target : KnowledgeDocumentChunkTarget) : Value :=
  .obj
    [(.lit "docId", .str target.id),
      (.lit "kbId", .str target.kbId),
      (.lit "docName", .str target.docName),
      (.lit "fileUrl", .str target.fileUrl),
      (.lit "fileType", .str target.fileType),
      (.lit "fileSize", .number (.lit (toString target.fileSize))),
      (.lit "sourceType", .str target.sourceType),
      (.lit "sourceLocation", (target.sourceLocation.map .str).getD .null),
      (.lit "chunkStrategy", .str target.chunkStrategy),
      (.lit "chunkConfig", .obj target.chunkConfig),
      (.lit "status", .str target.status.text)]

structure KnowledgeDocumentChunkStartResponse where
  id : Str
  knowledgeBaseId : Str
  status : DocumentStatus
  messageId : Option Str

/-- Where a call is suspended. -/
inductive Stage where
  /-- at `producer.start()` -/
  | starting
  /-- the half message is on its way to the broker -/
  | sending
  /-- in `local_execute`, at `local_transaction()` -/
  | executing
  /-- in `local_execute`, behind the assignment to the holder -/
  | validating (target : KnowledgeDocumentChunkTarget)
  /-- `local_execute` has returned -/
  | answering (verdict : Verdict)
  /-- at `producer.shutdown()`; whether the send has returned -/
  | closing (returned : Bool)
  | responded (response : KnowledgeDocumentChunkStartResponse)
  | raised
  /-- its process has stopped -/
  | stopped

/-- The producer of the call answers the checks of its group. -/
def Stage.live : Stage → Bool
  | sending | executing | validating _ | answering _ | closing _ => true
  | starting | responded _ | raised | stopped => false

structure Call where
  documentId : Str
  stage : Stage := .starting
  transactionState : Option KnowledgeDocumentChunkTarget := none
  transactionHolder : Option KnowledgeDocumentChunkTarget := none
  /-- the conditional update of this call has taken effect -/
  moved : Bool := false

/-- `check_callback`, which does not look at the message -/
def Call.checkCallback (call : Call) : Verdict :=
  if call.transactionHolder.isSome then .commit else .rollback

/-- How the transaction ends for its caller. -/
inductive Commit where
  | returned
  /-- an error, with nothing committed -/
  | failed
  /-- an error after the commit has taken effect -/
  | unacknowledged
deriving DecidableEq

structure State (C : Type) where
  db : Database
  calls : C → Option Call := fun _ => none
  broker : Broker C := {}

inductive Event (C : Type) where
  | start (c : C) (documentId : Str)
  | producerStart (c : C) (started : Bool)
  /-- the half message was stored, and the client knows it -/
  | half (c : C) (stored accepted : Bool)
  | localTransaction (c : C) (commit : Commit)
  | validate (c : C)
  | endTransaction (c : C) (sent returned : Bool)
  | shutdown (c : C) (messageId : Option Str)
  /-- the broker asks the producer of one call about the message of another -/
  | check (asked producer : C)
  | arrive (c : C) (verdict : Verdict)
  | lose (c : C) (verdict : Verdict)
  /-- any other write to the documents -/
  | change (docId : Str) (row : Option DocumentRow)
  | stop (c : C)

variable {C : Type} [DecidableEq C]

namespace State

def call (s : State C) (c : C) (call : Call) : State C :=
  { s with calls := Function.update s.calls c (some call) }

/-- The conditional update of the call took effect. -/
def Moved (s : State C) (c : C) : Prop := ∃ call, s.calls c = some call ∧ call.moved = true

instance (s : State C) (c : C) : Decidable (s.Moved c) :=
  decidable_of_iff ((s.calls c).any Call.moved = true) (by simp [Moved, Option.any_eq_true])

end State

/-- `local_transaction` inside `local_execute`: the conditional update, its commit, and what follows
from its answer up to the assignment to the holder. -/
def localTransaction (cfg : Config) (db : Database) (call : Call) : Commit → Database × Call
  | .returned =>
    match markDocumentChunkRunningCas db call.documentId cfg.uploadCreatedBy with
    | (db, some target) =>
      (db, { call with
        stage := .validating target
        transactionState := some target
        transactionHolder := some target
        moved := true })
    | (db, none) => (db, { call with stage := .answering .rollback })
  | .failed => (db, { call with stage := .answering .rollback })
  | .unacknowledged =>
    match markDocumentChunkRunningCas db call.documentId cfg.uploadCreatedBy with
    | (db, target) => (db, { call with stage := .answering .rollback, moved := target.isSome })

/-- The rest of `local_execute`. -/
def validate (cfg : Config) (target : KnowledgeDocumentChunkTarget) : Verdict :=
  match cfg.dumps (buildChunkMessage target) with
  | some _ => .commit
  | none => .rollback

/-- What `start_chunking` does once the producer is shut down. -/
def respond (call : Call) (returned : Bool) (messageId : Option Str) : Stage :=
  match returned, call.transactionState with
  | true, some target =>
    .responded
      { id := target.id
        knowledgeBaseId := target.kbId
        status := target.status
        messageId := messageId }
  | _, _ => .raised

/-- One step of the calls, of the broker or of the rest of the program; `none` if the event is not
enabled. -/
def step (cfg : Config) (s : State C) : Event C → Option (State C)
  | .start c documentId =>
    match s.calls c with
    | some _ => none
    | none =>
      let documentId := documentId.strip
      some (s.call c { documentId, stage := if documentId = [] then .raised else .starting })
  | .producerStart c started =>
    match s.calls c with
    | some call =>
      match call.stage with
      | .starting =>
        some (s.call c { call with stage := if started then .sending else .raised })
      | _ => none
    | none => none
  | .half c stored accepted =>
    match s.calls c with
    | some call =>
      match call.stage with
      | .sending =>
        if accepted = true ∧ stored = false then none
        else
          let s := if stored then { s with broker := s.broker.store c } else s
          some (s.call c { call with stage := if accepted then .executing else .closing false })
      | _ => none
    | none => none
  | .localTransaction c commit =>
    match s.calls c with
    | some call =>
      match call.stage with
      | .executing =>
        let (db, call) := localTransaction cfg s.db call commit
        some ({ s with db }.call c call)
      | _ => none
    | none => none
  | .validate c =>
    match s.calls c with
    | some call =>
      match call.stage with
      | .validating target =>
        some (s.call c { call with stage := .answering (validate cfg target) })
      | _ => none
    | none => none
  | .endTransaction c sent returned =>
    match s.calls c with
    | some call =>
      match call.stage with
      | .answering verdict =>
        let s := if sent then { s with broker := s.broker.send c verdict } else s
        some (s.call c { call with stage := .closing returned })
      | _ => none
    | none => none
  | .shutdown c messageId =>
    match s.calls c with
    | some call =>
      match call.stage with
      | .closing returned => some (s.call c { call with stage := respond call returned messageId })
      | _ => none
    | none => none
  | .check asked producer =>
    match s.calls producer with
    | some call =>
      if call.stage.live = true ∧ s.broker.halves asked = some .undecided then
        some { s with broker := s.broker.send asked call.checkCallback }
      else none
    | none => none
  | .arrive c verdict =>
    if (c, verdict) ∈ s.broker.verdicts then some { s with broker := s.broker.arrive c verdict }
    else none
  | .lose c verdict =>
    if (c, verdict) ∈ s.broker.verdicts then some { s with broker := s.broker.lose c verdict }
    else none
  | .change docId row =>
    some { s with db := { s.db with documents := Function.update s.db.documents docId row } }
  | .stop c =>
    match s.calls c with
    | some call => some (s.call c { call with stage := .stopped })
    | none => none

def initial (db : Database) : State C := { db }

/-- The message of each call is visible to the consumers exactly if its own conditional update moved
the document; while the broker is undecided it may become either. -/
def Agreed (s : State C) : Prop :=
  ∀ c, match s.broker.halves c with
    | none => ¬ s.Moved c
    | some .undecided => True
    | some .visible => s.Moved c
    | some .discarded => ¬ s.Moved c

/-- The conditional update of the call takes effect. -/
def takesEffect (db : Database) (call : Call) (commit : Commit) : Bool :=
  commit ≠ .failed && (db.pendingDocument call.documentId).isSome

/-- `json.dumps` accepts the message that the call has built. -/
def Call.dumps (cfg : Config) (call : Call) : Bool :=
  match call.stage with
  | .validating target => (cfg.dumps (buildChunkMessage target)).isSome
  | _ => true

/-- The condition under which a step cannot part a message from the document. -/
def Meets (cfg : Config) (s : State C) : Event C → Prop
  | .localTransaction c commit => ∀ call ∈ s.calls c, takesEffect s.db call commit →
      commit = .returned ∧ s.broker.Open c
  | .validate c => ∀ call ∈ s.calls c, call.dumps cfg
  | .check asked producer => ∀ call ∈ s.calls producer,
      (call.transactionHolder.isSome ↔ s.Moved asked)
  | _ => True

instance (cfg : Config) (s : State C) : ∀ e, Decidable (Meets cfg s e)
  | .localTransaction c commit => inferInstanceAs (Decidable (∀ call ∈ s.calls c,
      takesEffect s.db call commit → commit = .returned ∧ s.broker.Open c))
  | .validate c => inferInstanceAs (Decidable (∀ call ∈ s.calls c, call.dumps cfg))
  | .check asked producer => inferInstanceAs (Decidable (∀ call ∈ s.calls producer,
      (call.transactionHolder.isSome ↔ s.Moved asked)))
  | .start _ _ | .producerStart _ _ | .half _ _ _ | .endTransaction _ _ _ | .shutdown _ _
  | .arrive _ _ | .lose _ _ | .change _ _ | .stop _ => isTrue trivial

end HeyeeAgent.Knowledge.StartChunking
