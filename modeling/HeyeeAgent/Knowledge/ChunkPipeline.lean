import HeyeeAgent.InfraAi.ChatStream
import HeyeeAgent.Knowledge.Repository

/-! # The chunk pipeline

A delivery of a chunk message is read by the consumer callback and processed call by call. How each
call of the repository, of the storage or of a service ends is chosen for it; a transaction that
raises may have committed before. What the services answer and which identifiers are drawn are
parameters of the delivery.
-/

namespace HeyeeAgent.Knowledge

open Python Python.JsonDecoder
open InfraAi (str truth optionalText)

section Message

structure KnowledgeChunkMessage where
  docId : Str
  kbId : Option Str := none
  fileUrl : Option Str := none
  chunkStrategy : Option Str := none
  chunkConfig : Option Object := none
  requestedBy : Option Str := none
  messageId : Option Str := none

/-- `first or second` of two decoded values. -/
def orValue (first second : Value) : Value := if truth first then first else second

/-- `from_dict`; `none` is its `ValueError`. -/
def fromDict (repr : Value → Str) (payload : Object) : Option KnowledgeChunkMessage :=
  let either (camel snake : String) : Value :=
    orValue (Value.get payload camel) (Value.get payload snake)
  let docId := (str repr (orValue (either "docId" "doc_id") (.str []))).strip
  let message : KnowledgeChunkMessage :=
    { docId
      kbId := optionalText repr (either "kbId" "kb_id")
      fileUrl := optionalText repr (either "fileUrl" "file_url")
      chunkStrategy := optionalText repr (either "chunkStrategy" "chunk_strategy")
      requestedBy := optionalText repr (either "requestedBy" "requested_by")
      messageId := optionalText repr (either "messageId" "message_id") }
  if docId = [] then none
  else
    match either "chunkConfig" "chunk_config" with
    | .null => some message
    | .obj fields => some { message with chunkConfig := some fields }
    | _ => none

/-- What the callback makes of the body of a message; `none` if it raises. -/
def readChunkMessage (repr : Value → Str) (body : Str) (id : Option Str) :
    Option KnowledgeChunkMessage :=
  match loads body with
  | some (.obj payload) =>
    let messageId := Str.lit "messageId"
    if payload.any (fun field => field.1 = messageId) then fromDict repr payload
    else fromDict repr (payload ++ [(messageId, (id.map .str).getD .null)])
  | _ => none

end Message

structure Settings where
  uploadCreatedBy : Str := .lit "agent"
  chunkPipelineMaxRetries : ℕ := 2

/-- What the storage and the services answer when they do not raise. -/
structure Services where
  read : Str → List ℕ
  extractText : List ℕ → Str → Str
  /-- `ChunkingService.split`, with the identifiers that it draws -/
  split : (ℕ → Str) → Str → Str → Object → List TextChunk
  embed : Str → List Str

/-- The identifiers that one delivery draws. -/
structure Draw where
  pipelineId : Str
  logId : Str
  chunkIds : ℕ → Str
  /-- those of the vectors, anew for each attempt at the replacement -/
  vectorIds : ℕ → ℕ → Str

structure ChunkPipelineResult where
  docId : Str
  kbId : Str
  logId : Str := []
  pipelineId : Str := []
  status : Str
  chunkCount : ℕ := 0
  vectors : List VectorChunk := []

/-- The call that `process_message` makes next; an attempt counts the retries of `_with_retry`. -/
inductive Phase where
  | finding
  | insertingLog (doc : KnowledgeDocumentForChunk)
  | reading (doc : KnowledgeDocumentForChunk) (attempt : ℕ)
  | extracting (doc : KnowledgeDocumentForChunk) (fileBytes : List ℕ) (attempt : ℕ)
  | splitting (doc : KnowledgeDocumentForChunk) (text : Str)
  | embedding (doc : KnowledgeDocumentForChunk) (chunks : List TextChunk) (attempt : ℕ)
  | replacing (doc : KnowledgeDocumentForChunk) (chunks : List TextChunk)
      (vectors : List VectorChunk) (attempt : ℕ)
  | markingLogSuccess (doc : KnowledgeDocumentForChunk) (chunks : List TextChunk)
      (vectors : List VectorChunk)
  | markingLogFailed (doc : KnowledgeDocumentForChunk) (error : Str)
  | markingDocumentFailed (doc : KnowledgeDocumentForChunk) (error : Str)
  | returned (result : ChunkPipelineResult)
  | raised (error : Str)

/-- How a call ends; a transaction that raises may have committed. -/
inductive Ending where
  | returned
  | raised (error : Str) (committed : Bool)

def Ending.commits : Ending → Bool
  | returned => true
  | raised _ committed => committed

def Ending.clean : Ending → Bool
  | returned => true
  | raised _ _ => false

inductive ConsumeStatus where
  | consumeSuccess
  | reconsumeLater
deriving DecidableEq

/-- What the consumer callback answers the broker. -/
def Phase.answer : Phase → Option ConsumeStatus
  | returned _ => some .consumeSuccess
  | raised _ => some .reconsumeLater
  | _ => none

/-- `embed_chunks` when every batch is answered -/
def embedChunks (embed : Str → List Str) (docId kbId : Str) (chunks : List TextChunk) :
    List VectorChunk :=
  chunks.map fun chunk =>
    { chunkId := chunk.chunkId
      docId
      kbId
      chunkIndex := chunk.chunkIndex
      content := chunk.content
      vector := embed chunk.content
      metadata := chunk.metadata }

@[simp] theorem length_embedChunks (embed : Str → List Str) (docId kbId : Str)
    (chunks : List TextChunk) : (embedChunks embed docId kbId chunks).length = chunks.length :=
  List.length_map _

section ProcessMessage

variable (cfg : Settings) (services : Services) (message : KnowledgeChunkMessage) (draw : Draw)

def requestedBy : Str := orText message.requestedBy cfg.uploadCreatedBy

/-- What the call of a phase writes if it commits. -/
def write (db : Database) : Phase → Database
  | .insertingLog doc =>
    insertChunkLog db
      { id := draw.logId
        docId := doc.id
        messageId := message.messageId
        processMode := doc.processMode
        chunkStrategy := doc.chunkStrategy
        pipelineId := draw.pipelineId }
  | .replacing doc chunks vectors attempt =>
    if chunks.length = vectors.length then
      replaceChunksAndVectorsAtomic db doc chunks vectors (requestedBy cfg message)
        (draw.vectorIds attempt)
    else db
  | .markingLogSuccess _ chunks _ => markChunkLogSuccess db draw.logId chunks.length
  | .markingLogFailed _ error => markChunkLogFailed db draw.logId error
  | .markingDocumentFailed doc _ => markDocumentFailed db doc.id (requestedBy cfg message)
  | _ => db

/-- `_with_retry` after an error: once more, or on to the handler. -/
def retry (doc : KnowledgeDocumentForChunk) (attempt : ℕ) (again : ℕ → Phase) (error : Str) : Phase :=
  if cfg.chunkPipelineMaxRetries ≤ attempt then .markingLogFailed doc error else again (attempt + 1)

/-- The gate of `process_message` on the document that it found. -/
def gate : Option KnowledgeDocumentForChunk → Phase
  | none => .raised (.lit "document not found: " ++ message.docId)
  | some doc =>
    match doc.status with
    | .success => .returned { docId := doc.id, kbId := doc.kbId, status := .lit "SKIPPED" }
    | .running => .insertingLog doc
    | status => .raised (.lit "document status must be RUNNING, got " ++ status.text)

/-- Where `process_message` goes from the end of a call. -/
def next (db : Database) : Phase → Ending → Phase
  | .finding, .returned => gate message (findDocumentForChunk db message.docId)
  | .finding, .raised error _ => .raised error
  | .insertingLog doc, .returned => .reading doc 0
  | .insertingLog _, .raised error _ => .raised error
  | .reading doc _, .returned =>
    .extracting doc (services.read (orText message.fileUrl doc.fileUrl)) 0
  | .reading doc attempt, .raised error _ => retry cfg doc attempt (.reading doc) error
  | .extracting doc fileBytes _, .returned =>
    .splitting doc (services.extractText fileBytes doc.docName)
  | .extracting doc fileBytes attempt, .raised error _ =>
    retry cfg doc attempt (.extracting doc fileBytes) error
  | .splitting doc text, .returned =>
    .embedding doc (services.split draw.chunkIds text (orText message.chunkStrategy doc.chunkStrategy)
      (orObject message.chunkConfig doc.chunkConfig)) 0
  | .splitting doc _, .raised error _ => .markingLogFailed doc error
  | .embedding doc chunks _, .returned =>
    .replacing doc chunks (embedChunks services.embed doc.id doc.kbId chunks) 0
  | .embedding doc chunks attempt, .raised error _ =>
    retry cfg doc attempt (.embedding doc chunks) error
  | .replacing doc chunks vectors attempt, .returned =>
    if chunks.length = vectors.length then .markingLogSuccess doc chunks vectors
    else retry cfg doc attempt (.replacing doc chunks vectors)
      (.lit "chunks and vectors must have the same length")
  | .replacing doc chunks vectors attempt, .raised error _ =>
    retry cfg doc attempt (.replacing doc chunks vectors) error
  | .markingLogSuccess doc chunks vectors, .returned =>
    .returned
      { docId := doc.id
        kbId := doc.kbId
        logId := draw.logId
        pipelineId := draw.pipelineId
        status := .lit "SUCCESS"
        chunkCount := chunks.length
        vectors }
  | .markingLogSuccess doc _ _, .raised error _ => .markingLogFailed doc error
  | .markingLogFailed doc error, .returned => .markingDocumentFailed doc error
  | .markingLogFailed _ _, .raised error _ => .raised error
  | .markingDocumentFailed _ error, .returned => .raised error
  | .markingDocumentFailed _ _, .raised error _ => .raised error
  | .returned result, _ => .returned result
  | .raised error, _ => .raised error

/-- One call of `process_message`, which has not ended yet. -/
def processMessage (db : Database) (phase : Phase) (ending : Ending) : Option (Database × Phase) :=
  if phase.answer.isSome then none
  else
    some (if ending.commits then write cfg message draw db phase else db,
      next cfg services message draw db phase ending)

end ProcessMessage

end HeyeeAgent.Knowledge
