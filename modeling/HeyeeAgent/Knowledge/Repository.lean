import HeyeeAgent.Python.JsonDecoder

/-! # The tables of a knowledge base

The rows of documents, chunks, vectors and chunk logs, and the transactions that the chunking of a
document makes on them. A transaction is a function of the tables; whether it takes effect, and what
its caller hears of it, is chosen where it is called. Time stamps and durations are left out.
-/

namespace HeyeeAgent.Knowledge

open Python Python.JsonDecoder

abbrev Object := List (Str × Value)

/-- `first or second` of an optional text. -/
def orText (first : Option Str) (second : Str) : Str :=
  match first with
  | some (c :: text) => c :: text
  | _ => second

/-- `first or second` of an optional object. -/
def orObject (first : Option Object) (second : Object) : Object :=
  match first with
  | some (field :: fields) => field :: fields
  | _ => second

inductive DocumentStatus where
  | pending
  | running
  | success
  | failed
deriving DecidableEq

def DocumentStatus.text : DocumentStatus → Str
  | pending => .lit "PENDING"
  | running => .lit "RUNNING"
  | success => .lit "SUCCESS"
  | failed => .lit "FAILED"

/-- A row of `t_knowledge_document`. -/
structure DocumentRow where
  kbId : Str
  docName : Str
  enabled : Bool := true
  chunkCount : ℕ := 0
  fileUrl : Str
  fileType : Str
  fileSize : Option ℕ
  processMode : Option Str := some (.lit "CHUNK")
  status : DocumentStatus := .pending
  sourceType : Str
  sourceLocation : Option Str := none
  chunkStrategy : Str
  chunkConfig : Option Object
  createdBy : Option Str
  updatedBy : Option Str
  deleted : Bool := false

/-- A row of `t_knowledge_chunk`. -/
structure ChunkRow where
  id : Str
  kbId : Str
  docId : Str
  chunkIndex : ℕ
  content : Str
  contentHash : Str
  charCount : ℕ
  tokenCount : ℕ
  enabled : Bool
  createdBy : Str
  updatedBy : Str
  deleted : Bool

/-- A row of `t_knowledge_vector`. -/
structure VectorRow where
  id : Str
  kbId : Str
  docId : Str
  chunkId : Str
  chunkIndex : ℕ
  embedding : Str
  metadata : Object
  enabled : Bool
  createdBy : Str
  updatedBy : Str
  deleted : Bool

inductive LogStatus where
  | running
  | success
  | failed
deriving DecidableEq

/-- A row of `t_knowledge_document_chunk_log`. -/
structure ChunkLogRow where
  id : Str
  docId : Str
  status : LogStatus
  processMode : Str
  chunkStrategy : Str
  pipelineId : Str
  messageId : Option Str
  chunkCount : Option ℕ := none
  errorMessage : Option Str := none

structure Database where
  documents : Str → Option DocumentRow
  chunks : List ChunkRow := []
  vectors : List VectorRow := []
  chunkLogs : List ChunkLogRow := []

namespace Database

/-- The row that `WHERE id = :doc_id AND deleted = 0` selects. -/
def document (db : Database) (docId : Str) : Option DocumentRow :=
  (db.documents docId).filter fun row => !row.deleted

/-- `UPDATE t_knowledge_document SET … WHERE id = :doc_id AND deleted = 0`. -/
def updateDocument (db : Database) (docId : Str) (set : DocumentRow → DocumentRow) : Database :=
  match db.document docId with
  | some row => { db with documents := Function.update db.documents docId (some (set row)) }
  | none => db

def updateChunkLog (db : Database) (logId : Str) (set : ChunkLogRow → ChunkLogRow) : Database :=
  { db with chunkLogs := db.chunkLogs.map fun row => if row.id = logId then set row else row }

theorem document_of_mem {db : Database} {docId : Str} {row : DocumentRow}
    (found : db.document docId = some row) : db.documents docId = some row ∧ row.deleted = false := by
  obtain ⟨present, kept⟩ := Option.filter_eq_some_iff.mp found
  exact ⟨present, by simpa using kept⟩

/-- An update row by row: only a row of the document that is not deleted changes. -/
theorem documents_updateDocument (db : Database) (docId : Str) (set : DocumentRow → DocumentRow)
    (other : Str) : (db.updateDocument docId set).documents other =
      (db.documents other).map fun row =>
        if other = docId ∧ row.deleted = false then set row else row := by
  unfold updateDocument document
  by_cases same : other = docId
  · subst same
    cases found : db.documents other with
    | none => simp [found]
    | some row => cases deleted : row.deleted <;> simp [Option.filter, deleted, found]
  · have kept : (fun row : DocumentRow =>
        if other = docId ∧ row.deleted = false then set row else row) =
        id := by
      funext row
      simp [same]
    rw [kept, Option.map_id]
    split
    · exact Function.update_of_ne same _ _
    · rfl

theorem document_updateDocument_self (db : Database) {docId : Str} {set : DocumentRow → DocumentRow}
    (kept : ∀ row, (set row).deleted = row.deleted) :
    (db.updateDocument docId set).document docId = (db.document docId).map set := by
  unfold updateDocument
  cases found : db.document docId with
  | none => exact found
  | some row =>
    have present := (document_of_mem found).2
    simp [document, kept, present]

theorem document_updateDocument_of_ne (db : Database) {docId other : Str}
    (set : DocumentRow → DocumentRow) (differ : other ≠ docId) :
    (db.updateDocument docId set).document other = db.document other := by
  unfold updateDocument
  cases db.document docId with
  | none => rfl
  | some row => simp only [document, Function.update_of_ne differ]

@[simp] theorem chunks_updateDocument (db : Database) (docId : Str)
    (set : DocumentRow → DocumentRow) : (db.updateDocument docId set).chunks = db.chunks := by
  unfold updateDocument
  split <;> rfl

@[simp] theorem vectors_updateDocument (db : Database) (docId : Str)
    (set : DocumentRow → DocumentRow) : (db.updateDocument docId set).vectors = db.vectors := by
  unfold updateDocument
  split <;> rfl

@[simp] theorem document_updateChunkLog (db : Database) (logId docId : Str)
    (set : ChunkLogRow → ChunkLogRow) :
    (db.updateChunkLog logId set).document docId = db.document docId := rfl

/-- The status of a document that is not deleted. -/
def status (db : Database) (docId : Str) : Option DocumentStatus :=
  (db.document docId).map DocumentRow.status

@[simp] theorem status_isSome (db : Database) (docId : Str) :
    (db.status docId).isSome = (db.document docId).isSome := Option.isSome_map

/-- An update that sets the status of one document, and what it leaves of the others. -/
theorem status_updateDocument (db : Database) {docId : Str} {set : DocumentRow → DocumentRow}
    {value : DocumentStatus} (kept : ∀ row, (set row).deleted = row.deleted)
    (sets : ∀ row, (set row).status = value) (other : Str) :
    (db.updateDocument docId set).status other =
      if other = docId then (db.status other).map fun _ => value else db.status other := by
  split
  case isTrue same =>
    subst same
    simp only [status, document_updateDocument_self db kept, Option.map_map]
    congr 1
    funext row
    exact sets row
  case isFalse differ => simp only [status, document_updateDocument_of_ne db set differ]

end Database

section StartOfChunking

structure KnowledgeDocumentChunkTarget where
  id : Str
  kbId : Str
  docName : Str
  fileUrl : Str
  fileType : Str
  fileSize : ℕ
  sourceType : Str
  sourceLocation : Option Str
  chunkStrategy : Str
  chunkConfig : Object
  status : DocumentStatus

/-- The row that `RETURNING` hands back, as the repository reads it. -/
def DocumentRow.chunkTarget (row : DocumentRow) (docId : Str) : KnowledgeDocumentChunkTarget where
  id := docId
  kbId := row.kbId
  docName := row.docName
  fileUrl := row.fileUrl
  fileType := row.fileType
  fileSize := row.fileSize.getD 0
  sourceType := row.sourceType
  sourceLocation := row.sourceLocation
  chunkStrategy := row.chunkStrategy
  chunkConfig := row.chunkConfig.getD []
  status := row.status

/-- The row that the conditional update changes. -/
def Database.pendingDocument (db : Database) (docId : Str) : Option DocumentRow :=
  (db.document docId).filter fun row => row.status = .pending

def markDocumentChunkRunningCas (db : Database) (docId updatedBy : Str) :
    Database × Option KnowledgeDocumentChunkTarget :=
  match db.pendingDocument docId with
  | some row =>
    let row := { row with status := .running, updatedBy := some updatedBy }
    (db.updateDocument docId fun _ => row, some (row.chunkTarget docId))
  | none => (db, none)

end StartOfChunking

section Chunking

structure TextChunk where
  chunkId : Str
  chunkIndex : ℕ
  content : Str
  contentHash : Str
  charCount : ℕ
  tokenCount : ℕ
  metadata : Object := []

/-- A chunk with its vector; a component is kept as `str(float(value))` writes it. -/
structure VectorChunk where
  chunkId : Str
  docId : Str
  kbId : Str
  chunkIndex : ℕ
  content : Str
  vector : List Str
  metadata : Object

structure KnowledgeDocumentForChunk where
  id : Str
  kbId : Str
  docName : Str
  fileUrl : Str
  processMode : Str
  status : DocumentStatus
  chunkStrategy : Str
  chunkConfig : Object
  createdBy : Str

def findDocumentForChunk (db : Database) (docId : Str) : Option KnowledgeDocumentForChunk :=
  (db.document docId).map fun row =>
    { id := docId
      kbId := row.kbId
      docName := row.docName
      fileUrl := row.fileUrl
      processMode := orText row.processMode (.lit "CHUNK")
      status := row.status
      chunkStrategy := row.chunkStrategy
      chunkConfig := row.chunkConfig.getD []
      createdBy := orText row.createdBy (.lit "agent") }

theorem findDocumentForChunk_some {db : Database} {docId : Str} {doc : KnowledgeDocumentForChunk}
    (found : findDocumentForChunk db docId = some doc) :
    doc.id = docId ∧ db.status docId = some doc.status := by
  obtain ⟨row, present, rfl⟩ := Option.map_eq_some_iff.mp found
  exact ⟨rfl, by rw [Database.status, present]; rfl⟩

structure ChunkLogStart where
  id : Str
  docId : Str
  messageId : Option Str
  processMode : Str
  chunkStrategy : Str
  pipelineId : Str

def insertChunkLog (db : Database) (record : ChunkLogStart) : Database :=
  let row : ChunkLogRow :=
    { id := record.id
      docId := record.docId
      status := .running
      processMode := record.processMode
      chunkStrategy := record.chunkStrategy
      pipelineId := record.pipelineId
      messageId := record.messageId }
  { db with chunkLogs := db.chunkLogs ++ [row] }

def markChunkLogSuccess (db : Database) (logId : Str) (chunkCount : ℕ) : Database :=
  db.updateChunkLog logId fun row =>
    { row with status := .success, chunkCount := some chunkCount }

def markChunkLogFailed (db : Database) (logId errorMessage : Str) : Database :=
  db.updateChunkLog logId fun row =>
    { row with status := .failed, errorMessage := some (errorMessage.take 4000) }

def markDocumentFailed (db : Database) (docId updatedBy : Str) : Database :=
  db.updateDocument docId fun row => { row with status := .failed, updatedBy := some updatedBy }

def pgvectorLiteral (vector : List Str) : Str :=
  .lit "[" ++ (vector.intersperse (.lit ",")).flatten ++ .lit "]"

def chunkRow (doc : KnowledgeDocumentForChunk) (updatedBy : Str) (chunk : TextChunk) : ChunkRow where
  id := chunk.chunkId
  kbId := doc.kbId
  docId := doc.id
  chunkIndex := chunk.chunkIndex
  content := chunk.content
  contentHash := chunk.contentHash
  charCount := chunk.charCount
  tokenCount := chunk.tokenCount
  enabled := true
  createdBy := updatedBy
  updatedBy := updatedBy
  deleted := false

def vectorRow (doc : KnowledgeDocumentForChunk) (updatedBy id : Str) (vector : VectorChunk) :
    VectorRow where
  id := id
  kbId := doc.kbId
  docId := doc.id
  chunkId := vector.chunkId
  chunkIndex := vector.chunkIndex
  embedding := pgvectorLiteral vector.vector
  metadata := vector.metadata
  enabled := true
  createdBy := updatedBy
  updatedBy := updatedBy
  deleted := false

def vectorRows (doc : KnowledgeDocumentForChunk) (updatedBy : Str) (ids : ℕ → Str)
    (vectors : List VectorChunk) : List VectorRow :=
  vectors.mapIdx fun index vector => vectorRow doc updatedBy (ids index) vector

/-- The last statement of the replacement. -/
def markDocumentSuccess (db : Database) (docId updatedBy : Str) (chunkCount : ℕ) : Database :=
  db.updateDocument docId fun row =>
    { row with status := .success, chunkCount := chunkCount, updatedBy := some updatedBy }

/-- The transaction as it takes effect when no other one runs; it has checked the lengths. -/
def replaceChunksAndVectorsAtomic (db : Database) (doc : KnowledgeDocumentForChunk)
    (chunks : List TextChunk) (vectors : List VectorChunk) (updatedBy : Str) (ids : ℕ → Str) :
    Database :=
  let kept : Database :=
    { db with
      chunks := db.chunks.filter (fun row => row.docId ≠ doc.id) ++ chunks.map (chunkRow doc updatedBy)
      vectors := db.vectors.filter (fun row => row.docId ≠ doc.id) ++
        vectorRows doc updatedBy ids vectors }
  markDocumentSuccess kept doc.id updatedBy chunks.length

section Statuses

@[simp] theorem status_insertChunkLog (db : Database) (record : ChunkLogStart) (docId : Str) :
    (insertChunkLog db record).status docId = db.status docId := rfl

@[simp] theorem status_markChunkLogSuccess (db : Database) (logId : Str) (chunkCount : ℕ)
    (docId : Str) : (markChunkLogSuccess db logId chunkCount).status docId = db.status docId := rfl

@[simp] theorem status_markChunkLogFailed (db : Database) (logId errorMessage docId : Str) :
    (markChunkLogFailed db logId errorMessage).status docId = db.status docId := rfl

theorem status_markDocumentFailed (db : Database) (docId updatedBy other : Str) :
    (markDocumentFailed db docId updatedBy).status other =
      if other = docId then (db.status other).map fun _ => .failed else db.status other := by
  apply Database.status_updateDocument
  · exact fun row => rfl
  · exact fun row => rfl

theorem status_replaceChunksAndVectorsAtomic (db : Database) (doc : KnowledgeDocumentForChunk)
    (chunks : List TextChunk) (vectors : List VectorChunk) (updatedBy : Str) (ids : ℕ → Str)
    (other : Str) :
    (replaceChunksAndVectorsAtomic db doc chunks vectors updatedBy ids).status other =
      if other = doc.id then (db.status other).map fun _ => .success else db.status other := by
  unfold replaceChunksAndVectorsAtomic markDocumentSuccess
  apply Database.status_updateDocument
  · exact fun row => rfl
  · exact fun row => rfl

end Statuses

section Replacements

variable (db : Database) (doc : KnowledgeDocumentForChunk) (chunks : List TextChunk)
  (vectors : List VectorChunk) (updatedBy : Str) (ids : ℕ → Str)

theorem chunks_replaceChunksAndVectorsAtomic :
    (replaceChunksAndVectorsAtomic db doc chunks vectors updatedBy ids).chunks =
      db.chunks.filter (fun row => row.docId ≠ doc.id) ++ chunks.map (chunkRow doc updatedBy) := by
  simp only [replaceChunksAndVectorsAtomic, markDocumentSuccess, Database.chunks_updateDocument]

theorem vectors_replaceChunksAndVectorsAtomic :
    (replaceChunksAndVectorsAtomic db doc chunks vectors updatedBy ids).vectors =
      db.vectors.filter (fun row => row.docId ≠ doc.id) ++ vectorRows doc updatedBy ids vectors := by
  simp only [replaceChunksAndVectorsAtomic, markDocumentSuccess, Database.vectors_updateDocument]

theorem docId_vectorRows {row : VectorRow} (member : row ∈ vectorRows doc updatedBy ids vectors) :
    row.docId = doc.id := by
  obtain ⟨index, bound, rfl⟩ := List.mem_mapIdx.mp member
  rfl

omit db doc chunks vectors updatedBy ids in
private theorem filter_replaced {α : Type} {other : α → Bool} {old new : List α}
    (own : ∀ row ∈ new, other row = false) :
    (old.filter other ++ new).filter other = old.filter other := by
  have none : new.filter other = [] := by
    rw [List.filter_eq_nil_iff]
    intro row member
    simp [own row member]
  rw [List.filter_append, none, List.append_nil, List.filter_filter]
  simp only [Bool.and_self]

/-- The rows of the other documents are not touched. -/
theorem filter_chunks_replace :
    (replaceChunksAndVectorsAtomic db doc chunks vectors updatedBy ids).chunks.filter
        (fun row => row.docId ≠ doc.id) = db.chunks.filter fun row => row.docId ≠ doc.id := by
  rw [chunks_replaceChunksAndVectorsAtomic]
  apply filter_replaced
  intro row member
  obtain ⟨chunk, -, rfl⟩ := List.mem_map.mp member
  simp [chunkRow]

theorem filter_vectors_replace :
    (replaceChunksAndVectorsAtomic db doc chunks vectors updatedBy ids).vectors.filter
        (fun row => row.docId ≠ doc.id) = db.vectors.filter fun row => row.docId ≠ doc.id := by
  rw [vectors_replaceChunksAndVectorsAtomic]
  apply filter_replaced
  intro row member
  simp [docId_vectorRows doc vectors updatedBy ids member]

theorem chunkCount_replaceChunksAndVectorsAtomic :
    ((replaceChunksAndVectorsAtomic db doc chunks vectors updatedBy ids).document doc.id).map
      DocumentRow.chunkCount = (db.document doc.id).map fun _ => chunks.length := by
  unfold replaceChunksAndVectorsAtomic markDocumentSuccess
  rw [Database.document_updateDocument_self, Option.map_map]
  · rfl
  · exact fun row => rfl

end Replacements

end Chunking

end HeyeeAgent.Knowledge
