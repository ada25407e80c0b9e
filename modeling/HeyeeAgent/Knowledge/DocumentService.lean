import Mathlib.Data.List.Sort
import HeyeeAgent.Knowledge.ChunkPipeline
import HeyeeAgent.Knowledge.ChunkingService

/-! # The management of documents

Upload, change of configuration, deletion and the enabled flag, call by call as the document service
makes them, beside the start of chunking and the delivery of a chunk message. A service reads the
document first and writes later, in transactions of their own. How a call ends is chosen for it;
what a request uploads to the storage before the document is inserted is left out.
-/

namespace HeyeeAgent.Knowledge

open Python Python.JsonDecoder

section Repository

structure KnowledgeDocumentRecord where
  id : Str
  kbId : Str
  docName : Str
  fileUrl : Str
  fileType : Str
  fileSize : Option ℕ
  sourceType : Str
  sourceLocation : Option Str
  chunkStrategy : Str
  chunkConfig : Object
  createdBy : Str

/-- The inserted row, with the constants of the statement. -/
def KnowledgeDocumentRecord.row (record : KnowledgeDocumentRecord) : DocumentRow where
  kbId := record.kbId
  docName := record.docName
  enabled := true
  chunkCount := 0
  fileUrl := record.fileUrl
  fileType := record.fileType
  fileSize := record.fileSize
  processMode := some (.lit "CHUNK")
  status := .pending
  sourceType := record.sourceType
  sourceLocation := record.sourceLocation
  chunkStrategy := record.chunkStrategy
  chunkConfig := some record.chunkConfig
  createdBy := some record.createdBy
  updatedBy := some record.createdBy
  deleted := false

/-- The insertion of a document whose identifier is not taken. -/
def insertDocument (db : Database) (record : KnowledgeDocumentRecord) : Database :=
  { db with documents := Function.update db.documents record.id (some record.row) }

structure KnowledgeDocumentDetail where
  id : Str
  kbId : Str
  docName : Str
  fileUrl : Str
  status : DocumentStatus
  enabled : Bool
  chunkStrategy : Str
  chunkConfig : Object

def findDocumentDetail (db : Database) (docId : Str) : Option KnowledgeDocumentDetail :=
  (db.document docId).map fun row =>
    { id := docId
      kbId := row.kbId
      docName := row.docName
      fileUrl := row.fileUrl
      status := row.status
      enabled := row.enabled
      chunkStrategy := row.chunkStrategy
      chunkConfig := row.chunkConfig.getD [] }

def updateDocumentConfig (db : Database) (docId docName chunkStrategy : Str) (chunkConfig : Object)
    (updatedBy : Str) : Database :=
  db.updateDocument docId fun row =>
    { row with docName, chunkStrategy, chunkConfig := some chunkConfig, updatedBy := some updatedBy }

def deleteDocumentAtomic (db : Database) (docId updatedBy : Str) : Database :=
  let emptied : Database :=
    { db with
      chunks := db.chunks.filter fun row => row.docId ≠ docId
      vectors := db.vectors.filter fun row => row.docId ≠ docId
      chunkLogs := db.chunkLogs.filter fun row => row.docId ≠ docId }
  emptied.updateDocument docId fun row => { row with deleted := true, updatedBy := some updatedBy }

structure KnowledgeVectorChunkSource where
  chunkId : Str
  kbId : Str
  docId : Str
  chunkIndex : ℕ
  content : Str
  contentHash : Str
  charCount : ℕ
  tokenCount : ℕ

def ChunkRow.source (row : ChunkRow) : KnowledgeVectorChunkSource where
  chunkId := row.id
  kbId := row.kbId
  docId := row.docId
  chunkIndex := row.chunkIndex
  content := row.content
  contentHash := row.contentHash
  charCount := row.charCount
  tokenCount := row.tokenCount

/-- The chunks of a document in the order of their indices. -/
def listVectorChunkSources (db : Database) (docId : Str) : List KnowledgeVectorChunkSource :=
  let rows := db.chunks.filter fun row => row.docId = docId ∧ row.deleted = false
  (rows.mergeSort fun row other => row.chunkIndex ≤ other.chunkIndex).map ChunkRow.source

def enabledVectorRow (updatedBy id : Str) (vector : VectorChunk) : VectorRow where
  id := id
  kbId := vector.kbId
  docId := vector.docId
  chunkId := vector.chunkId
  chunkIndex := vector.chunkIndex
  embedding := pgvectorLiteral vector.vector
  metadata := vector.metadata
  enabled := true
  createdBy := updatedBy
  updatedBy := updatedBy
  deleted := false

/-- The second statement of the transaction: the flag of the chunks of a document. -/
def enableChunk (docId : Str) (enabled : Bool) (updatedBy : Str) (row : ChunkRow) : ChunkRow :=
  if row.docId = docId ∧ row.deleted = false then { row with enabled, updatedBy } else row

def setDocumentEnabledAtomic (db : Database) (docId : Str) (enabled : Bool)
    (vectors : List VectorChunk) (updatedBy : Str) (ids : ℕ → Str) : Database :=
  let flagged := db.updateDocument docId fun row => { row with enabled, updatedBy := some updatedBy }
  let inserted := vectors.mapIdx fun index vector => enabledVectorRow updatedBy (ids index) vector
  { flagged with
    chunks := flagged.chunks.map (enableChunk docId enabled updatedBy)
    vectors := flagged.vectors.filter (fun row => row.docId ≠ docId) ++
      if enabled then inserted else [] }

end Repository

section Options

/-- What a request fails with. -/
inductive Failure where
  | http (statusCode : ℕ) (detail : Str)
  | other (error : Str)

structure ChunkOptions where
  strategy : Str
  config : Object

open ChunkingService (int?)

/-- The first of the numeric fields that is given and not an integer. -/
def invalidField (config : Object) : Option String :=
  ["targetChars", "maxChars", "minChars", "overlapChars"].find? fun field =>
    config.any (fun entry => entry.1 = Str.lit field) ∧ (int? (.get config field)).isNone

/-- `_validate_chunk_config`, with the detail of the error that it raises. -/
def validateChunkConfig (config : Object) : Option Str :=
  match invalidField config with
  | some field => some (.lit "chunkConfig." ++ .lit field ++ .lit " must be an integer")
  | none =>
    let target := int? (.get config "targetChars")
    let maxChars := int? (.get config "maxChars")
    let minChars := int? (.get config "minChars")
    let overlap := int? (.get config "overlapChars")
    if target.any fun target => target ≤ 0 then
      some (.lit "chunkConfig.targetChars must be greater than 0")
    else if maxChars.any fun maxChars => target.any fun target => maxChars < target then
      some (.lit "chunkConfig.maxChars must be greater than or equal to targetChars")
    else if minChars.any fun minChars => target.any fun target => target < minChars then
      some (.lit "chunkConfig.minChars must be less than or equal to targetChars")
    else if overlap.any fun overlap => overlap < 0 then
      some (.lit "chunkConfig.overlapChars cannot be negative")
    else none

def resolveChunkOptions (strategy configText : Str) : Except Failure ChunkOptions :=
  let strategy := strategy.strip
  if strategy ≠ .lit "fixed_size" ∧ strategy ≠ .lit "structure_aware" then
    .error (.http 400 (.lit "invalid chunk strategy: " ++ strategy))
  else
    match loads configText with
    | none => .error (.http 400 (.lit "chunkConfig must be a valid JSON string"))
    | some (.obj config) =>
      match validateChunkConfig config with
      | some detail => .error (.http 400 detail)
      | none => .ok { strategy, config }
    | some _ => .error (.http 400 (.lit "chunkConfig must be a JSON object"))

end Options

section Management

/-- What a request asks of a document. -/
inductive Request where
  | updateDocumentConfig (docName chunkStrategy chunkConfig : Str)
  | deleteDocument
  | setDocumentEnabled (enabled : Bool)

/-- The call that the service makes next for a request. -/
inductive ManagementPhase where
  | finding
  | updating (detail : KnowledgeDocumentDetail) (docName : Str) (options : ChunkOptions)
  | deleting (detail : KnowledgeDocumentDetail)
  | deletingFile (detail : KnowledgeDocumentDetail)
  | listing (detail : KnowledgeDocumentDetail)
  | embedding (detail : KnowledgeDocumentDetail) (chunks : List TextChunk)
  | enabling (detail : KnowledgeDocumentDetail) (enabled : Bool) (vectors : List VectorChunk)
  | returned
  | raised (failure : Failure)

structure Management where
  docId : Str
  request : Request
  /-- the vectors of the embedding model, and the identifiers that are drawn for their rows -/
  embed : Str → List Str
  vectorIds : ℕ → Str
  phase : ManagementPhase

namespace Management

/-- `_get_document_or_404` up to its call. -/
def start (documentId : Str) (request : Request) (embed : Str → List Str) (vectorIds : ℕ → Str) :
    Management :=
  let docId := documentId.strip
  let phase : ManagementPhase :=
    if docId = [] then .raised (.http 400 (.lit "document id is required")) else .finding
  { docId, request, embed, vectorIds, phase }

/-- From the document that was found to the first write, or to the end. -/
def afterFind (request : Request) : Option KnowledgeDocumentDetail → ManagementPhase
  | none => .raised (.http 404 (.lit "document not found"))
  | some detail =>
    if detail.status = .running then .raised (.http 409 (.lit "document is running"))
    else
      match request with
      | .updateDocumentConfig docName chunkStrategy chunkConfig =>
        let docName := docName.strip
        if docName = [] then .raised (.http 400 (.lit "docName is required"))
        else
          match resolveChunkOptions chunkStrategy chunkConfig with
          | .error failure => .raised failure
          | .ok options => .updating detail docName options
      | .deleteDocument => .deleting detail
      | .setDocumentEnabled enabled =>
        if detail.enabled = enabled then .returned
        else if enabled then .listing detail
        else .enabling detail false []

def textChunk (source : KnowledgeVectorChunkSource) : TextChunk where
  chunkId := source.chunkId
  chunkIndex := source.chunkIndex
  content := source.content
  contentHash := source.contentHash
  charCount := source.charCount
  tokenCount := source.tokenCount
  metadata := [(.lit "docId", .str source.docId),
    (.lit "chunkIndex", .number (.lit (toString source.chunkIndex)))]

variable (cfg : Settings) (m : Management)

/-- What the call of a phase writes if it commits. -/
def write (db : Database) : Database :=
  match m.phase with
  | .updating detail docName options =>
    updateDocumentConfig db detail.id docName options.strategy options.config cfg.uploadCreatedBy
  | .deleting detail => deleteDocumentAtomic db detail.id cfg.uploadCreatedBy
  | .enabling detail enabled vectors =>
    setDocumentEnabledAtomic db detail.id enabled vectors cfg.uploadCreatedBy m.vectorIds
  | _ => db

/-- Where the service goes from the end of a call. -/
def next (db : Database) (ending : Ending) : ManagementPhase :=
  match m.phase, ending with
  | .returned, _ => .returned
  | .raised failure, _ => .raised failure
  | _, .raised error _ => .raised (.other error)
  | .finding, .returned => afterFind m.request (findDocumentDetail db m.docId)
  | .updating _ _ _, .returned => .returned
  | .deleting detail, .returned => .deletingFile detail
  | .deletingFile _, .returned => .returned
  | .listing detail, .returned =>
    match listVectorChunkSources db detail.id with
    | [] => .enabling detail true []
    | sources => .embedding detail (sources.map textChunk)
  | .embedding detail chunks, .returned =>
    .enabling detail true (embedChunks m.embed detail.id detail.kbId chunks)
  | .enabling _ _ _, .returned => .returned

def ended : Bool :=
  match m.phase with
  | .returned | .raised _ => true
  | _ => false

/-- The document that has been let pass and not been written yet. -/
def held (phase : ManagementPhase) : Option KnowledgeDocumentDetail :=
  match phase with
  | .updating detail _ _ | .deleting detail | .listing detail | .embedding detail _
  | .enabling detail _ _ => some detail
  | .finding | .deletingFile _ | .returned | .raised _ => none

theorem held_afterFind {request : Request} {found : Option KnowledgeDocumentDetail}
    {detail : KnowledgeDocumentDetail} (passes : held (afterFind request found) = some detail) :
    found = some detail ∧ detail.status ≠ .running := by
  cases found with
  | none => cases passes
  | some present =>
    simp only [afterFind] at passes
    split at passes
    case isTrue => cases passes
    case isFalse calm =>
      have same : present = detail := by
        cases request with
        | updateDocumentConfig docName chunkStrategy chunkConfig =>
          simp only at passes
          split at passes
          · cases passes
          · split at passes
            · cases passes
            · exact Option.some.inj passes
        | deleteDocument => exact Option.some.inj passes
        | setDocumentEnabled enabled =>
          simp only at passes
          split at passes
          · cases passes
          · split at passes <;> exact Option.some.inj passes
      exact ⟨congrArg some same, same ▸ calm⟩

/-- A document is held from one call to the next, or it has just been found in another status than
`RUNNING`. -/
theorem held_next {m : Management} {db : Database} {ending : Ending}
    {detail : KnowledgeDocumentDetail} (holds : held (m.next db ending) = some detail) :
    held m.phase = some detail ∨
      (m.phase = .finding ∧ findDocumentDetail db m.docId = some detail ∧
        detail.status ≠ .running) := by
  unfold next at holds
  cases phase : m.phase with
  | finding =>
    cases ending with
    | raised error committed => simp [phase, held] at holds
    | returned =>
      simp only [phase] at holds
      exact .inr ⟨rfl, held_afterFind holds⟩
  | listing found =>
    cases ending with
    | raised error committed => simp [phase, held] at holds
    | returned =>
      simp only [phase] at holds
      split at holds <;> exact .inl holds
  | embedding found chunks =>
    cases ending with
    | raised error committed => simp [phase, held] at holds
    | returned =>
      simp only [phase] at holds
      exact .inl holds
  | _ => cases ending <;> simp [phase, held] at holds

/-- The first write of an enabling without a listing is that of a disabling. -/
def Direct : ManagementPhase → Prop
  | .enabling _ enabled vectors => enabled = false ∧ vectors = []
  | .embedding _ _ => False
  | _ => True

theorem direct_afterFind (request : Request) (found : Option KnowledgeDocumentDetail) :
    Direct (afterFind request found) := by
  cases found with
  | none => trivial
  | some detail =>
    simp only [afterFind]
    split
    · trivial
    · cases request with
      | updateDocumentConfig docName chunkStrategy chunkConfig =>
        simp only
        split
        · trivial
        · split <;> trivial
      | deleteDocument => trivial
      | setDocumentEnabled enabled =>
        simp only
        split
        · trivial
        · split
          · trivial
          · exact ⟨rfl, rfl⟩

/-- The vectors of an enabling are those of the chunks that were listed. -/
theorem enabling_next {m : Management} {db : Database} {ending : Ending}
    {detail : KnowledgeDocumentDetail} {enabled : Bool} {vectors : List VectorChunk}
    (writes : m.next db ending = .enabling detail enabled vectors) :
    (enabled = false ∧ vectors = []) ∨
      (enabled = true ∧ vectors = [] ∧ m.phase = .listing detail ∧
        listVectorChunkSources db detail.id = []) ∨
      (enabled = true ∧ ∃ chunks, m.phase = .embedding detail chunks ∧
        vectors = embedChunks m.embed detail.id detail.kbId chunks) := by
  unfold next at writes
  cases phase : m.phase with
  | finding =>
    cases ending with
    | raised error committed => simp [phase] at writes
    | returned =>
      have direct := direct_afterFind m.request (findDocumentDetail db m.docId)
      simp only [phase] at writes
      rw [writes] at direct
      exact .inl direct
  | listing found =>
    cases ending with
    | raised error committed => simp [phase] at writes
    | returned =>
      simp only [phase] at writes
      split at writes
      case h_1 nothing =>
        cases writes
        exact .inr (.inl ⟨rfl, rfl, rfl, nothing⟩)
      case h_2 => cases writes
  | embedding found chunks =>
    cases ending with
    | raised error committed => simp [phase] at writes
    | returned =>
      simp only [phase] at writes
      cases writes
      exact .inr (.inr ⟨rfl, chunks, rfl, rfl⟩)
  | _ => cases ending <;> simp [phase] at writes

/-- The chunks that are embedded are those that were listed. -/
theorem embedding_next {m : Management} {db : Database} {ending : Ending}
    {detail : KnowledgeDocumentDetail} {chunks : List TextChunk}
    (embeds : m.next db ending = .embedding detail chunks) :
    m.phase = .listing detail ∧ chunks = (listVectorChunkSources db detail.id).map textChunk := by
  unfold next at embeds
  cases phase : m.phase with
  | finding =>
    cases ending with
    | raised error committed => simp [phase] at embeds
    | returned =>
      have direct := direct_afterFind m.request (findDocumentDetail db m.docId)
      simp only [phase] at embeds
      rw [embeds] at direct
      exact direct.elim
  | listing found =>
    cases ending with
    | raised error committed => simp [phase] at embeds
    | returned =>
      simp only [phase] at embeds
      split at embeds
      case h_1 => cases embeds
      case h_2 =>
        cases embeds
        exact ⟨rfl, rfl⟩
  | _ => cases ending <;> simp [phase] at embeds

end Management

end Management

end HeyeeAgent.Knowledge
