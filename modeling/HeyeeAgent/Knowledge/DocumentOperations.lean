import HeyeeAgent.Knowledge.DocumentService
import HeyeeAgent.Machine.Run

/-! # Operations on documents, side by side

Any number of operations on the documents, from the upload to the deletion, each call of the
repository one transaction. A transaction of one operation may fall between any two of another. What
a call does to the rows and to the flags of the documents is said once here.
-/

namespace HeyeeAgent.Knowledge.DocumentOperations

open Python Machine

section Operations

/-- What lies outside of the repository for a delivery. -/
structure Outside where
  read : Str → List ℕ
  extractText : List ℕ → Str → Str
  py : ChunkingService.Interpreter
  embed : Str → List Str

/-- The chunking service on an extracted text, with enough rounds for its loop. -/
def Outside.split (outside : Outside) (drawn : ℕ → Str) (text strategy : Str) (config : Object) :
    Option (List TextChunk) :=
  let text := text.map Char.ofNat
  let rounds := (ChunkingService.normalizeForFixedSize outside.py text).length + 1
  ChunkingService.split outside.py drawn rounds text strategy config

def Outside.services (outside : Outside) : Services where
  read := outside.read
  extractText := outside.extractText
  split := fun drawn text strategy config => (outside.split drawn text strategy config).getD []
  embed := outside.embed

/-- A delivery of a chunk message. -/
structure Processing where
  message : KnowledgeChunkMessage
  outside : Outside
  draw : Draw
  phase : Phase := .finding

/-- The chunking raises by itself. -/
def Processing.raises (p : Processing) : Bool :=
  match p.phase with
  | .splitting doc text =>
    (p.outside.split p.draw.chunkIds text (orText p.message.chunkStrategy doc.chunkStrategy)
      (orObject p.message.chunkConfig doc.chunkConfig)).isNone
  | _ => false

inductive Operation where
  | upload (record : KnowledgeDocumentRecord)
  | startChunking (documentId : Str)
  | processMessage (message : KnowledgeChunkMessage) (outside : Outside) (draw : Draw)
  | manage (documentId : Str) (request : Request) (embed : Str → List Str) (vectorIds : ℕ → Str)

/-- An operation under way, by the call that it makes next. -/
inductive Task where
  | uploading (record : KnowledgeDocumentRecord)
  | starting (docId : Str)
  | processing (p : Processing)
  | managing (m : Management)
  | ended (failure : Option Failure)

def Operation.task : Operation → Task
  | upload record => .uploading record
  | startChunking documentId =>
    let docId := documentId.strip
    if docId = [] then .ended (some (.http 400 (.lit "document id is required"))) else .starting docId
  | processMessage message outside draw => .processing { message, outside, draw }
  | manage documentId request embed vectorIds =>
    .managing (Management.start documentId request embed vectorIds)

namespace Task

def isEnded : Task → Bool
  | uploading _ | starting _ => false
  | processing p => p.phase.answer.isSome
  | managing m => m.ended
  | ended _ => true

variable (cfg : Settings) (db : Database)

/-- What the call writes if it commits. -/
def write : Task → Database
  | uploading record =>
    match db.documents record.id with
    | none => insertDocument db record
    | some _ => db
  | starting docId => (markDocumentChunkRunningCas db docId cfg.uploadCreatedBy).1
  | processing p => Knowledge.write cfg p.message p.draw db p.phase
  | managing m => m.write cfg db
  | ended _ => db

/-- The call cannot return. -/
def raises : Task → Bool
  | uploading record => (db.documents record.id).isSome
  | processing p => p.raises
  | _ => false

/-- Where the operation goes from the end of the call. -/
def next : Task → Ending → Task
  | uploading _, .returned => ended none
  | uploading _, .raised error _ => ended (some (.other error))
  | starting docId, .returned =>
    match (markDocumentChunkRunningCas db docId cfg.uploadCreatedBy).2 with
    | some _ => ended none
    | none => ended (some (.http 409
        (.lit "document not found or current status cannot start chunking")))
  | starting _, .raised error _ => ended (some (.other error))
  | processing p, ending =>
    processing { p with
      phase := Knowledge.next cfg p.outside.services p.message p.draw db p.phase ending }
  | managing m, ending => managing { m with phase := m.next db ending }
  | ended failure, _ => ended failure

end Task

end Operations

section Writes

/-- The document that a delivery inserts chunks and vectors for. -/
def Processing.inserts (p : Processing) : Option Str :=
  match p.phase with
  | .replacing doc chunks vectors _ =>
    if chunks.length = vectors.length ∧ chunks ≠ [] then some doc.id else none
  | _ => none

namespace Task

/-- The documents that the call inserts rows for. -/
def inserts : Task → List Str
  | processing p => p.inserts.toList
  | managing m =>
    match m.phase with
    | .enabling _ true vectors => vectors.map VectorChunk.docId
    | _ => []
  | _ => []

/-- The document that the call deletes. -/
def deletes : Task → Option Str
  | managing m =>
    match m.phase with
    | .deleting detail => some detail.id
    | _ => none
  | _ => none

end Task

/-- What the call makes of the row of a document. -/
def Task.rewrite (cfg : Settings) (docId : Str) (row : DocumentRow) : Task → DocumentRow
  | .starting target =>
    if docId = target ∧ row.deleted = false ∧ row.status = .pending then
      { row with status := .running, updatedBy := some cfg.uploadCreatedBy }
    else row
  | .processing p =>
    match p.phase with
    | .replacing doc chunks vectors _ =>
      if chunks.length = vectors.length ∧ docId = doc.id ∧ row.deleted = false then
        { row with
          status := .success
          chunkCount := chunks.length
          updatedBy := some (requestedBy cfg p.message) }
      else row
    | .markingDocumentFailed doc _ =>
      if docId = doc.id ∧ row.deleted = false then
        { row with status := .failed, updatedBy := some (requestedBy cfg p.message) }
      else row
    | _ => row
  | .managing m =>
    match m.phase with
    | .updating detail docName options =>
      if docId = detail.id ∧ row.deleted = false then
        { row with
          docName
          chunkStrategy := options.strategy
          chunkConfig := some options.config
          updatedBy := some cfg.uploadCreatedBy }
      else row
    | .deleting detail =>
      if docId = detail.id ∧ row.deleted = false then
        { row with deleted := true, updatedBy := some cfg.uploadCreatedBy }
      else row
    | .enabling detail enabled _ =>
      if docId = detail.id ∧ row.deleted = false then
        { row with enabled, updatedBy := some cfg.uploadCreatedBy }
      else row
    | _ => row
  | _ => row

theorem documents_markDocumentChunkRunningCas (db : Database) (docId updatedBy other : Str) :
    (markDocumentChunkRunningCas db docId updatedBy).1.documents other =
      (db.documents other).map fun row =>
        if other = docId ∧ row.deleted = false ∧ row.status = .pending then
          { row with status := .running, updatedBy := some updatedBy }
        else row := by
  unfold markDocumentChunkRunningCas
  cases pending : db.pendingDocument docId with
  | some row =>
    obtain ⟨present, status⟩ := Option.filter_eq_some_iff.mp pending
    have present := (Database.document_of_mem present).1
    rw [Database.documents_updateDocument]
    by_cases same : other = docId
    · subst same
      simp_all
    · simp [same]
  | none =>
    by_cases same : other = docId
    · subst same
      cases found : db.documents other with
      | none => rfl
      | some row =>
        have idle : ¬ (row.deleted = false ∧ row.status = .pending) := by
          rintro ⟨kept, status⟩
          simp [Database.pendingDocument, Database.document, found, Option.filter, kept,
            status] at pending
        simp [idle]
    · simp [same]

/-- Only an upload adds a document, and every other call rewrites the rows one by one. -/
theorem documents_write (cfg : Settings) (db : Database) (task : Task) (docId : Str) :
    (task.write cfg db).documents docId =
      match task with
      | .uploading record =>
        if docId = record.id then (db.documents docId).or (some record.row) else db.documents docId
      | task => (db.documents docId).map fun row => task.rewrite cfg docId row := by
  cases task with
  | uploading record =>
    simp only [Task.write]
    split
    case h_1 free =>
      split
      case isTrue same =>
        subst same
        simp [insertDocument, free]
      case isFalse differ => exact Function.update_of_ne differ _ _
    case h_2 row taken =>
      split
      case isTrue same =>
        subst same
        simp [taken]
      case isFalse => rfl
  | starting target => exact documents_markDocumentChunkRunningCas db target _ docId
  | processing p =>
    simp only [Task.write, Task.rewrite]
    cases phase : p.phase with
    | replacing doc chunks vectors attempt =>
      by_cases lengths : chunks.length = vectors.length
      · simp only [Knowledge.write, if_pos lengths, and_iff_right lengths]
        exact Database.documents_updateDocument _ _ _ _
      · simp [Knowledge.write, lengths]
    | markingDocumentFailed doc error => exact Database.documents_updateDocument _ _ _ _
    | _ => simp [Knowledge.write, insertChunkLog, markChunkLogSuccess, markChunkLogFailed,
        Database.updateChunkLog]
  | managing m =>
    simp only [Task.write, Task.rewrite, Management.write]
    cases phase : m.phase with
    | updating detail docName options => exact Database.documents_updateDocument _ _ _ _
    | deleting detail => exact Database.documents_updateDocument _ _ _ _
    | enabling detail enabled vectors => exact Database.documents_updateDocument _ _ _ _
    | _ => simp
  | ended failure => simp [Task.write, Task.rewrite]

variable (cfg : Settings) (db : Database) (task : Task)

/-- Only the deletion of a document marks its row. -/
theorem deleted_rewrite (docId : Str) (row : DocumentRow) :
    (task.rewrite cfg docId row).deleted = (row.deleted || task.deletes = some docId) := by
  cases task with
  | processing p =>
    cases phase : p.phase with
    | replacing doc chunks vectors attempt =>
      simp only [Task.rewrite, Task.deletes, phase]
      split <;> simp
    | markingDocumentFailed doc error =>
      simp only [Task.rewrite, Task.deletes, phase]
      split <;> simp
    | _ => simp [Task.rewrite, Task.deletes, phase]
  | starting target =>
    simp only [Task.rewrite, Task.deletes]
    split <;> simp
  | managing m =>
    cases phase : m.phase with
    | deleting detail =>
      simp only [Task.rewrite, Task.deletes, phase]
      by_cases same : docId = detail.id
      · subst same
        cases deleted : row.deleted <;> simp [deleted]
      · have other : detail.id ≠ docId := fun back => same back.symm
        simp [same, other]
    | updating detail docName options =>
      simp only [Task.rewrite, Task.deletes, phase]
      split <;> simp
    | enabling detail enabled vectors =>
      simp only [Task.rewrite, Task.deletes, phase]
      split <;> simp
    | _ => simp [Task.rewrite, Task.deletes, phase]
  | _ => simp [Task.rewrite, Task.deletes]

/-- A call that deletes a document leaves none. -/
theorem not_document_of_deletes {docId : Str} {row : DocumentRow}
    (deletes : task.deletes = some docId) :
    (task.write cfg db).document docId ≠ some (task.rewrite cfg docId row) := by
  intro found
  have kept := (Database.document_of_mem found).2
  rw [deleted_rewrite] at kept
  simp [deletes] at kept

/-- A document behind a call was there before, or is the one that was uploaded. -/
theorem document_write {docId : Str} {row : DocumentRow}
    (found : (task.write cfg db).document docId = some row) :
    (∃ old, db.document docId = some old ∧ row = task.rewrite cfg docId old) ∨
      ∃ record, task = .uploading record ∧ row = record.row := by
  obtain ⟨present, kept⟩ := Option.filter_eq_some_iff.mp found
  rw [documents_write] at present
  cases task with
  | uploading record =>
    cases old : db.documents docId with
    | none =>
      simp only [old, Option.none_or] at present
      split at present
      · exact .inr ⟨record, rfl, (Option.some.inj present).symm⟩
      · cases present
    | some before =>
      simp only [old, Option.some_or, ite_self, Option.some.injEq] at present
      subst present
      exact .inl ⟨before, Option.filter_eq_some_iff.mpr ⟨old, kept⟩, rfl⟩
  | _ =>
    left
    simp only at present
    obtain ⟨before, old, rfl⟩ := Option.map_eq_some_iff.mp present
    rw [deleted_rewrite, Bool.not_or, Bool.and_eq_true] at kept
    exact ⟨before, Option.filter_eq_some_iff.mpr ⟨old, kept.1⟩, rfl⟩

/-- A document that the call does not delete is there behind it. -/
theorem document_rewrite {docId : Str} {row : DocumentRow} (found : db.document docId = some row)
    (stays : task.deletes ≠ some docId) :
    (task.write cfg db).document docId = some (task.rewrite cfg docId row) := by
  obtain ⟨present, kept⟩ := Option.filter_eq_some_iff.mp found
  refine Option.filter_eq_some_iff.mpr ⟨?_, ?_⟩
  · rw [documents_write]
    cases task with
    | uploading record => simp [present, Task.rewrite]
    | _ => simp only [present, Option.map_some]
  · simpa [deleted_rewrite, stays] using kept

/-- The chunks behind a call. -/
theorem chunks_write : (task.write cfg db).chunks =
    match task with
    | .processing p =>
      match p.phase with
      | .replacing doc chunks vectors _ =>
        if chunks.length = vectors.length then
          db.chunks.filter (fun row => row.docId ≠ doc.id) ++
            chunks.map (chunkRow doc (requestedBy cfg p.message))
        else db.chunks
      | _ => db.chunks
    | .managing m =>
      match m.phase with
      | .deleting detail => db.chunks.filter fun row => row.docId ≠ detail.id
      | .enabling detail enabled _ => db.chunks.map (enableChunk detail.id enabled cfg.uploadCreatedBy)
      | _ => db.chunks
    | _ => db.chunks := by
  cases task with
  | uploading record =>
    simp only [Task.write]
    split <;> rfl
  | starting target =>
    simp only [Task.write, markDocumentChunkRunningCas]
    split <;> simp
  | processing p =>
    simp only [Task.write, Knowledge.write]
    cases phase : p.phase with
    | replacing doc chunks vectors attempt =>
      simp only
      split
      · exact chunks_replaceChunksAndVectorsAtomic ..
      · rfl
    | markingDocumentFailed doc error => exact Database.chunks_updateDocument ..
    | _ => rfl
  | managing m =>
    simp only [Task.write, Management.write]
    cases phase : m.phase with
    | updating detail docName options => exact Database.chunks_updateDocument ..
    | deleting detail => exact Database.chunks_updateDocument ..
    | enabling detail enabled vectors =>
      simp only [setDocumentEnabledAtomic, Database.chunks_updateDocument]
    | _ => rfl
  | ended failure => rfl

/-- The vectors behind a call. -/
theorem vectors_write : (task.write cfg db).vectors =
    match task with
    | .processing p =>
      match p.phase with
      | .replacing doc chunks vectors attempt =>
        if chunks.length = vectors.length then
          db.vectors.filter (fun row => row.docId ≠ doc.id) ++
            vectorRows doc (requestedBy cfg p.message) (p.draw.vectorIds attempt) vectors
        else db.vectors
      | _ => db.vectors
    | .managing m =>
      match m.phase with
      | .deleting detail => db.vectors.filter fun row => row.docId ≠ detail.id
      | .enabling detail enabled vectors =>
        db.vectors.filter (fun row => row.docId ≠ detail.id) ++
          if enabled then
            vectors.mapIdx fun index vector =>
              enabledVectorRow cfg.uploadCreatedBy (m.vectorIds index) vector
          else []
      | _ => db.vectors
    | _ => db.vectors := by
  cases task with
  | uploading record =>
    simp only [Task.write]
    split <;> rfl
  | starting target =>
    simp only [Task.write, markDocumentChunkRunningCas]
    split <;> simp
  | processing p =>
    simp only [Task.write, Knowledge.write]
    cases phase : p.phase with
    | replacing doc chunks vectors attempt =>
      simp only
      split
      · exact vectors_replaceChunksAndVectorsAtomic ..
      · rfl
    | markingDocumentFailed doc error => exact Database.vectors_updateDocument ..
    | _ => rfl
  | managing m =>
    simp only [Task.write, Management.write]
    cases phase : m.phase with
    | updating detail docName options => exact Database.vectors_updateDocument ..
    | deleting detail => exact Database.vectors_updateDocument ..
    | enabling detail enabled vectors =>
      simp only [setDocumentEnabledAtomic, Database.vectors_updateDocument]
    | _ => rfl
  | ended failure => rfl

end Writes

section Machine

/-- The tables and the operations. -/
structure State (N : Type) where
  db : Database
  tasks : N → Option Task := fun _ => none

inductive Event (N : Type) where
  | begin (n : N) (operation : Operation)
  | call (n : N) (ending : Ending)

variable {N : Type} [DecidableEq N]

/-- The tables behind a call. -/
def called (cfg : Settings) (db : Database) (task : Task) (ending : Ending) : Database :=
  if ending.commits then task.write cfg db else db

/-- The place of an operation that has ended is free again. -/
def step (cfg : Settings) (s : State N) : Event N → Option (State N)
  | .begin n operation =>
    if (s.tasks n).all Task.isEnded then
      some { s with tasks := Function.update s.tasks n (some operation.task) }
    else none
  | .call n ending =>
    match s.tasks n with
    | none => none
    | some task =>
      if task.isEnded ∨ (task.raises s.db ∧ ending.clean) then none
      else
        some
          { db := called cfg s.db task ending
            tasks := Function.update s.tasks n (some (task.next cfg s.db ending)) }

def initial (db : Database) : State N := { db }

theorem step_begin {cfg : Settings} {s t : State N} {n : N} {operation : Operation}
    (taken : step cfg s (.begin n operation) = some t) :
    (s.tasks n).all Task.isEnded ∧ t.db = s.db ∧
      t.tasks = Function.update s.tasks n (some operation.task) := by
  simp only [step] at taken
  split at taken
  case isTrue free =>
    cases taken
    exact ⟨free, rfl, rfl⟩
  case isFalse => cases taken

theorem step_call {cfg : Settings} {s t : State N} {n : N} {ending : Ending}
    (taken : step cfg s (.call n ending) = some t) :
    ∃ task, s.tasks n = some task ∧ task.isEnded = false ∧
      (task.raises s.db = true → ending.clean = false) ∧ t.db = called cfg s.db task ending ∧
      t.tasks = Function.update s.tasks n (some (task.next cfg s.db ending)) := by
  simp only [step] at taken
  split at taken
  case h_1 => cases taken
  case h_2 task found =>
    split at taken
    case isTrue => cases taken
    case isFalse goes =>
      cases taken
      simp only [not_or, not_and, Bool.not_eq_true] at goes
      exact ⟨task, found, goes.1, goes.2, rfl, rfl⟩

end Machine

section Samples

/-- One document that waits to be chunked. -/
def manual : Database where
  documents docId :=
    if docId = .lit "doc-1" then
      some
        { kbId := .lit "kb-1"
          docName := .lit "manual.txt"
          fileUrl := .lit "s3://kb/doc.txt"
          fileType := .lit "txt"
          fileSize := some 9
          sourceType := .lit "FILE"
          chunkStrategy := .lit "fixed_size"
          chunkConfig := none
          createdBy := none
          updatedBy := none }
    else none

/-- A file of one letter. -/
def plain : Outside where
  read _ := [97]
  extractText bytes _ := bytes
  py := ChunkingService.asciiInterpreter
  embed _ := [.lit "0.1"]

def delivery : Operation :=
  .processMessage { docId := .lit "doc-1" } plain
    { pipelineId := .lit "pipeline"
      logId := .lit "log"
      chunkIds := fun _ => .lit "chunk"
      vectorIds := fun _ _ => .lit "vector" }

def managing (request : Request) : Operation :=
  .manage (.lit "doc-1") request plain.embed fun _ => .lit "vector"

end Samples

end HeyeeAgent.Knowledge.DocumentOperations
