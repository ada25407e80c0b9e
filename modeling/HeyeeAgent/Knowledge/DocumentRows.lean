import HeyeeAgent.Knowledge.DocumentOperations

/-! # The rows of one document

What a call does to the chunks and the vectors of one document: it leaves them, puts others in their
place, takes them away with the document, or sets the flag of the chunks and puts in the vectors that
go with it.
-/

namespace HeyeeAgent.Knowledge

open Python Machine

namespace Database

def chunksOf (db : Database) (docId : Str) : List ChunkRow :=
  db.chunks.filter fun row => row.docId = docId

def vectorsOf (db : Database) (docId : Str) : List VectorRow :=
  db.vectors.filter fun row => row.docId = docId

/-- The column `deleted` of the chunks is never set. -/
def ChunksPresent (db : Database) : Prop := ∀ chunk ∈ db.chunks, chunk.deleted = false

end Database

section Selection

variable {α : Type} {owner : α → Str} {docId other : Str} {rows new : List α}

/-- The rows of a document in a table whose rows of another document were put aside. -/
theorem filter_owner_of_ne (differ : docId ≠ other) :
    (rows.filter fun row => owner row ≠ other).filter (fun row => owner row = docId) =
      rows.filter fun row => owner row = docId := by
  rw [List.filter_filter]
  apply List.filter_congr
  intro row _
  by_cases own : owner row = docId
  · simp [own, differ]
  · simp [own]

theorem filter_owner_self :
    (rows.filter fun row => owner row ≠ docId).filter (fun row => owner row = docId) = [] := by
  rw [List.filter_filter, List.filter_eq_nil_iff]
  intro row _
  simp

theorem filter_owned (owned : ∀ row ∈ new, owner row = docId) :
    new.filter (fun row => owner row = docId) = new := by
  rw [List.filter_eq_self]
  intro row member
  simp [owned row member]

theorem filter_owned_of_ne (owned : ∀ row ∈ new, owner row = other) (differ : docId ≠ other) :
    new.filter (fun row => owner row = docId) = [] := by
  rw [List.filter_eq_nil_iff]
  intro row member
  simp [owned row member, differ.symm]

end Selection

@[simp] theorem docId_enableChunk (docId : Str) (enabled : Bool) (updatedBy : Str) (row : ChunkRow) :
    (enableChunk docId enabled updatedBy row).docId = row.docId := by
  unfold enableChunk
  split <;> rfl

@[simp] theorem deleted_enableChunk (docId : Str) (enabled : Bool) (updatedBy : Str)
    (row : ChunkRow) : (enableChunk docId enabled updatedBy row).deleted = row.deleted := by
  unfold enableChunk
  split <;> rfl

namespace DocumentOperations

/-- The vectors that an enabling is about to insert belong to its document. -/
def Task.OwnVectors : Task → Prop
  | managing m =>
    ∀ detail enabled vectors, m.phase = .enabling detail enabled vectors →
      ∀ vector ∈ vectors, vector.docId = detail.id
  | _ => True

/-- What a call does to the rows of a document. -/
inductive RowsWritten (cfg : Settings) (db : Database) (docId : Str) : Task → Prop
  | untouched {task : Task}
      (chunks : (task.write cfg db).chunksOf docId = db.chunksOf docId)
      (vectors : (task.write cfg db).vectorsOf docId = db.vectorsOf docId)
      (kept : ∀ row, (task.rewrite cfg docId row).enabled = row.enabled ∧
        ((task.rewrite cfg docId row).status = .success →
          row.status = .success ∧ (task.rewrite cfg docId row).chunkCount = row.chunkCount)) :
      RowsWritten cfg db docId task
  | replaced {p : Processing} {doc : KnowledgeDocumentForChunk} {chunks : List TextChunk}
      {vectors : List VectorChunk} {attempt : ℕ}
      (phase : p.phase = .replacing doc chunks vectors attempt)
      (lengths : chunks.length = vectors.length) (own : doc.id = docId)
      (new_chunks : ((Task.processing p).write cfg db).chunksOf docId =
        chunks.map (chunkRow doc (requestedBy cfg p.message)))
      (new_vectors : ((Task.processing p).write cfg db).vectorsOf docId =
        vectorRows doc (requestedBy cfg p.message) (p.draw.vectorIds attempt) vectors)
      (kept : ∀ row, ((Task.processing p).rewrite cfg docId row).enabled = row.enabled)
      (counted : ∀ row, row.deleted = false →
        ((Task.processing p).rewrite cfg docId row).chunkCount = chunks.length) :
      RowsWritten cfg db docId (.processing p)
  | deleted {task : Task} (deletes : task.deletes = some docId) : RowsWritten cfg db docId task
  | enabled {m : Management} {detail : KnowledgeDocumentDetail} {enabled : Bool}
      {vectors : List VectorChunk} (phase : m.phase = .enabling detail enabled vectors)
      (own : detail.id = docId)
      (flagged : ((Task.managing m).write cfg db).chunksOf docId =
        (db.chunksOf docId).map (enableChunk docId enabled cfg.uploadCreatedBy))
      (new_vectors : ((Task.managing m).write cfg db).vectorsOf docId =
        if enabled then vectors.mapIdx fun index vector =>
          enabledVectorRow cfg.uploadCreatedBy (m.vectorIds index) vector
        else [])
      (set : ∀ row, row.deleted = false →
        ((Task.managing m).rewrite cfg docId row).enabled = enabled)
      (kept : ∀ row, ((Task.managing m).rewrite cfg docId row).status = row.status ∧
        ((Task.managing m).rewrite cfg docId row).chunkCount = row.chunkCount) :
      RowsWritten cfg db docId (.managing m)

variable (cfg : Settings) (db : Database) {task : Task} (docId : Str)

/-- A call that leaves both tables leaves the rows of every document. -/
theorem RowsWritten.of_tables (chunks : (task.write cfg db).chunks = db.chunks)
    (vectors : (task.write cfg db).vectors = db.vectors)
    (kept : ∀ row, (task.rewrite cfg docId row).enabled = row.enabled ∧
      ((task.rewrite cfg docId row).status = .success →
        row.status = .success ∧ (task.rewrite cfg docId row).chunkCount = row.chunkCount)) :
    RowsWritten cfg db docId task := by
  apply RowsWritten.untouched
  · rw [Database.chunksOf, Database.chunksOf, chunks]
  · rw [Database.vectorsOf, Database.vectorsOf, vectors]
  · exact kept

theorem rowsWritten_processing (p : Processing) : RowsWritten cfg db docId (.processing p) := by
  cases phase : p.phase with
  | replacing doc chunks vectors attempt =>
    by_cases lengths : chunks.length = vectors.length
    · have newChunks := chunks_write cfg db (.processing p)
      have newVectors := vectors_write cfg db (.processing p)
      simp only [phase, if_pos lengths] at newChunks newVectors
      have ownChunks : ∀ row ∈ chunks.map (chunkRow doc (requestedBy cfg p.message)),
          row.docId = doc.id := by
        intro row member
        obtain ⟨chunk, -, rfl⟩ := List.mem_map.mp member
        rfl
      have ownVectors : ∀ row ∈ vectorRows doc (requestedBy cfg p.message)
          (p.draw.vectorIds attempt) vectors, row.docId = doc.id :=
        fun row => docId_vectorRows doc vectors _ _
      by_cases own : docId = doc.id
      · subst own
        apply RowsWritten.replaced phase lengths rfl
        · rw [Database.chunksOf, newChunks, List.filter_append, filter_owner_self,
            filter_owned ownChunks, List.nil_append]
        · rw [Database.vectorsOf, newVectors, List.filter_append, filter_owner_self,
            filter_owned ownVectors, List.nil_append]
        · intro row
          simp only [Task.rewrite, phase]
          split <;> rfl
        · intro row kept
          simp [Task.rewrite, phase, lengths, kept]
      · apply RowsWritten.untouched
        · rw [Database.chunksOf, newChunks, List.filter_append, filter_owner_of_ne own,
            filter_owned_of_ne ownChunks own, List.append_nil, Database.chunksOf]
        · rw [Database.vectorsOf, newVectors, List.filter_append, filter_owner_of_ne own,
            filter_owned_of_ne ownVectors own, List.append_nil, Database.vectorsOf]
        · intro row
          simp [Task.rewrite, phase, own]
    · apply RowsWritten.of_tables
      · rw [chunks_write]
        simp only [phase, if_neg lengths]
      · rw [vectors_write]
        simp only [phase, if_neg lengths]
      · intro row
        simp [Task.rewrite, phase, lengths]
  | markingDocumentFailed doc error =>
    apply RowsWritten.of_tables
    · rw [chunks_write]
      simp only [phase]
    · rw [vectors_write]
      simp only [phase]
    · intro row
      simp only [Task.rewrite, phase]
      split <;> simp
  | _ =>
    apply RowsWritten.of_tables
    · rw [chunks_write]
      simp only [phase]
    · rw [vectors_write]
      simp only [phase]
    · intro row
      simp [Task.rewrite, phase]

theorem rowsWritten_managing {m : Management} (ownVectors : (Task.managing m).OwnVectors) :
    RowsWritten cfg db docId (.managing m) := by
  have newChunks := chunks_write cfg db (.managing m)
  have newVectors := vectors_write cfg db (.managing m)
  cases phase : m.phase with
  | deleting detail =>
    simp only [phase] at newChunks newVectors
    by_cases own : docId = detail.id
    · exact RowsWritten.deleted (by simp [Task.deletes, phase, own])
    · apply RowsWritten.untouched
      · rw [Database.chunksOf, newChunks, filter_owner_of_ne own, Database.chunksOf]
      · rw [Database.vectorsOf, newVectors, filter_owner_of_ne own, Database.vectorsOf]
      · intro row
        simp [Task.rewrite, phase, own]
  | enabling detail enabled vectors =>
    simp only [phase] at newChunks newVectors
    have owned : ∀ row ∈ (if enabled then vectors.mapIdx fun index vector =>
        enabledVectorRow cfg.uploadCreatedBy (m.vectorIds index) vector else []),
        row.docId = detail.id := by
      intro row member
      cases enabled with
      | false => cases member
      | true =>
        obtain ⟨index, bound, rfl⟩ := List.mem_mapIdx.mp member
        exact ownVectors detail true vectors phase _ (List.getElem_mem bound)
    have selected : (db.chunks.map (enableChunk detail.id enabled cfg.uploadCreatedBy)).filter
        (fun row => row.docId = docId) =
          (db.chunksOf docId).map (enableChunk detail.id enabled cfg.uploadCreatedBy) := by
      rw [List.filter_map, Database.chunksOf]
      congr 1
      apply List.filter_congr
      intro row _
      simp
    by_cases own : docId = detail.id
    · subst own
      apply RowsWritten.enabled phase rfl
      · rw [Database.chunksOf, newChunks, selected]
      · rw [Database.vectorsOf, newVectors, List.filter_append, filter_owner_self,
          filter_owned owned, List.nil_append]
      · intro row kept
        simp [Task.rewrite, phase, kept]
      · intro row
        simp only [Task.rewrite, phase]
        split <;> exact ⟨rfl, rfl⟩
    · apply RowsWritten.untouched
      · have others : ∀ row ∈ db.chunksOf docId,
            enableChunk detail.id enabled cfg.uploadCreatedBy row = row := by
          intro row member
          have mine : row.docId = docId := by simpa using (List.mem_filter.mp member).2
          exact if_neg fun owned => own (mine.symm.trans owned.1)
        rw [Database.chunksOf, newChunks, selected, List.map_congr_left others, List.map_id']
      · rw [Database.vectorsOf, newVectors, List.filter_append, filter_owner_of_ne own,
          filter_owned_of_ne owned own, List.append_nil, Database.vectorsOf]
      · intro row
        simp [Task.rewrite, phase, own]
  | updating detail docName options =>
    simp only [phase] at newChunks newVectors
    apply RowsWritten.of_tables cfg db docId newChunks newVectors
    intro row
    simp only [Task.rewrite, phase]
    split <;> exact ⟨rfl, fun success => ⟨success, rfl⟩⟩
  | _ =>
    simp only [phase] at newChunks newVectors
    apply RowsWritten.of_tables cfg db docId newChunks newVectors
    intro row
    simp [Task.rewrite, phase]

/-- Every call does one of these to the rows of a document. -/
theorem rowsWritten (ownVectors : task.OwnVectors) : RowsWritten cfg db docId task := by
  cases task with
  | processing p => exact rowsWritten_processing cfg db docId p
  | managing m => exact rowsWritten_managing cfg db docId ownVectors
  | starting target =>
    apply RowsWritten.of_tables cfg db docId (chunks_write ..) (vectors_write ..)
    intro row
    simp only [Task.rewrite]
    split <;> simp
  | uploading record =>
    apply RowsWritten.of_tables cfg db docId (chunks_write ..) (vectors_write ..)
    exact fun row => ⟨rfl, fun success => ⟨success, rfl⟩⟩
  | ended failure =>
    apply RowsWritten.of_tables cfg db docId (chunks_write ..) (vectors_write ..)
    exact fun row => ⟨rfl, fun success => ⟨success, rfl⟩⟩

section Steps

variable {N : Type} [DecidableEq N]

theorem ownVectors_task (operation : Operation) : operation.task.OwnVectors := by
  cases operation with
  | startChunking documentId =>
    simp only [Operation.task]
    split <;> trivial
  | manage documentId request embed vectorIds =>
    intro detail enabled vectors phase
    simp only [Management.start] at phase
    split at phase <;> cases phase
  | _ => trivial

theorem ownVectors_next (task : Task) (ending : Ending) :
    (task.next cfg db ending).OwnVectors := by
  cases task with
  | managing m =>
    intro detail enabled vectors writes vector member
    rcases Management.enabling_next writes with ⟨-, rfl⟩ | ⟨-, rfl, -⟩ | ⟨-, chunks, -, rfl⟩
    · cases member
    · cases member
    · obtain ⟨chunk, -, rfl⟩ := List.mem_map.mp member
      rfl
  | starting target =>
    cases ending with
    | raised error committed => trivial
    | returned =>
      simp only [Task.next]
      split <;> trivial
  | uploading record => cases ending <;> trivial
  | processing p => trivial
  | ended failure => trivial

theorem chunksPresent_write (present : db.ChunksPresent) (task : Task) :
    (task.write cfg db).ChunksPresent := by
  intro chunk member
  rw [chunks_write] at member
  cases task with
  | processing p =>
    cases phase : p.phase with
    | replacing doc chunks vectors attempt =>
      simp only [phase] at member
      split at member
      · rcases List.mem_append.mp member with old | new
        · exact present chunk (List.mem_filter.mp old).1
        · obtain ⟨given, -, rfl⟩ := List.mem_map.mp new
          rfl
      · exact present chunk member
    | _ => exact present chunk (by simpa only [phase] using member)
  | managing m =>
    cases phase : m.phase with
    | deleting detail =>
      simp only [phase] at member
      exact present chunk (List.mem_filter.mp member).1
    | enabling detail enabled vectors =>
      simp only [phase] at member
      obtain ⟨old, there, rfl⟩ := List.mem_map.mp member
      rw [deleted_enableChunk]
      exact present old there
    | _ => exact present chunk (by simpa only [phase] using member)
  | _ => exact present chunk member

/-- What holds in every run: the chunks are present, and the vectors to insert are those of their
document. -/
structure RowsInv (s : State N) : Prop where
  present : s.db.ChunksPresent
  own : ∀ n task, s.tasks n = some task → task.OwnVectors

theorem rowsInv_step {cfg : Settings} {s t : State N} {e : Event N} (inv : RowsInv s)
    (taken : step cfg s e = some t) : RowsInv t := by
  cases e with
  | begin n operation =>
    obtain ⟨-, same, tasks⟩ := step_begin taken
    refine ⟨same ▸ inv.present, fun m task found => ?_⟩
    rw [tasks] at found
    by_cases new : m = n
    · subst new
      rw [Function.update_self, Option.some.injEq] at found
      exact found ▸ ownVectors_task operation
    · rw [Function.update_of_ne new] at found
      exact inv.own m task found
  | call n ending =>
    obtain ⟨caller, called_by, -, -, after, tasks⟩ := step_call taken
    constructor
    · rw [after, called]
      split
      · exact chunksPresent_write cfg s.db inv.present caller
      · exact inv.present
    · intro m task found
      rw [tasks] at found
      by_cases new : m = n
      · subst new
        rw [Function.update_self, Option.some.injEq] at found
        exact found ▸ ownVectors_next cfg s.db caller ending
      · rw [Function.update_of_ne new] at found
        exact inv.own m task found

end Steps

end DocumentOperations

end HeyeeAgent.Knowledge
