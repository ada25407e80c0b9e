import HeyeeAgent.Knowledge.DocumentRows

/-! # The search index of a document

Two writers put the vectors of a document in: the delivery of a chunk message, beside the chunks that
it makes, and the enabling, for the chunks that it lists. Operations that run one after the other
leave an enabled document whose chunking succeeded with one vector for every chunk.
-/

namespace HeyeeAgent.Knowledge

open Python Machine

/-- What a vector shares with its chunk. -/
def TextChunk.key (chunk : TextChunk) : Str × ℕ := (chunk.chunkId, chunk.chunkIndex)

def VectorChunk.key (vector : VectorChunk) : Str × ℕ := (vector.chunkId, vector.chunkIndex)

def ChunkRow.key (row : ChunkRow) : Str × ℕ := (row.id, row.chunkIndex)

def VectorRow.key (row : VectorRow) : Str × ℕ := (row.chunkId, row.chunkIndex)

namespace Database

/-- The chunks of a document are those from zero up to a count. -/
def Numbered (db : Database) (docId : Str) (count : ℕ) : Prop :=
  ((db.chunksOf docId).map ChunkRow.chunkIndex).Perm (List.range count)

/-- Every chunk of a document is enabled, and there is one vector for each and no other. -/
structure Searchable (db : Database) (docId : Str) : Prop where
  enabled : ∀ chunk ∈ db.chunksOf docId, chunk.enabled = true
  vectors : ((db.vectorsOf docId).map VectorRow.key).Perm ((db.chunksOf docId).map ChunkRow.key)

/-- The chunks of every document that is enabled and chunked are complete and searchable. -/
def IndexComplete (db : Database) : Prop :=
  ∀ docId row, db.document docId = some row → row.status = .success → row.enabled = true →
    db.Numbered docId row.chunkCount ∧ db.Searchable docId

end Database

theorem key_embedChunks (embed : Str → List Str) (docId kbId : Str) (chunks : List TextChunk) :
    (embedChunks embed docId kbId chunks).map VectorChunk.key = chunks.map TextChunk.key := by
  simp [embedChunks, VectorChunk.key, TextChunk.key]

theorem key_vectorRows (doc : KnowledgeDocumentForChunk) (updatedBy : Str) (ids : ℕ → Str)
    (vectors : List VectorChunk) :
    (vectorRows doc updatedBy ids vectors).map VectorRow.key = vectors.map VectorChunk.key := by
  apply List.ext_getElem
  · simp [vectorRows]
  · intro index _ _
    simp [vectorRows, vectorRow, VectorRow.key, VectorChunk.key]

theorem key_enabledVectorRows (updatedBy : Str) (ids : ℕ → Str) (vectors : List VectorChunk) :
    (vectors.mapIdx fun index vector => enabledVectorRow updatedBy (ids index) vector).map
      VectorRow.key = vectors.map VectorChunk.key := by
  apply List.ext_getElem
  · simp
  · intro index _ _
    simp [enabledVectorRow, VectorRow.key, VectorChunk.key]

theorem key_enableChunk (docId : Str) (enabled : Bool) (updatedBy : Str) (row : ChunkRow) :
    (enableChunk docId enabled updatedBy row).key = row.key := by
  unfold enableChunk
  split <;> rfl

/-- The listing hands over all chunks of a document. -/
theorem key_listVectorChunkSources {db : Database} (present : db.ChunksPresent) (docId : Str) :
    (((listVectorChunkSources db docId).map Management.textChunk).map TextChunk.key).Perm
      ((db.chunksOf docId).map ChunkRow.key) := by
  have all : (db.chunks.filter fun row => row.docId = docId ∧ row.deleted = false) =
      db.chunksOf docId := by
    apply List.filter_congr
    intro row member
    simp [present row member]
  have keys : TextChunk.key ∘ Management.textChunk ∘ ChunkRow.source = ChunkRow.key := rfl
  simp only [listVectorChunkSources, all, List.map_map, keys]
  exact (List.mergeSort_perm _ _).map _

namespace DocumentOperations

open ChunkingService (Numbered numbered_split)

/-- The chunks on their way to the tables are numbered, and the vectors go with them. -/
def ChunksFit : Phase → Prop
  | .embedding _ chunks _ => Numbered chunks
  | .replacing _ chunks vectors _ =>
    Numbered chunks ∧ vectors.map VectorChunk.key = chunks.map TextChunk.key
  | _ => True

/-- What an operation carries agrees with the tables. -/
def Task.Fits (db : Database) : Task → Prop
  | processing p => ChunksFit p.phase
  | managing m =>
    match m.phase with
    | .embedding detail chunks =>
      (chunks.map TextChunk.key).Perm ((db.chunksOf detail.id).map ChunkRow.key)
    | .enabling detail true vectors =>
      (vectors.map VectorChunk.key).Perm ((db.chunksOf detail.id).map ChunkRow.key)
    | _ => True
  | _ => True

section Carried

variable {cfg : Settings} {db : Database}

theorem fits_retry {doc : KnowledgeDocumentForChunk} {attempt : ℕ} {again : ℕ → Phase} {error : Str}
    (fits : ∀ attempt, ChunksFit (again attempt)) :
    ChunksFit (retry cfg doc attempt again error) := by
  unfold retry
  split
  · trivial
  · exact fits _

theorem numbered_services (outside : Outside) (drawn : ℕ → Str) (text strategy : Str)
    (config : Object) : Numbered (outside.services.split drawn text strategy config) := by
  simp only [Outside.services]
  cases cut : outside.split drawn text strategy config with
  | none => rfl
  | some chunks => exact numbered_split _ _ cut

theorem chunksFit_next (p : Processing) (ending : Ending) (fits : ChunksFit p.phase) :
    ChunksFit (Knowledge.next cfg p.outside.services p.message p.draw db p.phase ending) := by
  cases phase : p.phase with
  | finding =>
    cases ending with
    | raised error committed => trivial
    | returned =>
      simp only [Knowledge.next, gate]
      split
      · trivial
      · split <;> trivial
  | splitting doc text =>
    cases ending with
    | raised error committed => trivial
    | returned => exact numbered_services ..
  | embedding doc chunks attempt =>
    rw [phase] at fits
    cases ending with
    | raised error committed => exact fits_retry fun _ => fits
    | returned => exact ⟨fits, key_embedChunks ..⟩
  | replacing doc chunks vectors attempt =>
    rw [phase] at fits
    cases ending with
    | raised error committed => exact fits_retry fun _ => fits
    | returned =>
      simp only [Knowledge.next]
      split
      · trivial
      · exact fits_retry fun _ => fits
  | reading doc attempt =>
    cases ending with
    | raised error committed => exact fits_retry fun _ => trivial
    | returned => trivial
  | extracting doc fileBytes attempt =>
    cases ending with
    | raised error committed => exact fits_retry fun _ => trivial
    | returned => trivial
  | _ => cases ending <;> trivial

/-- The listing and the embedding write nothing, so what they carry agrees with the tables behind
them. -/
theorem fits_next {task : Task} {ending : Ending} (present : db.ChunksPresent)
    (fits : task.Fits db) : (task.next cfg db ending).Fits (called cfg db task ending) := by
  cases task with
  | processing p => exact chunksFit_next p ending fits
  | managing m =>
    simp only [Task.next]
    cases next : m.next db ending with
    | embedding detail chunks =>
      obtain ⟨listing, rfl⟩ := Management.embedding_next next
      have idle : called cfg db (.managing m) ending = db := by
        simp [called, Task.write, Management.write, listing]
      simp only [Task.Fits, idle]
      exact key_listVectorChunkSources present detail.id
    | enabling detail enabled vectors =>
      cases enabled with
      | false => trivial
      | true =>
        rcases Management.enabling_next next with ⟨none_of, -⟩ | ⟨-, rfl, listing, nothing⟩ |
          ⟨-, chunks, embeds, rfl⟩
        · cases none_of
        · have idle : called cfg db (.managing m) ending = db := by
            simp [called, Task.write, Management.write, listing]
          have keys := key_listVectorChunkSources present detail.id
          rw [nothing] at keys
          simp only [Task.Fits, idle]
          exact keys
        · have idle : called cfg db (.managing m) ending = db := by
            simp [called, Task.write, Management.write, embeds]
          simp only [Task.Fits, embeds] at fits
          simpa only [Task.Fits, idle, key_embedChunks] using fits
    | _ => trivial
  | starting target =>
    cases ending with
    | raised error committed => trivial
    | returned =>
      simp only [Task.next]
      split <;> trivial
  | uploading record => cases ending <;> trivial
  | ended failure => trivial

theorem fits_task (operation : Operation) : operation.task.Fits db := by
  cases operation with
  | startChunking documentId =>
    simp only [Operation.task]
    split <;> trivial
  | manage documentId request embed vectorIds =>
    by_cases empty : documentId.strip = []
    · simp [Operation.task, Task.Fits, Management.start, empty]
    · simp [Operation.task, Task.Fits, Management.start, empty]
  | _ => trivial

end Carried

section Writes

variable {cfg : Settings} {db : Database} {task : Task}

/-- The chunks of every document whose chunking succeeded are numbered, and the enabled ones are
searchable. -/
def Indexed (db : Database) : Prop :=
  ∀ docId row, db.document docId = some row → row.status = .success →
    db.Numbered docId row.chunkCount ∧ (row.enabled = true → db.Searchable docId)

theorem indexed_write (present : db.ChunksPresent) (own : task.OwnVectors) (fits : task.Fits db)
    (indexed : Indexed db) : Indexed (task.write cfg db) := by
  intro docId row found success
  rcases document_write cfg db task found with ⟨old, before, rfl⟩ | ⟨record, rfl, rfl⟩
  · cases rowsWritten cfg db docId own with
    | untouched chunks vectors kept =>
      obtain ⟨enabled, rest⟩ := kept old
      obtain ⟨succeeded, count⟩ := rest success
      obtain ⟨numbered, searchable⟩ := indexed docId old before succeeded
      rw [enabled, count]
      refine ⟨?_, fun on => ⟨?_, ?_⟩⟩
      · rwa [Database.Numbered, chunks]
      · rw [chunks]
        exact (searchable on).enabled
      · rw [chunks, vectors]
        exact (searchable on).vectors
    | @replaced p doc chunks vectors attempt phase lengths own_doc new_chunks new_vectors kept
      counted =>
      simp only [Task.Fits, phase, ChunksFit] at fits
      rw [counted old (Database.document_of_mem before).2]
      refine ⟨?_, fun _ => ⟨?_, ?_⟩⟩
      · have indices : (chunks.map (chunkRow doc (requestedBy cfg p.message))).map ChunkRow.chunkIndex =
            List.range chunks.length := by
          rw [List.map_map, ← fits.1]
          rfl
        rw [Database.Numbered, new_chunks, indices]
      · rw [new_chunks]
        intro chunk member
        obtain ⟨given, -, rfl⟩ := List.mem_map.mp member
        rfl
      · have keys : (chunks.map (chunkRow doc (requestedBy cfg p.message))).map ChunkRow.key =
            chunks.map TextChunk.key := by
          rw [List.map_map]
          rfl
        rw [new_chunks, new_vectors, key_vectorRows, keys, fits.2]
    | deleted deletes => exact absurd found (not_document_of_deletes cfg db _ deletes)
    | @enabled m detail flag vectors phase own_doc flagged new_vectors set kept =>
      obtain ⟨status, count⟩ := kept old
      rw [status] at success
      obtain ⟨numbered, -⟩ := indexed docId old before success
      have keys : ((db.chunksOf docId).map (enableChunk docId flag cfg.uploadCreatedBy)).map
          ChunkRow.key = (db.chunksOf docId).map ChunkRow.key := by
        rw [List.map_map]
        exact List.map_congr_left fun chunk _ => key_enableChunk ..
      rw [count, set old (Database.document_of_mem before).2]
      refine ⟨?_, fun on => ?_⟩
      · have indices := congrArg (List.map Prod.snd) keys
        simp only [List.map_map] at indices
        rw [Database.Numbered, flagged, List.map_map]
        exact (List.Perm.of_eq indices).trans numbered
      · subst on
        subst own_doc
        simp only [Task.Fits, phase] at fits
        constructor
        · rw [flagged]
          intro chunk member
          obtain ⟨old_chunk, there, rfl⟩ := List.mem_map.mp member
          obtain ⟨there, owned⟩ := List.mem_filter.mp there
          have mine : old_chunk.docId = detail.id := by simpa using owned
          rw [enableChunk, if_pos ⟨mine, present old_chunk there⟩]
        · rw [new_vectors, flagged, if_pos rfl, keys, key_enabledVectorRows]
          exact fits
  · cases success

end Writes

section Runs

/-- What a run of operations that begin one after the other keeps. -/
structure IndexInv (s : State Unit) : Prop where
  rows : RowsInv s
  indexed : Indexed s.db
  fits : ∀ task, s.tasks () = some task → task.Fits s.db

theorem indexInv_step {cfg : Settings} {s t : State Unit} {e : Event Unit} (inv : IndexInv s)
    (taken : step cfg s e = some t) : IndexInv t := by
  refine ⟨rowsInv_step inv.rows taken, ?_, ?_⟩
  · cases e with
    | begin n operation =>
      obtain ⟨-, same, -⟩ := step_begin taken
      exact same ▸ inv.indexed
    | call n ending =>
      obtain ⟨task, found, -, -, after, -⟩ := step_call taken
      rw [after, called]
      split
      · exact indexed_write inv.rows.present (inv.rows.own n task found) (inv.fits task found)
          inv.indexed
      · exact inv.indexed
  · intro task found
    cases e with
    | begin n operation =>
      obtain ⟨-, same, tasks⟩ := step_begin taken
      rw [tasks, Function.update_self, Option.some.injEq] at found
      exact found ▸ fits_task operation
    | call n ending =>
      obtain ⟨caller, called_by, -, -, after, tasks⟩ := step_call taken
      rw [tasks, Function.update_self, Option.some.injEq] at found
      rw [after, ← found]
      exact fits_next inv.rows.present (inv.fits caller called_by)

/-- From empty tables on, whatever operations run one after the other and however their calls end,
every document that is not deleted, enabled and chunked has its chunks from zero up to their number,
all enabled, and one vector for each. -/
theorem always_indexComplete (cfg : Settings) (es : List (Event Unit)) :
    Always (step cfg) (fun s => s.db.IndexComplete) (initial { documents := fun _ => none }) es := by
  have always : Always (step cfg) IndexInv (initial { documents := fun _ => none }) es := by
    apply always_of_preserved
    · exact fun _ _ _ inv taken => indexInv_step inv taken
    · refine ⟨⟨?_, ?_⟩, ?_, ?_⟩
      · intro chunk member
        cases member
      · intro n task found
        cases found
      · intro docId row found
        cases found
      · intro task found
        cases found
  refine always.mono fun s inv docId row found success enabled => ?_
  obtain ⟨numbered, searchable⟩ := inv.indexed docId row found success
  exact ⟨numbered, searchable enabled⟩

/-- A document is uploaded, chunked, disabled and enabled again. -/
private def lifecycle : List (Event Unit) :=
  [.begin () (.upload
      { id := .lit "doc-1"
        kbId := .lit "kb-1"
        docName := .lit "manual.txt"
        fileUrl := .lit "s3://kb/doc.txt"
        fileType := .lit "txt"
        fileSize := some 9
        sourceType := .lit "FILE"
        sourceLocation := none
        chunkStrategy := .lit "fixed_size"
        chunkConfig := []
        createdBy := .lit "agent" }), .call () .returned,
    .begin () (.startChunking (.lit "doc-1")), .call () .returned, .begin () delivery] ++
    List.replicate 8 (.call () .returned) ++
    [.begin () (managing (.setDocumentEnabled false)), .call () .returned, .call () .returned,
      .begin () (managing (.setDocumentEnabled true))] ++ List.replicate 4 (.call () .returned)

example : ((runFrom (step {}) (initial { documents := fun _ => none }) lifecycle).any fun s =>
    decide ((s.db.document (.lit "doc-1")).any (fun row => row.enabled && row.status = .success) ∧
      s.db.chunks.length = 1 ∧ s.db.vectors.length = 1)) = true := by decide +kernel

end Runs

end DocumentOperations

end HeyeeAgent.Knowledge
