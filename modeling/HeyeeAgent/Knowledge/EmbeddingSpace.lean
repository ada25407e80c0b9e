import HeyeeAgent.Knowledge.DocumentService
import HeyeeAgent.Knowledge.EmbeddingService

/-! # One embedding space for each knowledge base

The two operations that store vectors, whatever their provider calls meet, with the model that
produced each stored vector. A query names the model of its knowledge base, the operations name none:
they store vectors of that model exactly if it is the first to answer for every batch.
-/

namespace HeyeeAgent.Knowledge

open Python InfraAi Machine EmbeddingService

/-- The tables, and for every stored vector the model that produced it. -/
structure IndexState where
  db : Database
  stored : List (VectorRow × String) := []

/-- An operation with what its embedding meets. Its last transaction may fail. -/
inductive IndexEvent where
  /-- `process_message` from the chunks of a document on -/
  | process (doc : KnowledgeDocumentForChunk) (chunks : List TextChunk) (updatedBy : Str)
      (ids : ℕ → Str) (attempts : ℕ → ℕ → Pattern) (committed : Bool)
  /-- `set_document_enabled` from the chunks of a document on -/
  | enable (docId kbId : Str) (chunks : List TextChunk) (updatedBy : Str) (ids : ℕ → Str)
      (patterns : ℕ → Pattern) (committed : Bool)
  | disable (docId updatedBy : Str) (ids : ℕ → Str)

namespace IndexState

/-- The vectors of a document are replaced by new rows. -/
def restore (s : IndexState) (docId : Str) (rows : List VectorRow) (models : List String) :
    List (VectorRow × String) :=
  s.stored.filter (fun entry => entry.1.docId ≠ docId) ++ rows.zip models

def step (settings : EmbeddingSettings) (retries : ℕ) (s : IndexState) :
    IndexEvent → Option IndexState
  | .process doc chunks updatedBy ids attempts committed =>
    match embedWithRetry settings doc.id doc.kbId chunks retries attempts with
    | some entries =>
      let vectors := entries.map Prod.fst
      some (if committed ∧ chunks.length = vectors.length then {
          db := replaceChunksAndVectorsAtomic s.db doc chunks vectors updatedBy ids
          stored := s.restore doc.id (vectorRows doc updatedBy ids vectors) (entries.map Prod.snd) }
        else s)
    | none => some s
  | .enable docId kbId chunks updatedBy ids patterns committed =>
    match EmbeddingService.embedChunks settings docId kbId chunks patterns with
    | some entries =>
      let vectors := entries.map Prod.fst
      some (if committed then {
          db := setDocumentEnabledAtomic s.db docId true vectors updatedBy ids
          stored := s.restore docId
            (vectors.mapIdx fun index vector => enabledVectorRow updatedBy (ids index) vector)
            (entries.map Prod.snd) }
        else s)
    | none => some s
  | .disable docId updatedBy ids => some {
      db := setDocumentEnabledAtomic s.db docId false [] updatedBy ids
      stored := s.restore docId [] [] }

/-- The models are kept for the rows of the table. -/
def Tracks (s : IndexState) : Prop := s.stored.map Prod.fst = s.db.vectors

/-- Every vector of a knowledge base is one of its model. -/
def OneSpace (models : Str → Option String) (s : IndexState) : Prop :=
  ∀ entry ∈ s.stored, ∀ modelId, models entry.1.kbId = some modelId → entry.2 = modelId

/-- If an operation stores vectors in a knowledge base, then for every batch of the attempt that
succeeds the first candidate that answers is the model of the knowledge base. -/
def Meets (settings : EmbeddingSettings) (retries : ℕ) (models : Str → Option String)
    (_ : IndexState) : IndexEvent → Prop
  | .process doc chunks _ _ attempts committed => committed = true →
    ∀ modelId, models doc.kbId = some modelId → ∀ attempt,
      FirstSuccess settings chunks retries attempts attempt →
        ∀ k < (batches chunks settings.embeddingBatchSize).length,
          ServedBy settings (attempts attempt k) modelId
  | .enable _ kbId chunks _ _ patterns committed => committed = true →
    ∀ modelId, models kbId = some modelId → Succeeds settings chunks patterns →
      ∀ k < (batches chunks settings.embeddingBatchSize).length,
        ServedBy settings (patterns k) modelId
  | .disable .. => True

section Restore

variable {s : IndexState} {docId : Str} {rows : List VectorRow} {producers : List String}
  {models : Str → Option String}

theorem tracks_restore {db : Database} (tracks : s.Tracks) (same : rows.length = producers.length)
    (replaced : db.vectors = s.db.vectors.filter (fun row => row.docId ≠ docId) ++ rows) :
    Tracks { db, stored := s.restore docId rows producers } := by
  rw [Tracks, replaced, restore, List.map_append, List.map_fst_zip same.le, ← tracks,
    List.filter_map]
  rfl

/-- New rows of one knowledge base keep its space exactly if their models are that of the knowledge
base. -/
theorem oneSpace_restore_iff {db : Database} (kbId : Str) (space : s.OneSpace models)
    (same : rows.length = producers.length) (owned : ∀ row ∈ rows, row.kbId = kbId) :
    OneSpace models { db, stored := s.restore docId rows producers } ↔
      ∀ modelId, models kbId = some modelId → ∀ producer ∈ producers, producer = modelId := by
  constructor
  · intro after modelId named producer member
    obtain ⟨index, inside, rfl⟩ := List.getElem_of_mem member
    have row_inside : index < rows.length := same ▸ inside
    have zipped : (rows[index], producers[index]) ∈ rows.zip producers := by
      have at_index : (rows.zip producers)[index]? = some (rows[index], producers[index]) := by
        rw [List.getElem?_zip_eq_some, List.getElem?_eq_getElem row_inside,
          List.getElem?_eq_getElem inside]
        exact ⟨rfl, rfl⟩
      exact List.mem_of_getElem? at_index
    apply after _ (List.mem_append_right _ zipped)
    rw [owned _ (List.getElem_mem row_inside)]
    exact named
  · intro meets entry member modelId named
    rcases List.mem_append.mp member with before | zipped
    · exact space entry (List.mem_of_mem_filter before) modelId named
    · obtain ⟨row_member, producer_member⟩ := List.of_mem_zip zipped
      rw [owned entry.1 row_member] at named
      exact meets modelId named entry.2 producer_member

end Restore

theorem vectors_setDocumentEnabledAtomic {db : Database} {docId updatedBy : Str} {enabled : Bool}
    {vectors : List VectorChunk} {ids : ℕ → Str} :
    (setDocumentEnabledAtomic db docId enabled vectors updatedBy ids).vectors =
      db.vectors.filter (fun row => row.docId ≠ docId) ++
        if enabled then
          vectors.mapIdx fun index vector => enabledVectorRow updatedBy (ids index) vector
        else [] := by
  simp only [setDocumentEnabledAtomic, Database.vectors_updateDocument]

theorem kbId_of_mem_vectorRows {doc : KnowledgeDocumentForChunk} {updatedBy : Str} {ids : ℕ → Str}
    {vectors : List VectorChunk} {row : VectorRow}
    (member : row ∈ vectorRows doc updatedBy ids vectors) : row.kbId = doc.kbId := by
  obtain ⟨index, inside, rfl⟩ := List.mem_mapIdx.mp member
  rfl

/-- The models stay with the rows. -/
theorem tracks_step {settings : EmbeddingSettings} {retries : ℕ} {s t : IndexState}
    {event : IndexEvent} (tracks : s.Tracks) (taken : s.step settings retries event = some t) :
    t.Tracks := by
  cases event with
  | process doc chunks updatedBy ids attempts committed =>
    rw [step] at taken
    split at taken
    · rename_i entries _
      cases taken
      split
      · apply tracks_restore tracks
        · simp [vectorRows]
        · exact vectors_replaceChunksAndVectorsAtomic ..
      · exact tracks
    · cases taken
      exact tracks
  | enable docId kbId chunks updatedBy ids patterns committed =>
    rw [step] at taken
    split at taken
    · rename_i entries _
      cases taken
      split
      · apply tracks_restore tracks
        · simp
        · rw [vectors_setDocumentEnabledAtomic, if_pos rfl]
      · exact tracks
    · cases taken
      exact tracks
  | disable docId updatedBy ids =>
    cases taken
    apply tracks_restore tracks rfl
    rw [vectors_setDocumentEnabledAtomic, if_neg Bool.false_ne_true]

/-- One operation keeps the space exactly if it meets the condition. -/
theorem oneSpace_step_iff {settings : EmbeddingSettings} {retries : ℕ} {s t : IndexState}
    {models : Str → Option String} {event : IndexEvent} (space : s.OneSpace models)
    (taken : s.step settings retries event = some t) :
    t.OneSpace models ↔ Meets settings retries models s event := by
  cases event with
  | process doc chunks updatedBy ids attempts committed =>
    rw [step] at taken
    split at taken
    · rename_i entries embedded
      cases taken
      obtain ⟨attempt, first, found⟩ := embedWithRetry_eq_some embedded
      obtain ⟨length, -, produced⟩ := embedChunks_eq_some found
      have lengths : chunks.length = (entries.map Prod.fst).length := by
        rw [List.length_map, length]
      split
      · rename_i stores
        rw [oneSpace_restore_iff doc.kbId space (by simp [vectorRows])
          fun row => kbId_of_mem_vectorRows]
        constructor
        · intro same _ modelId named other other_first
          rw [other_first.unique first]
          exact (produced modelId).mp fun entry member =>
            same modelId named _ (List.mem_map_of_mem member)
        · intro meets modelId named producer member
          obtain ⟨entry, entry_member, rfl⟩ := List.mem_map.mp member
          exact (produced modelId).mpr (meets stores.1 modelId named attempt first) entry entry_member
      · rename_i unstored
        exact iff_of_true space fun committed => absurd ⟨committed, lengths⟩ unstored
    · rename_i failed
      cases taken
      refine iff_of_true space fun _ _ _ attempt first => ?_
      have stored : ∃ vectors, embedWithRetry settings doc.id doc.kbId chunks retries attempts =
          some vectors := exists_embedWithRetry first
      obtain ⟨vectors, embedded⟩ := stored
      rw [failed] at embedded
      cases embedded
  | enable docId kbId chunks updatedBy ids patterns committed =>
    rw [step] at taken
    split at taken
    · rename_i entries embedded
      cases taken
      obtain ⟨-, owned, produced⟩ := embedChunks_eq_some embedded
      split
      · rename_i stores
        rw [oneSpace_restore_iff kbId space (by simp)]
        · constructor
          · intro same _ modelId named _
            exact (produced modelId).mp fun entry member =>
              same modelId named _ (List.mem_map_of_mem member)
          · intro meets modelId named producer member
            obtain ⟨entry, entry_member, rfl⟩ := List.mem_map.mp member
            have succeeds := exists_embedChunks_iff.mp ⟨entries, embedded⟩
            exact (produced modelId).mpr (meets stores modelId named succeeds) entry entry_member
        · intro row member
          obtain ⟨index, inside, rfl⟩ := List.mem_mapIdx.mp member
          rw [List.length_map] at inside
          rw [List.getElem_map]
          exact owned _ (List.getElem_mem inside)
      · rename_i unstored
        exact iff_of_true space fun committed => absurd committed unstored
    · rename_i failed
      cases taken
      refine iff_of_true space fun _ _ _ succeeds => ?_
      have stored : ∃ vectors, EmbeddingService.embedChunks settings docId kbId chunks patterns =
          some vectors := exists_embedChunks_iff.mpr succeeds
      obtain ⟨vectors, embedded⟩ := stored
      rw [failed] at embedded
      cases embedded
  | disable docId updatedBy ids =>
    cases taken
    refine iff_of_true ?_ trivial
    apply (oneSpace_restore_iff docId space rfl _).mpr
    · exact fun _ _ producer member => absurd member List.not_mem_nil
    · exact fun row member => absurd member List.not_mem_nil

/-- A query is embedded by the model of its knowledge base, whatever it meets. The vectors of the
table are of that model throughout exactly if, whenever vectors are stored, that model is the first
to answer for every batch. -/
theorem always_oneSpace_iff (settings : EmbeddingSettings) (retries : ℕ)
    (models : Str → Option String) (db : Database) (empty : db.vectors = [])
    (events : List IndexEvent) :
    (∀ kbId modelId pattern target vector, models kbId = some modelId →
        embed settings pattern (models kbId) = some (target, vector) → target.id = modelId) ∧
      (Always (step settings retries) (fun s => s.Tracks ∧ s.OneSpace models) { db } events ↔
        Along (step settings retries) (Meets settings retries models) { db } events) := by
  constructor
  · intro kbId modelId pattern target vector named embedded
    rw [named] at embedded
    exact id_of_embed embedded
  · have tracks : Tracks { db } := empty.symm
    have space : OneSpace models { db } := fun entry member => absurd member List.not_mem_nil
    apply always_iff_along (fun _ _ _ tracks taken => tracks_step tracks taken) _ tracks
      ⟨tracks, space⟩
    intro s event t tracks holds taken
    rw [and_iff_right (tracks_step tracks taken)]
    exact oneSpace_step_iff holds.2 taken

section TwoModels

/-- Two models of one dimension, and batches of one chunk. -/
def twoModels : EmbeddingSettings where
  config := {
    providers := [("p", { name := "p" })]
    chat := {}
    embedding := {
      candidates := [{ provider := "p", model := "first", priority := some 1 },
        { provider := "p", model := "second", priority := some 2 }] } }
  embeddingBatchSize := 1
  batch_size_pos := Nat.one_pos
  embeddingDimension := 1

/-- The first model is down for the second batch. -/
def downForSecond (batch : ℕ) : Pattern where
  store := getModelHealthStore
  now := 0
  meets turn := {
    store := getModelHealthStore
    now := 0
    client := true
    reply := if batch = 1 ∧ turn = 0 then .error "down" else .ok [[.lit "1.0"]] }

def runningDocument : Database where
  documents _ := some {
    kbId := .lit "kb"
    docName := .lit "doc"
    fileUrl := .lit "url"
    fileType := .lit "text/markdown"
    fileSize := none
    status := .running
    sourceType := .lit "FILE"
    chunkStrategy := .lit "fixed_size"
    chunkConfig := none
    createdBy := some (.lit "u")
    updatedBy := some (.lit "u") }

/-- The chunks of a document of a knowledge base of the first model are embedded and stored. -/
def chunked (chunks : List TextChunk) : List IndexEvent :=
  [.process
    { id := .lit "d"
      kbId := .lit "kb"
      docName := .lit "doc"
      fileUrl := .lit "url"
      processMode := .lit "chunk"
      status := .running
      chunkStrategy := .lit "fixed_size"
      chunkConfig := []
      createdBy := .lit "u" }
    chunks (.lit "u") (fun index => if index = 0 then .lit "v0" else .lit "v1")
    (fun _ => downForSecond) true]

def chunkNo (chunkId : Str) (chunkIndex : ℕ) : TextChunk where
  chunkId := chunkId
  chunkIndex := chunkIndex
  content := .lit "text"
  contentHash := .lit "hash"
  charCount := 4
  tokenCount := 1

/-- A candidate of the configuration as a target. -/
def targetOf (model : String) (priority : ℤ) : ModelTarget where
  id := "p::" ++ model
  capability := .embedding
  candidate := { provider := "p", model, priority := some priority }
  provider := { name := "p" }

theorem candidates_twoModels (batch : ℕ) :
    candidates twoModels (downForSecond batch) = [targetOf "first" 1, targetOf "second" 2] := by
  have sorted : filterAndSortCandidates twoModels.config.embedding.candidates none false false =
      twoModels.config.embedding.candidates :=
    List.mergeSort_of_pairwise (by decide +kernel)
  have built : twoModels.config.embedding.candidates.filterMap
      (buildModelTarget twoModels.config getModelHealthStore 0 .embedding) =
        [targetOf "first" 1, targetOf "second" 2] := by decide +kernel
  rw [← built, ← sorted]
  rfl

theorem embedTexts_first : embedTexts twoModels (downForSecond 0) none =
    some (targetOf "first" 1, [[.lit "1.0"]]) := by
  rw [embedTexts, candidates_twoModels]
  decide +kernel

theorem embedTexts_second : embedTexts twoModels (downForSecond 1) none =
    some (targetOf "second" 2, [[.lit "1.0"]]) := by
  rw [embedTexts, candidates_twoModels]
  decide +kernel

/-- With one batch all vectors are of the first model. -/
theorem always_oneSpace_oneBatch :
    Always (step twoModels 0) (fun s => s.Tracks ∧ s.OneSpace fun _ => some "p::first")
      { db := runningDocument } (chunked [chunkNo (.lit "c0") 0]) := by
  apply (always_oneSpace_iff twoModels 0 (fun _ => some "p::first") runningDocument rfl _).2.mpr
  intro t _
  refine ⟨?_, trivial⟩
  rintro - modelId ⟨⟩ attempt - k inside
  obtain rfl : k = 0 := Nat.lt_one_iff.mp inside
  exact ⟨_, _, executeWithFallback_eq_some_iff.mp embedTexts_first, by decide +kernel⟩

def vectorNo (chunkId : Str) (chunkIndex : ℕ) : VectorChunk where
  chunkId := chunkId
  docId := .lit "d"
  kbId := .lit "kb"
  chunkIndex := chunkIndex
  content := .lit "text"
  vector := [.lit "1.0"]
  metadata := []

theorem embedWithRetry_twoBatches : embedWithRetry twoModels (.lit "d") (.lit "kb")
    [chunkNo (.lit "c0") 0, chunkNo (.lit "c1") 1] 0 (fun _ => downForSecond) =
      some [(vectorNo (.lit "c0") 0, "p::first"), (vectorNo (.lit "c1") 1, "p::second")] := by
  have first : embedBatch twoModels (.lit "d") (.lit "kb") (downForSecond 0)
      [chunkNo (.lit "c0") 0] = some [(vectorNo (.lit "c0") 0, "p::first")] := by
    rw [embedBatch, embedTexts_first, Option.bind_some]
    apply if_pos
    decide +kernel
  have second : embedBatch twoModels (.lit "d") (.lit "kb") (downForSecond 1)
      [chunkNo (.lit "c1") 1] = some [(vectorNo (.lit "c1") 1, "p::second")] := by
    rw [embedBatch, embedTexts_second, Option.bind_some]
    apply if_pos
    decide +kernel
  have cut : batches [chunkNo (.lit "c0") 0, chunkNo (.lit "c1") 1] twoModels.embeddingBatchSize =
      [[chunkNo (.lit "c0") 0], [chunkNo (.lit "c1") 1]] := rfl
  rw [embedWithRetry, EmbeddingService.embedChunks, cut, embedBatches, first, embedBatches, second]
  rfl

/-- The second model embeds the second batch, and the document has vectors of both. -/
theorem stored_twoBatches :
    (runFrom (step twoModels 0) { db := runningDocument }
      (chunked [chunkNo (.lit "c0") 0, chunkNo (.lit "c1") 1])).map
        (fun t => t.stored.map Prod.snd) = some ["p::first", "p::second"] := by
  rw [chunked, runFrom, step, embedWithRetry_twoBatches]
  rfl

/-- The stored vectors are not of one space. -/
theorem not_always_oneSpace :
    ¬ Always (step twoModels 0) (fun s => s.Tracks ∧ s.OneSpace fun _ => some "p::first")
      { db := runningDocument } (chunked [chunkNo (.lit "c0") 0, chunkNo (.lit "c1") 1]) := by
  intro always
  obtain ⟨t, run, stored⟩ := Option.map_eq_some_iff.mp stored_twoBatches
  have second : "p::second" ∈ t.stored.map Prod.snd := by
    rw [stored]
    exact List.mem_of_getElem? (i := 1) rfl
  obtain ⟨entry, member, same⟩ := List.mem_map.mp second
  have first := (always.last run).2 entry member "p::first" rfl
  rw [same] at first
  exact absurd first (by decide)

end TwoModels

end IndexState

end HeyeeAgent.Knowledge
