import HeyeeAgent.InfraAi.ModelSelector
import HeyeeAgent.Knowledge.ChunkPipeline

/-! # The vectors of chunks and of queries

`EmbeddingService` over what its provider calls meet. Chunks are embedded batch by batch, each batch
by the first candidate of the selector that answers; a query by the model that it names. A vector
comes with the id of the model that produced it. `none` stands for an error.
-/

namespace HeyeeAgent.Knowledge

open Python InfraAi

/-- The settings that the service reads. -/
structure EmbeddingSettings where
  config : AIModelConfig
  embeddingBatchSize : ℕ
  batch_size_pos : 0 < embeddingBatchSize
  embeddingDimension : ℤ

/-- What `_embed_texts` meets: the circuit breaker with its clock when it selects the candidates, and
the turns of `execute_with_fallback`. -/
structure Pattern where
  store : ModelHealthStore
  now : ℚ
  meets : ℕ → Encounter (List (List Str))

/-- A chunk with its vector and the model that produced it. -/
abbrev Embedded := VectorChunk × String

/-- `_batches`, with as much fuel as there are items. -/
def batchesFrom {α : Type*} (size : ℕ) : ℕ → List α → List (List α)
  | 0, _ | _ + 1, [] => []
  | fuel + 1, item :: items =>
    (item :: items).take size :: batchesFrom size fuel ((item :: items).drop size)

def batches {α : Type*} (items : List α) (size : ℕ) : List (List α) :=
  batchesFrom size items.length items

theorem flatten_batchesFrom {α : Type*} {size : ℕ} (size_pos : 0 < size) {fuel : ℕ} {items : List α}
    (enough : items.length ≤ fuel) : (batchesFrom size fuel items).flatten = items := by
  induction fuel generalizing items with
  | zero => rw [List.length_eq_zero_iff.mp (Nat.le_zero.mp enough), batchesFrom, List.flatten_nil]
  | succ fuel ih =>
    cases items with
    | nil => rw [batchesFrom, List.flatten_nil]
    | cons item items =>
      have rest : ((item :: items).drop size).length ≤ fuel := by
        rw [List.length_drop, List.length_cons] at *
        omega
      rw [batchesFrom, List.flatten_cons, ih rest, List.take_append_drop]

/-- Batches are cut from the items in order. -/
theorem flatten_batches {α : Type*} {size : ℕ} (size_pos : 0 < size) (items : List α) :
    (batches items size).flatten = items :=
  flatten_batchesFrom size_pos le_rfl

theorem ne_nil_of_mem_batchesFrom {α : Type*} {size : ℕ} (size_pos : 0 < size) {fuel : ℕ}
    {items batch : List α} (member : batch ∈ batchesFrom size fuel items) : batch ≠ [] := by
  induction fuel generalizing items with
  | zero => cases member
  | succ fuel ih =>
    cases items with
    | nil => cases member
    | cons item items =>
      rcases List.mem_cons.mp member with rfl | member
      · obtain ⟨size, rfl⟩ := Nat.exists_eq_succ_of_ne_zero size_pos.ne'
        exact List.cons_ne_nil _ _
      · exact ih member

namespace EmbeddingService

variable (settings : EmbeddingSettings)

/-- `target.candidate.dimension or settings.embedding_dimension` -/
def expectedDimension (target : ModelTarget) : ℤ :=
  match target.candidate.dimension with
  | none | some 0 => settings.embeddingDimension
  | some dimension => dimension

def candidates (pattern : Pattern) : List ModelTarget :=
  selectEmbeddingCandidates settings.config pattern.store pattern.now

def resolveTarget (pattern : Pattern) (modelId : String) : Option ModelTarget :=
  if Python.strip modelId = "" then none
  else (candidates settings pattern).find? fun target => target.id == modelId

def embedTexts (pattern : Pattern) (modelId : Option String) :
    Option (ModelTarget × List (List Str)) :=
  match modelId with
  | some modelId =>
    (resolveTarget settings pattern modelId).bind fun target =>
      executeWithFallback [target] pattern.meets
  | none => executeWithFallback (candidates settings pattern) pattern.meets

/-- `embed` of a text, with the target that answered -/
def embed (pattern : Pattern) (modelId : Option String) : Option (ModelTarget × List Str) :=
  (embedTexts settings pattern modelId).bind fun (target, vectors) =>
    vectors.head?.map fun vector => (target, vector)

/-- One turn of the loop of `embed_chunks`. -/
def embedBatch (docId kbId : Str) (pattern : Pattern) (batch : List TextChunk) :
    Option (List Embedded) :=
  (embedTexts settings pattern none).bind fun (target, vectors) =>
    if vectors.length = batch.length ∧
        ∀ vector ∈ vectors, (vector.length : ℤ) = expectedDimension settings target then
      some ((batch.zip vectors).map fun (chunk, vector) =>
        ({ chunkId := chunk.chunkId
           docId
           kbId
           chunkIndex := chunk.chunkIndex
           content := chunk.content
           vector
           metadata := chunk.metadata }, target.id))
    else none

def embedBatches (docId kbId : Str) : List (List TextChunk) → (ℕ → Pattern) → Option (List Embedded)
  | [], _ => some []
  | batch :: rest, patterns =>
    (embedBatch settings docId kbId (patterns 0) batch).bind fun vectors =>
      (embedBatches docId kbId rest fun k => patterns (k + 1)).map fun later => vectors ++ later

def embedChunks (docId kbId : Str) (chunks : List TextChunk) (patterns : ℕ → Pattern) :
    Option (List Embedded) :=
  embedBatches settings docId kbId (batches chunks settings.embeddingBatchSize) patterns

/-- `_with_retry` around `embed_chunks`, with what each attempt meets. -/
def embedWithRetry (docId kbId : Str) (chunks : List TextChunk) :
    ℕ → (ℕ → ℕ → Pattern) → Option (List Embedded)
  | 0, attempts => embedChunks settings docId kbId chunks (attempts 0)
  | retries + 1, attempts =>
    match embedChunks settings docId kbId chunks (attempts 0) with
    | some vectors => some vectors
    | none => embedWithRetry docId kbId chunks retries fun attempt => attempts (attempt + 1)

variable {settings} {docId kbId : Str}

/-- A vector for a named model is a vector of that model. -/
theorem id_of_embed {pattern : Pattern} {modelId : String} {target : ModelTarget} {vector : List Str}
    (embedded : embed settings pattern (some modelId) = some (target, vector)) :
    target.id = modelId := by
  obtain ⟨⟨served, vectors⟩, returned, first⟩ := Option.bind_eq_some_iff.mp embedded
  obtain ⟨_, -, ⟨⟩⟩ := Option.map_eq_some_iff.mp first
  obtain ⟨resolved, found, answered⟩ := Option.bind_eq_some_iff.mp returned
  obtain ⟨turn, at_turn, -⟩ := executeWithFallback_eq_some_iff.mp answered
  have only : resolved = target := by
    cases turn with
    | zero => exact Option.some_inj.mp at_turn
    | succ turn => cases at_turn
  rw [resolveTarget] at found
  split at found
  · cases found
  · rw [← only]
    have same := List.find?_some found
    exact beq_iff_eq.mp same

/-- The first candidate that answers gives every chunk of the batch a vector of its dimension. -/
def Fits (settings : EmbeddingSettings) (pattern : Pattern) (batch : List TextChunk) : Prop :=
  ∃ target vectors, Served pattern.meets (candidates settings pattern) target vectors ∧
    vectors.length = batch.length ∧
    ∀ vector ∈ vectors, (vector.length : ℤ) = expectedDimension settings target

/-- The first candidate that answers is a given model. -/
def ServedBy (settings : EmbeddingSettings) (pattern : Pattern) (modelId : String) : Prop :=
  ∃ target vectors, Served pattern.meets (candidates settings pattern) target vectors ∧
    target.id = modelId

/-- Every batch is answered by vectors that fit. -/
def Succeeds (settings : EmbeddingSettings) (chunks : List TextChunk) (patterns : ℕ → Pattern) :
    Prop :=
  ∀ k batch, (batches chunks settings.embeddingBatchSize)[k]? = some batch →
    Fits settings (patterns k) batch

theorem ServedBy.unique {pattern : Pattern} {modelId other : String}
    (served : ServedBy settings pattern modelId) (again : ServedBy settings pattern other) :
    modelId = other := by
  obtain ⟨target, _, served, rfl⟩ := served
  obtain ⟨target_again, _, again, rfl⟩ := again
  rw [(served.unique again).1]

/-- What a batch is embedded to: one vector for each chunk, all of the model that served it. -/
theorem embedBatch_eq_some {pattern : Pattern} {batch : List TextChunk} {vectors : List Embedded}
    (embedded : embedBatch settings docId kbId pattern batch = some vectors) :
    Fits settings pattern batch ∧ vectors.length = batch.length ∧
      (∀ entry ∈ vectors, entry.1.kbId = kbId) ∧
      ∀ entry ∈ vectors, ServedBy settings pattern entry.2 := by
  obtain ⟨⟨target, returned⟩, served, fits⟩ := Option.bind_eq_some_iff.mp embedded
  have served := executeWithFallback_eq_some_iff.mp served
  dsimp only at fits
  split at fits
  · rename_i shape
    cases fits
    refine ⟨⟨target, returned, served, shape⟩, ?_, ?_, ?_⟩
    · rw [List.length_map, List.length_zip, shape.1, Nat.min_self]
    · intro entry member
      obtain ⟨⟨chunk, vector⟩, -, rfl⟩ := List.mem_map.mp member
      rfl
    · intro entry member
      obtain ⟨⟨chunk, vector⟩, -, rfl⟩ := List.mem_map.mp member
      exact ⟨target, returned, served, rfl⟩
  · cases fits

theorem exists_embedBatch {pattern : Pattern} {batch : List TextChunk}
    (fits : Fits settings pattern batch) :
    ∃ vectors, embedBatch settings docId kbId pattern batch = some vectors := by
  obtain ⟨target, vectors, served, shape⟩ := fits
  have returned : embedTexts settings pattern none = some (target, vectors) :=
    executeWithFallback_eq_some_iff.mpr served
  rw [embedBatch, returned, Option.bind_some]
  exact ⟨_, if_pos shape⟩

/-- A run over the batches succeeds exactly if each is answered by vectors that fit. -/
theorem exists_embedBatches_iff {groups : List (List TextChunk)} {patterns : ℕ → Pattern} :
    (∃ vectors, embedBatches settings docId kbId groups patterns = some vectors) ↔
      ∀ k batch, groups[k]? = some batch → Fits settings (patterns k) batch := by
  induction groups generalizing patterns with
  | nil => exact iff_of_true ⟨[], rfl⟩ nofun
  | cons batch rest ih =>
    constructor
    · rintro ⟨vectors, embedded⟩ k other found
      obtain ⟨first, here, later⟩ := Option.bind_eq_some_iff.mp embedded
      obtain ⟨after, there, -⟩ := Option.map_eq_some_iff.mp later
      cases k with
      | zero =>
        cases found
        exact (embedBatch_eq_some here).1
      | succ k => exact ih.mp ⟨after, there⟩ k other found
    · intro fits
      have first_fits : ∃ vectors, embedBatch settings docId kbId (patterns 0) batch = some vectors :=
        exists_embedBatch (fits 0 batch rfl)
      obtain ⟨first, here⟩ := first_fits
      obtain ⟨after, there⟩ := ih.mpr fun k other found => fits (k + 1) other found
      exact ⟨first ++ after, by rw [embedBatches, here, Option.bind_some, there, Option.map_some]⟩

/-- A batch that is not empty shows the model that served it. -/
theorem forall_model_iff {pattern : Pattern} {batch : List TextChunk} {vectors : List Embedded}
    (filled : batch ≠ []) (embedded : embedBatch settings docId kbId pattern batch = some vectors)
    (modelId : String) :
    (∀ entry ∈ vectors, entry.2 = modelId) ↔ ServedBy settings pattern modelId := by
  obtain ⟨-, length, -, served⟩ := embedBatch_eq_some embedded
  constructor
  · intro same
    have some : vectors ≠ [] := by
      rintro rfl
      exact filled (List.length_eq_zero_iff.mp length.symm)
    obtain ⟨entry, member⟩ := List.exists_mem_of_ne_nil vectors some
    rw [← same entry member]
    exact served entry member
  · exact fun by_model entry member => (served entry member).unique by_model

/-- There is a vector for every chunk, and the models of the vectors are those that served the
batches. -/
theorem embedBatches_eq_some {groups : List (List TextChunk)} {patterns : ℕ → Pattern}
    {vectors : List Embedded} (filled : ∀ batch ∈ groups, batch ≠ [])
    (embedded : embedBatches settings docId kbId groups patterns = some vectors) :
    vectors.length = groups.flatten.length ∧ (∀ entry ∈ vectors, entry.1.kbId = kbId) ∧
      ∀ modelId, (∀ entry ∈ vectors, entry.2 = modelId) ↔
        ∀ k < groups.length, ServedBy settings (patterns k) modelId := by
  induction groups generalizing patterns vectors with
  | nil =>
    cases embedded
    exact ⟨rfl, nofun, fun _ => iff_of_true nofun nofun⟩
  | cons batch rest ih =>
    obtain ⟨first, here, later⟩ := Option.bind_eq_some_iff.mp embedded
    obtain ⟨after, there, rfl⟩ := Option.map_eq_some_iff.mp later
    obtain ⟨-, length, owned, -⟩ := embedBatch_eq_some here
    obtain ⟨length_after, owned_after, models_after⟩ :=
      ih (fun other member => filled other (List.mem_cons_of_mem batch member)) there
    refine ⟨?_, ?_, fun modelId => ?_⟩
    · rw [List.length_append, List.flatten_cons, List.length_append, length, length_after]
    · exact fun entry member => (List.mem_append.mp member).elim (owned entry) (owned_after entry)
    · have first_model := forall_model_iff (filled batch List.mem_cons_self) here modelId
      rw [List.forall_mem_append, first_model, models_after, List.length_cons, Nat.forall_lt_succ_left']

/-- What `embed_chunks` returns. -/
theorem embedChunks_eq_some {chunks : List TextChunk} {patterns : ℕ → Pattern}
    {vectors : List Embedded}
    (embedded : embedChunks settings docId kbId chunks patterns = some vectors) :
    vectors.length = chunks.length ∧ (∀ entry ∈ vectors, entry.1.kbId = kbId) ∧
      ∀ modelId, (∀ entry ∈ vectors, entry.2 = modelId) ↔
        ∀ k < (batches chunks settings.embeddingBatchSize).length,
          ServedBy settings (patterns k) modelId := by
  have cut := embedBatches_eq_some
    (fun _ member => ne_nil_of_mem_batchesFrom settings.batch_size_pos member) embedded
  rwa [show (batchesFrom settings.embeddingBatchSize chunks.length chunks).flatten = chunks from
    flatten_batches settings.batch_size_pos chunks] at cut

/-- An attempt that is the first to succeed. -/
def FirstSuccess (settings : EmbeddingSettings) (chunks : List TextChunk) (retries : ℕ)
    (attempts : ℕ → ℕ → Pattern) (attempt : ℕ) : Prop :=
  attempt ≤ retries ∧ Succeeds settings chunks (attempts attempt) ∧
    ∀ earlier < attempt, ¬ Succeeds settings chunks (attempts earlier)

theorem exists_embedChunks_iff {chunks : List TextChunk} {patterns : ℕ → Pattern} :
    (∃ vectors, embedChunks settings docId kbId chunks patterns = some vectors) ↔
      Succeeds settings chunks patterns :=
  exists_embedBatches_iff

/-- The first attempt that succeeds is returned. -/
theorem embedWithRetry_eq_some {chunks : List TextChunk} {retries : ℕ}
    {attempts : ℕ → ℕ → Pattern} {vectors : List Embedded}
    (embedded : embedWithRetry settings docId kbId chunks retries attempts = some vectors) :
    ∃ attempt, FirstSuccess settings chunks retries attempts attempt ∧
      embedChunks settings docId kbId chunks (attempts attempt) = some vectors := by
  induction retries generalizing attempts with
  | zero =>
    rw [embedWithRetry] at embedded
    exact ⟨0, ⟨le_rfl, exists_embedChunks_iff.mp ⟨vectors, embedded⟩, nofun⟩, embedded⟩
  | succ retries ih =>
    rw [embedWithRetry] at embedded
    split at embedded
    · rename_i found
      cases embedded
      exact ⟨0, ⟨Nat.zero_le _, exists_embedChunks_iff.mp ⟨vectors, found⟩, nofun⟩, found⟩
    · rename_i failed
      obtain ⟨attempt, ⟨within, succeeds, before⟩, found⟩ := ih embedded
      refine ⟨attempt + 1, ⟨Nat.succ_le_succ within, succeeds, ?_⟩, found⟩
      intro earlier less
      cases earlier with
      | zero =>
        intro succeeds
        have first : ∃ vectors, embedChunks settings docId kbId chunks (attempts 0) = some vectors :=
          exists_embedChunks_iff.mpr succeeds
        obtain ⟨vectors, found⟩ := first
        rw [found] at failed
        cases failed
      | succ earlier => exact before earlier (Nat.lt_of_succ_lt_succ less)

/-- Only one attempt is the first to succeed. -/
theorem FirstSuccess.unique {chunks : List TextChunk} {retries : ℕ} {attempts : ℕ → ℕ → Pattern}
    {attempt other : ℕ} (first : FirstSuccess settings chunks retries attempts attempt)
    (again : FirstSuccess settings chunks retries attempts other) : attempt = other := by
  obtain ⟨-, succeeds, before⟩ := first
  obtain ⟨-, succeeds_again, before_again⟩ := again
  apply le_antisymm
  · exact not_lt.mp fun less => before other less succeeds_again
  · exact not_lt.mp fun less => before_again attempt less succeeds

theorem exists_embedWithRetry {chunks : List TextChunk} {retries : ℕ} {attempts : ℕ → ℕ → Pattern}
    {attempt : ℕ} (first : FirstSuccess settings chunks retries attempts attempt) :
    ∃ vectors, embedWithRetry settings docId kbId chunks retries attempts = some vectors := by
  obtain ⟨within, succeeds, before⟩ := first
  induction retries generalizing attempts attempt with
  | zero =>
    obtain rfl := Nat.le_zero.mp within
    exact exists_embedChunks_iff.mpr succeeds
  | succ retries ih =>
    rw [embedWithRetry]
    split
    · exact ⟨_, rfl⟩
    · rename_i failed
      cases attempt with
      | zero =>
        obtain ⟨vectors, found⟩ := exists_embedChunks_iff.mpr succeeds
        rw [failed] at found
        cases found
      | succ attempt =>
        exact ih (Nat.le_of_succ_le_succ within) succeeds
          fun earlier less => before (earlier + 1) (Nat.succ_lt_succ less)

end EmbeddingService

end HeyeeAgent.Knowledge
