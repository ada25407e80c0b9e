import HeyeeAgent.Knowledge.EmbeddingService

/-! # Chunks and their vectors

Which vector `embed_chunks` puts beside which chunk. The batch of a chunk and its place in the batch
are the quotient and the remainder of its place in the list.
-/

namespace HeyeeAgent.Knowledge

open Python InfraAi

namespace EmbeddingService

variable {settings : EmbeddingSettings} {docId kbId : Str}

/-- The entry repeats its chunk, and its vector stands at the chunk's place in the answer of the
model that served the batch. -/
structure Pairs (settings : EmbeddingSettings) (docId kbId : Str) (pattern : Pattern) (place : ℕ)
    (chunk : TextChunk) (entry : Embedded) : Prop where
  document : entry.1.docId = docId ∧ entry.1.kbId = kbId
  chunk : entry.1.chunkId = chunk.chunkId ∧ entry.1.chunkIndex = chunk.chunkIndex ∧
    entry.1.content = chunk.content ∧ entry.1.metadata = chunk.metadata
  vector : ∃ target returned, Served pattern.meets (candidates settings pattern) target returned ∧
    entry.2 = target.id ∧ returned[place]? = some entry.1.vector ∧
    (entry.1.vector.length : ℤ) = expectedDimension settings target

/-- One entry for each chunk, in their order. -/
structure Aligned (settings : EmbeddingSettings) (docId kbId : Str) (chunks : List TextChunk)
    (patterns : ℕ → Pattern) (entries : List Embedded) : Prop where
  length : entries.length = chunks.length
  pairs : ∀ i chunk, chunks[i]? = some chunk → ∃ entry, entries[i]? = some entry ∧
    Pairs settings docId kbId (patterns (i / settings.embeddingBatchSize))
      (i % settings.embeddingBatchSize) chunk entry

/-- A turn of the loop pairs the chunks of its batch. -/
theorem embedBatch_pairs {pattern : Pattern} {batch : List TextChunk} {entries : List Embedded}
    (embedded : embedBatch settings docId kbId pattern batch = some entries) {i : ℕ}
    {chunk : TextChunk} (here : batch[i]? = some chunk) :
    ∃ entry, entries[i]? = some entry ∧ Pairs settings docId kbId pattern i chunk entry := by
  obtain ⟨⟨target, returned⟩, answered, checked⟩ := Option.bind_eq_some_iff.mp embedded
  have served := executeWithFallback_eq_some_iff.mp answered
  dsimp only at checked
  split at checked
  · rename_i fits
    obtain ⟨count, dimensions⟩ := fits
    cases checked
    obtain ⟨inside, -⟩ := List.getElem?_eq_some_iff.mp here
    have vector : returned[i]? = some (returned.get ⟨i, by omega⟩) := List.getElem?_eq_getElem _
    have both : (batch.zip returned)[i]? = some (chunk, returned.get ⟨i, by omega⟩) :=
      List.getElem?_zip_eq_some.mpr ⟨here, vector⟩
    refine ⟨_, List.getElem?_map.trans (congrArg (Option.map _) both), ⟨rfl, rfl⟩,
      ⟨rfl, rfl, rfl, rfl⟩, target, returned, served, rfl, vector, ?_⟩
    exact dimensions _ (List.getElem_mem _)
  · cases checked

/-- The loop over the batches pairs all chunks. -/
theorem embedBatches_aligned {fuel : ℕ} {chunks : List TextChunk} {patterns : ℕ → Pattern}
    {entries : List Embedded} (enough : chunks.length ≤ fuel)
    (embedded : embedBatches settings docId kbId
      (batchesFrom settings.embeddingBatchSize fuel chunks) patterns = some entries) :
    Aligned settings docId kbId chunks patterns entries := by
  induction fuel generalizing chunks patterns entries with
  | zero =>
    obtain rfl := List.length_eq_zero_iff.mp (Nat.le_zero.mp enough)
    cases embedded
    exact ⟨rfl, fun i chunk here => absurd here (by simp)⟩
  | succ fuel ih =>
    cases chunks with
    | nil =>
      cases embedded
      exact ⟨rfl, fun i chunk here => absurd here (by simp)⟩
    | cons first rest =>
      rw [batchesFrom] at embedded
      generalize split : first :: rest = chunks at *
      have positive := settings.batch_size_pos
      set size := settings.embeddingBatchSize with size_def
      obtain ⟨front, here, later⟩ := Option.bind_eq_some_iff.mp embedded
      obtain ⟨back, there, rfl⟩ := Option.map_eq_some_iff.mp later
      have fewer : (chunks.drop size).length ≤ fuel := by
        rw [List.length_drop]
        omega
      obtain ⟨back_length, back_pairs⟩ := ih fewer there
      have front_length : front.length = min size chunks.length := by
        rw [(embedBatch_eq_some here).2.1, List.length_take]
      rw [List.length_drop] at back_length
      refine ⟨?_, fun i chunk found => ?_⟩
      · rw [List.length_append, front_length, back_length]
        omega
      · obtain ⟨inside, -⟩ := List.getElem?_eq_some_iff.mp found
        rcases Nat.lt_or_ge i size with below | above
        · -- in the first batch
          rw [← size_def, Nat.div_eq_of_lt below, Nat.mod_eq_of_lt below,
            List.getElem?_append_left (by omega)]
          exact embedBatch_pairs here (by rwa [List.getElem?_take_of_lt below])
        · obtain ⟨j, rfl⟩ := Nat.exists_eq_add_of_le above
          have position : front.length = size := by omega
          rw [← size_def, Nat.add_div_left j positive, Nat.add_mod_left,
            List.getElem?_append_right (by omega), position, Nat.add_sub_cancel_left]
          exact back_pairs j chunk (by rwa [List.getElem?_drop])

/-- `embed_chunks` fails where a batch is not answered by vectors that fit; else every chunk has its
own vector. -/
theorem embedChunks_paired (settings : EmbeddingSettings) (docId kbId : Str)
    (chunks : List TextChunk) (patterns : ℕ → Pattern) :
    (embedChunks settings docId kbId chunks patterns = none ∧ ¬ Succeeds settings chunks patterns) ∨
    ∃ entries, embedChunks settings docId kbId chunks patterns = some entries ∧
      Aligned settings docId kbId chunks patterns entries := by
  cases embedded : embedChunks settings docId kbId chunks patterns with
  | none =>
    refine .inl ⟨rfl, fun succeeds => ?_⟩
    obtain ⟨entries, found⟩ := exists_embedChunks_iff.mpr succeeds
    rw [embedded] at found
    cases found
  | some entries => exact .inr ⟨entries, rfl, embedBatches_aligned le_rfl embedded⟩

end EmbeddingService

end HeyeeAgent.Knowledge
