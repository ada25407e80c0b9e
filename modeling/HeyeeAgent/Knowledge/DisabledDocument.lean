import HeyeeAgent.Knowledge.DocumentRows

/-! # Disabled documents

To disable a document takes its vectors away and the flag of its chunks with it. Every later call
but one keeps that up as long as the document is disabled: the replacement of a delivery inserts
enabled chunks and their vectors without a look at the flag of the document.
-/

namespace HeyeeAgent.Knowledge

open Python Machine

/-- A disabled document has no vector and no enabled chunk. -/
def Database.OutOfIndex (db : Database) : Prop :=
  ∀ docId row, db.document docId = some row → row.enabled = false →
    db.vectorsOf docId = [] ∧ ∀ chunk ∈ db.chunksOf docId, chunk.enabled = false

namespace DocumentOperations

section Writes

variable (cfg : Settings) (db : Database) {task : Task}

/-- A call that takes effect puts no chunks in for a disabled document. -/
def Task.SparesDisabled (task : Task) : Prop :=
  ∀ p, task = .processing p → ∀ docId ∈ p.inserts, ∀ row,
    db.document docId = some row → row.enabled = true

theorem inserts_replacing {p : Processing} {doc : KnowledgeDocumentForChunk}
    {chunks : List TextChunk} {vectors : List VectorChunk} {attempt : ℕ}
    (phase : p.phase = .replacing doc chunks vectors attempt) (lengths : chunks.length = vectors.length)
    (given : chunks ≠ []) : p.inserts = some doc.id := by
  simp [Processing.inserts, phase, lengths, given]

/-- A call keeps the disabled documents out of the index if it puts no chunks in for one. -/
theorem outOfIndex_write (present : db.ChunksPresent) (own : task.OwnVectors) (out : db.OutOfIndex)
    (spares : task.SparesDisabled db) : (task.write cfg db).OutOfIndex := by
  intro docId row found disabled
  rcases document_write cfg db task found with ⟨old, before, rfl⟩ | ⟨record, rfl, rfl⟩
  · cases rowsWritten cfg db docId own with
    | untouched chunks vectors kept =>
      rw [chunks, vectors]
      exact out docId old before ((kept old).1 ▸ disabled)
    | @replaced p doc chunks vectors attempt phase lengths own_doc new_chunks new_vectors kept
      counted =>
      rw [kept] at disabled
      rcases List.eq_nil_or_concat chunks with rfl | ⟨_, _, rfl⟩
      · obtain rfl := List.length_eq_zero_iff.mp lengths.symm
        rw [new_chunks, new_vectors]
        exact ⟨rfl, by simp⟩
      · subst own_doc
        have enabled := spares p rfl doc.id (inserts_replacing phase lengths (by simp)) old before
        rw [disabled] at enabled
        cases enabled
    | deleted deletes => exact absurd found (not_document_of_deletes cfg db _ deletes)
    | @enabled m detail flag vectors phase own_doc flagged new_vectors set kept =>
      rw [set old (Database.document_of_mem before).2] at disabled
      subst disabled
      refine ⟨by rw [new_vectors]; rfl, ?_⟩
      rw [flagged]
      intro chunk member
      obtain ⟨old_chunk, there, rfl⟩ := List.mem_map.mp member
      obtain ⟨there, owned⟩ := List.mem_filter.mp there
      have mine : old_chunk.docId = docId := by simpa using owned
      rw [enableChunk, if_pos ⟨mine, present old_chunk there⟩]
  · cases disabled

/-- A call that puts chunks in for a disabled document puts it into the index. -/
theorem sparesDisabled_of_outOfIndex (out : (task.write cfg db).OutOfIndex) :
    task.SparesDisabled db := by
  rintro p rfl docId inserts row found
  cases phase : p.phase with
  | replacing doc chunks vectors attempt =>
    simp only [Processing.inserts, phase] at inserts
    split at inserts
    case isTrue given =>
      cases inserts
      obtain ⟨chunk, member⟩ := List.exists_mem_of_ne_nil _ given.2
      have there : chunkRow doc (requestedBy cfg p.message) chunk ∈
          ((Task.processing p).write cfg db).chunksOf doc.id := by
        refine List.mem_filter.mpr ⟨?_, by simp [chunkRow]⟩
        rw [chunks_write]
        simp only [phase, if_pos given.1]
        exact List.mem_append_right _ (List.mem_map_of_mem member)
      have after := document_rewrite cfg db (.processing p) found (by simp [Task.deletes])
      have kept : ((Task.processing p).rewrite cfg doc.id row).enabled = row.enabled := by
        simp only [Task.rewrite, phase]
        split <;> rfl
      by_contra disabled
      rw [Bool.not_eq_true, ← kept] at disabled
      cases (out doc.id _ after disabled).2 _ there
    case isFalse => cases inserts
  | _ => simp [Processing.inserts, phase] at inserts

end Writes

section Runs

variable {N : Type} [DecidableEq N]

/-- A call that takes effect puts no chunks in for a disabled document. -/
def SparesDisabled (s : State N) : Event N → Prop
  | .begin _ _ => True
  | .call n ending => ∀ task ∈ s.tasks n, ending.commits = true → task.SparesDisabled s.db

theorem outOfIndex_step {cfg : Settings} {s t : State N} {e : Event N} (inv : RowsInv s)
    (out : s.db.OutOfIndex) (taken : step cfg s e = some t) :
    t.db.OutOfIndex ↔ SparesDisabled s e := by
  cases e with
  | begin n operation =>
    obtain ⟨-, same, -⟩ := step_begin taken
    rw [same]
    exact iff_of_true out trivial
  | call n ending =>
    obtain ⟨task, found, -, -, after, -⟩ := step_call taken
    rw [after]
    cases commits : ending.commits with
    | false =>
      simp only [called, commits, Bool.false_eq_true, if_false]
      exact iff_of_true out fun _ _ committed => by simp [commits] at committed
    | true =>
      simp only [called, commits, if_true, SparesDisabled, found, Option.mem_some_iff, forall_eq',
        true_implies]
      constructor
      · exact sparesDisabled_of_outOfIndex cfg s.db
      · exact outOfIndex_write cfg s.db inv.present (inv.own n task found) out

/-- Operations in any number and order, one at a time or side by side, keep the disabled documents
out of the index exactly if no replacement puts chunks in for a disabled one. -/
theorem always_outOfIndex_iff (cfg : Settings) {db : Database} (present : db.ChunksPresent)
    (out : db.OutOfIndex) (es : List (Event N)) :
    Always (step cfg) (fun s => s.db.OutOfIndex) (initial db) es ↔
      Along (step cfg) SparesDisabled (initial db) es :=
  always_iff_along (fun _ _ _ inv taken => rowsInv_step inv taken)
    (fun _ _ _ inv out taken => outOfIndex_step inv out taken)
    ⟨present, fun _ _ found => by cases found⟩ out

/-- A document is disabled before its chunking, one operation after the other. -/
private def disabledThenChunked : List (Event Unit) :=
  [.begin () (managing (.setDocumentEnabled false)), .call () .returned, .call () .returned,
    .begin () (.startChunking (.lit "doc-1")), .call () .returned, .begin () delivery] ++
    List.replicate 8 (.call () .returned)

theorem outOfIndex_manual : manual.OutOfIndex := by
  intro docId row _ _
  exact ⟨rfl, by simp [Database.chunksOf, manual]⟩

theorem always_outOfIndex_iff_disabledThenChunked :
    Always (step {}) (fun s => s.db.OutOfIndex) (initial manual) disabledThenChunked ↔
      Along (step {}) SparesDisabled (initial manual) disabledThenChunked :=
  always_outOfIndex_iff {} (by simp [Database.ChunksPresent, manual]) outOfIndex_manual
    disabledThenChunked

theorem disabledThenChunked_inIndex :
    ∃ s, runFrom (step {}) (initial manual) disabledThenChunked = some s ∧
      (s.tasks ()).all Task.isEnded = true ∧
      (s.db.document (.lit "doc-1")).any (fun row => row.enabled = false) = true ∧
      s.db.vectors.length = 1 ∧ ¬ s.db.OutOfIndex := by
  have ends : ((runFrom (step {}) (initial manual) disabledThenChunked).any fun s =>
      decide ((s.tasks ()).all Task.isEnded = true ∧
        (s.db.document (.lit "doc-1")).any (fun row => row.enabled = false) = true ∧
        s.db.vectors.length = 1 ∧ (s.db.vectorsOf (.lit "doc-1")).length = 1)) = true := by
    decide +kernel
  obtain ⟨s, run, left⟩ := (Option.any_eq_true _ _).mp ends
  obtain ⟨ended, disabled, vectors, own⟩ := of_decide_eq_true left
  refine ⟨s, run, ended, disabled, vectors, fun out => ?_⟩
  obtain ⟨row, found, flag⟩ := (Option.any_eq_true _ _).mp disabled
  rw [(out _ row found (of_decide_eq_true flag)).1] at own
  cases own

end Runs

end DocumentOperations

end HeyeeAgent.Knowledge
