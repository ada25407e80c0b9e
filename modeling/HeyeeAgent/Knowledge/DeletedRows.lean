import HeyeeAgent.Knowledge.DocumentRows

/-! # Rows of deleted documents

A deletion takes the chunks and the vectors of its document away and marks it, in one transaction.
The rows that come afterwards are those of a call that inserts without a look at the mark: the
replacement of a delivery, or the vectors of an enabling. Without such a call no row belongs to a
deleted document.
-/

namespace HeyeeAgent.Knowledge

open Python Machine

/-- The row of the document carries the mark of a deletion. -/
def Database.isDeleted (db : Database) (docId : Str) : Bool :=
  (db.documents docId).any DocumentRow.deleted

/-- The documents that the chunks and the vectors belong to. -/
def Database.owners (db : Database) : List Str :=
  db.chunks.map ChunkRow.docId ++ db.vectors.map VectorRow.docId

/-- No chunk and no vector belongs to a deleted document. -/
def Database.NoOrphans (db : Database) : Prop := ∀ docId ∈ db.owners, db.isDeleted docId = false

instance (db : Database) : Decidable db.NoOrphans :=
  inferInstanceAs (Decidable (∀ docId ∈ db.owners, db.isDeleted docId = false))

theorem Database.mem_owners {db : Database} {docId : Str} :
    docId ∈ db.owners ↔
      (∃ row ∈ db.chunks, row.docId = docId) ∨ ∃ row ∈ db.vectors, row.docId = docId := by
  simp only [owners, List.mem_append, List.mem_map]

namespace DocumentOperations

section Writes

variable (cfg : Settings) (db : Database) (task : Task)

/-- A document is marked behind a call if it was before or the call deletes it. -/
theorem isDeleted_write (docId : Str) :
    (task.write cfg db).isDeleted docId =
      (db.isDeleted docId || (task.deletes = some docId && (db.documents docId).isSome)) := by
  simp only [Database.isDeleted, documents_write]
  cases task with
  | uploading record =>
    simp only [Task.deletes]
    split
    · cases db.documents docId <;> simp [KnowledgeDocumentRecord.row]
    · simp
  | _ =>
    cases db.documents docId with
    | none => simp
    | some row => simp [deleted_rewrite]

theorem mem_owners_replace {doc : KnowledgeDocumentForChunk} {chunks : List TextChunk}
    {vectors : List VectorChunk} {updatedBy : Str} {ids : ℕ → Str} {docId : Str}
    (member : docId ∈ (replaceChunksAndVectorsAtomic db doc chunks vectors updatedBy ids).owners) :
    (docId = doc.id ∧ (chunks ≠ [] ∨ vectors ≠ [])) ∨ docId ∈ db.owners := by
  rw [Database.mem_owners, chunks_replaceChunksAndVectorsAtomic,
    vectors_replaceChunksAndVectorsAtomic] at member
  rw [Database.mem_owners]
  rcases member with ⟨row, present, rfl⟩ | ⟨row, present, rfl⟩
  · rcases List.mem_append.mp present with old | new
    · exact .inr (.inl ⟨row, (List.mem_filter.mp old).1, rfl⟩)
    · obtain ⟨chunk, given, rfl⟩ := List.mem_map.mp new
      exact .inl ⟨rfl, .inl (List.ne_nil_of_mem given)⟩
  · rcases List.mem_append.mp present with old | new
    · exact .inr (.inr ⟨row, (List.mem_filter.mp old).1, rfl⟩)
    · refine .inl ⟨docId_vectorRows doc vectors updatedBy ids new, .inr ?_⟩
      rintro rfl
      cases new

theorem mem_owners_delete {target updatedBy docId : Str}
    (member : docId ∈ (deleteDocumentAtomic db target updatedBy).owners) :
    docId ∈ db.owners ∧ docId ≠ target := by
  rw [Database.mem_owners, deleteDocumentAtomic, Database.chunks_updateDocument,
    Database.vectors_updateDocument] at member
  rw [Database.mem_owners]
  rcases member with ⟨row, present, rfl⟩ | ⟨row, present, rfl⟩
  · obtain ⟨old, other⟩ := List.mem_filter.mp present
    exact ⟨.inl ⟨row, old, rfl⟩, by simpa using other⟩
  · obtain ⟨old, other⟩ := List.mem_filter.mp present
    exact ⟨.inr ⟨row, old, rfl⟩, by simpa using other⟩

theorem mem_owners_enable {target updatedBy docId : Str} {enabled : Bool} {vectors : List VectorChunk}
    {ids : ℕ → Str}
    (member : docId ∈ (setDocumentEnabledAtomic db target enabled vectors updatedBy ids).owners) :
    (enabled = true ∧ docId ∈ vectors.map VectorChunk.docId) ∨ docId ∈ db.owners := by
  rw [Database.mem_owners, setDocumentEnabledAtomic, Database.chunks_updateDocument,
    Database.vectors_updateDocument] at member
  rw [Database.mem_owners]
  rcases member with ⟨row, present, rfl⟩ | ⟨row, present, rfl⟩
  · obtain ⟨old, there, rfl⟩ := List.mem_map.mp present
    exact .inr (.inl ⟨old, there, by simp⟩)
  · rcases List.mem_append.mp present with old | new
    · exact .inr (.inr ⟨row, (List.mem_filter.mp old).1, rfl⟩)
    · cases enabled with
      | false => cases new
      | true =>
        obtain ⟨index, bound, rfl⟩ := List.mem_mapIdx.mp new
        exact .inl ⟨rfl, List.mem_map.mpr ⟨_, List.getElem_mem bound, rfl⟩⟩

/-- The rows behind a call belong to a document that it inserts rows for, or were there before and
their document is not the one that it deletes. -/
theorem mem_owners_write {docId : Str} (member : docId ∈ (task.write cfg db).owners) :
    docId ∈ task.inserts ∨ (docId ∈ db.owners ∧ task.deletes ≠ some docId) := by
  cases task with
  | processing p =>
    cases phase : p.phase with
    | replacing doc chunks vectors attempt =>
      simp only [Task.write, Knowledge.write, phase] at member
      split at member
      case isTrue lengths =>
        rcases mem_owners_replace db member with ⟨rfl, new⟩ | old
        · left
          have some_chunk : chunks ≠ [] := by
            rcases new with given | given
            · exact given
            · rintro rfl
              exact given (List.length_eq_zero_iff.mp lengths.symm)
          simp [Task.inserts, Processing.inserts, phase, lengths, some_chunk]
        · exact .inr ⟨old, by simp [Task.deletes]⟩
      case isFalse => exact .inr ⟨member, by simp [Task.deletes]⟩
    | markingDocumentFailed doc error =>
      refine .inr ⟨?_, by simp [Task.deletes]⟩
      rw [Database.mem_owners] at member ⊢
      simpa [Task.write, Knowledge.write, phase, markDocumentFailed] using member
    | _ =>
      refine .inr ⟨?_, by simp [Task.deletes]⟩
      rw [Database.mem_owners] at member ⊢
      simpa [Task.write, Knowledge.write, phase, insertChunkLog, markChunkLogSuccess,
        markChunkLogFailed, Database.updateChunkLog] using member
  | managing m =>
    cases phase : m.phase with
    | deleting detail =>
      simp only [Task.write, Management.write, phase] at member
      obtain ⟨old, differ⟩ := mem_owners_delete db member
      refine .inr ⟨old, ?_⟩
      simpa [Task.deletes, phase, eq_comm] using differ
    | enabling detail enabled vectors =>
      simp only [Task.write, Management.write, phase] at member
      rcases mem_owners_enable db member with ⟨rfl, new⟩ | old
      · exact .inl (by simpa only [Task.inserts, phase] using new)
      · exact .inr ⟨old, by simp [Task.deletes, phase]⟩
    | updating detail docName options =>
      refine .inr ⟨?_, by simp [Task.deletes, phase]⟩
      rw [Database.mem_owners] at member ⊢
      simpa [Task.write, Management.write, phase, updateDocumentConfig] using member
    | _ =>
      refine .inr ⟨?_, by simp [Task.deletes, phase]⟩
      simpa only [Task.write, Management.write, phase] using member
  | starting target =>
    refine .inr ⟨?_, by simp [Task.deletes]⟩
    rw [Database.mem_owners] at member ⊢
    simp only [Task.write, markDocumentChunkRunningCas] at member
    split at member <;> simpa using member
  | uploading record =>
    refine .inr ⟨?_, by simp [Task.deletes]⟩
    rw [Database.mem_owners] at member ⊢
    simp only [Task.write] at member
    split at member <;> exact member
  | ended failure => exact .inr ⟨member, by simp [Task.deletes]⟩

/-- A call that inserts rows for a document leaves some. -/
theorem mem_owners_of_inserts {docId : Str} (inserted : docId ∈ task.inserts) :
    docId ∈ (task.write cfg db).owners := by
  rw [Database.mem_owners]
  cases task with
  | processing p =>
    cases phase : p.phase with
    | replacing doc chunks vectors attempt =>
      simp only [Task.inserts, Processing.inserts, phase, Option.mem_toList] at inserted
      split at inserted
      case isTrue given =>
        cases inserted
        left
        obtain ⟨chunk, member⟩ := List.exists_mem_of_ne_nil _ given.2
        refine ⟨chunkRow doc (requestedBy cfg p.message) chunk, ?_, rfl⟩
        simp only [Task.write, Knowledge.write, phase, if_pos given.1,
          chunks_replaceChunksAndVectorsAtomic]
        exact List.mem_append_right _ (List.mem_map_of_mem member)
      case isFalse => cases inserted
    | _ => simp [Task.inserts, Processing.inserts, phase] at inserted
  | managing m =>
    cases phase : m.phase with
    | enabling detail enabled vectors =>
      cases enabled with
      | false => simp [Task.inserts, phase] at inserted
      | true =>
        simp only [Task.inserts, phase] at inserted
        obtain ⟨vector, member, rfl⟩ := List.mem_map.mp inserted
        obtain ⟨index, bound, rfl⟩ := List.mem_iff_getElem.mp member
        right
        refine ⟨enabledVectorRow cfg.uploadCreatedBy (m.vectorIds index) vectors[index], ?_, rfl⟩
        simp only [Task.write, Management.write, phase, setDocumentEnabledAtomic, if_true]
        exact List.mem_append_right _ (List.mem_mapIdx.mpr ⟨index, bound, rfl⟩)
    | _ => simp [Task.inserts, phase] at inserted
  | _ => simp [Task.inserts] at inserted

/-- Not one call both inserts rows and deletes a document. -/
theorem deletes_of_inserts {docId : Str} (inserted : docId ∈ task.inserts) : task.deletes = none := by
  cases task with
  | managing m => cases phase : m.phase <;> simp_all [Task.inserts, Task.deletes]
  | _ => rfl

/-- A call leaves no row of a deleted document exactly if it inserts none for one. -/
theorem noOrphans_write (clean : db.NoOrphans) :
    (task.write cfg db).NoOrphans ↔ ∀ docId ∈ task.inserts, db.isDeleted docId = false := by
  constructor
  · intro kept docId inserted
    have after := kept docId (mem_owners_of_inserts cfg db task inserted)
    rw [isDeleted_write, Bool.or_eq_false_iff] at after
    exact after.1
  · intro met docId member
    rw [isDeleted_write]
    rcases mem_owners_write cfg db task member with inserted | ⟨old, other⟩
    · simp [met docId inserted, deletes_of_inserts task inserted]
    · simp [clean docId old, other]

end Writes

variable {N : Type} [DecidableEq N]

/-- A call that takes effect inserts no rows for a deleted document. -/
def SparesDeleted (s : State N) : Event N → Prop
  | .begin _ _ => True
  | .call n ending => ∀ task ∈ s.tasks n, ending.commits = true →
      ∀ docId ∈ task.inserts, s.db.isDeleted docId = false

theorem noOrphans_step {cfg : Settings} {s t : State N} {e : Event N} (clean : s.db.NoOrphans)
    (taken : step cfg s e = some t) : t.db.NoOrphans ↔ SparesDeleted s e := by
  cases e with
  | begin n operation =>
    obtain ⟨-, same, -⟩ := step_begin taken
    rw [same]
    exact iff_of_true clean trivial
  | call n ending =>
    obtain ⟨task, found, -, -, after, -⟩ := step_call taken
    rw [after]
    cases commits : ending.commits with
    | false =>
      simp only [called, commits, Bool.false_eq_true, if_false]
      exact iff_of_true clean fun _ _ committed => by simp [commits] at committed
    | true =>
      simp only [called, commits, if_true, SparesDeleted, found, Option.mem_some_iff, forall_eq',
        true_implies]
      exact noOrphans_write cfg s.db task clean

/-- Operations that run side by side leave no row of a deleted document at any time exactly if no
call inserts rows for a deleted one. -/
theorem always_noOrphans_iff (cfg : Settings) {db : Database} (clean : db.NoOrphans)
    (es : List (Event N)) :
    Always (step cfg) (fun s => s.db.NoOrphans) (initial db) es ↔
      Along (step cfg) SparesDeleted (initial db) es :=
  always_iff_along (I := fun _ => True) (fun _ _ _ _ _ => trivial)
    (fun _ _ _ _ clean taken => noOrphans_step clean taken) trivial clean

section Runs

/-- The document is chunked between the look at its status and its deletion, and the rows come behind
the deletion. -/
private def deletedBeforeReplaced : List (Event (Fin 3)) :=
  [.begin 0 (managing .deleteDocument), .call 0 .returned,
    .begin 1 (.startChunking (.lit "doc-1")), .call 1 .returned, .begin 2 delivery] ++
    List.replicate 6 (.call 2 .returned) ++
    [.call 0 .returned, .call 0 .returned, .call 2 .returned, .call 2 .returned]

theorem always_noOrphans_iff_deletedBeforeReplaced :
    Always (step {}) (fun s => s.db.NoOrphans) (initial manual) deletedBeforeReplaced ↔
      Along (step {}) SparesDeleted (initial manual) deletedBeforeReplaced :=
  always_noOrphans_iff {} (by decide) deletedBeforeReplaced

theorem deletedBeforeReplaced_orphans :
    ∃ s, manual.NoOrphans ∧ runFrom (step {}) (initial manual) deletedBeforeReplaced = some s ∧
      (∀ n, (s.tasks n).all Task.isEnded = true) ∧ ¬ s.db.NoOrphans := by
  have ends : ((runFrom (step {}) (initial manual) deletedBeforeReplaced).any fun s =>
      decide ((∀ n, (s.tasks n).all Task.isEnded = true) ∧ ¬ s.db.NoOrphans)) = true := by
    decide +kernel
  obtain ⟨s, run, left⟩ := (Option.any_eq_true _ _).mp ends
  obtain ⟨ended, orphans⟩ := of_decide_eq_true left
  exact ⟨s, by decide, run, ended, orphans⟩

end Runs

end DocumentOperations

end HeyeeAgent.Knowledge
