import HeyeeAgent.Knowledge.DocumentRows

/-! # Where the rows come from

Any number of operations side by side, the identifiers of the chunks drawn for one document each. A
chunk and a vector stand under their document and its knowledge base, and a vector names a chunk of
its own document, also where the chunk is gone by now.
-/

namespace HeyeeAgent.Knowledge

open Python Machine

/-- The knowledge base of a document, also of a deleted one. -/
def Database.baseOf (db : Database) (docId : Str) : Option Str :=
  (db.documents docId).map DocumentRow.kbId

theorem Database.baseOf_of_document {db : Database} {docId : Str} {row : DocumentRow}
    (found : db.document docId = some row) : db.baseOf docId = some row.kbId := by
  rw [baseOf, (document_of_mem found).1]
  rfl

/-- The rows stand where they belong; `owner` says which document an identifier was drawn for. -/
structure Database.Placed (owner : Str → Str) (db : Database) : Prop where
  chunks : ∀ chunk ∈ db.chunks, owner chunk.id = chunk.docId ∧
    db.baseOf chunk.docId = some chunk.kbId
  vectors : ∀ vector ∈ db.vectors, owner vector.chunkId = vector.docId ∧
    db.baseOf vector.docId = some vector.kbId ∧ vector.enabled = true ∧ vector.deleted = false

namespace ChunkingService

/-- The identifiers of the chunks are drawn for their indices. -/
def Drawn (drawn : ℕ → Str) (chunks : List TextChunk) : Prop :=
  ∀ chunk ∈ chunks, chunk.chunkId = drawn chunk.chunkIndex

variable {py : Interpreter} {drawn : ℕ → Str}

theorem drawn_singleton (index : ℕ) (content : List Char) (metadata : Object) :
    Drawn drawn [makeChunk py drawn index content metadata] := by
  intro chunk member
  rw [List.mem_singleton.mp member]
  rfl

theorem drawn_add {text : List Char} {s : Cutting} (all : Drawn drawn s.chunks) (stop : ℕ) :
    Drawn drawn (s.add py drawn text stop) := by
  simp only [Cutting.add]
  split
  · exact all
  · intro chunk member
    rcases List.mem_append.mp member with before | last
    · exact all chunk before
    · exact drawn_singleton _ _ _ chunk last

theorem drawn_splitFixedSize {rounds : ℕ} {text : List Char} {config : Object}
    {chunks : List TextChunk} (cut : splitFixedSize py drawn rounds text config = some chunks) :
    Drawn drawn chunks := by
  simp only [splitFixedSize] at cut
  split at cut
  · cases cut
    exact drawn_singleton _ _ _
  · obtain ⟨last, ended, rfl⟩ := Option.map_eq_some_iff.mp cut
    apply loop_keeps (I := fun s : Cutting => Drawn drawn s.chunks) ?_ ?_ ?_ ended
    · intro s next all taken
      simp only [Cutting.round] at taken
      split at taken
      · split at taken
        · cases taken
        · cases taken
          exact drawn_add all _
      · cases taken
    · intro s last all taken
      simp only [Cutting.round] at taken
      split_ifs at taken
      · cases taken
        exact drawn_add all _
      · cases taken
        exact all
    · intro chunk member
      cases member

theorem drawn_materializeFrom (text : List Char) (overlap index : ℕ) (previousTail : List Char)
    (ranges : List (ℕ × ℕ)) :
    Drawn drawn (materializeFrom py drawn text overlap index previousTail ranges) := by
  induction ranges generalizing index previousTail with
  | nil =>
    intro chunk member
    cases member
  | cons range ranges ih =>
    intro chunk member
    rcases List.mem_cons.mp member with rfl | later
    · rfl
    · exact ih _ _ chunk later

theorem drawn_split {rounds : ℕ} {text : List Char} {strategy : Str} {config : Object}
    {chunks : List TextChunk} (cut : split py drawn rounds text strategy config = some chunks) :
    Drawn drawn chunks := by
  simp only [split] at cut
  split_ifs at cut
  · exact drawn_splitFixedSize cut
  · cases cut
    simp only [splitStructureAware]
    split
    · exact drawn_singleton _ _ _
    · exact drawn_materializeFrom _ _ _ _ _

end ChunkingService

namespace DocumentOperations

section Carried

/-- The document that a delivery has read. -/
def Phase.doc : Phase → Option KnowledgeDocumentForChunk
  | .insertingLog doc | .reading doc _ | .extracting doc _ _ | .splitting doc _ | .embedding doc _ _
  | .replacing doc _ _ _ | .markingLogSuccess doc _ _ | .markingLogFailed doc _
  | .markingDocumentFailed doc _ => some doc
  | .finding | .returned _ | .raised _ => none

/-- The identifiers of chunks on their way to the tables. -/
def Phase.chunkIds : Phase → List Str
  | .embedding _ chunks _ => chunks.map TextChunk.chunkId
  | .replacing _ chunks vectors _ =>
    chunks.map TextChunk.chunkId ++ vectors.map VectorChunk.chunkId
  | _ => []

variable {cfg : Settings} {db : Database}

theorem doc_retry {doc found : KnowledgeDocumentForChunk} {attempt : ℕ} {again : ℕ → Phase}
    {error : Str} (holds : Phase.doc (retry cfg doc attempt again error) = some found)
    (same : ∀ attempt, Phase.doc (again attempt) = some doc) : doc = found := by
  rw [retry] at holds
  split at holds
  · exact Option.some.inj holds
  · exact Option.some.inj ((same _).symm.trans holds)

theorem chunkIds_retry {doc : KnowledgeDocumentForChunk} {attempt : ℕ} {again : ℕ → Phase}
    {error id : Str} {ids : List Str}
    (member : id ∈ Phase.chunkIds (retry cfg doc attempt again error))
    (same : ∀ attempt, Phase.chunkIds (again attempt) = ids) : id ∈ ids := by
  rw [retry] at member
  split at member
  · cases member
  · exact same _ ▸ member

/-- A delivery keeps the document that it has read first. -/
theorem doc_next {p : Processing} {ending : Ending} {doc : KnowledgeDocumentForChunk}
    (holds : Phase.doc (Knowledge.next cfg p.outside.services p.message p.draw db p.phase ending) =
      some doc) :
    Phase.doc p.phase = some doc ∨
      p.phase = .finding ∧ findDocumentForChunk db p.message.docId = some doc := by
  cases phase : p.phase with
  | finding =>
    refine .inr ⟨rfl, ?_⟩
    cases ending with
    | raised error committed => simp [phase, Knowledge.next, Phase.doc] at holds
    | returned =>
      cases found : findDocumentForChunk db p.message.docId with
      | none => simp [phase, Knowledge.next, found, gate, Phase.doc] at holds
      | some read =>
        simp only [phase, Knowledge.next, found, gate] at holds
        split at holds
        · cases holds
        · exact holds
        · cases holds
  | returned result => simp [phase, Knowledge.next, Phase.doc] at holds
  | raised error => simp [phase, Knowledge.next, Phase.doc] at holds
  | replacing read chunks vectors attempt =>
    left
    rw [phase] at holds
    cases ending with
    | raised error committed => exact congrArg some (doc_retry holds fun _ => rfl)
    | returned =>
      rw [Knowledge.next] at holds
      split at holds
      · exact holds
      · exact congrArg some (doc_retry holds fun _ => rfl)
  | _ =>
    left
    rw [phase] at holds
    cases ending <;> first
      | exact holds
      | cases holds
      | exact congrArg some (doc_retry holds fun _ => rfl)

theorem chunkId_split {outside : Outside} {drawn : ℕ → Str} {text strategy id : Str} {config : Object}
    (member : id ∈ (outside.services.split drawn text strategy config).map TextChunk.chunkId) :
    ∃ index, id = drawn index := by
  simp only [Outside.services] at member
  cases cut : outside.split drawn text strategy config with
  | none =>
    rw [cut] at member
    cases member
  | some chunks =>
    rw [cut] at member
    obtain ⟨chunk, made, rfl⟩ := List.mem_map.mp member
    exact ⟨chunk.chunkIndex, ChunkingService.drawn_split cut chunk made⟩

/-- The identifiers that a delivery carries are those that it has drawn. -/
theorem chunkIds_next {p : Processing} {ending : Ending} {id : Str}
    (member : id ∈ Phase.chunkIds
      (Knowledge.next cfg p.outside.services p.message p.draw db p.phase ending)) :
    id ∈ Phase.chunkIds p.phase ∨ ∃ index, id = p.draw.chunkIds index := by
  cases phase : p.phase with
  | finding =>
    rw [phase] at member
    cases ending with
    | raised error committed => cases member
    | returned =>
      simp only [Knowledge.next, gate] at member
      split at member
      · cases member
      · split at member <;> cases member
  | splitting doc text =>
    rw [phase] at member
    cases ending with
    | raised error committed => cases member
    | returned => exact .inr (chunkId_split member)
  | embedding doc chunks attempt =>
    left
    rw [phase] at member
    cases ending with
    | raised error committed => exact chunkIds_retry member fun _ => rfl
    | returned =>
      rcases List.mem_append.mp member with listed | listed
      · exact listed
      · rw [embedChunks, List.map_map] at listed
        exact listed
  | replacing doc chunks vectors attempt =>
    left
    rw [phase] at member
    cases ending with
    | raised error committed => exact chunkIds_retry member fun _ => rfl
    | returned =>
      rw [Knowledge.next] at member
      split at member
      · cases member
      · exact chunkIds_retry member fun _ => rfl
  | _ =>
    rw [phase] at member
    cases ending <;> first
      | cases member
      | cases (chunkIds_retry member fun _ => rfl)

end Carried

section Bases

variable (cfg : Settings) (db : Database) {task : Task} {docId kbId : Str}

/-- No call moves a document to another knowledge base or to another file. -/
theorem origin_rewrite (docId : Str) (row : DocumentRow) (task : Task) :
    (task.rewrite cfg docId row).kbId = row.kbId ∧
      (task.rewrite cfg docId row).fileUrl = row.fileUrl ∧
      (task.rewrite cfg docId row).fileSize = row.fileSize := by
  cases task with
  | starting target =>
    rw [Task.rewrite]
    split <;> exact ⟨rfl, rfl, rfl⟩
  | processing p =>
    cases phase : p.phase with
    | replacing | markingDocumentFailed =>
      simp only [Task.rewrite, phase]
      split <;> exact ⟨rfl, rfl, rfl⟩
    | _ => simp only [Task.rewrite, phase, and_self]
  | managing m =>
    cases phase : m.phase with
    | updating | deleting | enabling =>
      simp only [Task.rewrite, phase]
      split <;> exact ⟨rfl, rfl, rfl⟩
    | _ => simp only [Task.rewrite, phase, and_self]
  | _ => exact ⟨rfl, rfl, rfl⟩

theorem baseOf_write (found : db.baseOf docId = some kbId) (task : Task) :
    (task.write cfg db).baseOf docId = some kbId := by
  obtain ⟨row, present, rfl⟩ := Option.map_eq_some_iff.mp found
  rw [Database.baseOf, documents_write]
  cases task with
  | uploading record =>
    dsimp only
    rw [present, Option.some_or, ite_self]
    rfl
  | _ =>
    dsimp only
    rw [present, Option.map_some, Option.map_some, (origin_rewrite cfg docId row _).1]

theorem baseOf_called (found : db.baseOf docId = some kbId) (task : Task) (ending : Ending) :
    (called cfg db task ending).baseOf docId = some kbId := by
  rw [called]
  split
  · exact baseOf_write cfg db found task
  · exact found

end Bases

section Tasks

variable {owner : Str → Str} {cfg : Settings} {db db' : Database} {p : Processing} {m : Management}

structure Processing.Placed (owner : Str → Str) (db : Database) (p : Processing) : Prop where
  draws : ∀ index, owner (p.draw.chunkIds index) = p.message.docId
  doc : ∀ doc, Phase.doc p.phase = some doc →
    doc.id = p.message.docId ∧ db.baseOf doc.id = some doc.kbId
  chunkIds : ∀ id ∈ Phase.chunkIds p.phase, owner id = p.message.docId

structure ManagementPlaced (owner : Str → Str) (db : Database) (m : Management) : Prop where
  held : ∀ detail, Management.held m.phase = some detail → db.baseOf detail.id = some detail.kbId
  listed : ∀ detail chunks, m.phase = .embedding detail chunks →
    ∀ chunk ∈ chunks, owner chunk.chunkId = detail.id
  embedded : ∀ detail enabled vectors, m.phase = .enabling detail enabled vectors →
    ∀ vector ∈ vectors, owner vector.chunkId = detail.id ∧ vector.docId = detail.id ∧
      vector.kbId = detail.kbId

/-- What an operation carries belongs to its document. -/
def Task.Placed (owner : Str → Str) (db : Database) : Task → Prop
  | processing p => p.Placed owner db
  | managing m => ManagementPlaced owner db m
  | _ => True

theorem Task.Placed.mono {task : Task} (placed : task.Placed owner db)
    (kept : ∀ docId kbId, db.baseOf docId = some kbId → db'.baseOf docId = some kbId) :
    task.Placed owner db' := by
  cases task with
  | processing p =>
    refine ⟨placed.draws, fun doc holds => ?_, placed.chunkIds⟩
    obtain ⟨own, base⟩ := placed.doc doc holds
    exact ⟨own, kept _ _ base⟩
  | managing m =>
    exact ⟨fun detail holds => kept _ _ (placed.held detail holds), placed.listed, placed.embedded⟩
  | _ => trivial

theorem Processing.Placed.next {ending : Ending} (placed : p.Placed owner db) :
    Processing.Placed owner db { p with
      phase := Knowledge.next cfg p.outside.services p.message p.draw db p.phase ending } where
  draws := placed.draws
  doc doc holds := by
    rcases doc_next holds with before | ⟨-, read⟩
    · exact placed.doc doc before
    · obtain ⟨row, present, rfl⟩ := Option.map_eq_some_iff.mp read
      exact ⟨rfl, Database.baseOf_of_document present⟩
  chunkIds id member := by
    rcases chunkIds_next member with before | ⟨index, rfl⟩
    · exact placed.chunkIds id before
    · exact placed.draws index

theorem ManagementPlaced.next {ending : Ending} (rows : db.Placed owner)
    (placed : ManagementPlaced owner db m) :
    ManagementPlaced owner db { m with phase := m.next db ending } where
  held detail holds := by
    rcases Management.held_next holds with before | ⟨-, found, -⟩
    · exact placed.held detail before
    · obtain ⟨row, present, rfl⟩ := Option.map_eq_some_iff.mp found
      exact Database.baseOf_of_document present
  listed detail chunks embeds chunk member := by
    obtain ⟨-, rfl⟩ := Management.embedding_next embeds
    obtain ⟨source, listed, rfl⟩ := List.mem_map.mp member
    obtain ⟨row, sorted, rfl⟩ := List.mem_map.mp listed
    obtain ⟨there, own⟩ := List.mem_filter.mp ((List.mergeSort_perm _ _).subset sorted)
    obtain ⟨own, -⟩ := of_decide_eq_true own
    exact (rows.chunks row there).1.trans own
  embedded detail enabled vectors writes vector member := by
    rcases Management.enabling_next writes with ⟨-, rfl⟩ | ⟨-, rfl, -⟩ | ⟨-, chunks, embeds, rfl⟩
    · cases member
    · cases member
    · obtain ⟨chunk, there, rfl⟩ := List.mem_map.mp member
      exact ⟨placed.listed detail chunks embeds chunk there, rfl, rfl⟩

theorem placed_next {task : Task} {ending : Ending} (rows : db.Placed owner)
    (placed : task.Placed owner db) : (task.next cfg db ending).Placed owner db := by
  cases task with
  | processing p => exact Processing.Placed.next placed
  | managing m => exact ManagementPlaced.next rows placed
  | starting target =>
    cases ending with
    | raised error committed => trivial
    | returned =>
      rw [Task.next]
      split <;> trivial
  | uploading record => cases ending <;> trivial
  | ended failure => trivial

end Tasks

section Writes

variable {owner : Str → Str} {cfg : Settings} {db : Database} {task : Task}

theorem chunks_placed_write (rows : db.Placed owner) (placed : task.Placed owner db) :
    ∀ chunk ∈ (task.write cfg db).chunks, owner chunk.id = chunk.docId ∧
      db.baseOf chunk.docId = some chunk.kbId := by
  intro chunk member
  rw [chunks_write] at member
  cases task with
  | processing p =>
    cases phase : p.phase with
    | replacing doc chunks vectors attempt =>
      simp only [phase] at member
      split at member
      · rcases List.mem_append.mp member with old | new
        · exact rows.chunks chunk (List.mem_of_mem_filter old)
        · obtain ⟨made, there, rfl⟩ := List.mem_map.mp new
          obtain ⟨own, base⟩ := placed.doc doc (by rw [phase]; rfl)
          refine ⟨?_, base⟩
          rw [chunkRow, own]
          apply placed.chunkIds
          rw [phase]
          exact List.mem_append_left _ (List.mem_map_of_mem there)
      · exact rows.chunks chunk member
    | _ => exact rows.chunks chunk (by simpa only [phase] using member)
  | managing m =>
    cases phase : m.phase with
    | deleting detail =>
      simp only [phase] at member
      exact rows.chunks chunk (List.mem_of_mem_filter member)
    | enabling detail enabled vectors =>
      simp only [phase] at member
      obtain ⟨old, there, rfl⟩ := List.mem_map.mp member
      rw [enableChunk]
      split <;> exact rows.chunks old there
    | _ => exact rows.chunks chunk (by simpa only [phase] using member)
  | _ => exact rows.chunks chunk member

theorem vectors_placed_write (rows : db.Placed owner) (placed : task.Placed owner db) :
    ∀ vector ∈ (task.write cfg db).vectors, owner vector.chunkId = vector.docId ∧
      db.baseOf vector.docId = some vector.kbId ∧ vector.enabled = true ∧
      vector.deleted = false := by
  intro vector member
  rw [vectors_write] at member
  cases task with
  | processing p =>
    cases phase : p.phase with
    | replacing doc chunks vectors attempt =>
      simp only [phase] at member
      split at member
      · rcases List.mem_append.mp member with old | new
        · exact rows.vectors vector (List.mem_of_mem_filter old)
        · obtain ⟨index, bound, rfl⟩ := List.mem_mapIdx.mp new
          obtain ⟨own, base⟩ := placed.doc doc (by rw [phase]; rfl)
          refine ⟨?_, base, rfl, rfl⟩
          rw [vectorRow, own]
          apply placed.chunkIds
          rw [phase]
          exact List.mem_append_right _ (List.mem_map_of_mem (List.getElem_mem bound))
      · exact rows.vectors vector member
    | _ => exact rows.vectors vector (by simpa only [phase] using member)
  | managing m =>
    cases phase : m.phase with
    | deleting detail =>
      simp only [phase] at member
      exact rows.vectors vector (List.mem_of_mem_filter member)
    | enabling detail enabled vectors =>
      simp only [phase] at member
      rcases List.mem_append.mp member with old | new
      · exact rows.vectors vector (List.mem_of_mem_filter old)
      · split at new
        · obtain ⟨index, bound, rfl⟩ := List.mem_mapIdx.mp new
          obtain ⟨drawn, own, base⟩ := placed.embedded detail enabled vectors phase _
            (List.getElem_mem bound)
          refine ⟨drawn.trans own.symm, ?_, rfl, rfl⟩
          rw [enabledVectorRow, own, base]
          exact placed.held detail (by rw [phase]; rfl)
        · cases new
    | _ => exact rows.vectors vector (by simpa only [phase] using member)
  | _ => exact rows.vectors vector member

theorem placed_write (rows : db.Placed owner) (placed : task.Placed owner db) :
    (task.write cfg db).Placed owner where
  chunks chunk member := by
    obtain ⟨own, base⟩ := chunks_placed_write rows placed chunk member
    exact ⟨own, baseOf_write cfg db base task⟩
  vectors vector member := by
    obtain ⟨own, base, rest⟩ := vectors_placed_write rows placed vector member
    exact ⟨own, baseOf_write cfg db base task, rest⟩

end Writes

section Runs

variable {N : Type} {owner : Str → Str} {cfg : Settings} {s t : State N} {e : Event N}

/-- A delivery draws its identifiers for its document. -/
def DrawsFor (owner : Str → Str) (_ : State N) : Event N → Prop
  | .begin _ (.processMessage message _ draw) => ∀ index, owner (draw.chunkIds index) = message.docId
  | _ => True

structure Placed (owner : Str → Str) (s : State N) : Prop where
  rows : s.db.Placed owner
  tasks : ∀ n task, s.tasks n = some task → task.Placed owner s.db

theorem placed_initial {db : Database} (rows : db.Placed owner) :
    Placed owner (initial db : State N) :=
  ⟨rows, fun n task found => by cases found⟩

/-- Empty tables. -/
theorem placed_empty : ({ documents := fun _ => none } : Database).Placed owner :=
  ⟨fun _ member => absurd member List.not_mem_nil, fun _ member => absurd member List.not_mem_nil⟩

theorem placed_task {operation : Operation} {n : N} {s : State N} (db : Database)
    (met : DrawsFor owner s (.begin n operation)) : operation.task.Placed owner db := by
  cases operation with
  | processMessage message outside draw =>
    refine ⟨met, fun doc holds => ?_, fun id member => ?_⟩
    · cases holds
    · cases member
  | startChunking documentId =>
    rw [Operation.task]
    split <;> trivial
  | manage documentId request embed vectorIds =>
    have idle : Management.held (Management.start documentId request embed vectorIds).phase = none := by
      simp only [Management.start]
      split <;> rfl
    refine ⟨fun detail holds => ?_, fun detail chunks embeds => ?_,
      fun detail enabled vectors writes => ?_⟩
    · rw [idle] at holds
      cases holds
    · rw [embeds] at idle
      cases idle
    · rw [writes] at idle
      cases idle
  | upload record => trivial

variable [DecidableEq N]

theorem placed_step (placed : Placed owner s) (met : DrawsFor owner s e)
    (taken : step cfg s e = some t) : Placed owner t := by
  cases e with
  | begin n operation =>
    obtain ⟨-, same, tasks⟩ := step_begin taken
    refine ⟨same ▸ placed.rows, fun m task found => ?_⟩
    rw [tasks] at found
    by_cases new : m = n
    · subst new
      rw [Function.update_self, Option.some.injEq] at found
      exact found ▸ placed_task t.db met
    · rw [Function.update_of_ne new] at found
      exact same ▸ placed.tasks m task found
  | call n ending =>
    obtain ⟨caller, called_by, -, -, after, tasks⟩ := step_call taken
    constructor
    · rw [after, called]
      split
      · exact placed_write placed.rows (placed.tasks n caller called_by)
      · exact placed.rows
    · intro m task found
      rw [tasks] at found
      have later : ∀ docId kbId, s.db.baseOf docId = some kbId → t.db.baseOf docId = some kbId := by
        intro docId kbId base
        rw [after]
        exact baseOf_called cfg s.db base caller ending
      by_cases new : m = n
      · subst new
        rw [Function.update_self, Option.some.injEq] at found
        rw [← found]
        exact (placed_next placed.rows (placed.tasks m caller called_by)).mono later
      · rw [Function.update_of_ne new] at found
        exact (placed.tasks m task found).mono later

end Runs

end DocumentOperations

end HeyeeAgent.Knowledge
