import HeyeeAgent.Knowledge.Repository
import HeyeeAgent.Machine.Run
import HeyeeAgent.Postgres.RowVersions

/-! # The statements of a replacement

The transactions of `replace_chunks_and_vectors_atomic` for one document, statement by statement. A
`DELETE` starts with a snapshot and is done once it gets its rows, the rows of an `INSERT` belong to
their transaction, and the last `UPDATE` locks the row of the document until the transaction ends. A
transaction can be rolled back at any point.
-/

namespace HeyeeAgent.Knowledge.ReplaceStatements

open Python Machine Postgres

/-- The arguments of one call for the document, with the identifiers it draws for the vectors. -/
structure Replacement (docId : Str) where
  doc : KnowledgeDocumentForChunk
  chunks : List TextChunk
  vectors : List VectorChunk
  updatedBy : Str
  ids : ℕ → Str
  same : doc.id = docId

namespace Replacement

variable {docId : Str} (r : Replacement docId)

def chunkRows : List ChunkRow := r.chunks.map (chunkRow r.doc r.updatedBy)

def vectorRows : List VectorRow := Knowledge.vectorRows r.doc r.updatedBy r.ids r.vectors

/-- What the `UPDATE` makes of the row. -/
def success (row : DocumentRow) : DocumentRow :=
  { row with
    status := .success
    chunkCount := r.chunks.length
    updatedBy := some r.updatedBy }

end Replacement

/-- How far a transaction has got; two of its statements can be waiting. -/
inductive Phase where
  | idle
  | deletingChunks
  | chunksDeleted
  | deletingVectors
  | vectorsDeleted
  | chunksInserted
  | vectorsInserted
  | documentUpdated
  | committed
  | rolledBack
deriving DecidableEq

/-- The committed row of the document, its lock with the version that waits for the commit, and the
versions of the chunks and vectors. -/
structure State (T : Type) where
  document : DocumentRow
  lock : Option (T × DocumentRow) := none
  chunks : Table T ChunkRow
  vectors : Table T VectorRow
  log : Log T := {}
  phases : T → Phase := fun _ => .idle
  chunkSnapshot : T → List T := fun _ => []
  vectorSnapshot : T → List T := fun _ => []

inductive Event (T : Type) where
  /-- the first `DELETE` starts -/
  | deleteChunks (t : T)
  | chunksDeleted (t : T)
  /-- the second `DELETE` starts -/
  | deleteVectors (t : T)
  | vectorsDeleted (t : T)
  | insertChunks (t : T)
  | insertVectors (t : T)
  | updateDocument (t : T)
  | commit (t : T)
  | rollback (t : T)
deriving DecidableEq

variable {T : Type} [DecidableEq T] {docId : Str} (runs : T → Replacement docId)

def State.enter (s : State T) (t : T) (phase : Phase) : State T :=
  { s with phases := Function.update s.phases t phase }

/-- The transaction has started and has not ended. -/
def Phase.running : Phase → Bool
  | idle | committed | rolledBack => false
  | _ => true

def step (s : State T) : Event T → Option (State T)
  | .deleteChunks t =>
    -- the lengths are checked before the transaction begins
    if s.phases t = .idle ∧ (runs t).chunks.length = (runs t).vectors.length then
      some ({ s with chunkSnapshot := Function.update s.chunkSnapshot t s.log.committed }.enter t
        .deletingChunks)
    else none
  | .chunksDeleted t =>
    if s.phases t = .deletingChunks then
      (s.chunks.delete s.log (s.chunkSnapshot t) t fun row => row.docId = docId).map fun chunks =>
        { s with chunks }.enter t .chunksDeleted
    else none
  | .deleteVectors t =>
    if s.phases t = .chunksDeleted then
      some ({ s with vectorSnapshot := Function.update s.vectorSnapshot t s.log.committed }.enter t
        .deletingVectors)
    else none
  | .vectorsDeleted t =>
    if s.phases t = .deletingVectors then
      (s.vectors.delete s.log (s.vectorSnapshot t) t fun row => row.docId = docId).map fun vectors =>
        { s with vectors }.enter t .vectorsDeleted
    else none
  | .insertChunks t =>
    if s.phases t = .vectorsDeleted ∧ (runs t).chunks ≠ [] then
      some ({ s with chunks := s.chunks.insert t (runs t).chunkRows }.enter t .chunksInserted)
    else none
  | .insertVectors t =>
    if s.phases t = .chunksInserted then
      some ({ s with vectors := s.vectors.insert t (runs t).vectorRows }.enter t .vectorsInserted)
    else none
  | .updateDocument t =>
    if (s.phases t = .vectorsInserted ∨ s.phases t = .vectorsDeleted ∧ (runs t).chunks = []) ∧
        s.lock = none then
      let lock := if s.document.deleted then none else some (t, (runs t).success s.document)
      some ({ s with lock }.enter t .documentUpdated)
    else none
  | .commit t =>
    if s.phases t = .documentUpdated then
      let log := { s.log with committed := s.log.committed ++ [t] }
      match s.lock with
      | some (holder, row) =>
        if holder = t then some ({ s with log, document := row, lock := none }.enter t .committed)
        else some ({ s with log }.enter t .committed)
      | none => some ({ s with log }.enter t .committed)
    else none
  | .rollback t =>
    if (s.phases t).running = true then
      let log := { s.log with aborted := t :: s.log.aborted }
      let lock := s.lock.filter fun held => held.1 ≠ t
      some ({ s with log, lock }.enter t .rolledBack)
    else none

/-- The tables before the first of the transactions. -/
def initial (document : DocumentRow) (chunks : List ChunkRow) (vectors : List VectorRow) : State T where
  document
  chunks := chunks.map fun row => { row }
  vectors := vectors.map fun row => { row }

namespace State

def chunksOf (s : State T) (docId : Str) : List ChunkRow :=
  (s.chunks.contents s.log).filter fun row => row.docId = docId

def vectorsOf (s : State T) (docId : Str) : List VectorRow :=
  (s.vectors.contents s.log).filter fun row => row.docId = docId

/-- The rows of the document are those of one of the calls, and it counts them. -/
def OneRun (s : State T) : Prop :=
  ∃ t, s.phases t = .committed ∧ s.chunksOf docId = (runs t).chunkRows ∧
    s.vectorsOf docId = (runs t).vectorRows ∧ s.document.chunkCount = (s.chunksOf docId).length

end State

/-- Of a call that leaves rows and is not the last to commit, some committed call deletes the chunks
after it has committed, and some deletes the vectors. -/
def Ordered (es : List (Event T)) : Prop :=
  ∀ i k, Precedes es (.commit i) (.commit k) → (runs i).chunks ≠ [] →
    (∃ j, .commit j ∈ es ∧ Precedes es (.commit i) (.deleteChunks j)) ∧
      ∃ j, .commit j ∈ es ∧ Precedes es (.commit i) (.deleteVectors j)

end HeyeeAgent.Knowledge.ReplaceStatements
