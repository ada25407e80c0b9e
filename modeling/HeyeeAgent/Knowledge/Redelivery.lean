import HeyeeAgent.Knowledge.ChunkPipeline
import HeyeeAgent.Machine.Run

/-! # Redeliveries of a chunk message

The broker delivers a message again after `RECONSUME_LATER`, one delivery after the other. What a
failing attempt leaves is either as before or what a single successful delivery leaves, unless its
handler has marked the document as failed: from then on the gate of `process_message` refuses every
further delivery.
-/

namespace HeyeeAgent.Knowledge.Redelivery

open Python Python.JsonDecoder Machine

/-- The choices of one delivery: what it draws and how its calls end. -/
structure Attempt where
  draw : Draw
  endings : List Ending

/-- No call of the attempt fails. -/
def Attempt.clean (attempt : Attempt) : Bool := attempt.endings.all Ending.clean

structure Consumer where
  settings : Settings
  services : Services
  /-- `str` of a decoded value that is no string -/
  repr : Value → Str
  body : Str
  messageId : Option Str

namespace Consumer

variable (c : Consumer)

/-- One call of an attempt. -/
def step (message : KnowledgeChunkMessage) (draw : Draw) : Database × Phase → Ending →
    Option (Database × Phase)
  | (db, phase), ending => processMessage c.settings c.services message draw db phase ending

/-- The consumer callback on one delivery that is processed to its end. -/
def callback (db : Database) (attempt : Attempt) : Option (Database × ConsumeStatus) :=
  match readChunkMessage c.repr c.body c.messageId with
  | none => if attempt.endings = [] then some (db, .reconsumeLater) else none
  | some message =>
    (runFrom (c.step message attempt.draw) (db, .finding) attempt.endings).bind fun (db, phase) =>
      phase.answer.map fun status => (db, status)

/-- The tables after deliveries that were all answered with `RECONSUME_LATER`. -/
def redelivered : Database → List Attempt → Option Database
  | db, [] => some db
  | db, attempt :: attempts =>
    match c.callback db attempt with
    | some (db, .reconsumeLater) => redelivered db attempts
    | _ => none

/-- The update of the failure handler does not take effect. -/
def Unmarked : Database × Phase → Ending → Prop
  | (_, .markingDocumentFailed _ _), ending => ending.commits = false
  | _, _ => True

/-- No attempt marks the document as failed. -/
def Harmless (message : KnowledgeChunkMessage) : Database → List Attempt → Prop
  | _, [] => True
  | db, attempt :: attempts =>
    Along (c.step message attempt.draw) Unmarked (db, .finding) attempt.endings ∧
      ∀ after status, c.callback db attempt = some (after, status) → Harmless message after attempts

/-- The same status and count of the document, and the same chunks and vectors. -/
structure Same (docId : Str) (first second : Database) : Prop where
  status : first.status docId = second.status docId
  chunkCount : (first.document docId).map DocumentRow.chunkCount =
    (second.document docId).map DocumentRow.chunkCount
  chunks : first.chunks = second.chunks
  vectors : first.vectors = second.vectors

/-- The tables are as if the first delivery had succeeded, with some identifiers drawn. -/
def Recovered (docId : Str) (db final : Database) : Prop :=
  ∃ first success, first.clean = true ∧ c.callback db first = some (success, .consumeSuccess) ∧
    Same docId success final

section Outcomes

variable (message : KnowledgeChunkMessage) (db₀ : Database) (doc : KnowledgeDocumentForChunk)

/-- What `process_message` reads, up to the text of the document. -/
def fileBytes : List ℕ := c.services.read (orText message.fileUrl doc.fileUrl)

def text : Str := c.services.extractText (c.fileBytes message doc) doc.docName

def chunksOf (draw : Draw) : List TextChunk :=
  c.services.split draw.chunkIds (c.text message doc)
    (orText message.chunkStrategy doc.chunkStrategy) (orObject message.chunkConfig doc.chunkConfig)

def vectorsOf (draw : Draw) : List VectorChunk :=
  embedChunks c.services.embed doc.id doc.kbId (c.chunksOf message doc draw)

/-- The tables behind a replacement of the original chunks. -/
def outcome (draw : Draw) (ids : ℕ → Str) : Database :=
  replaceChunksAndVectorsAtomic db₀ doc (c.chunksOf message doc draw) (c.vectorsOf message doc draw)
    (requestedBy c.settings message) ids

/-- Nothing of what the next attempt reads or replaces has changed. -/
structure Untouched (db : Database) : Prop where
  documents : db.documents = db₀.documents
  chunks : db.chunks = db₀.chunks
  vectors : db.vectors = db₀.vectors

/-- The tables are those behind a replacement of the original chunks. -/
def Replaced (db : Database) : Prop :=
  ∃ draw ids, Same doc.id (c.outcome message db₀ doc draw ids) db

/-- What a harmless attempt leaves. -/
def Good (db : Database) : Prop := Untouched db₀ db ∨ c.Replaced message db₀ doc db

/-- The call of a phase works on the document with what the calls before it have answered. -/
def Fits (draw : Draw) (db : Database) : Phase → Prop
  | .finding | .raised _ => True
  | .insertingLog found | .reading found _ => found = doc
  | .extracting found bytes _ => found = doc ∧ bytes = c.fileBytes message doc
  | .splitting found text => found = doc ∧ text = c.text message doc
  | .embedding found chunks _ => found = doc ∧ chunks = c.chunksOf message doc draw
  | .replacing found chunks vectors _ =>
    found = doc ∧ chunks = c.chunksOf message doc draw ∧ vectors = c.vectorsOf message doc draw
  | .markingLogFailed found _ | .markingDocumentFailed found _ => found = doc
  | .markingLogSuccess found _ _ => found = doc ∧ c.Replaced message db₀ doc db
  | .returned _ => c.Replaced message db₀ doc db

end Outcomes

section Frames

variable {c : Consumer} {message : KnowledgeChunkMessage} {db₀ db db' : Database}
  {doc : KnowledgeDocumentForChunk}

theorem same_congr {docId : Str} {first : Database} (same : Same docId first db)
    (documents : db'.documents = db.documents) (chunks : db'.chunks = db.chunks)
    (vectors : db'.vectors = db.vectors) : Same docId first db' where
  status := by
    rw [same.status]
    simp only [Database.status, Database.document, documents]
  chunkCount := by
    rw [same.chunkCount]
    simp only [Database.document, documents]
  chunks := same.chunks.trans chunks.symm
  vectors := same.vectors.trans vectors.symm

theorem Replaced.congr (replaced : c.Replaced message db₀ doc db)
    (documents : db'.documents = db.documents) (chunks : db'.chunks = db.chunks)
    (vectors : db'.vectors = db.vectors) : c.Replaced message db₀ doc db' := by
  obtain ⟨draw, ids, same⟩ := replaced
  exact ⟨draw, ids, same_congr same documents chunks vectors⟩

theorem Good.congr (good : c.Good message db₀ doc db)
    (documents : db'.documents = db.documents) (chunks : db'.chunks = db.chunks)
    (vectors : db'.vectors = db.vectors) : c.Good message db₀ doc db' := by
  rcases good with untouched | replaced
  · exact .inl ⟨documents.trans untouched.documents, chunks.trans untouched.chunks,
      vectors.trans untouched.vectors⟩
  · exact .inr (replaced.congr documents chunks vectors)

theorem status_outcome {docId : Str} (found : findDocumentForChunk db₀ docId = some doc)
    (draw : Draw) (ids : ℕ → Str) :
    (c.outcome message db₀ doc draw ids).status doc.id = some .success := by
  obtain ⟨rfl, status⟩ := findDocumentForChunk_some found
  rw [outcome, status_replaceChunksAndVectorsAtomic, if_pos rfl, status]
  rfl

theorem status_of_replaced {docId : Str} (found : findDocumentForChunk db₀ docId = some doc)
    (replaced : c.Replaced message db₀ doc db) : db.status doc.id = some .success := by
  obtain ⟨draw, ids, same⟩ := replaced
  rw [← same.status, status_outcome found]

theorem status_of_untouched {docId : Str} (found : findDocumentForChunk db₀ docId = some doc)
    (untouched : Untouched db₀ db) : db.status doc.id = some doc.status := by
  obtain ⟨rfl, status⟩ := findDocumentForChunk_some found
  rw [← status]
  simp only [Database.status, Database.document, untouched.documents]

/-- A replacement leaves the same where the document is there and the other rows agree. -/
theorem same_replace {first second : Database} (chunks : List TextChunk)
    (vectors : List VectorChunk) (updatedBy : Str) (ids : ℕ → Str)
    (present : (first.document doc.id).isSome) (present' : (second.document doc.id).isSome)
    (sameChunks : (first.chunks.filter fun row => row.docId ≠ doc.id) =
      second.chunks.filter fun row => row.docId ≠ doc.id)
    (sameVectors : (first.vectors.filter fun row => row.docId ≠ doc.id) =
      second.vectors.filter fun row => row.docId ≠ doc.id) :
    Same doc.id (replaceChunksAndVectorsAtomic first doc chunks vectors updatedBy ids)
      (replaceChunksAndVectorsAtomic second doc chunks vectors updatedBy ids) := by
  obtain ⟨row, held⟩ := Option.isSome_iff_exists.mp present
  obtain ⟨row', held'⟩ := Option.isSome_iff_exists.mp present'
  constructor
  · rw [status_replaceChunksAndVectorsAtomic, status_replaceChunksAndVectorsAtomic, Database.status,
      Database.status, held, held', if_pos rfl, if_pos rfl]
    rfl
  · rw [chunkCount_replaceChunksAndVectorsAtomic, chunkCount_replaceChunksAndVectorsAtomic, held,
      held']
    rfl
  · rw [chunks_replaceChunksAndVectorsAtomic, chunks_replaceChunksAndVectorsAtomic, sameChunks]
  · rw [vectors_replaceChunksAndVectorsAtomic, vectors_replaceChunksAndVectorsAtomic, sameVectors]

theorem isSome_of_status {docId : Str} {status : DocumentStatus}
    (held : db.status docId = some status) :
    (db.document docId).isSome := by
  rw [← Database.status_isSome, held]
  rfl

theorem present_of_good {docId : Str} (found : findDocumentForChunk db₀ docId = some doc)
    (good : c.Good message db₀ doc db) : (db.document doc.id).isSome := by
  rcases good with untouched | replaced
  · exact isSome_of_status (status_of_untouched found untouched)
  · exact isSome_of_status (status_of_replaced found replaced)

/-- A replacement on good tables leaves what it leaves on the original ones. -/
theorem replaced_replace {docId : Str} (found : findDocumentForChunk db₀ docId = some doc)
    (good : c.Good message db₀ doc db) (draw : Draw) (ids : ℕ → Str) :
    c.Replaced message db₀ doc (replaceChunksAndVectorsAtomic db doc (c.chunksOf message doc draw)
      (c.vectorsOf message doc draw) (requestedBy c.settings message) ids) := by
  refine ⟨draw, ids, same_replace _ _ _ _ ?_ (present_of_good found good) ?_ ?_⟩
  · exact present_of_good found (.inl ⟨rfl, rfl, rfl⟩ : c.Good message db₀ doc db₀)
  · rcases good with untouched | ⟨draw, ids, same⟩
    · rw [untouched.chunks]
    · rw [← same.chunks, outcome, filter_chunks_replace]
  · rcases good with untouched | ⟨draw, ids, same⟩
    · rw [untouched.vectors]
    · rw [← same.vectors, outcome, filter_vectors_replace]

end Frames

section Steps

variable {c : Consumer} {message : KnowledgeChunkMessage} {db₀ db db' : Database}
  {doc : KnowledgeDocumentForChunk} {draw : Draw} {phase phase' : Phase} {ending : Ending}

theorem step_some (taken : c.step message draw (db, phase) ending = some (db', phase')) :
    phase.answer = none ∧
      db' = (if ending.commits then write c.settings message draw db phase else db) ∧
      phase' = next c.settings c.services message draw db phase ending := by
  simp only [step, processMessage] at taken
  split at taken
  case isTrue => cases taken
  case isFalse open_ =>
    rw [Option.some.injEq, Prod.mk.injEq] at taken
    exact ⟨by simpa using open_, taken.1.symm, taken.2.symm⟩

theorem fits_retry {attempt : ℕ} {again : ℕ → Phase} {error : Str}
    (fits : ∀ attempt, c.Fits message db₀ doc draw db (again attempt)) :
    c.Fits message db₀ doc draw db (retry c.settings doc attempt again error) := by
  unfold retry
  split
  · exact rfl
  · exact fits (attempt + 1)

theorem find_of_status {docId : Str} {status : DocumentStatus} (held : db.status docId = some status) :
    ∃ found, findDocumentForChunk db docId = some found ∧ found.status = status := by
  obtain ⟨row, present, rfl⟩ := Option.map_eq_some_iff.mp held
  exact ⟨_, congrArg (Option.map _) present, rfl⟩

/-- Good tables pass the gate as the original ones do, or are skipped. -/
theorem gate_good (found : findDocumentForChunk db₀ message.docId = some doc)
    (running : doc.status = .running) (good : c.Good message db₀ doc db) :
    gate message (findDocumentForChunk db message.docId) = .insertingLog doc ∨
      ((∃ result, gate message (findDocumentForChunk db message.docId) = .returned result) ∧
        c.Replaced message db₀ doc db) := by
  rcases good with untouched | replaced
  · have same : findDocumentForChunk db message.docId = some doc := by
      rw [← found]
      simp only [findDocumentForChunk, Database.document, untouched.documents]
    rw [same]
    simp only [gate, running]
    exact .inl trivial
  · have held := status_of_replaced found replaced
    rw [(findDocumentForChunk_some found).1] at held
    obtain ⟨again, looked, success⟩ := find_of_status held
    rw [looked]
    simp only [gate, success]
    exact .inr ⟨⟨_, rfl⟩, replaced⟩

/-- One call of an attempt that does not mark the document as failed. -/
theorem good_step (found : findDocumentForChunk db₀ message.docId = some doc)
    (running : doc.status = .running) (good : c.Good message db₀ doc db)
    (fits : c.Fits message db₀ doc draw db phase) (unmarked : Unmarked (db, phase) ending)
    (taken : c.step message draw (db, phase) ending = some (db', phase')) :
    c.Good message db₀ doc db' ∧ c.Fits message db₀ doc draw db' phase' := by
  obtain ⟨answer, rfl, rfl⟩ := step_some taken
  cases phase with
  | finding =>
    simp only [write, ite_self]
    refine ⟨good, ?_⟩
    cases ending with
    | raised error committed => trivial
    | returned =>
      simp only [next]
      rcases gate_good found running good with passes | ⟨⟨result, skips⟩, replaced⟩
      · rw [passes]
        exact rfl
      · rw [skips]
        exact replaced
  | insertingLog works =>
    obtain rfl := fits
    constructor
    · split
      · exact good.congr rfl rfl rfl
      · exact good
    · cases ending with
      | returned => exact rfl
      | raised error committed => trivial
  | reading works attempt =>
    obtain rfl := fits
    simp only [write, ite_self]
    refine ⟨good, ?_⟩
    cases ending with
    | returned => exact ⟨rfl, rfl⟩
    | raised error committed => exact fits_retry fun attempt => rfl
  | extracting works bytes attempt =>
    obtain ⟨rfl, rfl⟩ := fits
    simp only [write, ite_self]
    refine ⟨good, ?_⟩
    cases ending with
    | returned => exact ⟨rfl, rfl⟩
    | raised error committed => exact fits_retry fun attempt => ⟨rfl, rfl⟩
  | splitting works text =>
    obtain ⟨rfl, rfl⟩ := fits
    simp only [write, ite_self]
    refine ⟨good, ?_⟩
    cases ending with
    | returned => exact ⟨rfl, rfl⟩
    | raised error committed => exact rfl
  | embedding works chunks attempt =>
    obtain ⟨rfl, rfl⟩ := fits
    simp only [write, ite_self]
    refine ⟨good, ?_⟩
    cases ending with
    | returned => exact ⟨rfl, rfl, rfl⟩
    | raised error committed => exact fits_retry fun attempt => ⟨rfl, rfl⟩
  | replacing works chunks vectors attempt =>
    obtain ⟨rfl, rfl, rfl⟩ := fits
    have lengths : (c.chunksOf message works draw).length = (c.vectorsOf message works draw).length :=
      (length_embedChunks ..).symm
    have replaced := replaced_replace found good draw (draw.vectorIds attempt)
    constructor
    · split
      · simp only [write, lengths, if_true]
        exact .inr replaced
      · exact good
    · cases ending with
      | returned =>
        simp only [next, write, lengths, if_true, Ending.commits]
        exact ⟨rfl, replaced⟩
      | raised error committed => exact fits_retry fun attempt => ⟨rfl, rfl, rfl⟩
  | markingLogSuccess works chunks vectors =>
    obtain ⟨rfl, replaced⟩ := fits
    constructor
    · split
      · exact good.congr rfl rfl rfl
      · exact good
    · cases ending with
      | returned => exact replaced.congr rfl rfl rfl
      | raised error committed => exact rfl
  | markingLogFailed works error =>
    obtain rfl := fits
    constructor
    · split
      · exact good.congr rfl rfl rfl
      · exact good
    · cases ending with
      | returned => exact rfl
      | raised error committed => trivial
  | markingDocumentFailed works error =>
    have silent : ending.commits = false := unmarked
    simp only [silent, Bool.false_eq_true, if_false]
    refine ⟨good, ?_⟩
    cases ending with
    | returned => cases silent
    | raised error committed => trivial
  | returned result => cases answer
  | raised error => cases answer

end Steps

section Attempts

variable {c : Consumer} {message : KnowledgeChunkMessage} {db₀ db after : Database}
  {doc : KnowledgeDocumentForChunk} {attempt : Attempt} {phase : Phase}

/-- The handler has not been reached. -/
def Smooth : Phase → Prop
  | .markingLogFailed _ _ | .markingDocumentFailed _ _ | .raised _ => False
  | _ => True

theorem smooth_next {draw : Draw} (found : findDocumentForChunk db₀ message.docId = some doc)
    (running : doc.status = .running) (good : c.Good message db₀ doc db)
    (fits : c.Fits message db₀ doc draw db phase) (smooth : Smooth phase) :
    Smooth (next c.settings c.services message draw db phase .returned) := by
  cases phase with
  | finding =>
    simp only [next]
    rcases gate_good found running good with passes | ⟨⟨result, skips⟩, -⟩
    · rw [passes]
      trivial
    · rw [skips]
      trivial
  | replacing works chunks vectors attempt =>
    obtain ⟨rfl, rfl, rfl⟩ := fits
    have lengths : (c.chunksOf message works draw).length = (c.vectorsOf message works draw).length :=
      (length_embedChunks ..).symm
    simp only [next, lengths, if_true]
    trivial
  | markingLogFailed works error => cases smooth
  | markingDocumentFailed works error => cases smooth
  | raised error => cases smooth
  | _ => trivial

/-- An attempt without a failure leaves good tables replaced. -/
theorem replaced_of_clean (found : findDocumentForChunk db₀ message.docId = some doc)
    (running : doc.status = .running) (good : c.Good message db₀ doc db)
    (clean : attempt.clean = true)
    (run : runFrom (c.step message attempt.draw) (db, .finding) attempt.endings =
      some (after, phase))
    (answer : phase.answer.isSome) :
    c.Replaced message db₀ doc after ∧ phase.answer = some .consumeSuccess := by
  have start : (c.Good message db₀ doc db ∧ c.Fits message db₀ doc attempt.draw db .finding) ∧
      Smooth .finding := ⟨⟨good, trivial⟩, trivial⟩
  have kept : (c.Good message db₀ doc after ∧ c.Fits message db₀ doc attempt.draw after phase) ∧
      Smooth phase := by
    apply invariant_along (I := fun s : Database × Phase =>
      (c.Good message db₀ doc s.1 ∧ c.Fits message db₀ doc attempt.draw s.1 s.2) ∧ Smooth s.2)
      (C := fun _ ending => ending.clean = true) _ start
      (along_of_forall fun ending member _ => List.all_eq_true.mp clean ending member) run
    rintro ⟨db, phase⟩ ending ⟨db', phase'⟩ ⟨⟨good, fits⟩, smooth⟩ clean taken
    cases ending with
    | raised error committed => cases clean
    | returned =>
      have unmarked : Unmarked (db, phase) .returned := by
        cases phase <;> trivial
      refine ⟨good_step found running good fits unmarked taken, ?_⟩
      obtain ⟨-, -, rfl⟩ := step_some taken
      exact smooth_next found running good fits smooth
  cases phase with
  | returned result => exact ⟨kept.1.2, rfl⟩
  | raised error => cases kept.2
  | _ => cases answer

/-- An attempt leaves good tables good, or it marks the document as failed. -/
theorem good_or_failed (found : findDocumentForChunk db₀ message.docId = some doc)
    (running : doc.status = .running) (good : c.Good message db₀ doc db)
    (run : runFrom (c.step message attempt.draw) (db, .finding) attempt.endings =
      some (after, phase)) :
    (Along (c.step message attempt.draw) Unmarked (db, .finding) attempt.endings ∧
      c.Good message db₀ doc after) ∨
    (¬ Along (c.step message attempt.draw) Unmarked (db, .finding) attempt.endings ∧
      after.status doc.id = some .failed) := by
  have preserved : ∀ (s : Database × Phase) ending t,
      c.Good message db₀ doc s.1 ∧ c.Fits message db₀ doc attempt.draw s.1 s.2 →
      Unmarked s ending → c.step message attempt.draw s ending = some t →
      c.Good message db₀ doc t.1 ∧ c.Fits message db₀ doc attempt.draw t.1 t.2 :=
    fun s ending t kept unmarked taken =>
      good_step found running kept.1 kept.2 unmarked taken
  have start : c.Good message db₀ doc db ∧ c.Fits message db₀ doc attempt.draw db .finding :=
    ⟨good, trivial⟩
  by_cases along : Along (c.step message attempt.draw) Unmarked (db, .finding) attempt.endings
  · have kept := invariant_along preserved start along run
    exact .inl ⟨along, kept.1⟩
  · refine .inr ⟨along, ?_⟩
    obtain ⟨first, ending, rest, ⟨middle, held⟩, ⟨next, last⟩, -, before, smooth, marks, taken,
      rest'⟩ :=
      exists_break run along
    obtain ⟨good, fits⟩ := invariant_along preserved start smooth before
    obtain ⟨answer, rfl, rfl⟩ := step_some taken
    cases held with
    | markingDocumentFailed works error =>
      obtain rfl := fits
      have commits : ending.commits = true := by simpa [Unmarked] using marks
      have ended : rest = [] := by
        cases rest with
        | nil => rfl
        | cons more rest =>
          obtain ⟨u, more, -⟩ := runFrom_cons_some.mp rest'
          have open_ := (step_some more).1
          cases ending <;> cases open_
      subst ended
      cases rest'
      obtain ⟨row, held⟩ := Option.isSome_iff_exists.mp (present_of_good found good)
      simp only [commits, if_true, write]
      rw [status_markDocumentFailed, if_pos rfl, Database.status, held]
      rfl
    | _ => exact absurd trivial marks

/-- The gate refuses every later delivery of a failed document. -/
theorem unchanged_of_failed (failed : db.status message.docId = some .failed)
    (run : runFrom (c.step message attempt.draw) (db, .finding) attempt.endings =
      some (after, phase)) : after = db := by
  have kept : after = db ∧ (phase = .finding ∨ ∃ error, phase = .raised error) := by
    refine invariant_runFrom (I := fun s : Database × Phase =>
      s.1 = db ∧ (s.2 = .finding ∨ ∃ error, s.2 = .raised error)) ?_ ⟨rfl, .inl rfl⟩ run
    rintro ⟨held, phase⟩ ending ⟨db', phase'⟩ ⟨rfl, still⟩ taken
    obtain ⟨answer, rfl, rfl⟩ := step_some taken
    rcases still with rfl | ⟨error, rfl⟩
    · simp only [write, ite_self, true_and]
      refine .inr ?_
      cases ending with
      | raised error committed => exact ⟨error, rfl⟩
      | returned =>
        obtain ⟨again, looked, refused⟩ := find_of_status failed
        simp only [next, looked, gate, refused]
        exact ⟨_, rfl⟩
    · cases answer
  exact kept.1

end Attempts

section Callbacks

variable {c : Consumer} {message : KnowledgeChunkMessage} {db₀ db after : Database}
  {doc : KnowledgeDocumentForChunk} {attempt : Attempt} {status : ConsumeStatus}

theorem callback_some (read : readChunkMessage c.repr c.body c.messageId = some message) :
    c.callback db attempt = some (after, status) ↔
      ∃ phase, runFrom (c.step message attempt.draw) (db, .finding) attempt.endings =
        some (after, phase) ∧ phase.answer = some status := by
  simp only [callback, read, Option.bind_eq_some_iff, Option.map_eq_some_iff, Prod.exists,
    Prod.mk.injEq]
  constructor
  · rintro ⟨db', phase, run, status', answer, rfl, rfl⟩
    exact ⟨phase, run, answer⟩
  · rintro ⟨phase, run, answer⟩
    exact ⟨after, phase, run, status, answer, rfl, rfl⟩

/-- A first delivery without a failure, with given identifiers. -/
theorem callback_first (read : readChunkMessage c.repr c.body c.messageId = some message)
    (found : findDocumentForChunk db₀ message.docId = some doc) (running : doc.status = .running)
    (draw : Draw) (ids : ℕ → Str) :
    ∃ success, c.callback db₀ ⟨{ draw with vectorIds := fun _ => ids }, List.replicate 8 .returned⟩ =
        some (success, .consumeSuccess) ∧
      Same doc.id (c.outcome message db₀ doc draw ids) success := by
  let logged := insertChunkLog db₀
    { id := draw.logId
      docId := doc.id
      messageId := message.messageId
      processMode := doc.processMode
      chunkStrategy := doc.chunkStrategy
      pipelineId := draw.pipelineId }
  let replaced := replaceChunksAndVectorsAtomic logged doc (c.chunksOf message doc draw)
    (c.vectorsOf message doc draw) (requestedBy c.settings message) ids
  refine ⟨markChunkLogSuccess replaced draw.logId (c.chunksOf message doc draw).length, ?_, ?_⟩
  · rw [callback_some read]
    simp only [List.replicate, runFrom_cons, runFrom_nil, step, processMessage, Phase.answer,
      Option.isSome_none, Bool.false_eq_true, if_false, Option.bind_some, Ending.commits, if_true,
      write, next, gate, found, running, length_embedChunks]
    exact ⟨_, rfl, rfl⟩
  · have present : (db₀.document doc.id).isSome :=
      present_of_good found (.inl ⟨rfl, rfl, rfl⟩ : c.Good message db₀ doc db₀)
    have same : Same doc.id (c.outcome message db₀ doc draw ids) replaced :=
      same_replace _ _ _ _ present present rfl rfl
    exact same_congr same rfl rfl rfl

/-- Good tables that are replaced are what some first delivery leaves. -/
theorem recovered_of_replaced (read : readChunkMessage c.repr c.body c.messageId = some message)
    (found : findDocumentForChunk db₀ message.docId = some doc) (running : doc.status = .running)
    (replaced : c.Replaced message db₀ doc db) : c.Recovered doc.id db₀ db := by
  obtain ⟨draw, ids, same⟩ := replaced
  obtain ⟨success, called, left⟩ := callback_first read found running draw ids
  refine ⟨_, success, ?_, called, ?_, ?_, ?_, ?_⟩
  · rfl
  · exact left.status.symm.trans same.status
  · exact left.chunkCount.symm.trans same.chunkCount
  · exact left.chunks.symm.trans same.chunks
  · exact left.vectors.symm.trans same.vectors

/-- A first delivery without a failure succeeds. -/
theorem success_of_first (read : readChunkMessage c.repr c.body c.messageId = some message)
    (running : db.status message.docId = some .running) (clean : attempt.clean = true)
    (called : c.callback db attempt = some (after, status)) :
    after.status message.docId = some .success := by
  obtain ⟨doc, found, running⟩ := find_of_status running
  obtain ⟨same, -⟩ := findDocumentForChunk_some found
  obtain ⟨phase, run, answer⟩ := (callback_some read).mp called
  have ended : phase.answer.isSome := by rw [answer]; rfl
  rw [← same]
  exact status_of_replaced found
    (replaced_of_clean found running (.inl ⟨rfl, rfl, rfl⟩) clean run ended).1

/-- A failed document stays failed. -/
theorem failed_of_redelivered (read : readChunkMessage c.repr c.body c.messageId = some message)
    {attempts : List Attempt} (failed : db.status message.docId = some .failed)
    (again : c.redelivered db attempts = some after) : after = db := by
  induction attempts generalizing db with
  | nil =>
    cases again
    rfl
  | cons attempt attempts ih =>
    simp only [redelivered] at again
    split at again
    case h_2 => cases again
    case h_1 db' called =>
      obtain ⟨phase, run, -⟩ := (callback_some read).mp called
      obtain rfl := unchanged_of_failed failed run
      exact ih failed again

/-- The failing deliveries leave good tables good, or the document is failed for good. -/
theorem harmless_or_failed (read : readChunkMessage c.repr c.body c.messageId = some message)
    (found : findDocumentForChunk db₀ message.docId = some doc) (running : doc.status = .running)
    {attempts : List Attempt} (good : c.Good message db₀ doc db)
    (again : c.redelivered db attempts = some after) :
    (c.Harmless message db attempts ∧ c.Good message db₀ doc after) ∨
      (¬ c.Harmless message db attempts ∧ after.status doc.id = some .failed) := by
  induction attempts generalizing db with
  | nil =>
    cases again
    exact .inl ⟨trivial, good⟩
  | cons attempt attempts ih =>
    simp only [redelivered] at again
    split at again
    case h_2 => cases again
    case h_1 db' called =>
      obtain ⟨phase, run, -⟩ := (callback_some read).mp called
      rcases good_or_failed found running good run with ⟨along, good⟩ | ⟨marks, failed⟩
      · rcases ih good again with ⟨harmless, good⟩ | ⟨harmful, failed⟩
        · refine .inl ⟨⟨along, ?_⟩, good⟩
          intro other status called'
          rw [called, Option.some.injEq, Prod.mk.injEq] at called'
          rw [← called'.1]
          exact harmless
        · exact .inr ⟨fun harmless => harmful (harmless.2 _ _ called), failed⟩
      · obtain ⟨same, -⟩ := findDocumentForChunk_some found
        rw [same] at failed ⊢
        obtain rfl := failed_of_redelivered read failed again
        exact .inr ⟨fun harmless => marks harmless.1, failed⟩

end Callbacks

/-- After failing deliveries of a message for a running document, all answered with
`RECONSUME_LATER`, a delivery without a failure leaves what the first one would have left exactly if
no failing one has marked the document as failed. -/
theorem recovered_iff (c : Consumer) {message : KnowledgeChunkMessage}
    (read : readChunkMessage c.repr c.body c.messageId = some message)
    {db middle final : Database} (running : db.status message.docId = some .running)
    {failing : List Attempt} (failed : c.redelivered db failing = some middle)
    {last : Attempt} (clean : last.clean = true) {status : ConsumeStatus}
    (answered : c.callback middle last = some (final, status)) :
    c.Recovered message.docId db final ↔ c.Harmless message db failing := by
  have succeeds {first : Attempt} {after : Database} (clean : first.clean = true)
      (called : c.callback db first = some (after, .consumeSuccess)) :
      after.status message.docId = some .success := success_of_first read running clean called
  obtain ⟨doc, found, running⟩ := find_of_status running
  obtain ⟨same, -⟩ := findDocumentForChunk_some found
  have start : c.Good message db doc db := .inl ⟨rfl, rfl, rfl⟩
  obtain ⟨phase, run, answer⟩ := (callback_some read).mp answered
  have ended : phase.answer.isSome := by rw [answer]; rfl
  constructor
  · rintro ⟨first, success, clean', called, same'⟩
    rcases harmless_or_failed read found running start failed with ⟨harmless, -⟩ | ⟨-, dead⟩
    · exact harmless
    · exfalso
      rw [same] at dead
      obtain rfl := unchanged_of_failed dead run
      have succeeded := succeeds clean' called
      rw [same'.status, dead] at succeeded
      cases succeeded
  · intro harmless
    rcases harmless_or_failed read found running start failed with ⟨-, good⟩ | ⟨harmful, -⟩
    · rw [← same]
      exact recovered_of_replaced read found running
        (replaced_of_clean found running good clean run ended).1
    · exact absurd harmless harmful

section Runs

private def manual : Database where
  documents docId :=
    if docId = .lit "doc-1" then
      some
        { kbId := .lit "kb-1"
          docName := .lit "manual.txt"
          fileUrl := .lit "s3://kb/doc.txt"
          fileType := .lit "txt"
          fileSize := some 9
          status := .running
          sourceType := .lit "FILE"
          chunkStrategy := .lit "fixed_size"
          chunkConfig := none
          createdBy := none
          updatedBy := none }
    else none

/-- A consumer whose services make one chunk of a file. -/
private def plain : Consumer where
  settings := { chunkPipelineMaxRetries := 0 }
  services :=
    { read := fun _ => [97]
      extractText := fun bytes _ => bytes
      split := fun ids text _ _ => [⟨ids 0, 0, text, [], text.length, 1, []⟩]
      embed := fun _ => [.lit "0.1"] }
  repr _ := []
  body := .lit "\x7b\"docId\": \"doc-1\"\x7d"
  messageId := some (.lit "msg-1")

private def draw : Draw where
  pipelineId := .lit "pipeline"
  logId := .lit "log"
  chunkIds _ := .lit "chunk"
  vectorIds _ _ := .lit "vector"

private def sound : Attempt := ⟨draw, List.replicate 8 .returned⟩

/-- The log entry cannot be written. -/
private def unlogged : Attempt := ⟨draw, [.returned, .raised (.lit "connection lost") false]⟩

/-- The storage is down, and the handler marks the document. -/
private def unread : Attempt :=
  ⟨draw, [.returned, .returned, .raised (.lit "storage down") false, .returned, .returned]⟩

private theorem read_plain :
    ∃ message, readChunkMessage plain.repr plain.body plain.messageId = some message ∧
      message.docId = .lit "doc-1" := by
  have reads : (readChunkMessage plain.repr plain.body plain.messageId).any
      (fun message => message.docId = .lit "doc-1") = true := by decide +kernel
  obtain ⟨message, read, same⟩ := (Option.any_eq_true _ _).mp reads
  exact ⟨message, read, of_decide_eq_true same⟩

theorem unlogged_recovered :
    ∃ message middle final, plain.redelivered manual [unlogged, unlogged] = some middle ∧
      plain.callback middle sound = some (final, .consumeSuccess) ∧
      (plain.Recovered message.docId manual final ↔
        plain.Harmless message manual [unlogged, unlogged]) := by
  obtain ⟨message, read, same⟩ := read_plain
  have fails : (plain.redelivered manual [unlogged, unlogged]).any (fun middle =>
      (plain.callback middle sound).any fun answer => answer.2 = .consumeSuccess) = true := by
    decide +kernel
  obtain ⟨middle, failed, answers⟩ := (Option.any_eq_true _ _).mp fails
  obtain ⟨⟨final, status⟩, answered, success⟩ := (Option.any_eq_true _ _).mp answers
  obtain rfl : status = .consumeSuccess := of_decide_eq_true success
  have running : manual.status message.docId = some .running := by
    rw [same]
    decide
  exact ⟨message, middle, final, failed, answered,
    recovered_iff plain read running failed (by decide) answered⟩

/-- What is left of a delivery that the gate refuses. -/
private def refused : Attempt := ⟨draw, [.returned]⟩

theorem unread_not_recovered :
    ∃ middle final, manual.status (.lit "doc-1") = some .running ∧
      plain.redelivered manual [unread] = some middle ∧ refused.clean = true ∧
      plain.callback middle refused = some (final, .reconsumeLater) ∧
      final.status (.lit "doc-1") = some .failed ∧
      ¬ plain.Recovered (.lit "doc-1") manual final := by
  obtain ⟨message, read, same⟩ := read_plain
  have running : manual.status (.lit "doc-1") = some .running := by decide
  have ends : (plain.redelivered manual [unread]).any (fun middle =>
      (plain.callback middle refused).any fun answer =>
        answer.2 = .reconsumeLater ∧ answer.1.status (.lit "doc-1") = some .failed) = true := by
    decide +kernel
  obtain ⟨middle, failing, answers⟩ := (Option.any_eq_true _ _).mp ends
  obtain ⟨⟨final, status⟩, answered, lost⟩ := (Option.any_eq_true _ _).mp answers
  obtain ⟨rfl, failed⟩ : status = .reconsumeLater ∧ final.status (.lit "doc-1") = some .failed :=
    of_decide_eq_true lost
  refine ⟨middle, final, running, failing, rfl, answered, failed, ?_⟩
  rintro ⟨first, success, clean, called, left⟩
  rw [← same] at running failed left
  have succeeded := success_of_first read running clean called
  rw [left.status, failed] at succeeded
  cases succeeded

end Runs

end Consumer

end HeyeeAgent.Knowledge.Redelivery
