import HeyeeAgent.Knowledge.OwnedFiles
import HeyeeAgent.Knowledge.WholeText

/-! # The text behind the chunks

From the upload to the tables: a delivery reads the file that was uploaded for its document, and what
it writes is cut from the text of that file. So the chunks of a document that was chunked are those of
one delivery, and the visible characters of its file are in them, in their order.
-/

namespace HeyeeAgent.Knowledge.DocumentFiles

open Python Machine Urls UrlUpload DocumentOperations

/-- A row shows a chunk. -/
structure Shows (row : ChunkRow) (chunk : TextChunk) : Prop where
  id : row.id = chunk.chunkId
  chunkIndex : row.chunkIndex = chunk.chunkIndex
  content : row.content = chunk.content
  contentHash : row.contentHash = chunk.contentHash
  charCount : row.charCount = chunk.charCount
  tokenCount : row.tokenCount = chunk.tokenCount

theorem shows_chunkRow (doc : KnowledgeDocumentForChunk) (updatedBy : Str) (chunk : TextChunk) :
    Shows (chunkRow doc updatedBy chunk) chunk := ⟨rfl, rfl, rfl, rfl, rfl, rfl⟩

theorem Shows.enableChunk {row : ChunkRow} {chunk : TextChunk} (same : Shows row chunk)
    (docId : Str) (enabled : Bool) (updatedBy : Str) :
    Shows (Knowledge.enableChunk docId enabled updatedBy row) chunk := by
  unfold Knowledge.enableChunk
  split
  · exact ⟨same.id, same.chunkIndex, same.content, same.contentHash, same.charCount,
      same.tokenCount⟩
  · exact same

section Deliveries

variable {settings : Settings} {db : Database} {u : Upload} {p : Processing}

/-- What a delivery has of the file of an upload at a call. -/
def Carried (u : Upload) (p : Processing) : Phase → Prop
  | .extracting _ fileBytes _ => fileBytes = u.bytes
  | .splitting doc text => text = p.outside.extractText u.bytes doc.docName
  | .embedding doc chunks _ | .replacing doc chunks _ _ =>
    p.outside.split p.draw.chunkIds (p.outside.extractText u.bytes doc.docName)
      (orText p.message.chunkStrategy doc.chunkStrategy)
      (orObject p.message.chunkConfig doc.chunkConfig) = some chunks
  | _ => True

theorem carried_retry {doc : KnowledgeDocumentForChunk} {attempt : ℕ} {again : ℕ → Phase}
    {error : Str} (carried : ∀ attempt, Carried u p (again attempt)) :
    Carried u p (retry settings doc attempt again error) := by
  rw [retry]
  split
  · trivial
  · exact carried _

/-- A call hands over what it makes of the file, if it reads the file. -/
theorem carried_next {ending : Ending} (carried : Carried u p p.phase)
    (goes : p.raises = true → ending.clean = false)
    (reads : ∀ doc attempt, p.phase = .reading doc attempt → ending = .returned →
      p.outside.read (orText p.message.fileUrl doc.fileUrl) = u.bytes) :
    Carried u p
      (Knowledge.next settings p.outside.services p.message p.draw db p.phase ending) := by
  cases phase : p.phase with
  | finding =>
    cases ending with
    | raised error committed => trivial
    | returned =>
      rw [Knowledge.next, gate.eq_def]
      split
      · trivial
      · split <;> trivial
  | reading doc attempt =>
    cases ending with
    | raised error committed => exact carried_retry fun _ => trivial
    | returned => exact reads doc attempt phase rfl
  | extracting doc fileBytes attempt =>
    rw [phase] at carried
    cases ending with
    | raised error committed => exact carried_retry fun _ => carried
    | returned =>
      obtain rfl : fileBytes = u.bytes := carried
      rfl
  | splitting doc text =>
    rw [phase] at carried
    obtain rfl : text = p.outside.extractText u.bytes doc.docName := carried
    cases ending with
    | raised error committed => trivial
    | returned =>
      simp only [Processing.raises, phase] at goes
      cases cut : p.outside.split p.draw.chunkIds (p.outside.extractText u.bytes doc.docName)
          (orText p.message.chunkStrategy doc.chunkStrategy)
          (orObject p.message.chunkConfig doc.chunkConfig) with
      | none =>
        rw [cut] at goes
        cases goes rfl
      | some chunks => simp only [Knowledge.next, Carried, Outside.services, cut, Option.getD_some]
  | embedding doc chunks attempt =>
    rw [phase] at carried
    cases ending with
    | raised error committed => exact carried_retry fun _ => carried
    | returned => exact carried
  | replacing doc chunks vectors attempt =>
    rw [phase] at carried
    cases ending with
    | raised error committed => exact carried_retry fun _ => carried
    | returned =>
      rw [Knowledge.next]
      split
      · trivial
      · exact carried_retry fun _ => carried
  | _ => cases ending <;> trivial

/-- A delivery of the run, and the upload behind the document that it has found -/
structure Traced (lib : Library) (cfg : UploadSettings)
    (begun : KnowledgeChunkMessage → Outside → Draw → Prop) (accepted : List Upload)
    (p : Processing) : Prop where
  begun : begun p.message p.outside p.draw
  upload : ∀ doc, Phase.doc p.phase = some doc → doc.id = p.message.docId ∧
    ∃ u ∈ accepted, u.documentId = doc.id ∧ doc.fileUrl = u.fileUrl lib cfg ∧ Carried u p p.phase

/-- Chunks that a delivery of the run has cut from the file of an upload -/
inductive CutFrom (begun : KnowledgeChunkMessage → Outside → Draw → Prop) (u : Upload)
    (chunks : List TextChunk) : Prop
  | intro (message : KnowledgeChunkMessage) (outside : Outside) (draw : Draw)
      (name strategy : Str) (config : Object) (known : begun message outside draw)
      (own : message.docId = u.documentId)
      (cut : outside.split draw.chunkIds (outside.extractText u.bytes name) strategy config =
        some chunks)

/-- The rows of a document show what was cut from its file, all of it. -/
def Indexed (begun : KnowledgeChunkMessage → Outside → Draw → Prop) (accepted : List Upload)
    (db : Database) (docId : Str) (row : DocumentRow) : Prop :=
  ∃ u ∈ accepted, u.documentId = docId ∧ ∃ chunks, CutFrom begun u chunks ∧
    List.Forall₂ Shows (db.chunksOf docId) chunks ∧ row.chunkCount = chunks.length

end Deliveries

section Steps

variable {lib : Library} {checks : HostChecks} {guessType : Str → Option Str} {cfg : UploadSettings}
  {settings : Settings} {find : Str → Option KnowledgeBaseSummary}
  {collectionName : Str → Option Str} {N : Type} [DecidableEq N] {s t : State N} {u : Upload}
  {begun : KnowledgeChunkMessage → Outside → Draw → Prop} {accepted later : List Upload}

/-- The delivery that reads its file, with the document -/
def reading : Task → Option (Processing × KnowledgeDocumentForChunk)
  | .processing p =>
    match p.phase with
    | .reading doc _ => some (p, doc)
    | _ => none
  | _ => none

theorem reading_of_phase {p : Processing} {doc : KnowledgeDocumentForChunk} {attempt : ℕ}
    (phase : p.phase = .reading doc attempt) : reading (.processing p) = some (p, doc) := by
  rw [reading, phase]

/-- Deliveries name no other file than that of their document, and the storage returns the object
that it has. -/
def ReadsStored (checks : HostChecks) (s : State N) : Event N → Prop
  | .document (.call n .returned) => ∀ delivery ∈ (s.tasks n).bind reading,
      orText delivery.1.message.fileUrl delivery.2.fileUrl = delivery.2.fileUrl ∧
      (downloadFileUrl checks delivery.2.fileUrl).bind (file s.world) =
        some (delivery.1.outside.read delivery.2.fileUrl)
  | _ => True

/-- Only deliveries that are known are begun. -/
def Begins (begun : KnowledgeChunkMessage → Outside → Draw → Prop) (_ : State N) : Event N → Prop
  | .document (.begin _ (.processMessage message outside draw)) => begun message outside draw
  | _ => True

structure Indexing (lib : Library) (cfg : UploadSettings)
    (begun : KnowledgeChunkMessage → Outside → Draw → Prop) (s : State N) : Prop where
  kept : Kept lib cfg s
  objects : ∀ object ∈ s.world.objects, ∃ u ∈ s.accepted, object = u.object
  own : ∀ n task, s.tasks n = some task → task.OwnVectors
  traced : ∀ n p, s.tasks n = some (.processing p) → Traced lib cfg begun s.accepted p
  indexed : ∀ docId row, s.world.db.document docId = some row → row.status = .success →
    Indexed begun s.accepted s.world.db docId row

omit [DecidableEq N] in
theorem indexing_empty : Indexing lib cfg begun (empty : State N) where
  kept := kept_empty
  objects object member := by cases member
  own n task found := by cases found
  traced n p found := by cases found
  indexed docId row found := by cases found

omit [DecidableEq N] in
/-- What is stored under the name of an upload is what was uploaded. -/
theorem Indexing.file_eq (ascii : lib.AsciiAlnum) (indexing : Indexing lib cfg begun s)
    (member : u ∈ s.accepted) {content : List ℕ} (found : file s.world u.name = some content) :
    content = u.bytes := by
  obtain ⟨object, stored, named, rfl⟩ := mem_of_file found
  obtain ⟨v, listed, rfl⟩ := indexing.objects object stored
  by_cases same : v = u
  · rw [same]
    rfl
  · exact absurd named (indexing.kept.name_ne ascii listed member same)

theorem Traced.mono {p : Processing} (traced : Traced lib cfg begun accepted p)
    (more : accepted ⊆ later) : Traced lib cfg begun later p where
  begun := traced.begun
  upload doc holds := by
    obtain ⟨own, u, member, rest⟩ := traced.upload doc holds
    exact ⟨own, u, more member, rest⟩

theorem Indexed.mono {db : Database} {docId : Str} {row : DocumentRow}
    (indexed : Indexed begun accepted db docId row) (more : accepted ⊆ later) :
    Indexed begun later db docId row := by
  obtain ⟨u, member, rest⟩ := indexed
  exact ⟨u, more member, rest⟩

theorem indexing_accept (bases : Bases find) (indexing : Indexing lib cfg begun s) {n : N}
    {incoming : Incoming} {draw : UrlUpload.Draw} (draws : Draws s (.accept n incoming draw))
    (taken : step lib checks guessType cfg settings find collectionName s (.accept n incoming draw) =
      some t) : Indexing lib cfg begun t := by
  obtain ⟨-, world, tasks, uploads, accepted⟩ := step_accept taken
  have more : s.accepted ⊆ t.accepted := accepted ▸ List.subset_append_left _ _
  refine ⟨kept_accept bases indexing.kept draws taken, ?_, tasks ▸ indexing.own, ?_, ?_⟩
  · rw [world]
    intro object member
    obtain ⟨u, listed, same⟩ := indexing.objects object member
    exact ⟨u, more listed, same⟩
  · rw [tasks]
    exact fun m p found => (indexing.traced m p found).mono more
  · rw [world]
    exact fun docId row found success => (indexing.indexed docId row found success).mono more

variable (lib cfg) in
/-- An upload puts its object or inserts its document, which waits to be chunked. -/
theorem call_cases (uploading : Uploading) (w : World) :
    (∀ object ∈ (uploading.call lib cfg w).2.objects, object ∈ w.objects ∨
      ∃ u, uploading.pending = some u ∧ object = u.object) ∧
      ((uploading.call lib cfg w).2.db = w.db ∨ ∃ record,
        (uploading.call lib cfg w).2.db = insertDocument w.db record) := by
  cases uploading with
  | ensuring u =>
    obtain ⟨db, objects⟩ := ensureBucket_world u.draw (bucketNameFor u.kb) w
    have after : ((Uploading.ensuring u).call lib cfg w).2 =
        (ensureBucket u.draw (bucketNameFor u.kb) w).2 := by
      rw [Uploading.call]
      split <;> simp_all
    rw [after, objects, db]
    exact ⟨fun object member => .inl member, .inl rfl⟩
  | putting u =>
    rw [Uploading.call]
    rcases put_cases lib cfg u w with ⟨failure, put⟩ | ⟨-, ⟨-, put⟩ | ⟨error, -, put⟩⟩
    · rw [put]
      exact ⟨fun object member => .inl member, .inl rfl⟩
    · rw [put]
      refine ⟨fun object member => ?_, .inl rfl⟩
      exact (List.mem_append.mp member).imp_right fun new => ⟨u, rfl, List.mem_singleton.mp new⟩
    · rw [put]
      refine ⟨fun object member => ?_, .inl rfl⟩
      exact (List.mem_append.mp member).imp_right fun new => ⟨u, rfl, List.mem_singleton.mp new⟩
  | inserting u stored =>
    rw [Uploading.call]
    rcases insert_cases lib cfg u stored w with ⟨outcome, record, insert, -⟩ | ⟨error, -, insert⟩
    · rw [insert]
      exact ⟨fun object member => .inl member, .inr ⟨record, rfl⟩⟩
    · rw [insert]
      exact ⟨fun object member => .inl member, .inl rfl⟩
  | ended outcome => exact ⟨fun object member => .inl member, .inl rfl⟩

theorem indexing_upload (ascii : lib.AsciiAlnum) (indexing : Indexing lib cfg begun s) {n : N}
    (taken : step lib checks guessType cfg settings find collectionName s (.upload n) = some t) :
    Indexing lib cfg begun t := by
  obtain ⟨uploading, found, -, world, tasks, -, accepted⟩ := step_upload taken
  obtain ⟨objects, tables⟩ := call_cases lib cfg uploading s.world
  rw [← world] at objects tables
  refine ⟨kept_upload ascii indexing.kept taken, ?_, tasks ▸ indexing.own,
    tasks ▸ accepted ▸ indexing.traced, ?_⟩
  · rw [accepted]
    intro object member
    rcases objects object member with old | ⟨u, pending, rfl⟩
    · exact indexing.objects object old
    · exact ⟨u, (indexing.kept.waiting n u ⟨uploading, found, pending⟩).1, rfl⟩
  · rw [accepted]
    rcases tables with same | ⟨record, inserted⟩
    · rw [same]
      exact indexing.indexed
    · rw [inserted]
      intro docId row present success
      rw [document_insertDocument] at present
      split_ifs at present with own
      · cases present
        cases success
      · exact indexing.indexed docId row present success

theorem forall₂_enableChunk {rows : List ChunkRow} {chunks : List TextChunk}
    (shown : List.Forall₂ Shows rows chunks) (docId : Str) (enabled : Bool) (updatedBy : Str) :
    List.Forall₂ Shows (rows.map (enableChunk docId enabled updatedBy)) chunks := by
  rw [List.forall₂_map_left_iff]
  exact shown.imp fun row chunk same => same.enableChunk docId enabled updatedBy

/-- A call leaves the rows of a document as they were, or it writes what a delivery has cut. -/
theorem indexed_write {db : Database} {task : Task} {docId : Str} {row : DocumentRow}
    (handed : ∀ record, task ≠ .uploading record) (own : task.OwnVectors)
    (traced : ∀ p, task = .processing p → Traced lib cfg begun accepted p)
    (indexed : ∀ row, db.document docId = some row → row.status = .success →
      Indexed begun accepted db docId row)
    (found : (task.write settings db).document docId = some row) (success : row.status = .success) :
    Indexed begun accepted (task.write settings db) docId row := by
  rcases document_write settings db task found with ⟨old, before, rfl⟩ | ⟨record, uploads, -⟩
  · have live := (Database.document_of_mem before).2
    cases rowsWritten settings db docId own with
    | untouched chunks vectors kept =>
      obtain ⟨-, keeps⟩ := kept old
      obtain ⟨succeeded, count⟩ := keeps success
      obtain ⟨u, member, named, cut, made, shown, counted⟩ := indexed old before succeeded
      exact ⟨u, member, named, cut, made, chunks ▸ shown, count.trans counted⟩
    | @replaced p doc chunks vectors attempt phase lengths same newChunks newVectors kept counted =>
      have holds : Phase.doc p.phase = some doc := by rw [phase, Phase.doc]
      have traced := traced p rfl
      obtain ⟨message, u, member, named, -, carried⟩ := traced.upload doc holds
      rw [phase] at carried
      refine ⟨u, member, named.trans same, chunks,
        .intro p.message p.outside p.draw _ _ _ traced.begun (message.symm.trans named.symm) carried,
        ?_, counted old live⟩
      rw [newChunks, List.forall₂_map_left_iff]
      exact List.forall₂_same.mpr fun chunk _ => shows_chunkRow doc _ chunk
    | deleted deletes => exact absurd found (not_document_of_deletes settings db task deletes)
    | @enabled m detail enabled vectors phase same flagged newVectors set kept =>
      obtain ⟨status, count⟩ := kept old
      obtain ⟨u, member, named, cut, made, shown, counted⟩ := indexed old before (status ▸ success)
      refine ⟨u, member, named, cut, made, ?_, count.trans counted⟩
      rw [flagged]
      exact forall₂_enableChunk shown docId enabled _
  · exact absurd uploads (handed record)

omit [DecidableEq N] in
/-- A delivery that goes on is still of the run, and has the file of its document. -/
theorem Traced.next (checks : HostChecks) (ascii : lib.AsciiAlnum) (unset : Private cfg)
    (indexing : Indexing lib cfg begun s) {n : N} {p : Processing} {ending : Ending}
    (found : s.tasks n = some (.processing p)) (goes : p.raises = true → ending.clean = false)
    (reads : ReadsStored checks s (.document (.call n ending))) :
    Traced lib cfg begun s.accepted { p with
      phase := Knowledge.next settings p.outside.services p.message p.draw s.world.db p.phase
        ending } where
  begun := (indexing.traced n p found).begun
  upload doc holds := by
    rcases doc_next holds with same | ⟨phase, read⟩
    · obtain ⟨own, u, member, named, url, carried⟩ := (indexing.traced n p found).upload doc same
      refine ⟨own, u, member, named, url, carried_next carried goes ?_⟩
      rintro read attempt phase rfl
      obtain rfl : read = doc := by
        rw [phase, Phase.doc] at same
        exact Option.some.inj same
      have delivery : (p, read) ∈ (s.tasks n).bind reading := by
        rw [found, Option.bind_some, reading_of_phase phase]
        rfl
      obtain ⟨same_file, stored⟩ := reads _ delivery
      have names := (reads_fileUrl checks ascii unset (indexing.kept.sound u member) none).1
      rw [same_file]
      dsimp only at stored
      rw [url, names, Option.bind_some, ← url] at stored
      exact indexing.file_eq ascii member stored
    · obtain ⟨row, present, rfl⟩ := Option.map_eq_some_iff.mp read
      obtain ⟨u, member, named, describes, -⟩ :=
        indexing.kept.rows _ row (Database.document_of_mem present).1
      refine ⟨rfl, u, member, named, describes.fileUrl, carried_next (phase ▸ trivial) goes ?_⟩
      intro doc attempt other
      cases phase.symm.trans other

theorem indexing_document (ascii : lib.AsciiAlnum) (unset : Private cfg)
    (indexing : Indexing lib cfg begun s) {e : DocumentOperations.Event N}
    (reads : ReadsStored checks s (.document e)) (begins : Begins begun s (.document e))
    (taken : step lib checks guessType cfg settings find collectionName s (.document e) = some t) :
    Indexing lib cfg begun t := by
  obtain ⟨w, after, stored, moved, world, tasks, -, accepted⟩ := step_document taken
  have db : t.world.db = after.db := by rw [world]
  have objects : t.world.objects = w.objects := by rw [world]
  suffices rest : (∀ n task, after.tasks n = some task → task.OwnVectors) ∧
      (∀ n p, after.tasks n = some (.processing p) → Traced lib cfg begun s.accepted p) ∧
      ∀ docId row, after.db.document docId = some row → row.status = .success →
        Indexed begun s.accepted after.db docId row by
    refine ⟨kept_document ascii unset indexing.kept taken, ?_, tasks ▸ rest.1,
      tasks ▸ accepted ▸ rest.2.1, db ▸ accepted ▸ rest.2.2⟩
    rw [objects, accepted]
    exact fun object member => indexing.objects object (mem_of_storage stored member)
  cases e with
  | begin n operation =>
    obtain ⟨-, same, begun_tasks⟩ := DocumentOperations.step_begin moved
    have at_place {m : N} {task : Task} (found : after.tasks m = some task) :
        task = operation.task ∨ s.tasks m = some task := by
      rw [begun_tasks] at found
      by_cases place : m = n
      · rw [place, Function.update_self] at found
        exact .inl (Option.some.inj found).symm
      · rw [Function.update_of_ne place] at found
        exact .inr found
    refine ⟨fun m task found => ?_, fun m p found => ?_, same ▸ indexing.indexed⟩
    · rcases at_place found with rfl | before
      · exact ownVectors_task operation
      · exact indexing.own m task before
    · rcases at_place found with new | before
      · cases operation with
        | processMessage message outside draw =>
          cases new
          exact ⟨begins, fun doc holds => by cases holds⟩
        | startChunking documentId =>
          rw [Operation.task] at new
          split at new <;> cases new
        | upload record => cases new
        | manage documentId request embed vectorIds => cases new
      · exact indexing.traced m p before
  | call n ending =>
    obtain ⟨task, found, -, goes, called_db, called_tasks⟩ := DocumentOperations.step_call moved
    have at_place {m : N} {next : Task} (there : after.tasks m = some next) :
        next = task.next settings s.world.db ending ∨ s.tasks m = some next := by
      rw [called_tasks] at there
      by_cases place : m = n
      · rw [place, Function.update_self] at there
        exact .inl (Option.some.inj there).symm
      · rw [Function.update_of_ne place] at there
        exact .inr there
    refine ⟨fun m next there => ?_, fun m p there => ?_, ?_⟩
    · rcases at_place there with rfl | before
      · exact ownVectors_next settings s.world.db task ending
      · exact indexing.own m next before
    · rcases at_place there with new | before
      · cases task with
        | processing q =>
          cases new
          exact Traced.next checks ascii unset indexing found goes reads
        | starting docId =>
          cases ending with
          | raised error committed => cases new
          | returned =>
            rw [Task.next] at new
            split at new <;> cases new
        | uploading record => cases ending <;> cases new
        | managing m => cases new
        | ended failure => cases new
      · exact indexing.traced m p before
    · rw [called_db, called]
      split
      · have handed (record : KnowledgeDocumentRecord) : task ≠ .uploading record :=
          fun same => indexing.kept.handed n record (same ▸ found)
        have traced (p : Processing) (same : task = .processing p) :
            Traced lib cfg begun s.accepted p := indexing.traced n p (same ▸ found)
        exact fun docId row present success => indexed_write handed (indexing.own n task found) traced
          (indexing.indexed docId) present success
      · exact indexing.indexed

theorem indexing_step (ascii : lib.AsciiAlnum) (unset : Private cfg) (bases : Bases find)
    (indexing : Indexing lib cfg begun s) {e : Event N} (draws : Draws s e)
    (reads : ReadsStored checks s e) (begins : Begins begun s e)
    (taken : step lib checks guessType cfg settings find collectionName s e = some t) :
    Indexing lib cfg begun t := by
  cases e with
  | accept n incoming draw => exact indexing_accept bases indexing draws taken
  | upload n => exact indexing_upload ascii indexing taken
  | document e => exact indexing_document ascii unset indexing reads begins taken

end Steps

section Results

variable {lib : Library} {checks : HostChecks} {guessType : Str → Option Str} {cfg : UploadSettings}
  {settings : Settings} {find : Str → Option KnowledgeBaseSummary}
  {collectionName : Str → Option Str} {N : Type} [DecidableEq N] {s : State N} {es : List (Event N)}

theorem content_of_forall₂ {rows : List ChunkRow} {chunks : List TextChunk}
    (shown : List.Forall₂ Shows rows chunks) :
    rows.map ChunkRow.content = chunks.map TextChunk.content := by
  induction shown with
  | nil => rfl
  | cons same _ ih => rw [List.map_cons, List.map_cons, same.content, ih]

/-- A reader that returns the letters that were uploaded -/
def lettersOutside : Outside where
  read _ := [72, 105, 32, 33]
  extractText fileBytes _ := fileBytes
  py := ChunkingService.asciiInterpreter
  embed _ := [.lit "0.1"]

/-- A file is uploaded and chunked. -/
def chunkedUpload : List (Event Bool) :=
  [.accept false (textRequest [[72, 105], [32, 33]]) manualDraw, .upload false, .upload false,
    .upload false, .document (.begin false (.startChunking manualDraw.documentId)),
    .document (.call false .returned),
    .document (.begin false
      (.processMessage { docId := manualDraw.documentId } lettersOutside
        { pipelineId := .lit "pipeline"
          logId := .lit "log"
          chunkIds := fun _ => .lit "chunk"
          vectorIds := fun _ _ => .lit "vector" }))] ++
    List.replicate 8 (.document (.call false .returned))

instance (s : State N) : DecidablePred (ReadsStored checks s)
  | .document (.call n .returned) => inferInstanceAs
      (Decidable (∀ delivery ∈ (s.tasks n).bind reading, _ ∧ _ = some _))
  | .document (.call _ (.raised _ _)) => inferInstanceAs (Decidable True)
  | .document (.begin _ _) => inferInstanceAs (Decidable True)
  | .accept _ _ _ => inferInstanceAs (Decidable True)
  | .upload _ => inferInstanceAs (Decidable True)

end Results

end HeyeeAgent.Knowledge.DocumentFiles
