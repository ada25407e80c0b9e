import HeyeeAgent.Knowledge.DeletedRows
import HeyeeAgent.Knowledge.RowOrigin
import HeyeeAgent.Knowledge.SearchIndex
import HeyeeAgent.Rag.SearchChannels

/-! # What a retrieval shows of the documents

A retrieval while operations on the documents run side by side. Each of its queries reads a state of
the run, and what it shows is a chunk of a document that this state serves, also where the tables
hold rows without a document or vectors without a chunk.
-/

namespace HeyeeAgent.Rag.SearchChannels

open Python Machine Knowledge DocumentOperations RetrievalPipeline

section Reading

/-- What the database answers is read from these snapshots. -/
structure Outside.Reads (snapshots : Set Tables) (out : Outside) : Prop where
  find : ∀ call name base, out.findKnowledgeBase call name = .ok (some base) →
    ∃ tables ∈ snapshots, tables.findKnowledgeBase name = some base
  list : ∀ bases, out.listKnowledgeBases = .ok bases →
    ∃ tables ∈ snapshots, ∃ collation, bases = tables.listKnowledgeBases collation
  search : ∀ call kbId queryVector topK rows, out.search call kbId queryVector topK = .ok rows →
    ∃ tables ∈ snapshots, rows ⊆ hits tables.db kbId
  keyword : ∀ query topK rows, out.keyword query topK = .ok rows →
    ∃ tables ∈ snapshots, ∃ matched, rows ⊆ keywordHits matched tables query

/-- The source shows a chunk as the tables serve it, of a knowledge base that is not deleted. -/
structure Shows (tables others : Tables) (source : RetrievedSource) (chunk : ChunkRow)
    (document : DocumentRow) (base : KnowledgeBaseRow) : Prop where
  served : chunk ∈ tables.db.chunks ∧ chunk.deleted = false ∧ chunk.enabled = true
  searchable : tables.db.document chunk.docId = some document ∧ document.enabled = true ∧
    document.status = .success
  listed : base ∈ others.knowledgeBases ∧ base.deleted = false ∧ base.id = chunk.kbId
  id : source.id = some chunk.id
  title : source.title = document.docName
  content : source.content = chunk.content
  url : source.url = some document.fileUrl
  sourceType : source.sourceType = some document.sourceType
  collectionName : source.collectionName = some base.collectionName

def Shown (snapshots : Set Tables) (source : RetrievedSource) : Prop :=
  ∃ tables ∈ snapshots, ∃ others ∈ snapshots, ∃ chunk document base,
    Shows tables others source chunk document base

variable {snapshots : Set Tables} {owner : Str → Str} {sim : Similarity} {out : Outside}
  {source other : RetrievedSource} {results : List (Except Str (List RetrievedSource))}

/-- A snapshot in which the knowledge base is there. -/
def Listed (snapshots : Set Tables) (base : KnowledgeBaseEmbedding) : Prop :=
  ∃ tables ∈ snapshots, ∃ row ∈ tables.knowledgeBases, row.deleted = false ∧ row.embedding = base

theorem searchableDocument_some {db : Database} {docId : Str} {document : DocumentRow}
    (found : searchableDocument db docId = some document) :
    db.document docId = some document ∧ document.enabled = true ∧ document.status = .success := by
  obtain ⟨present, served⟩ := Option.filter_eq_some_iff.mp found
  rw [Bool.and_eq_true, decide_eq_true_eq] at served
  exact ⟨present, served⟩

theorem mem_hits {db : Database} {kbId : Str} {hit : Hit} (member : hit ∈ hits db kbId) :
    (hit.vector ∈ db.vectors ∧ hit.vector.kbId = kbId) ∧
      (hit.chunk ∈ db.chunks ∧ hit.chunk.id = hit.vector.chunkId ∧ hit.chunk.deleted = false ∧
        hit.chunk.enabled = true) ∧
      searchableDocument db hit.vector.docId = some hit.document := by
  obtain ⟨vector, listed, member⟩ := List.mem_flatMap.mp member
  obtain ⟨chunk, joined, member⟩ := List.mem_flatMap.mp member
  obtain ⟨document, found, rfl⟩ := List.mem_map.mp member
  obtain ⟨there, own⟩ := List.mem_filter.mp listed
  obtain ⟨present, same⟩ := List.mem_filter.mp joined
  exact ⟨⟨there, (of_decide_eq_true own).1⟩, ⟨present, of_decide_eq_true same⟩,
    Option.mem_toList.mp found⟩

theorem mem_keywordHits {matched : Str → Str → Bool} {tables : Tables} {query : Str}
    {hit : KeywordHit} (member : hit ∈ keywordHits matched tables query) :
    (hit.chunk ∈ tables.db.chunks ∧ hit.chunk.deleted = false ∧ hit.chunk.enabled = true) ∧
      searchableDocument tables.db hit.chunk.docId = some hit.document ∧
      hit.knowledgeBase ∈ tables.knowledgeBases ∧ hit.knowledgeBase.id = hit.chunk.kbId ∧
      hit.knowledgeBase.deleted = false := by
  obtain ⟨chunk, listed, member⟩ := List.mem_flatMap.mp member
  obtain ⟨document, found, member⟩ := List.mem_flatMap.mp member
  obtain ⟨base, joined, rfl⟩ := List.mem_map.mp member
  obtain ⟨there, kept⟩ := List.mem_filter.mp listed
  obtain ⟨deleted, enabled, -⟩ := of_decide_eq_true kept
  obtain ⟨present, same⟩ := List.mem_filter.mp joined
  exact ⟨⟨there, deleted, enabled⟩, Option.mem_toList.mp found, present, of_decide_eq_true same⟩

theorem Shown.alike (shown : Shown snapshots source) (alike : Alike source other) :
    Shown snapshots other := by
  obtain ⟨tables, during, others, during', chunk, document, base, shows⟩ := shown
  rw [Alike] at alike
  rw [alike]
  exact ⟨tables, during, others, during', chunk, document, base,
    { shows with
      id := shows.id
      title := shows.title
      content := shows.content
      url := shows.url
      sourceType := shows.sourceType
      collectionName := shows.collectionName }⟩

/-- A vector and its chunk belong to one document, so the join by the identifier is one by it too. -/
theorem shown_hit {tables : Tables} {base : KnowledgeBaseEmbedding} {queryVector : Str} {hit : Hit}
    (during : tables ∈ snapshots) (placed : tables.db.Placed owner) (listed : Listed snapshots base)
    (member : hit ∈ hits tables.db base.kbId) :
    Shown snapshots (hit.source sim queryVector base.collectionName) := by
  obtain ⟨⟨there, own⟩, ⟨present, same, kept⟩, found⟩ := mem_hits member
  obtain ⟨others, during', row, known, notDeleted, rfl⟩ := listed
  obtain ⟨drawn, base⟩ := placed.chunks hit.chunk present
  obtain ⟨drawn', base', -⟩ := placed.vectors hit.vector there
  have document : hit.chunk.docId = hit.vector.docId := by rw [← drawn, same, drawn']
  have kbId : hit.chunk.kbId = hit.vector.kbId := by
    rw [document, base', Option.some.injEq] at base
    exact base.symm
  refine ⟨tables, during, others, during', hit.chunk, hit.document, row, ⟨present, kept⟩, ?_,
    ⟨known, notDeleted, ?_⟩, ?_, rfl, rfl, rfl, rfl, rfl⟩
  · rw [document]
    exact searchableDocument_some found
  · rw [kbId, own]
    rfl
  · rw [same]
    rfl

theorem shown_searchKnowledgeBase (reads : out.Reads snapshots)
    (placed : ∀ tables ∈ snapshots, tables.db.Placed owner) {call : Call} {query : Str}
    {base : KnowledgeBaseEmbedding} {topK : ℕ} (listed : Listed snapshots base)
    (member : source ∈ returned (searchKnowledgeBase sim out call query base topK)) :
    Shown snapshots source := by
  obtain ⟨queryVector, rows, -, answered, hit, chosen, rfl⟩ := score_of_searchKnowledgeBase member
  obtain ⟨tables, during, inside⟩ := reads.search call base.kbId queryVector topK rows answered
  exact shown_hit during (placed tables during) listed (inside chosen)

theorem shown_search (reads : out.Reads snapshots)
    (placed : ∀ tables ∈ snapshots, tables.db.Placed owner) {call : Call} {query : Str} {topK : ℤ}
    {collectionName : Option Str}
    (member : source ∈ returned (search sim out call query topK collectionName)) :
    Shown snapshots source := by
  rw [search] at member
  split at member
  · cases member
  · cases found : out.findKnowledgeBase call (Str.strip (collectionName.getD [])) with
    | error error =>
      rw [found] at member
      cases member
    | ok base =>
      rw [found, Except.bind] at member
      cases base with
      | none => cases member
      | some base =>
        obtain ⟨tables, during, first⟩ := reads.find call _ base found
        obtain ⟨row, known, rfl⟩ := Option.map_eq_some_iff.mp first
        have kept := List.find?_some known
        rw [decide_eq_true_eq] at kept
        exact shown_searchKnowledgeBase reads placed
          ⟨tables, during, row, List.mem_of_find?_eq_some known, kept.2, rfl⟩ member

theorem mem_gather (member : source ∈ returned (gather results)) :
    ∃ result ∈ results, source ∈ returned result := by
  induction results with
  | nil => cases member
  | cons result results ih =>
    cases result with
    | error error => cases member
    | ok sources =>
      rw [gather] at member
      cases gathered : gather results with
      | error error =>
        rw [gathered] at member
        cases member
      | ok later =>
        rw [gathered] at member ih
        rcases List.mem_append.mp member with here | there
        · exact ⟨.ok sources, List.mem_cons_self, here⟩
        · obtain ⟨result, listed, inside⟩ := ih there
          exact ⟨result, List.mem_cons_of_mem _ listed, inside⟩

theorem shown_gather {ι : Type} {tasks : List ι} {query : ι → Str} {topK : ι → ℤ}
    {collectionName : ι → Option Str} (reads : out.Reads snapshots)
    (placed : ∀ tables ∈ snapshots, tables.db.Placed owner)
    (member : source ∈ returned (gather (tasks.mapIdx fun place task =>
      search sim out (.directed place) (query task) (topK task) (collectionName task)))) :
    Shown snapshots source := by
  obtain ⟨result, listed, inside⟩ := mem_gather member
  obtain ⟨place, bound, rfl⟩ := List.mem_mapIdx.mp listed
  exact shown_search reads placed inside

theorem shown_searchDirected (reads : out.Reads snapshots)
    (placed : ∀ tables ∈ snapshots, tables.db.Placed owner) {subIntents : List SubQuestionIntent}
    {fallbackQueries : List Str} {topK : ℤ}
    (member : source ∈ returned (searchDirected sim out subIntents fallbackQueries topK)) :
    Shown snapshots source := by
  rw [searchDirected] at member
  split at member
  · exact shown_gather reads placed member
  · exact shown_gather reads placed member

theorem shown_searchGlobal (reads : out.Reads snapshots)
    (placed : ∀ tables ∈ snapshots, tables.db.Placed owner) {sorting : FloatSort} {query : Str}
    {topK : ℤ} (member : source ∈ returned (searchGlobal sim out sorting query topK)) :
    Shown snapshots source := by
  rw [searchGlobal] at member
  split at member
  · cases member
  · cases found : out.listKnowledgeBases with
    | error error =>
      rw [found] at member
      cases member
    | ok bases =>
      rw [found] at member
      have sorted := (sorting.perm _ _).subset (List.mem_of_mem_take member)
      obtain ⟨result, listed, inside⟩ := List.mem_flatMap.mp sorted
      obtain ⟨place, bound, rfl⟩ := List.mem_mapIdx.mp listed
      obtain ⟨tables, during, collation, rfl⟩ := reads.list bases found
      obtain ⟨row, known, same⟩ := List.mem_map.mp (List.getElem_mem bound)
      obtain ⟨there, kept⟩ := List.mem_filter.mp ((List.mergeSort_perm _ _).subset known)
      exact shown_searchKnowledgeBase reads placed
        ⟨tables, during, row, there, of_decide_eq_true kept, same⟩ inside

theorem shown_searchKeyword (reads : out.Reads snapshots) {query : Str} {topK : ℤ}
    (member : source ∈ returned (searchKeyword out query topK)) : Shown snapshots source := by
  rw [searchKeyword] at member
  split at member
  · cases member
  · cases found : out.keyword query.strip topK.toNat with
    | error error =>
      rw [found] at member
      cases member
    | ok rows =>
      rw [found] at member
      obtain ⟨hit, listed, rfl⟩ := List.mem_map.mp member
      obtain ⟨tables, during, matched, inside⟩ := reads.keyword _ _ rows found
      obtain ⟨served, searchable, known, own, kept⟩ := mem_keywordHits (inside listed)
      exact ⟨tables, during, tables, during, hit.chunk, hit.document, hit.knowledgeBase, served,
        searchableDocument_some searchable, ⟨known, kept, own⟩, rfl, rfl, rfl, rfl, rfl, rfl⟩

theorem mem_returned {context : RetrievalContext} {channel : SearchChannel}
    {result : SearchChannelResult} {results : Except Str (List RetrievedSource)} {name : Str}
    (asks : channel.search context = results.map fun sources => ⟨name, sources, 0⟩)
    (found : channel.result context = some result) (member : source ∈ result.sources) :
    source ∈ returned results := by
  rw [SearchChannel.result, asks] at found
  cases results with
  | error error => cases found
  | ok sources =>
    cases found
    exact member

/-- A channel that returns has asked one of the searches. -/
theorem shown_channel (reads : out.Reads snapshots)
    (placed : ∀ tables ∈ snapshots, tables.db.Placed owner) {settings : RetrievalSettings}
    {sorting : FloatSort} {context : RetrievalContext} {channel : SearchChannel}
    {result : SearchChannelResult}
    (listed : channel ∈ [intentDirectedSearchChannel sim out, keywordSearchChannel settings out,
      globalVectorSearchChannel settings sim out sorting])
    (found : channel.result context = some result) (member : source ∈ result.sources) :
    Shown snapshots source := by
  simp only [List.mem_cons, List.not_mem_nil, or_false] at listed
  rcases listed with rfl | rfl | rfl
  · exact shown_searchDirected reads placed (mem_returned rfl found member)
  · exact shown_searchKeyword reads (mem_returned rfl found member)
  · exact shown_searchGlobal reads placed (mem_returned rfl found member)

/-- Whatever is left of the sources behind deduplication and reranking was returned by a channel. -/
theorem shown_retrieve (reads : out.Reads snapshots)
    (placed : ∀ tables ∈ snapshots, tables.db.Placed owner) {settings : RetrievalSettings}
    {sorting : FloatSort} {rerank : Option RerankService} {context : RetrievalContext}
    (member : source ∈
      (retrieve (getMultiChannelRetriever settings sim out sorting rerank) context).sources) :
    Shown snapshots source := by
  rw [getMultiChannelRetriever, sources_retrieve] at member
  obtain ⟨original, first, alike⟩ := (lawful_finished _ rerank context).provenance source member
  obtain ⟨before, result, after, split, -, -, found⟩ := first
  have returned_by : result ∈ channelResults [intentDirectedSearchChannel sim out,
      keywordSearchChannel settings out, globalVectorSearchChannel settings sim out sorting]
        context := by
    rw [split]
    exact List.mem_append_right _ List.mem_cons_self
  obtain ⟨channel, enabled, given⟩ := List.mem_filterMap.mp returned_by
  exact (shown_channel reads placed (List.mem_of_mem_filter enabled) given
    (List.mem_of_find?_eq_some found)).alike alike

end Reading

section Samples

/-- The answers that a scan of one snapshot gives; every text is found by every keyword. -/
def scanning (tables : Tables) : Outside where
  findKnowledgeBase _ name := .ok (tables.findKnowledgeBase name)
  listKnowledgeBases := .ok (tables.listKnowledgeBases fun _ _ => true)
  embed _ query _ := .ok query
  search _ kbId _ topK := .ok ((hits tables.db kbId).take topK)
  keyword query topK := .ok ((keywordHits (fun _ _ => true) tables query).take topK)
  keywordScore _ _ := .finite 1

theorem reads_scanning {tables : Tables} {snapshots : Set Tables} (during : tables ∈ snapshots) :
    (scanning tables).Reads snapshots where
  find call name base found := ⟨tables, during, Except.ok.inj found⟩
  list bases found := ⟨tables, during, _, (Except.ok.inj found).symm⟩
  search call kbId queryVector topK rows found := by
    cases found
    exact ⟨tables, during, List.take_subset ..⟩
  keyword query topK rows found := by
    cases found
    exact ⟨tables, during, fun _ _ => true, List.take_subset ..⟩

/-- Deliveries for one document only. -/
theorem along_oneDocument {N : Type} [DecidableEq N] {cfg : Settings} {s : State N} {docId : Str}
    {es : List (Event N)}
    (one : (es.all fun
      | .begin _ (.processMessage message _ _) => message.docId = docId
      | _ => true) = true) : Along (step cfg) (DrawsFor fun _ => docId) s es := by
  apply along_of_forall
  intro e member t
  have mine := List.all_eq_true.mp one e member
  cases e with
  | call n ending => trivial
  | begin n operation =>
    cases operation with
    | processMessage message outside draw => exact fun _ => (of_decide_eq_true mine).symm
    | _ => trivial

def manuals : KnowledgeBaseRow := { id := .lit "kb-1", collectionName := .lit "manuals" }

/-- A document is uploaded and chunked. -/
def chunkedManual : List (Event Unit) :=
  [.begin () (.upload
      { id := .lit "doc-1"
        kbId := .lit "kb-1"
        docName := .lit "manual.txt"
        fileUrl := .lit "s3://kb/doc.txt"
        fileType := .lit "txt"
        fileSize := some 9
        sourceType := .lit "FILE"
        sourceLocation := none
        chunkStrategy := .lit "fixed_size"
        chunkConfig := []
        createdBy := .lit "agent" }), .call () .returned,
    .begin () (.startChunking (.lit "doc-1")), .call () .returned, .begin () delivery] ++
    List.replicate 8 (.call () .returned)

theorem along_chunkedManual : Along (step {}) (DrawsFor fun _ => .lit "doc-1")
    (initial { documents := fun _ => none }) chunkedManual := along_oneDocument (by decide)

/-- A retrieval in the keyword and the global channel. -/
def retrieveIn (db : Database) : List RetrievedSource :=
  (retrieve (getMultiChannelRetriever ⟨true, true⟩ sameOrNot (scanning ⟨db, [manuals]⟩) .insertion none)
    { question := .lit "letter" }).sources

end Samples

section Runs

variable {N : Type} [DecidableEq N] {cfg : Settings} {s t : State N} {es fs : List (Event N)}
  {owner : Str → Str} {db : Database} {sim : Similarity} {out : Outside} {sorting : FloatSort}
  {settings : RetrievalSettings} {rerank : Option RerankService} {context : RetrievalContext}

/-- The tables in the states that a run passes; the knowledge bases may be any. -/
def During (cfg : Settings) (s : State N) (es : List (Event N)) : Set Tables :=
  { tables | ∃ first rest t, es = first ++ rest ∧ runFrom (step cfg) s first = some t ∧
    tables.db = t.db }

theorem placed_during {tables : Tables} (placed : Placed owner s)
    (along : Along (step cfg) (DrawsFor owner) s es) (during : tables ∈ During cfg s es) :
    tables.db.Placed owner := by
  obtain ⟨first, rest, t, rfl, run, same⟩ := during
  have reached := invariant_along (fun _ _ _ placed met taken => placed_step placed met taken)
    placed along.left run
  exact same ▸ reached.rows

/-- While any operations on documents run side by side, whatever a retrieval returns shows an enabled
chunk of a document that is enabled, chunked and not deleted, in a state that one of its queries has
read, and with the text, the title and the address of that state. -/
theorem retrieve_shows (rows : db.Placed owner)
    (along : Along (step cfg) (DrawsFor owner) (initial db) es)
    (reads : out.Reads (During cfg (initial db) es)) :
    ∀ source ∈ (retrieve (getMultiChannelRetriever settings sim out sorting rerank) context).sources,
      Shown (During cfg (initial db) es) source :=
  fun _ member => shown_retrieve reads
    (fun _ during => placed_during (placed_initial rows) along during) member

theorem retrieve_shows_chunkedManual :
    ∃ s : State Unit, runFrom (step {}) (initial { documents := fun _ => none }) chunkedManual =
      some s ∧ (retrieveIn s.db).length = 1 ∧ ∀ source ∈ retrieveIn s.db,
        Shown (During {} (initial { documents := fun _ => none }) chunkedManual) source := by
  have ends : ((runFrom (step {}) (initial { documents := fun _ => none }) chunkedManual).any
      fun s => decide ((retrieveIn s.db).length = 1)) = true := by decide +kernel
  obtain ⟨s, run, one⟩ := (Option.any_eq_true _ _).mp ends
  refine ⟨s, run, of_decide_eq_true one, ?_⟩
  apply retrieve_shows placed_empty along_chunkedManual
  exact reads_scanning ⟨chunkedManual, [], s, (List.append_nil _).symm, run, rfl⟩

theorem isDeleted_step {docId : Str} {e : Event N} (deleted : s.db.isDeleted docId = true)
    (taken : step cfg s e = some t) : t.db.isDeleted docId = true := by
  cases e with
  | begin n operation =>
    obtain ⟨-, same, -⟩ := step_begin taken
    exact same ▸ deleted
  | call n ending =>
    obtain ⟨task, -, -, -, after, -⟩ := step_call taken
    rw [after, called]
    split
    · rw [isDeleted_write, deleted, Bool.true_or]
    · exact deleted

/-- Behind the deletion of a document no retrieval returns one of its chunks, although rows of it may
come to the tables again. -/
theorem deleted_not_retrieved {docId : Str} (rows : db.Placed owner)
    (along : Along (step cfg) (DrawsFor owner) (initial db) (es ++ fs))
    (run : runFrom (step cfg) (initial db) es = some s) (deleted : s.db.isDeleted docId = true)
    (reads : out.Reads (During cfg s fs)) :
    ∀ source ∈ (retrieve (getMultiChannelRetriever settings sim out sorting rerank) context).sources,
      ∀ id ∈ source.id, owner id ≠ docId := by
  have placed : ∀ tables ∈ During cfg s fs, tables.db.Placed owner := by
    rintro tables ⟨first, rest, t, rfl, later, same⟩
    apply placed_during (placed_initial rows) along
    exact ⟨es ++ first, rest, t, by rw [List.append_assoc], runFrom_append_some.mpr ⟨s, run, later⟩,
      same⟩
  intro source member id named own
  obtain ⟨tables, during, others, during', chunk, document, base, shows⟩ :=
    shown_retrieve reads placed member
  obtain ⟨drawn, -⟩ := (placed tables during).chunks chunk shows.served.1
  obtain ⟨first, rest, t, -, later, same⟩ := during
  have still : t.db.isDeleted docId = true :=
    invariant_runFrom (fun _ _ _ deleted taken => isDeleted_step deleted taken) deleted later
  rw [shows.id, Option.mem_some_iff] at named
  have mine : chunk.docId = docId := by
    rw [← own, ← named, drawn]
  obtain ⟨present, kept⟩ := Database.document_of_mem shows.searchable.1
  rw [mine, same] at present
  rw [Database.isDeleted, present, Option.any_some, kept] at still
  cases still

/-- The document is deleted while it is chunked, and the rows come behind the deletion. -/
def deletedManual : List (Event (ℕ)) :=
  [.begin 0 (managing .deleteDocument), .call 0 .returned,
    .begin 1 (.startChunking (.lit "doc-1")), .call 1 .returned, .begin 2 delivery] ++
    List.replicate 6 (.call 2 .returned) ++ List.replicate 2 (.call 0 .returned)

theorem deleted_not_retrieved_deletedManual :
    ∃ s t : State (ℕ), runFrom (step {}) (initial manual) deletedManual = some s ∧
      s.db.isDeleted (.lit "doc-1") = true ∧
      runFrom (step {}) s (List.replicate 2 (.call 2 .returned)) = some t ∧
      t.db.chunks.length = 1 ∧ t.db.vectors.length = 1 ∧
      ∀ source ∈ retrieveIn t.db, ∀ id ∈ source.id, .lit "doc-1" ≠ Str.lit "doc-1" := by
  have ends : ((runFrom (step {}) (initial manual) deletedManual).any fun s =>
      s.db.isDeleted (.lit "doc-1") &&
        (runFrom (step {}) s (List.replicate 2 (.call 2 .returned))).any fun t =>
          decide (t.db.chunks.length = 1 ∧ t.db.vectors.length = 1)) = true := by decide +kernel
  obtain ⟨s, run, rest⟩ := (Option.any_eq_true _ _).mp ends
  obtain ⟨deleted, rest⟩ := Bool.and_eq_true_iff.mp rest
  obtain ⟨t, later, left⟩ := (Option.any_eq_true _ _).mp rest
  obtain ⟨chunks, vectors⟩ := of_decide_eq_true left
  refine ⟨s, t, run, deleted, later, chunks, vectors, ?_⟩
  have rows : manual.Placed fun _ => .lit "doc-1" :=
    ⟨fun _ member => absurd member List.not_mem_nil, fun _ member => absurd member List.not_mem_nil⟩
  have along : Along (step {}) (DrawsFor fun _ => .lit "doc-1") (initial manual)
      (deletedManual ++ List.replicate 2 (.call 2 .returned)) := along_oneDocument (by decide)
  apply deleted_not_retrieved rows along run deleted
  exact reads_scanning ⟨_, [], t, (List.append_nil _).symm, later, rfl⟩

end Runs

section Completeness

variable {db : Database} {docId : Str} {row : DocumentRow} {cfg : Settings} {owner : Str → Str}

theorem filter_key_eq {α κ : Type} [DecidableEq κ] {key : α → κ} {rows : List α} {a : α}
    (distinct : (rows.map key).Nodup) (member : a ∈ rows) :
    rows.filter (fun b => key b = key a) = [a] := by
  induction rows with
  | nil => cases member
  | cons b rows ih =>
    obtain ⟨fresh, distinct⟩ := List.nodup_cons.mp distinct
    rcases List.mem_cons.mp member with rfl | later
    · have others : rows.filter (fun b => key b = key a) = [] := by
        rw [List.filter_eq_nil_iff]
        intro b there
        rw [decide_eq_true_eq]
        exact fun same => fresh (same ▸ List.mem_map_of_mem there)
      rw [List.filter_cons_of_pos (by simp), others]
    · have differ : key b ≠ key a := fun same => fresh (same ▸ List.mem_map_of_mem later)
      rw [List.filter_cons_of_neg (by simpa using differ)]
      exact ih distinct later

/-- The chunks that a vector is joined with. -/
def joined (db : Database) (chunkId : Str) : List ChunkRow :=
  db.chunks.filter fun chunk => chunk.id = chunkId ∧ chunk.deleted = false ∧ chunk.enabled = true

theorem joined_id {chunk : ChunkRow} (unique : (db.chunks.map ChunkRow.id).Nodup)
    (member : chunk ∈ db.chunks) (served : chunk.deleted = false ∧ chunk.enabled = true) :
    joined db chunk.id = [chunk] := by
  rw [← filter_key_eq unique member]
  apply List.filter_congr
  intro other there
  rw [decide_eq_decide]
  refine ⟨And.left, fun same => ⟨same, ?_⟩⟩
  rw [List.inj_on_of_nodup_map unique there member same]
  exact served

theorem filter_flatMap_filter {α β : Type} {l : List α} {p own : α → Bool} {f g : α → List β}
    {q : β → Bool} (same : ∀ a ∈ l, (if p a then (f a).filter q else []) = if own a then g a else []) :
    ((l.filter p).flatMap f).filter q = (l.filter own).flatMap g := by
  induction l with
  | nil => rfl
  | cons a l ih =>
    obtain ⟨here, same⟩ := List.forall_mem_cons.mp same
    have ih := ih same
    cases first : p a <;> cases second : own a <;> simp_all [List.filter_append]

/-- The rows of the search that come from the vectors of one searchable document. -/
theorem hits_of_document (placed : db.Placed owner)
    (searchable : searchableDocument db docId = some row) :
    (hits db row.kbId).filter (fun hit => hit.vector.docId = docId) =
      (db.vectorsOf docId).flatMap fun vector =>
        (joined db vector.chunkId).map fun chunk => ⟨vector, chunk, row⟩ := by
  apply filter_flatMap_filter
  intro vector member
  obtain ⟨-, base, enabled, present⟩ := placed.vectors vector member
  by_cases own : vector.docId = docId
  · -- the vectors of a document are in its knowledge base
    rw [own, Database.baseOf_of_document (searchableDocument_some searchable).1,
      Option.some.injEq] at base
    rw [if_pos (decide_eq_true ⟨base.symm, present, enabled⟩), if_pos (decide_eq_true own), own,
      searchable, List.filter_eq_self.mpr]
    · exact List.map_eq_flatMap.symm
    · intro hit there
      obtain ⟨chunk, -, there⟩ := List.mem_flatMap.mp there
      rw [List.mem_singleton.mp there]
      exact decide_eq_true own
  · have other : ¬ decide (vector.docId = docId) = true := by simpa using own
    rw [if_neg other]
    split
    · rw [List.filter_eq_nil_iff]
      intro hit there
      obtain ⟨chunk, -, there⟩ := List.mem_flatMap.mp there
      obtain ⟨document, -, rfl⟩ := List.mem_map.mp there
      exact other
    · rfl

/-- What the searches find of a document that is searchable: every chunk once. -/
theorem chunks_of_hits (placed : db.Placed owner) (present : db.ChunksPresent)
    (unique : (db.chunks.map ChunkRow.id).Nodup)
    (searchable : searchableDocument db docId = some row) (index : db.Searchable docId) :
    (((hits db row.kbId).filter fun hit => hit.vector.docId = docId).map Hit.chunk).Perm
      (db.chunksOf docId) := by
  have ids : ((db.vectorsOf docId).map VectorRow.chunkId).Perm
      ((db.chunksOf docId).map ChunkRow.id) := by
    have firsts := index.vectors.map Prod.fst
    rw [List.map_map, List.map_map] at firsts
    exact firsts
  have single : ((db.chunksOf docId).map ChunkRow.id).flatMap (joined db) = db.chunksOf docId := by
    rw [List.flatMap_map]
    refine Eq.trans (List.flatMap_congr fun chunk member => ?_) (List.flatMap_singleton' _)
    have there := List.mem_of_mem_filter member
    exact joined_id unique there ⟨present chunk there, index.enabled chunk member⟩
  have chunks (vector : VectorRow) : ((joined db vector.chunkId).map fun chunk =>
      (⟨vector, chunk, row⟩ : Hit)).map Hit.chunk = joined db vector.chunkId := by
    rw [List.map_map]
    exact List.map_id _
  rw [hits_of_document placed searchable, List.map_flatMap]
  simp only [chunks]
  rw [← List.flatMap_map VectorRow.chunkId]
  exact (ids.flatMap_right _).trans (List.Perm.of_eq single)

theorem indexInv_initial : IndexInv (initial { documents := fun _ => none } : State Unit) where
  rows := ⟨fun _ member => absurd member List.not_mem_nil, fun n task found => by cases found⟩
  indexed docId row found := by cases found
  fits task found := by cases found

/-- While operations on documents run one after the other, a search that leaves nothing out finds every
chunk of every document that is enabled and chunked, once, from the first to the last. -/
theorem search_finds_document {es : List (Event Unit)} {s : State Unit}
    (along : Along (step cfg) (DrawsFor owner) (initial { documents := fun _ => none }) es)
    (run : runFrom (step cfg) (initial { documents := fun _ => none }) es = some s)
    (unique : (s.db.chunks.map ChunkRow.id).Nodup) {rows : List Hit}
    (all : rows.Perm (hits s.db row.kbId)) (found : s.db.document docId = some row)
    (enabled : row.enabled = true) (success : row.status = .success) :
    ((rows.filter fun hit => hit.vector.docId = docId).map Hit.chunk).Perm (s.db.chunksOf docId) ∧
      ((s.db.chunksOf docId).map ChunkRow.chunkIndex).Perm (List.range row.chunkCount) := by
  have inv : IndexInv s :=
    invariant_runFrom (fun _ _ _ inv taken => indexInv_step inv taken) indexInv_initial run
  have placed : Placed owner s :=
    invariant_along (fun _ _ _ placed met taken => placed_step placed met taken)
      (placed_initial placed_empty) along run
  obtain ⟨numbered, searchable⟩ := inv.indexed docId row found success
  have served : searchableDocument s.db docId = some row :=
    Option.filter_eq_some_iff.mpr ⟨found, by simp [enabled, success]⟩
  refine ⟨?_, numbered⟩
  exact ((all.filter _).map _).trans
    (chunks_of_hits placed.rows inv.rows.present unique served (searchable enabled))

theorem search_finds_document_chunkedManual :
    ∃ s row, runFrom (step {}) (initial { documents := fun _ => none }) chunkedManual = some s ∧
      s.db.document (.lit "doc-1") = some row ∧ row.chunkCount = 1 ∧
      (((hits s.db row.kbId).filter fun hit => hit.vector.docId = .lit "doc-1").map Hit.chunk).Perm
        (s.db.chunksOf (.lit "doc-1")) ∧
      ((s.db.chunksOf (.lit "doc-1")).map ChunkRow.chunkIndex).Perm (List.range row.chunkCount) := by
  have ends : ((runFrom (step {}) (initial { documents := fun _ => none }) chunkedManual).any
      fun s => decide ((s.db.chunks.map ChunkRow.id).Nodup) &&
        (s.db.document (.lit "doc-1")).any fun row =>
          decide (row.chunkCount = 1 ∧ row.enabled = true ∧ row.status = .success)) = true := by
    decide +kernel
  obtain ⟨s, run, rest⟩ := (Option.any_eq_true _ _).mp ends
  obtain ⟨unique, rest⟩ := Bool.and_eq_true_iff.mp rest
  obtain ⟨row, found, given⟩ := (Option.any_eq_true _ _).mp rest
  obtain ⟨count, enabled, success⟩ := of_decide_eq_true given
  exact ⟨s, row, run, found, count, search_finds_document along_chunkedManual run
    (of_decide_eq_true unique) (List.Perm.refl _) found enabled success⟩

end Completeness

end HeyeeAgent.Rag.SearchChannels
