import HeyeeAgent.Knowledge.DocumentRows
import HeyeeAgent.Python.StrMethods
import HeyeeAgent.Rag.RetrievalPipeline
import HeyeeAgent.Ranking.Best

/-! # The search channels

The directed, the keyword and the global search over the tables of the knowledge bases. Every query
runs in a snapshot of its own, and an embedding or a query may fail. The index of the vectors is an
approximate one, so an answer may lack rows; how text is matched and ranked is left open.
-/

namespace HeyeeAgent.Rag.SearchChannels

open Python Knowledge RetrievalPipeline

section Tables

/-- A row of `t_knowledge_base`. -/
structure KnowledgeBaseRow where
  id : Str
  collectionName : Str
  embeddingModel : Option Str := none
  deleted : Bool := false

structure Tables where
  db : Database
  knowledgeBases : List KnowledgeBaseRow

structure KnowledgeBaseEmbedding where
  kbId : Str
  collectionName : Str
  embeddingModel : Option Str

def KnowledgeBaseRow.embedding (row : KnowledgeBaseRow) : KnowledgeBaseEmbedding where
  kbId := row.id
  collectionName := row.collectionName
  embeddingModel := (row.embeddingModel.map Str.strip).filter (· ≠ [])

/-- The first of the rows that the statement selects. -/
def Tables.findKnowledgeBase (tables : Tables) (collectionName : Str) :
    Option KnowledgeBaseEmbedding :=
  (tables.knowledgeBases.find? fun row =>
    row.collectionName = collectionName ∧ row.deleted = false).map KnowledgeBaseRow.embedding

/-- In the order of their identifiers, by the collation of the database. -/
def Tables.listKnowledgeBases (tables : Tables) (collation : Str → Str → Bool) :
    List KnowledgeBaseEmbedding :=
  let rows := tables.knowledgeBases.filter fun row => row.deleted = false
  (rows.mergeSort fun row other => collation row.id other.id).map KnowledgeBaseRow.embedding

/-- The document of a joined row: not deleted, enabled and chunked. -/
def searchableDocument (db : Database) (docId : Str) : Option DocumentRow :=
  (db.document docId).filter fun row => row.enabled && row.status = .success

/-- A joined row of the vector search. -/
structure Hit where
  vector : VectorRow
  chunk : ChunkRow
  document : DocumentRow

/-- What the vector search selects from, before its order and its limit. -/
def hits (db : Database) (kbId : Str) : List Hit :=
  (db.vectors.filter fun vector =>
      vector.kbId = kbId ∧ vector.deleted = false ∧ vector.enabled = true).flatMap fun vector =>
    (db.chunks.filter fun chunk =>
        chunk.id = vector.chunkId ∧ chunk.deleted = false ∧ chunk.enabled = true).flatMap fun chunk =>
      (searchableDocument db vector.docId).toList.map fun document => ⟨vector, chunk, document⟩

/-- A joined row of the keyword search. -/
structure KeywordHit where
  chunk : ChunkRow
  document : DocumentRow
  knowledgeBase : KnowledgeBaseRow

/-- What the keyword search selects from; `matched` says which contents the query is found in. -/
def keywordHits (matched : Str → Str → Bool) (tables : Tables) (query : Str) : List KeywordHit :=
  (tables.db.chunks.filter fun chunk =>
      chunk.deleted = false ∧ chunk.enabled = true ∧ matched chunk.content query = true).flatMap
    fun chunk =>
      (searchableDocument tables.db chunk.docId).toList.flatMap fun document =>
        (tables.knowledgeBases.filter fun row =>
          row.id = chunk.kbId ∧ row.deleted = false).map fun row => ⟨chunk, document, row⟩

end Tables

section Search

/-- The distance of two vectors, by their literals, and `1 - distance` of it. -/
structure Similarity where
  distance : Str → Str → PyFloat
  score : PyFloat → PyFloat
  number : ∀ distance, distance ≠ .nan → score distance ≠ .nan
  antitone : ∀ a b, a ≠ .nan → b ≠ .nan → a.rank ≤ b.rank → (score b).rank ≤ (score a).rank

/-- A search in one knowledge base, by its place among those of its channel. -/
inductive Call where
  | directed (place : ℕ)
  | global (place : ℕ)

/-- What the channels hear from the embedding service and from the database. -/
structure Outside where
  findKnowledgeBase : Call → Str → Except Str (Option KnowledgeBaseEmbedding)
  listKnowledgeBases : Except Str (List KnowledgeBaseEmbedding)
  /-- the literal of the vector of a query -/
  embed : Call → Str → Option Str → Except Str Str
  search : Call → (kbId queryVector : Str) → ℕ → Except Str (List Hit)
  keyword : Str → ℕ → Except Str (List KeywordHit)
  keywordScore : Str → Str → PyFloat

variable (sim : Similarity) (out : Outside)

def Hit.source (queryVector collectionName : Str) (hit : Hit) : RetrievedSource where
  id := some hit.vector.chunkId
  title := hit.document.docName
  content := hit.chunk.content
  score := some (sim.score (sim.distance hit.vector.embedding queryVector))
  sourceType := some hit.document.sourceType
  url := some hit.document.fileUrl
  collectionName := some collectionName

def KeywordHit.source (query : Str) (hit : KeywordHit) : RetrievedSource where
  id := some hit.chunk.id
  title := hit.document.docName
  content := hit.chunk.content
  score := some (out.keywordScore hit.chunk.content query)
  sourceType := some hit.document.sourceType
  url := some hit.document.fileUrl
  collectionName := some hit.knowledgeBase.collectionName

/-- `_search_knowledge_base` -/
def searchKnowledgeBase (call : Call) (query : Str) (base : KnowledgeBaseEmbedding) (topK : ℕ) :
    Except Str (List RetrievedSource) :=
  (out.embed call query base.embeddingModel).bind fun queryVector =>
    (out.search call base.kbId queryVector topK).map fun rows =>
      rows.map (Hit.source sim queryVector base.collectionName)

/-- `PgvectorRetriever.search` -/
def search (call : Call) (query : Str) (topK : ℤ) (collectionName : Option Str) :
    Except Str (List RetrievedSource) :=
  let cleanedQuery := query.strip
  let cleanedCollection := Str.strip (collectionName.getD [])
  if cleanedQuery = [] ∨ cleanedCollection = [] ∨ topK ≤ 0 then .ok []
  else
    (out.findKnowledgeBase call cleanedCollection).bind fun
      | none => .ok []
      | some base => searchKnowledgeBase sim out call cleanedQuery base topK.toNat

/-- `asyncio.gather` and the list of all results; the first error stands for the one that is raised. -/
def gather : List (Except Str (List RetrievedSource)) → Except Str (List RetrievedSource)
  | [] => .ok []
  | .error error :: _ => .error error
  | .ok sources :: results => (gather results).map (sources ++ ·)

/-- `search_many`, which names no collection -/
def searchMany (queries : List Str) (topK : ℤ) : Except Str (List RetrievedSource) :=
  let cleanedQueries := (queries.map Str.strip).filter (· ≠ [])
  gather (cleanedQueries.mapIdx fun place query => search sim out (.directed place) query topK none)

/-- `item.score or 0.0` -/
def scoreOrZero (source : RetrievedSource) : PyFloat := source.score.getD (.finite 0)

/-- What is left of the results when those that are exceptions are passed over. -/
def returned : Except Str (List RetrievedSource) → List RetrievedSource
  | .ok sources => sources
  | .error _ => []

def searchGlobal (sorting : FloatSort) (query : Str) (topK : ℤ) :
    Except Str (List RetrievedSource) :=
  let cleanedQuery := query.strip
  if cleanedQuery = [] ∨ topK ≤ 0 then .ok []
  else
    out.listKnowledgeBases.map fun knowledgeBases =>
      let results := knowledgeBases.mapIdx fun place base =>
        searchKnowledgeBase sim out (.global place) cleanedQuery base topK.toNat
      (sorting.run scoreOrZero (results.flatMap returned)).take topK.toNat

structure DirectedTask where
  subQuestion : Str
  topK : ℤ
  collectionName : Str

def directedTask (subQuestion : Str) (topK : ℤ) (score : NodeScore) : Option DirectedTask :=
  match score.node.kind, score.node.collectionName with
  | .kb, some (c :: collectionName) =>
    let nodeTopK := score.node.topK.getD 0
    some ⟨subQuestion, if nodeTopK = 0 then topK else nodeTopK, c :: collectionName⟩
  | _, _ => none

/-- `IntentDirectedRetriever.search` -/
def searchDirected (subIntents : List SubQuestionIntent) (fallbackQueries : List Str) (topK : ℤ) :
    Except Str (List RetrievedSource) :=
  match subIntents.flatMap fun subIntent =>
      subIntent.nodeScores.filterMap (directedTask subIntent.subQuestion topK) with
  | [] => searchMany sim out fallbackQueries topK
  | tasks =>
    gather (tasks.mapIdx fun place task =>
      search sim out (.directed place) task.subQuestion task.topK (some task.collectionName))

/-- `PostgresKeywordRetriever.search` -/
def searchKeyword (query : Str) (topK : ℤ) : Except Str (List RetrievedSource) :=
  let cleanedQuery := query.strip
  if cleanedQuery = [] ∨ topK ≤ 0 then .ok []
  else
    (out.keyword cleanedQuery topK.toNat).map fun rows =>
      rows.map (KeywordHit.source out cleanedQuery)

end Search

section Channels

structure RetrievalSettings where
  keywordEnabled : Bool
  globalVectorEnabled : Bool

variable (settings : RetrievalSettings) (sim : Similarity) (out : Outside) (sorting : FloatSort)

def intentDirectedSearchChannel : SearchChannel where
  name := .lit "intent_directed"
  isEnabled context := .ok (!context.subIntents.isEmpty)
  search context :=
    (searchDirected sim out context.subIntents context.fallbackQueries context.candidateTopK).map
      fun sources => ⟨.lit "intent_directed", sources, 0⟩

def keywordSearchChannel : SearchChannel where
  name := .lit "keyword"
  isEnabled _ := .ok settings.keywordEnabled
  search context :=
    (searchKeyword out context.question context.candidateTopK).map
      fun sources => ⟨.lit "keyword", sources, 0⟩

def globalVectorSearchChannel : SearchChannel where
  name := .lit "vector_global"
  isEnabled _ := .ok settings.globalVectorEnabled
  search context :=
    (searchGlobal sim out sorting context.question context.candidateTopK).map
      fun sources => ⟨.lit "vector_global", sources, 0⟩

/-- `get_multi_channel_retriever` -/
def getMultiChannelRetriever (rerank : Option RerankService) : MultiChannelRetriever :=
  multiChannelRetriever [intentDirectedSearchChannel sim out, keywordSearchChannel settings out,
    globalVectorSearchChannel settings sim out sorting] rerank

end Channels

section Merging

variable {sim : Similarity} {out : Outside} {snapshots : ℕ → Database} {query : Str} {topK : ℕ}

/-- How near a row is to the vector of the query. -/
def nearness (sim : Similarity) (queryVector : Str) (hit : Hit) : OrderDual (WithBot (WithTop ℚ)) :=
  OrderDual.toDual (sim.distance hit.vector.embedding queryVector).rank

def rankOf (source : RetrievedSource) : WithBot (WithTop ℚ) := (scoreOrZero source).rank

/-- The searches of the global channel that succeed are answered as by a scan of their snapshots, and
every distance is a number. -/
structure Exact (sim : Similarity) (out : Outside) (snapshots : ℕ → Database) (query : Str)
    (topK : ℕ) (knowledgeBases : List KnowledgeBaseEmbedding) : Prop where
  nearest : ∀ place base queryVector rows, knowledgeBases[place]? = some base →
    out.embed (.global place) query base.embeddingModel = .ok queryVector →
    out.search (.global place) base.kbId queryVector topK = .ok rows →
    Ranking.Best (nearness sim queryVector) topK (hits (snapshots place) base.kbId) rows
  numbers : ∀ place base queryVector, knowledgeBases[place]? = some base →
    out.embed (.global place) query base.embeddingModel = .ok queryVector →
    ∀ hit ∈ hits (snapshots place) base.kbId,
      sim.distance hit.vector.embedding queryVector ≠ .nan

/-- All that a search selects from, if it succeeds. -/
def selectable (sim : Similarity) (out : Outside) (snapshots : ℕ → Database) (query : Str) (topK : ℕ)
    (place : ℕ) (base : KnowledgeBaseEmbedding) : List RetrievedSource :=
  returned <| (out.embed (.global place) query base.embeddingModel).bind fun queryVector =>
    (out.search (.global place) base.kbId queryVector topK).map fun _ =>
      (hits (snapshots place) base.kbId).map (Hit.source sim queryVector base.collectionName)

/-- The nearer row has the higher score. -/
theorem covers_source {queryVector collectionName : Str} {pool rows : List Hit}
    (best : Ranking.Best (nearness sim queryVector) topK pool rows)
    (numbers : ∀ hit ∈ pool, sim.distance hit.vector.embedding queryVector ≠ .nan) :
    Ranking.Covers rankOf topK (pool.map (Hit.source sim queryVector collectionName))
      (rows.map (Hit.source sim queryVector collectionName)) := by
  apply Ranking.Covers.map
  apply best.covers.of_monotone
  intro a first b second farther
  exact sim.antitone _ _ (numbers b second) (numbers a first) (OrderDual.toDual_le_toDual.mp farther)

theorem covers_searchKnowledgeBase {knowledgeBases : List KnowledgeBaseEmbedding} {place : ℕ}
    {base : KnowledgeBaseEmbedding} (exactly : Exact sim out snapshots query topK knowledgeBases)
    (listed : knowledgeBases[place]? = some base) :
    Ranking.Covers rankOf topK (selectable sim out snapshots query topK place base)
      (returned (searchKnowledgeBase sim out (.global place) query base topK)) := by
  rw [selectable, searchKnowledgeBase]
  cases embedded : out.embed (.global place) query base.embeddingModel with
  | error error => exact Ranking.Covers.refl _ _ _
  | ok queryVector =>
    rw [Except.bind, Except.bind]
    cases answered : out.search (.global place) base.kbId queryVector topK with
    | error error => exact Ranking.Covers.refl _ _ _
    | ok rows =>
      exact covers_source (exactly.nearest place base queryVector rows listed embedded answered)
        (exactly.numbers place base queryVector listed embedded)

theorem score_of_searchKnowledgeBase {call : Call} {base : KnowledgeBaseEmbedding}
    {source : RetrievedSource}
    (member : source ∈ returned (searchKnowledgeBase sim out call query base topK)) :
    ∃ queryVector rows, out.embed call query base.embeddingModel = .ok queryVector ∧
      out.search call base.kbId queryVector topK = .ok rows ∧
      ∃ hit ∈ rows, source = hit.source sim queryVector base.collectionName := by
  rw [searchKnowledgeBase] at member
  cases embedded : out.embed call query base.embeddingModel with
  | error error =>
    rw [embedded] at member
    cases member
  | ok queryVector =>
    rw [embedded, Except.bind] at member
    cases answered : out.search call base.kbId queryVector topK with
    | error error =>
      rw [answered] at member
      cases member
    | ok rows =>
      rw [answered] at member
      obtain ⟨hit, listed, rfl⟩ := List.mem_map.mp member
      exact ⟨queryVector, rows, rfl, answered, hit, listed, rfl⟩

/-- The results of all searches, before they are sorted. -/
def merged (sim : Similarity) (out : Outside) (query : Str) (topK : ℕ)
    (knowledgeBases : List KnowledgeBaseEmbedding) : List RetrievedSource :=
  knowledgeBases.zipIdx.flatMap fun entry =>
    returned (searchKnowledgeBase sim out (.global entry.2) query entry.1 topK)

theorem number_of_merged {knowledgeBases : List KnowledgeBaseEmbedding} {source : RetrievedSource}
    (exactly : Exact sim out snapshots query topK knowledgeBases)
    (member : source ∈ merged sim out query topK knowledgeBases) : scoreOrZero source ≠ .nan := by
  obtain ⟨⟨base, place⟩, listed, here⟩ := List.mem_flatMap.mp member
  obtain ⟨queryVector, rows, embedded, answered, hit, chosen, rfl⟩ :=
    score_of_searchKnowledgeBase here
  have listed := List.mem_zipIdx_iff_getElem?.mp listed
  have best := exactly.nearest place base queryVector rows listed embedded answered
  apply sim.number
  exact exactly.numbers place base queryVector listed embedded hit (best.covers.subperm.subset chosen)

theorem covers_merged {knowledgeBases : List KnowledgeBaseEmbedding}
    (exactly : Exact sim out snapshots query topK knowledgeBases) :
    Ranking.Covers rankOf topK
      (knowledgeBases.zipIdx.flatMap fun entry =>
        selectable sim out snapshots query topK entry.2 entry.1)
      (merged sim out query topK knowledgeBases) := by
  apply Ranking.Covers.flatMap
  intro entry member
  exact covers_searchKnowledgeBase exactly (List.mem_zipIdx_iff_getElem?.mp member)

theorem searchGlobal_of_listed {sorting : FloatSort} {question : Str} {limit : ℤ}
    {knowledgeBases : List KnowledgeBaseEmbedding}
    (listed : out.listKnowledgeBases = .ok knowledgeBases) (asked : question.strip ≠ [])
    (positive : 0 < limit) :
    searchGlobal sim out sorting question limit =
      .ok ((sorting.run scoreOrZero (merged sim out question.strip limit.toNat knowledgeBases)).take
        limit.toNat) := by
  have results : (knowledgeBases.mapIdx fun place base =>
        searchKnowledgeBase sim out (.global place) question.strip base limit.toNat).flatMap
          returned = merged sim out question.strip limit.toNat knowledgeBases := by
    rw [List.mapIdx_eq_zipIdx_map, List.flatMap_map]
    rfl
  rw [searchGlobal, if_neg (by simp [asked, positive]), listed, ← results]
  rfl

/-- Vectors that are the same or not, with the exact difference. -/
def sameOrNot : Similarity where
  distance vector other := .finite (if vector = other then 0 else 1)
  score
    | .finite distance => .finite (1 - distance)
    | .infinity negative => .infinity !negative
    | .nan => .nan
  number distance number := by
    cases distance with
    | nan => exact absurd rfl number
    | _ => exact PyFloat.noConfusion
  antitone a b number other less := by
    cases a with
    | nan => exact absurd rfl number
    | infinity negative =>
      cases b with
      | nan => exact absurd rfl other
      | infinity negative' => cases negative <;> cases negative' <;> simp_all [PyFloat.rank]
      | finite value => cases negative <;> simp_all [PyFloat.rank]
    | finite value =>
      cases b with
      | nan => exact absurd rfl other
      | infinity negative => cases negative <;> simp_all [PyFloat.rank]
      | finite value' =>
        have less : value ≤ value' := by simpa [PyFloat.rank] using less
        have more : 1 - value' ≤ 1 - value := by linarith
        exact (PyFloat.le_iff_rank PyFloat.noConfusion PyFloat.noConfusion).mp (decide_eq_true more)

/-- A chunked document of two chunks. -/
def sampleIndex : Database :=
  let chunk (id : Str) (index : ℕ) : ChunkRow :=
    { id := id, kbId := .lit "kb-1", docId := .lit "doc-1", chunkIndex := index, content := id
      contentHash := [], charCount := 1, tokenCount := 1, enabled := true, createdBy := []
      updatedBy := [], deleted := false }
  let vector (id : Str) (index : ℕ) : VectorRow :=
    { id := id, kbId := .lit "kb-1", docId := .lit "doc-1", chunkId := id, chunkIndex := index
      embedding := id, metadata := [], enabled := true, createdBy := [], updatedBy := []
      deleted := false }
  { documents := fun docId =>
      if docId = .lit "doc-1" then
        some
          { kbId := .lit "kb-1", docName := .lit "manual.txt", fileUrl := .lit "s3://kb/doc.txt"
            fileType := .lit "txt", fileSize := none, status := .success
            sourceType := .lit "FILE", chunkStrategy := .lit "fixed_size", chunkConfig := none
            createdBy := none, updatedBy := none }
      else none
    chunks := [chunk (.lit "a") 0, chunk (.lit "b") 1]
    vectors := [vector (.lit "a") 0, vector (.lit "b") 1] }

def sampleBases : List KnowledgeBaseEmbedding :=
  [⟨.lit "kb-1", .lit "manuals", none⟩, ⟨.lit "kb-2", .lit "notes", some (.lit "down")⟩]

/-- The model of the second knowledge base does not answer. -/
def sampleOutside : Outside where
  findKnowledgeBase _ _ := .ok none
  listKnowledgeBases := .ok sampleBases
  embed _ query
    | none => .ok query
    | some _ => .error (.lit "model unavailable")
  search _ kbId _ topK := .ok ((hits sampleIndex kbId).take topK)
  keyword _ _ := .ok []
  keywordScore _ _ := .nan

theorem exact_sample : Exact sameOrNot sampleOutside (fun _ => sampleIndex) (.lit "a") 1 sampleBases where
  nearest place base queryVector rows listed embedded answered := by
    match place with
    | 0 =>
      cases listed
      cases embedded
      cases answered
      refine Ranking.best_take (Ranking.Covers.refl _ _ _) (List.Perm.refl _) ?_
      decide
    | 1 =>
      cases listed
      cases embedded
    | place + 2 => cases listed
  numbers place base queryVector listed embedded hit member := PyFloat.noConfusion

end Merging

end HeyeeAgent.Rag.SearchChannels
