import HeyeeAgent.InfraAi.ModelRequests
import HeyeeAgent.Rag.RetrievalPipeline

/-! # The clients for reranking

Both clients drop candidates with an id that came before. `NoopRerankClient` takes the first ones;
`BaiLianRerankClient` takes them in the order of its provider's results, and fills up with the others.
-/

namespace HeyeeAgent.InfraAi.Models

open Python Rag.RetrievalPipeline

section Code

/-- The loop of `_dedupe_chunks_by_id` -/
def dedupeFrom (seen : List Str) : List RetrievedChunk → List RetrievedChunk
  | [] => []
  | chunk :: chunks =>
    if Python.isIn chunk.id seen then dedupeFrom seen chunks
    else chunk :: dedupeFrom (chunk.id :: seen) chunks

def dedupeChunksById (candidates : List RetrievedChunk) : List RetrievedChunk :=
  dedupeFrom [] candidates

/-- The loop of `_backfill_rerank_results` -/
def backfillRerankResults (topN : ℤ) :
    List RetrievedChunk → List Str → List RetrievedChunk → List RetrievedChunk
  | reranked, _, [] => reranked
  | reranked, selectedIds, candidate :: candidates =>
    if Python.isIn candidate.id selectedIds then
      backfillRerankResults topN reranked selectedIds candidates
    else
      let reranked := reranked ++ [candidate]
      if topN ≤ reranked.length then reranked
      else backfillRerankResults topN reranked (candidate.id :: selectedIds) candidates

/-- A result that names a candidate, by its index, with the value of its score -/
structure Pick where
  index : ℕ
  source : RetrievedChunk
  scoreValue : Object

/-- `candidates[index]`, where the index is one of theirs -/
def candidateAt (candidates : List RetrievedChunk) (index : ℤ) : Option (ℕ × RetrievedChunk) :=
  if index < 0 ∨ (candidates.length : ℤ) ≤ index then none
  else candidates[index.toNat]?.map fun source => (index.toNat, source)

/-- What an item of the results names; others are passed by. `True` is an `int`. -/
def pickOf (candidates : List RetrievedChunk) (item : Object) : Option Pick :=
  match item with
  | .dict entries =>
    let named :=
      match Object.get entries (.lit "index") with
      | .int index => candidateAt candidates index
      | .bool index => candidateAt candidates index.toNat
      | _ => none
    named.map fun (index, source) =>
      ⟨index, source, Object.get entries (.lit "relevance_score")⟩
  | _ => none

/-- The candidate with the score of the result, or with its own if that is no number. -/
def Pick.chunk (pick : Pick) : Except ClientError RetrievedChunk :=
  match pick.scoreValue with
  | .bool value => .ok { pick.source with score := some (.finite (if value then 1 else 0)) }
  | .int value =>
    match PyFloat.ofRat value with
    | .finite score => .ok { pick.source with score := some (.finite score) }
    | _ => .error .conversion
  | .float score => .ok { pick.source with score := some score }
  | _ => .ok pick.source

/-- The loop over the results -/
def selectResults (candidates : List RetrievedChunk) (topN : ℤ) :
    List RetrievedChunk → List Str → List Object → Except ClientError (List RetrievedChunk)
  | reranked, selectedIds, [] => .ok (backfillRerankResults topN reranked selectedIds candidates)
  | reranked, selectedIds, item :: results =>
    match pickOf candidates item with
    | none => selectResults candidates topN reranked selectedIds results
    | some pick =>
      match pick.chunk with
      | .error error => .error error
      | .ok chunk =>
        let reranked := reranked ++ [chunk]
        if topN ≤ reranked.length then .ok reranked
        else selectResults candidates topN reranked (pick.source.id :: selectedIds) results

/-- `results` of a response -/
def resultsOf (repr : Object → Str) (data : Object) : Except ClientError (List Object) :=
  match responseObject "Rerank" repr data with
  | .error error => .error error
  | .ok entries =>
    match Object.get entries (.lit "output") with
    | .dict output =>
      match Object.get output (.lit "results") with
      | .list results => .ok results
      | _ => .error (.modelUnavailable (.lit "Rerank API response missing results"))
    | _ => .error (.modelUnavailable (.lit "Rerank API response missing output"))

def extractRerankedChunks (repr : Object → Str) (data : Object) (candidates : List RetrievedChunk)
    (topN : ℤ) : Except ClientError (List RetrievedChunk) :=
  match resultsOf repr data with
  | .error error => .error error
  | .ok results => selectResults candidates topN [] [] results

/-- `build_request_body` -/
def rerankRequestBody (target : ModelTarget) (query : Str) (candidates : List RetrievedChunk)
    (topN : ℤ) : Json := .obj [
  ("model", .text target.candidate.model),
  ("input", .obj [
    ("query", .str query),
    ("documents", .arr (candidates.map fun chunk => .str chunk.text))]),
  ("parameters", .obj [("top_n", .int topN), ("return_documents", .bool true)])]

def NoopRerankClient.rerank (candidates : List RetrievedChunk) (topN : ℤ) : List RetrievedChunk :=
  let deduped := dedupeChunksById candidates
  if topN ≤ 0 then [] else deduped.take topN.toNat

/-- The client with its transport, the timeout of the settings and `repr` -/
structure BaiLianRerankClient where
  post : HttpRequest → HttpReply
  timeoutSeconds : ℚ
  repr : Object → Str

namespace BaiLianRerankClient

/-- The response to the request for the candidates -/
def request (client : BaiLianRerankClient) (target : ModelTarget) (query : Str)
    (deduped : List RetrievedChunk) (topN : ℤ) : Except ClientError Object :=
  match target.provider.apiKey with
  | none | some [] => .error (.modelUnavailable (.lit "Rerank provider API key is not configured"))
  | some apiKey =>
    postJson "Rerank" client.post target (rerankRequestBody target query deduped topN)
      (some (.lit "Bearer " ++ apiKey)) (timeoutOf target client.timeoutSeconds)

def rerank (client : BaiLianRerankClient) (target : ModelTarget) (query : Str)
    (candidates : List RetrievedChunk) (topN : ℤ) : Except ClientError (List RetrievedChunk) :=
  let deduped := dedupeChunksById candidates
  if topN ≤ 0 ∨ deduped.isEmpty then .ok []
  else if (deduped.length : ℤ) ≤ topN then .ok deduped
  else
    match client.request target query deduped topN with
    | .error error => .error error
    | .ok data => extractRerankedChunks client.repr data deduped topN

end BaiLianRerankClient

end Code

/-- As many candidates as can be, each with another id, up to their scores. -/
structure Reranked (candidates : List RetrievedChunk) (topN : ℤ) (chunks : List RetrievedChunk) :
    Prop where
  count : (chunks.length : ℤ) =
    min (max topN 0) (candidates.map RetrievedChunk.id).toFinset.card
  distinct : (chunks.map RetrievedChunk.id).Nodup
  selected : ∀ chunk ∈ chunks, ∃ candidate ∈ candidates, { candidate with score := chunk.score } = chunk

section Deduplication

variable {seen : List Str} {candidates : List RetrievedChunk}

theorem mem_dedupeFrom {chunk : RetrievedChunk} (member : chunk ∈ dedupeFrom seen candidates) :
    chunk ∈ candidates ∧ chunk.id ∉ seen := by
  induction candidates generalizing seen with
  | nil => cases member
  | cons first candidates ih =>
    rw [dedupeFrom] at member
    split_ifs at member with known
    · exact (ih member).imp_left (List.mem_cons_of_mem first)
    · rw [Python.isIn_iff] at known
      rcases List.mem_cons.mp member with rfl | member
      · exact ⟨List.mem_cons_self, known⟩
      · obtain ⟨listed, fresh⟩ := ih member
        exact ⟨List.mem_cons_of_mem first listed, fun old => fresh (List.mem_cons_of_mem _ old)⟩

theorem nodup_dedupeFrom (seen : List Str) (candidates : List RetrievedChunk) :
    ((dedupeFrom seen candidates).map RetrievedChunk.id).Nodup := by
  induction candidates generalizing seen with
  | nil => exact List.nodup_nil
  | cons first candidates ih =>
    rw [dedupeFrom]
    split_ifs with known
    · exact ih seen
    · refine List.nodup_cons.mpr ⟨fun again => ?_, ih _⟩
      obtain ⟨chunk, member, same⟩ := List.mem_map.mp again
      exact (mem_dedupeFrom member).2 (same ▸ List.mem_cons_self)

theorem mem_ids_dedupeFrom {id : Str} : id ∈ (dedupeFrom seen candidates).map RetrievedChunk.id ↔
    id ∈ candidates.map RetrievedChunk.id ∧ id ∉ seen := by
  induction candidates generalizing seen with
  | nil => simp [dedupeFrom]
  | cons first candidates ih =>
    rw [dedupeFrom]
    split_ifs with known
    · rw [Python.isIn_iff] at known
      rw [ih, List.map_cons, List.mem_cons]
      refine and_congr_left fun fresh => (or_iff_right ?_).symm
      rintro rfl
      exact fresh known
    · rw [Python.isIn_iff] at known
      rw [List.map_cons, List.mem_cons, ih, List.map_cons, List.mem_cons, List.mem_cons, not_or]
      by_cases same : id = first.id
      · subst same
        exact iff_of_true (.inl rfl) ⟨.inl rfl, known⟩
      · simp [same]

theorem nodup_dedupe (candidates : List RetrievedChunk) :
    ((dedupeChunksById candidates).map RetrievedChunk.id).Nodup := nodup_dedupeFrom [] candidates

/-- As many candidates are left as there are different ids. -/
theorem length_dedupeChunksById (candidates : List RetrievedChunk) :
    (dedupeChunksById candidates).length = (candidates.map RetrievedChunk.id).toFinset.card := by
  have same : ((dedupeChunksById candidates).map RetrievedChunk.id).toFinset =
      (candidates.map RetrievedChunk.id).toFinset := by
    ext id
    rw [List.mem_toFinset, List.mem_toFinset, dedupeChunksById, mem_ids_dedupeFrom]
    exact and_iff_left List.not_mem_nil
  rw [← same, List.toFinset_card_of_nodup (nodup_dedupe candidates), List.length_map]

theorem mem_of_mem_dedupe {chunk : RetrievedChunk} (member : chunk ∈ dedupeChunksById candidates) :
    chunk ∈ candidates := (mem_dedupeFrom member).1

end Deduplication

section Backfill

variable {candidates reranked : List RetrievedChunk} {topN : ℤ}

/-- What is taken, filled up with candidates of other ids. -/
def filled (candidates : List RetrievedChunk) (topN : ℤ) (taken : List RetrievedChunk) :
    List RetrievedChunk :=
  taken ++ (candidates.filter fun candidate =>
    !isIn candidate.id (taken.map RetrievedChunk.id)).take (topN.toNat - taken.length)

/-- The next candidates whose ids are not selected fill up the list. -/
theorem backfillRerankResults_eq {selectedIds : List Str}
    (distinct : (candidates.map RetrievedChunk.id).Nodup) (room : (reranked.length : ℤ) < topN) :
    backfillRerankResults topN reranked selectedIds candidates = reranked ++
      (candidates.filter fun candidate => !isIn candidate.id selectedIds).take
        (topN.toNat - reranked.length) := by
  induction candidates generalizing reranked selectedIds with
  | nil =>
    rw [List.filter_nil, List.take_nil, List.append_nil]
    rfl
  | cons candidate candidates ih =>
    obtain ⟨other, distinct⟩ := List.nodup_cons.mp distinct
    rw [backfillRerankResults]
    split_ifs with selected
    · rw [ih distinct room, List.filter_cons_of_neg (by simpa using selected)]
    · have one : topN.toNat - reranked.length = topN.toNat - (reranked.length + 1) + 1 := by omega
      have size : (reranked ++ [candidate]).length = reranked.length + 1 := by simp
      rw [List.filter_cons_of_pos (by rwa [not_isIn_iff, ← isIn_iff]), one, List.take_succ_cons]
      dsimp only
      split_ifs with full
      · have none : topN.toNat - (reranked.length + 1) = 0 := by omega
        rw [none, List.take_zero]
      · -- the id that is selected now comes no second time
        have same : (candidates.filter fun c => !isIn c.id (candidate.id :: selectedIds)) =
            candidates.filter fun c => !isIn c.id selectedIds := by
          refine List.filter_congr fun c member => ?_
          have differs : c.id ≠ candidate.id := fun eq =>
            other (eq ▸ List.mem_map_of_mem (f := RetrievedChunk.id) member)
          rw [Bool.eq_iff_iff, not_isIn_iff, not_isIn_iff, List.mem_cons, or_iff_right differs]
        rw [ih distinct (by omega), size, same, List.append_assoc, List.singleton_append]

end Backfill

section Selection

variable {candidates reranked : List RetrievedChunk} {topN : ℤ}

/-- The first results that name candidates, as many as are wanted -/
def used (candidates : List RetrievedChunk) (topN : ℤ) (results : List Object) : List Pick :=
  (results.filterMap (pickOf candidates)).take topN.toNat

theorem getElem?_of_pickOf {item : Object} {pick : Pick} (named : pickOf candidates item = some pick) :
    candidates[pick.index]? = some pick.source := by
  have at_index {index : ℤ} {i : ℕ} {source : RetrievedChunk}
      (found : candidateAt candidates index = some (i, source)) : candidates[i]? = some source := by
    unfold candidateAt at found
    split_ifs at found
    obtain ⟨_, listed, ⟨⟩⟩ := Option.map_eq_some_iff.mp found
    exact listed
  unfold pickOf at named
  split at named
  · obtain ⟨⟨i, source⟩, found, rfl⟩ := Option.map_eq_some_iff.mp named
    split at found
    · exact at_index found
    · exact at_index found
    · cases found
  · cases named

/-- A result changes only the score of its candidate. -/
theorem eq_of_chunk {pick : Pick} {chunk : RetrievedChunk} (converted : pick.chunk = .ok chunk) :
    { pick.source with score := chunk.score } = chunk := by
  unfold Pick.chunk at converted
  split at converted
  · cases converted
    rfl
  · split at converted <;> cases converted
    rfl
  · cases converted
    rfl
  · cases converted
    rfl

theorem id_of_chunk {pick : Pick} {chunk : RetrievedChunk} (converted : pick.chunk = .ok chunk) :
    chunk.id = pick.source.id := by rw [← eq_of_chunk converted]

theorem exists_chunks_nil_iff {P : List RetrievedChunk → Prop} :
    (∃ chunks, List.Forall₂ (fun pick chunk => Pick.chunk pick = .ok chunk) [] chunks ∧ P chunks) ↔
      P [] := by
  constructor
  · rintro ⟨chunks, all, holds⟩
    rwa [List.forall₂_nil_left_iff.mp all] at holds
  · exact fun holds => ⟨[], .nil, holds⟩

/-- The first result decides the first chunk. -/
theorem exists_chunks_cons_iff {P : List RetrievedChunk → Prop} {pick : Pick} {picks : List Pick} :
    (∃ chunks, List.Forall₂ (fun pick chunk => Pick.chunk pick = .ok chunk) (pick :: picks) chunks ∧
        P chunks) ↔
      ∃ chunk, pick.chunk = .ok chunk ∧ ∃ chunks,
        List.Forall₂ (fun pick chunk => Pick.chunk pick = .ok chunk) picks chunks ∧
          P (chunk :: chunks) := by
  constructor
  · rintro ⟨chunks, all, holds⟩
    obtain ⟨chunk, rest, first, later, rfl⟩ := List.forall₂_cons_left_iff.mp all
    exact ⟨chunk, first, rest, later, holds⟩
  · rintro ⟨chunk, first, rest, later, holds⟩
    exact ⟨chunk :: rest, .cons first later, holds⟩

/-- The loop takes the first results that name candidates, and fills up. -/
theorem selectResults_ok_iff {selectedIds : List Str} {results : List Object}
    {chosen : List RetrievedChunk} (distinct : (candidates.map RetrievedChunk.id).Nodup)
    (room : (reranked.length : ℤ) < topN)
    (known : ∀ id, id ∈ selectedIds ↔ id ∈ reranked.map RetrievedChunk.id) :
    selectResults candidates topN reranked selectedIds results = .ok chosen ↔
      ∃ chunks, List.Forall₂ (fun pick chunk => Pick.chunk pick = .ok chunk)
        ((results.filterMap (pickOf candidates)).take (topN.toNat - reranked.length)) chunks ∧
        chosen = filled candidates topN (reranked ++ chunks) := by
  induction results generalizing reranked selectedIds with
  | nil =>
    rw [selectResults, backfillRerankResults_eq distinct room, List.filterMap_nil, List.take_nil]
    have same : (candidates.filter fun c => !isIn c.id selectedIds) =
        candidates.filter fun c => !isIn c.id (reranked.map RetrievedChunk.id) := by
      refine List.filter_congr fun c _ => ?_
      rw [Bool.eq_iff_iff, not_isIn_iff, not_isIn_iff, known]
    rw [same, Except.ok.injEq, exists_chunks_nil_iff, List.append_nil, filled]
    exact eq_comm
  | cons item results ih =>
    rw [selectResults]
    cases named : pickOf candidates item with
    | none =>
      rw [List.filterMap_cons_none named]
      exact ih room known
    | some pick =>
      have one : topN.toNat - reranked.length = topN.toNat - (reranked.length + 1) + 1 := by omega
      rw [List.filterMap_cons_some named, one, List.take_succ_cons, exists_chunks_cons_iff]
      dsimp only
      cases converted : pick.chunk with
      | error error => simp
      | ok chunk =>
        simp only [Except.ok.injEq, exists_eq_left']
        have size : (reranked ++ [chunk]).length = reranked.length + 1 := by simp
        split_ifs with full
        · have none : topN.toNat - (reranked.length + 1) = 0 := by omega
          have complete : filled candidates topN (reranked ++ [chunk]) = reranked ++ [chunk] := by
            rw [filled, size, none, List.take_zero, List.append_nil]
          rw [none, List.take_zero, exists_chunks_nil_iff, complete, Except.ok.injEq]
          exact eq_comm
        · have known' : ∀ id, id ∈ pick.source.id :: selectedIds ↔
              id ∈ (reranked ++ [chunk]).map RetrievedChunk.id := by
            intro id
            rw [List.mem_cons, known, List.map_append, List.mem_append, List.map_singleton,
              List.mem_singleton, id_of_chunk converted]
            exact or_comm
          rw [ih (by omega) known', size]
          simp only [List.append_assoc, List.singleton_append]

end Selection

section Law

variable {candidates taken : List RetrievedChunk} {topN : ℤ} {picks : List Pick}

/-- The candidates of other ids are those that remain. -/
theorem length_filter_others (distinct : (candidates.map RetrievedChunk.id).Nodup)
    (apart : (taken.map RetrievedChunk.id).Nodup)
    (listed : ∀ id ∈ taken.map RetrievedChunk.id, id ∈ candidates.map RetrievedChunk.id) :
    taken.length + (candidates.filter fun c => !isIn c.id (taken.map RetrievedChunk.id)).length =
      candidates.length := by
  have same : ((candidates.filter fun c => isIn c.id (taken.map RetrievedChunk.id)).map
      RetrievedChunk.id).Perm (taken.map RetrievedChunk.id) := by
    rw [List.perm_ext_iff_of_nodup (distinct.sublist (List.filter_sublist.map _)) apart]
    intro id
    constructor
    · intro member
      obtain ⟨c, found, rfl⟩ := List.mem_map.mp member
      exact isIn_iff.mp (List.mem_filter.mp found).2
    · intro member
      obtain ⟨c, found, rfl⟩ := List.mem_map.mp (listed id member)
      exact List.mem_map_of_mem (List.mem_filter.mpr ⟨found, isIn_iff.mpr member⟩)
  have size := same.length_eq
  have split := List.length_eq_length_filter_add (l := candidates)
    fun c => isIn c.id (taken.map RetrievedChunk.id)
  rw [List.length_map, List.length_map] at size
  omega

theorem length_filled (distinct : (candidates.map RetrievedChunk.id).Nodup)
    (apart : (taken.map RetrievedChunk.id).Nodup)
    (listed : ∀ id ∈ taken.map RetrievedChunk.id, id ∈ candidates.map RetrievedChunk.id)
    (few : taken.length ≤ topN.toNat) (enough : topN.toNat ≤ candidates.length) :
    (filled candidates topN taken).length = topN.toNat := by
  have others := length_filter_others distinct apart listed
  rw [filled, List.length_append, List.length_take]
  omega

/-- Filling up repeats no id. -/
theorem nodup_filled_iff (distinct : (candidates.map RetrievedChunk.id).Nodup) :
    ((filled candidates topN taken).map RetrievedChunk.id).Nodup ↔
      (taken.map RetrievedChunk.id).Nodup := by
  rw [filled, List.map_append, List.nodup_append']
  refine ⟨And.left, fun apart => ⟨apart, ?_, fun id before later => ?_⟩⟩
  · exact distinct.sublist (((List.take_sublist _ _).trans List.filter_sublist).map _)
  · obtain ⟨c, found, rfl⟩ := List.mem_map.mp later
    exact not_isIn_iff.mp (List.mem_filter.mp (List.mem_of_mem_take found)).2 before

theorem exists_chunks (converted : ∀ pick ∈ picks, ∃ chunk, pick.chunk = .ok chunk) :
    ∃ chunks, List.Forall₂ (fun pick chunk => Pick.chunk pick = .ok chunk) picks chunks := by
  induction picks with
  | nil => exact ⟨[], .nil⟩
  | cons pick picks ih =>
    obtain ⟨first, later⟩ := List.forall_mem_cons.mp converted
    obtain ⟨chunk, first⟩ := first
    obtain ⟨chunks, later⟩ := ih later
    exact ⟨chunk :: chunks, .cons first later⟩

theorem ids_of_chunks {chunks : List RetrievedChunk}
    (converted : List.Forall₂ (fun pick chunk => Pick.chunk pick = .ok chunk) picks chunks) :
    chunks.map RetrievedChunk.id = picks.map fun pick => pick.source.id := by
  induction converted with
  | nil => rfl
  | cons first _ ih => rw [List.map_cons, List.map_cons, id_of_chunk first, ih]

/-- Results with the same id have the same index. -/
theorem nodup_sources_iff (distinct : (candidates.map RetrievedChunk.id).Nodup)
    (named : ∀ pick ∈ picks, candidates[pick.index]? = some pick.source) :
    (picks.map fun pick => pick.source.id).Nodup ↔ (picks.map Pick.index).Nodup := by
  rw [List.Nodup, List.Nodup, List.pairwise_map, List.pairwise_map]
  refine List.Pairwise.iff_of_mem fun {pick other} first second => not_congr ?_
  obtain ⟨inside, at_index⟩ := List.getElem?_eq_some_iff.mp (named pick first)
  obtain ⟨inside', at_index'⟩ := List.getElem?_eq_some_iff.mp (named other second)
  rw [← at_index, ← at_index']
  have inside_map : pick.index < (candidates.map RetrievedChunk.id).length := by simpa using inside
  have inside_map' : other.index < (candidates.map RetrievedChunk.id).length := by
    simpa using inside'
  have same := @List.Nodup.getElem_inj_iff _ _ distinct _ inside_map _ inside_map'
  rwa [List.getElem_map, List.getElem_map] at same

/-- A candidate of another id for every place, up to the number of candidates -/
theorem reranked_dedupe (candidates : List RetrievedChunk) (topN : ℤ) :
    Reranked candidates topN ((dedupeChunksById candidates).take topN.toNat) := by
  refine ⟨?_, (nodup_dedupe candidates).sublist ((List.take_sublist _ _).map _),
    fun chunk member => ⟨chunk, mem_of_mem_dedupe (List.mem_of_mem_take member), rfl⟩⟩
  rw [List.length_take, ← length_dedupeChunksById]
  omega

theorem reranked_nil {candidates : List RetrievedChunk} (none : topN ≤ 0) :
    Reranked candidates topN [] := by
  have taken := reranked_dedupe candidates topN
  rwa [Int.toNat_eq_zero.mpr none, List.take_zero] at taken

theorem noop_reranked (candidates : List RetrievedChunk) (topN : ℤ) :
    Reranked candidates topN (NoopRerankClient.rerank candidates topN) := by
  unfold NoopRerankClient.rerank
  dsimp only
  split_ifs with none
  · exact reranked_nil none
  · exact reranked_dedupe candidates topN

/-- What the loop over the results returns repeats no candidate exactly if they name none twice. -/
theorem reranked_filled_iff {results : List Object} {chunks : List RetrievedChunk}
    (positive : 0 < topN) (many : topN < (dedupeChunksById candidates).length)
    (converted : List.Forall₂ (fun pick chunk => Pick.chunk pick = .ok chunk)
      (used (dedupeChunksById candidates) topN results) chunks) :
    Reranked candidates topN (filled (dedupeChunksById candidates) topN chunks) ↔
      ((used (dedupeChunksById candidates) topN results).map Pick.index).Nodup := by
  have distinct := nodup_dedupe candidates
  have named : ∀ pick ∈ used (dedupeChunksById candidates) topN results,
      (dedupeChunksById candidates)[pick.index]? = some pick.source := by
    intro pick member
    obtain ⟨item, -, found⟩ := List.mem_filterMap.mp (List.mem_of_mem_take member)
    exact getElem?_of_pickOf found
  rw [← nodup_sources_iff distinct named, ← ids_of_chunks converted]
  constructor
  · exact fun reranked => (nodup_filled_iff distinct).mp reranked.distinct
  · intro apart
    have sources : ∀ chunk ∈ chunks, ∃ candidate ∈ dedupeChunksById candidates,
        { candidate with score := chunk.score } = chunk := by
      intro chunk member
      obtain ⟨i, inside, rfl⟩ := List.mem_iff_getElem.mp member
      have inside' := converted.length_eq ▸ inside
      have pair := List.forall₂_iff_get.mp converted |>.2 i inside' inside
      exact ⟨_, List.mem_of_getElem? (named _ (List.getElem_mem inside')), eq_of_chunk pair⟩
    refine ⟨?_, (nodup_filled_iff distinct).mpr apart, fun chunk member => ?_⟩
    · have few : chunks.length ≤ topN.toNat := by
        rw [← converted.length_eq, used]
        exact List.length_take_le _ _
      have size := length_filled distinct apart (fun id member => ?_) few (by omega)
      · rw [size, ← length_dedupeChunksById]
        omega
      · obtain ⟨chunk, found, rfl⟩ := List.mem_map.mp member
        obtain ⟨candidate, listed, same⟩ := sources chunk found
        rw [← same]
        exact List.mem_map.mpr ⟨candidate, listed, rfl⟩
    · rcases List.mem_append.mp member with first | other
      · obtain ⟨candidate, listed, same⟩ := sources chunk first
        exact ⟨candidate, mem_of_mem_dedupe listed, same⟩
      · have listed := List.mem_of_mem_filter (List.mem_of_mem_take other)
        exact ⟨chunk, mem_of_mem_dedupe listed, rfl⟩

end Law

namespace BaiLianRerankClient

variable (client : BaiLianRerankClient) (target : ModelTarget) (query : Str)
  (candidates : List RetrievedChunk) (topN : ℤ)

/-- Where the provider is asked and answers, none of the results that are used repeats an index. -/
def Unrepeated : Prop :=
  0 < topN → topN < (dedupeChunksById candidates).length → ∀ data results,
    client.request target query (dedupeChunksById candidates) topN = .ok data →
    resultsOf client.repr data = .ok results →
    (∀ pick ∈ used (dedupeChunksById candidates) topN results, ∃ chunk, pick.chunk = .ok chunk) →
      ((used (dedupeChunksById candidates) topN results).map Pick.index).Nodup

/-- What the client returns, if the provider is asked. -/
theorem rerank_ok_iff {chunks : List RetrievedChunk} (positive : 0 < topN)
    (many : topN < (dedupeChunksById candidates).length) :
    client.rerank target query candidates topN = .ok chunks ↔ ∃ data results taken,
      client.request target query (dedupeChunksById candidates) topN = .ok data ∧
      resultsOf client.repr data = .ok results ∧
      List.Forall₂ (fun pick chunk => Pick.chunk pick = .ok chunk)
        (used (dedupeChunksById candidates) topN results) taken ∧
      chunks = filled (dedupeChunksById candidates) topN taken := by
  have filled_list : (dedupeChunksById candidates).isEmpty = false := by
    rw [List.isEmpty_eq_false_iff, ← List.length_pos_iff]
    omega
  unfold rerank
  dsimp only
  rw [if_neg (by simp [filled_list, positive]), if_neg (by omega)]
  cases answered : client.request target query (dedupeChunksById candidates) topN with
  | error error => simp
  | ok data =>
    dsimp only
    rw [extractRerankedChunks]
    cases listed : resultsOf client.repr data with
    | error error => simp [listed]
    | ok results =>
      have loop := @selectResults_ok_iff (dedupeChunksById candidates) [] topN [] results chunks
        (nodup_dedupe candidates) positive (fun id => Iff.rfl)
      dsimp only
      rw [loop]
      simp [listed, used]

end BaiLianRerankClient

/-- Both clients select without repetition, the one that asks a provider exactly if its results do
not repeat an index. -/
theorem reranked_iff (client : BaiLianRerankClient) (target : ModelTarget) (query : Str)
    (candidates : List RetrievedChunk) (topN : ℤ) :
    Reranked candidates topN (NoopRerankClient.rerank candidates topN) ∧
    ((∀ chunks, client.rerank target query candidates topN = .ok chunks →
        Reranked candidates topN chunks) ↔
      client.Unrepeated target query candidates topN) := by
  refine ⟨noop_reranked candidates topN, ?_⟩
  by_cases positive : 0 < topN
  · by_cases many : topN < (dedupeChunksById candidates).length
    · constructor
      · intro reranks _ _ data results answered listed converted
        obtain ⟨taken, all⟩ := exists_chunks converted
        have returned := (client.rerank_ok_iff target query candidates topN positive many).mpr
          ⟨data, results, taken, answered, listed, all, rfl⟩
        exact (reranked_filled_iff positive many all).mp (reranks _ returned)
      · intro unrepeated chunks returned
        obtain ⟨data, results, taken, answered, listed, all, rfl⟩ :=
          (client.rerank_ok_iff target query candidates topN positive many).mp returned
        refine (reranked_filled_iff positive many all).mpr
          (unrepeated positive many data results answered listed fun pick member => ?_)
        obtain ⟨i, inside, rfl⟩ := List.mem_iff_getElem.mp member
        exact ⟨_, (List.forall₂_iff_get.mp all).2 i inside (all.length_eq ▸ inside)⟩
    · -- all candidates fit
      refine iff_of_true (fun chunks returned => ?_) fun _ more => absurd more many
      unfold BaiLianRerankClient.rerank at returned
      dsimp only at returned
      have all : (dedupeChunksById candidates).take topN.toNat = dedupeChunksById candidates :=
        List.take_of_length_le (by omega)
      split_ifs at returned with none fits
      · cases returned
        have empty : dedupeChunksById candidates = [] :=
          List.isEmpty_iff.mp (none.resolve_left (by omega))
        have taken := reranked_dedupe candidates topN
        rwa [all, empty] at taken
      · cases returned
        have taken := reranked_dedupe candidates topN
        rwa [all] at taken
      · exact absurd (not_lt.mp many) fits
  · refine iff_of_true (fun chunks returned => ?_) fun some => absurd some positive
    have none : topN ≤ 0 := not_lt.mp positive
    unfold BaiLianRerankClient.rerank at returned
    dsimp only at returned
    rw [if_pos (.inl none)] at returned
    cases returned
    exact reranked_nil none

section Repetition

/-- Two of three candidates are wanted, and the provider names the first one twice. -/
def repeatingClient : BaiLianRerankClient where
  post _ := .response false 200 [] <| some <| .dict [(.lit "output", .dict [(.lit "results", .list [
    .dict [(.lit "index", .int 0)], .dict [(.lit "index", .int 0)]])])]
  timeoutSeconds := 25
  repr _ := []

def rerankTarget : ModelTarget where
  id := "gte-rerank"
  capability := .rerank
  candidate := { provider := "bailian", model := "gte-rerank" }
  provider :=
    { name := "bailian"
      url := some (.lit "https://dashscope.example.com")
      apiKey := some (.lit "sk-test")
      endpoints := [("rerank", .lit "/rerank")] }

def threeChunks : List RetrievedChunk :=
  [⟨.lit "A", .lit "one", none⟩, ⟨.lit "B", .lit "two", none⟩, ⟨.lit "C", .lit "three", none⟩]

theorem repeatingClient_not_reranked : ¬ ∀ (client : BaiLianRerankClient) target query candidates
    topN chunks, client.rerank target query candidates topN = .ok chunks →
      Reranked candidates topN chunks := by
  intro all
  have returned : repeatingClient.rerank rerankTarget [] threeChunks 2 =
      .ok [⟨.lit "A", .lit "one", none⟩, ⟨.lit "A", .lit "one", none⟩] := by rfl
  exact absurd (all _ _ _ _ _ _ returned).distinct (by decide)

end Repetition

end HeyeeAgent.InfraAi.Models
