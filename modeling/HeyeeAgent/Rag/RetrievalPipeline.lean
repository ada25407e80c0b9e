import HeyeeAgent.Python.Collections
import HeyeeAgent.Rag.IntentModels
import Mathlib.Tactic.Linarith

/-! # The retrieval pipeline

`MultiChannelRetriever.retrieve` asks its channels, leaves out those that raise, and passes their
sources through the post processors. A channel, the rerank service and a post processor return or
raise an `Exception`; a cancellation of the request ends the retrieval and has no result. Metrics and
logging are left out.
-/

namespace HeyeeAgent.Rag.RetrievalPipeline

open Python

structure RetrievedChunk where
  id : Str
  text : Str
  score : Option PyFloat := none

structure RetrievedSource where
  id : Option Str := none
  title : Str
  content : Str
  score : Option PyFloat := none
  sourceType : Option Str := none
  url : Option Str := none
  collectionName : Option Str := none
  channel : Option Str := none

/-- `CHANNEL_PRIORITIES.get(channel, 99)` -/
def channelPriority (channel : Str) : ℕ :=
  if channel = .lit "intent_directed" then 1
  else if channel = .lit "keyword" then 2
  else if channel = .lit "vector_global" then 3
  else 99

structure RetrievalContext where
  question : Str
  subIntents : List SubQuestionIntent := []
  fallbackQueries : List Str := []
  candidateTopK : ℤ := 10
  finalTopK : ℤ := 5

structure SearchChannelResult where
  channel : Str
  sources : List RetrievedSource
  latencyMs : ℕ := 0

structure SearchChannel where
  name : Str
  isEnabled : RetrievalContext → Except Str Bool
  search : RetrievalContext → Except Str SearchChannelResult

structure PostProcessor where
  name : Str
  order : ℕ
  process : List RetrievedSource → List SearchChannelResult → RetrievalContext →
    Except Str (List RetrievedSource)

abbrev RerankService := Str → List RetrievedChunk → ℤ → Except Str (List RetrievedChunk)

def sourceKey (source : RetrievedSource) : Str :=
  match source.id with
  | some (c :: id) => c :: id
  | _ => Str.strip (source.url.getD [] ++ .lit "|" ++ source.title ++ .lit "|" ++ source.content)

section Deduplication

/-- `source.model_copy(update={"channel": source.channel or result.channel})` -/
def normalized (channel : Str) (source : RetrievedSource) : RetrievedSource :=
  { source with channel := match source.channel with
      | some (c :: label) => some (c :: label)
      | _ => some channel }

def SearchChannelResult.normalized (result : SearchChannelResult) : List RetrievedSource :=
  result.sources.map (RetrievalPipeline.normalized result.channel)

/-- The sources in the order of the priorities of their channels. -/
def prioritized (results : List SearchChannelResult) : List RetrievedSource :=
  (sortedBy (fun result => channelPriority result.channel) results).flatMap
    SearchChannelResult.normalized

def deduplicated (results : List SearchChannelResult) : List RetrievedSource :=
  (Dict.collect sourceKey [] (prioritized results)).map Prod.snd

def deduplicationPostProcessor : PostProcessor where
  name := .lit "deduplication"
  order := 1
  process _ results _ := .ok (deduplicated results)

end Deduplication

section Rerank

/-- `source.id or _source_key(source)` -/
def sourceId (source : RetrievedSource) : Str :=
  match source.id with
  | some (c :: id) => c :: id
  | _ => sourceKey source

def candidate (entry : Str × RetrievedSource) : RetrievedChunk :=
  ⟨entry.1, entry.2.content, entry.2.score⟩

variable (topK : ℤ) (sourceById : Dict Str RetrievedSource)

/-- The loop over the reranked chunks: the list that it returns, or where it stands at its end. -/
def pickReranked : List RetrievedChunk → List Str → List RetrievedSource →
    List RetrievedSource ⊕ List Str × List RetrievedSource
  | [], seen, reranked => .inr (seen, reranked)
  | chunk :: chunks, seen, reranked =>
    match sourceById.get chunk.id with
    | none => pickReranked chunks seen reranked
    | some source =>
      if isIn chunk.id seen then pickReranked chunks seen reranked
      else
        let reranked := reranked ++ [{ source with score := chunk.score }]
        if topK ≤ reranked.length then .inl reranked
        else pickReranked chunks (chunk.id :: seen) reranked

/-- The loop over the sources that were not reranked. -/
def backfill (seen : List Str) : Dict Str RetrievedSource → List RetrievedSource →
    List RetrievedSource
  | [], reranked => reranked
  | (sourceId, source) :: entries, reranked =>
    if isIn sourceId seen then backfill seen entries reranked
    else
      let reranked := reranked ++ [source]
      if topK ≤ reranked.length then reranked else backfill seen entries reranked

def mergeReranked (chunks : List RetrievedChunk) : List RetrievedSource :=
  match pickReranked topK sourceById chunks [] [] with
  | .inl reranked => reranked
  | .inr (seen, reranked) => backfill topK seen sourceById reranked

def rerankProcess (service : RerankService) (sources : List RetrievedSource)
    (context : RetrievalContext) : Except Str (List RetrievedSource) :=
  if sources.isEmpty ∨ context.finalTopK ≤ 0 then .ok []
  else
    let sourceById := Dict.collect sourceId [] sources
    (service context.question (sourceById.map candidate) context.finalTopK).map
      (mergeReranked context.finalTopK sourceById)

def rerankPostProcessor (service : RerankService) : PostProcessor where
  name := .lit "rerank"
  order := 10
  process sources _ context := rerankProcess service sources context

end Rerank

section Retriever

structure MultiChannelRetriever where
  channels : List SearchChannel
  postProcessors : List PostProcessor

structure RetrievalResult where
  sources : List RetrievedSource
  channelResults : List SearchChannelResult

/-- `is_enabled` returned true. -/
def SearchChannel.enabled (context : RetrievalContext) (channel : SearchChannel) : Bool :=
  match channel.isEnabled context with
  | .ok enabled => enabled
  | .error _ => false

def SearchChannel.result (context : RetrievalContext) (channel : SearchChannel) :
    Option SearchChannelResult :=
  match channel.search context with
  | .ok result => some result
  | .error _ => none

/-- The results of the channels that are enabled and do not raise, in the order of the channels. -/
def channelResults (channels : List SearchChannel) (context : RetrievalContext) :
    List SearchChannelResult :=
  (channels.filter (SearchChannel.enabled context)).filterMap (SearchChannel.result context)

/-- A post processor that raises is skipped. -/
def applyProcessor (results : List SearchChannelResult) (context : RetrievalContext)
    (sources : List RetrievedSource) (processor : PostProcessor) : List RetrievedSource :=
  match processor.process sources results context with
  | .ok processed => processed
  | .error _ => sources

def retrieve (retriever : MultiChannelRetriever) (context : RetrievalContext) : RetrievalResult :=
  let results := channelResults retriever.channels context
  let processors := sortedBy PostProcessor.order retriever.postProcessors
  let sources := processors.foldl (applyProcessor results context)
    (results.flatMap SearchChannelResult.sources)
  ⟨sources.take (max context.finalTopK 0).toNat, results⟩

/-- `get_multi_channel_retriever`, for any channels; without a service reranking is disabled. -/
def multiChannelRetriever (channels : List SearchChannel) (rerank : Option RerankService) :
    MultiChannelRetriever :=
  ⟨channels, deduplicationPostProcessor :: (rerank.map rerankPostProcessor).toList⟩

end Retriever

section Keys

@[simp] theorem sourceKey_normalized (channel : Str) (source : RetrievedSource) :
    sourceKey (normalized channel source) = sourceKey source := rfl

theorem sourceId_eq (source : RetrievedSource) : sourceId source = sourceKey source := by
  unfold sourceId
  split
  · next c id found => rw [sourceKey, found]
  · rfl

/-- The same source, up to its score and its channel label. -/
def Alike (source other : RetrievedSource) : Prop :=
  other = { source with score := other.score, channel := other.channel }

theorem Alike.refl (source : RetrievedSource) : Alike source source := rfl

theorem Alike.normalized (channel : Str) (source : RetrievedSource) :
    Alike source (normalized channel source) := rfl

theorem Alike.sourceKey_eq {source other : RetrievedSource} (alike : Alike source other) :
    sourceKey other = sourceKey source := by
  unfold Alike at alike
  rw [alike]
  rfl

theorem Alike.trans {a b c : RetrievedSource} (first : Alike a b) (second : Alike b c) :
    Alike a c := by
  unfold Alike at first second ⊢
  rw [second, first]

end Keys

section Provenance

variable {results : List SearchChannelResult} {source : RetrievedSource} {key : Str}

def SearchChannelResult.returns (key : Str) (result : SearchChannelResult) : Bool :=
  result.sources.any fun source => sourceKey source = key

/-- The first source of its key in the result with the best priority that has the key; of results
with the same priority, in the first. -/
def First (results : List SearchChannelResult) (key : Str) (source : RetrievedSource) : Prop :=
  ∃ before result after, results = before ++ result :: after ∧
    (∀ other ∈ before, other.returns key = true →
      channelPriority result.channel < channelPriority other.channel) ∧
    (∀ other ∈ after, other.returns key = true →
      channelPriority result.channel ≤ channelPriority other.channel) ∧
    result.sources.find? (fun source => sourceKey source = key) = some source

theorem find_normalized (result : SearchChannelResult) (key : Str) :
    result.normalized.find? (fun source => sourceKey source = key) =
      (result.sources.find? fun source => sourceKey source = key).map
        (normalized result.channel) := by
  rw [SearchChannelResult.normalized, List.find?_map]
  rfl

theorem returns_iff (result : SearchChannelResult) (key : Str) : result.returns key = true ↔
    ∃ source, result.normalized.find? (fun source => sourceKey source = key) = some source := by
  rw [find_normalized, SearchChannelResult.returns, List.any_eq_true, ← List.find?_isSome,
    ← Option.isSome_iff_exists, Option.isSome_map]

/-- Deduplication keeps the first source of the best channel. -/
theorem first_of_prioritized
    (found : (prioritized results).find? (fun source => sourceKey source = key) = some source) :
    ∃ original, First results key original ∧ Alike original source := by
  rw [prioritized, List.find?_flatMap] at found
  obtain ⟨earlier, result, later, split, here, none_before⟩ := List.findSome?_eq_some_iff.mp found
  have best : (sortedBy (fun result => channelPriority result.channel) results).find?
      (SearchChannelResult.returns key) = some result := by
    rw [split, List.find?_eq_some_iff_append]
    refine ⟨(returns_iff result key).mpr ⟨source, here⟩, earlier, later, rfl, fun other member => ?_⟩
    rw [Bool.not_eq_true', Bool.eq_false_iff]
    intro returned
    obtain ⟨source', found'⟩ := (returns_iff other key).mp returned
    cases (none_before other member).symm.trans found'
  obtain ⟨before, after, rfl, less, le⟩ := find_sortedBy best
  rw [find_normalized] at here
  obtain ⟨original, first, rfl⟩ := Option.map_eq_some_iff.mp here
  exact ⟨original, ⟨before, result, after, rfl, less, le, first⟩, .normalized _ _⟩

/-- How many different keys the sources have. -/
def distinctKeys (results : List SearchChannelResult) : ℕ :=
  ((results.flatMap SearchChannelResult.sources).map sourceKey).toFinset.card

theorem keys_prioritized (results : List SearchChannelResult) :
    ((prioritized results).map sourceKey).toFinset =
      ((results.flatMap SearchChannelResult.sources).map sourceKey).toFinset := by
  have plain (result : SearchChannelResult) :
      result.normalized.map sourceKey = result.sources.map sourceKey := by
    rw [SearchChannelResult.normalized, List.map_map]
    rfl
  have keys (listed : List SearchChannelResult) :
      (listed.flatMap SearchChannelResult.normalized).map sourceKey =
        (listed.flatMap SearchChannelResult.sources).map sourceKey := by
    simp only [List.map_flatMap, plain]
  rw [prioritized, keys]
  exact List.toFinset_eq_of_perm _ _
    (((perm_sortedBy _ results).flatMap_right SearchChannelResult.sources).map sourceKey)

/-- What the final sources must be. -/
structure Lawful (results : List SearchChannelResult) (limit : ℕ) (sources : List RetrievedSource) :
    Prop where
  distinct : (sources.map sourceKey).Nodup
  count : sources.length = min limit (distinctKeys results)
  provenance : ∀ source ∈ sources, ∃ original,
    First results (sourceKey source) original ∧ Alike original source

end Provenance

section Choice

variable {topK : ℤ} {byId : Dict Str RetrievedSource} {sources : List RetrievedSource}

/-- Sources of a dictionary, each at most once and with any score. -/
structure Chosen (byId : Dict Str RetrievedSource) (sources : List RetrievedSource) : Prop where
  distinct : (sources.map sourceKey).Nodup
  origin : ∀ source ∈ sources, ∃ original, (sourceKey source, original) ∈ byId ∧
    Alike original source

/-- The entries of the dictionary stand under their own keys. -/
def Keyed (byId : Dict Str RetrievedSource) : Prop := ∀ entry ∈ byId, sourceKey entry.2 = entry.1

theorem Chosen.nil : Chosen byId [] := ⟨List.nodup_nil, fun _ member => absurd member List.not_mem_nil⟩

theorem Chosen.keys_subset (chosen : Chosen byId sources) : sources.map sourceKey ⊆ byId.keys := by
  intro key listed
  obtain ⟨source, member, rfl⟩ := List.mem_map.mp listed
  obtain ⟨original, entry, -⟩ := chosen.origin source member
  exact List.mem_map_of_mem entry

theorem Chosen.length_le (chosen : Chosen byId sources) : sources.length ≤ byId.length := by
  have bound := (List.subperm_of_subset chosen.distinct chosen.keys_subset).length_le
  rwa [List.length_map, Dict.keys, List.length_map] at bound

theorem Chosen.append (chosen : Chosen byId sources) (keyed : Keyed byId)
    {entry : Str × RetrievedSource} (member : entry ∈ byId) {source : RetrievedSource}
    (alike : Alike entry.2 source) (fresh : entry.1 ∉ sources.map sourceKey) :
    Chosen byId (sources ++ [source]) := by
  have key : sourceKey source = entry.1 := alike.sourceKey_eq.trans (keyed entry member)
  constructor
  · rw [List.map_append, List.map_singleton, key]
    exact List.Nodup.append chosen.distinct (List.nodup_singleton _) (List.disjoint_singleton.mpr fresh)
  · intro other listed
    rcases List.mem_append.mp listed with before | last
    · exact chosen.origin other before
    · rw [List.mem_singleton.mp last, key]
      exact ⟨entry.2, member, alike⟩

/-- The loops stop with as many sources as are asked for, or go on with fewer. -/
theorem pickReranked_chosen (keyed : Keyed byId) (chunks : List RetrievedChunk) {seen : List Str}
    (chosen : Chosen byId sources) (short : sources.length < topK)
    (told : ∀ id, id ∈ seen ↔ id ∈ sources.map sourceKey) :
    match pickReranked topK byId chunks seen sources with
    | .inl reranked => Chosen byId reranked ∧ reranked.length = topK
    | .inr (seen, reranked) => Chosen byId reranked ∧ reranked.length < topK ∧
        ∀ id, id ∈ seen ↔ id ∈ reranked.map sourceKey := by
  induction chunks generalizing seen sources with
  | nil => exact ⟨chosen, short, told⟩
  | cons chunk chunks ih =>
    unfold pickReranked
    cases found : byId.get chunk.id with
    | none => exact ih chosen short told
    | some source =>
      dsimp only
      by_cases again : chunk.id ∈ seen
      · rw [if_pos (isIn_iff.mpr again)]
        exact ih chosen short told
      · rw [if_neg (mt isIn_iff.mp again)]
        have member := Dict.mem_of_get found
        have alike : Alike source { source with score := chunk.score } := rfl
        have longer := chosen.append keyed member alike (mt (told chunk.id).mpr again)
        have length : (sources ++ [{ source with score := chunk.score }]).length =
            sources.length + 1 := by rw [List.length_append, List.length_singleton]
        by_cases full : topK ≤ (sources ++ [{ source with score := chunk.score }]).length
        · rw [if_pos full]
          refine ⟨longer, ?_⟩
          rw [length] at full ⊢
          omega
        · rw [if_neg full]
          refine ih longer (by omega) fun id => ?_
          have key : sourceKey { source with score := chunk.score } = chunk.id :=
            alike.sourceKey_eq.trans (keyed _ member)
          rw [List.mem_cons, List.map_append, List.mem_append, List.map_singleton,
            List.mem_singleton, key, told id, or_comm]

theorem backfill_chosen (keyed : Keyed byId) {seen : List Str} {entries : Dict Str RetrievedSource}
    (inside : entries ⊆ byId) (distinct : entries.keys.Nodup) (chosen : Chosen byId sources)
    (short : sources.length < topK) (told : ∀ id ∈ seen, id ∈ sources.map sourceKey)
    (others : ∀ id ∈ sources.map sourceKey, id ∈ seen ∨ id ∉ entries.keys) :
    Chosen byId (backfill topK seen entries sources) ∧
      ((backfill topK seen entries sources).length = topK ∨
        (backfill topK seen entries sources).length < topK ∧
          sources.map sourceKey ⊆ (backfill topK seen entries sources).map sourceKey ∧
          entries.keys ⊆ (backfill topK seen entries sources).map sourceKey) := by
  induction entries generalizing sources with
  | nil => exact ⟨chosen, .inr ⟨short, List.Subset.refl _, List.nil_subset _⟩⟩
  | cons entry entries ih =>
    obtain ⟨id, source⟩ := entry
    obtain ⟨fresh, distinct⟩ := List.nodup_cons.mp distinct
    obtain ⟨member, inside⟩ := List.cons_subset.mp inside
    unfold backfill
    by_cases again : id ∈ seen
    · rw [if_pos (isIn_iff.mpr again)]
      obtain ⟨chosen', full | ⟨short', before, after⟩⟩ := ih inside distinct chosen short told
        fun other listed => (others other listed).imp_right
          (mt (List.mem_cons_of_mem id))
      · exact ⟨chosen', .inl full⟩
      · exact ⟨chosen', .inr ⟨short', before, List.cons_subset.mpr ⟨before (told id again), after⟩⟩⟩
    · rw [if_neg (mt isIn_iff.mp again)]
      have new : id ∉ sources.map sourceKey := fun listed =>
        (others id listed).elim again fun apart => apart List.mem_cons_self
      have longer := chosen.append keyed member (.refl source) new
      have key : sourceKey source = id := keyed _ member
      have keys : (sources ++ [source]).map sourceKey = sources.map sourceKey ++ [id] := by
        rw [List.map_append, List.map_singleton, key]
      have length : (sources ++ [source]).length = sources.length + 1 := by
        rw [List.length_append, List.length_singleton]
      dsimp only
      by_cases full : topK ≤ (sources ++ [source]).length
      · rw [if_pos full]
        refine ⟨longer, .inl ?_⟩
        rw [length] at full ⊢
        omega
      · rw [if_neg full]
        obtain ⟨chosen', done | ⟨short', before, after⟩⟩ := ih inside distinct longer (by omega)
          (fun other listed => by rw [keys]; exact List.mem_append_left _ (told other listed))
          (fun other listed => by
            rw [keys] at listed
            rcases List.mem_append.mp listed with before | last
            · exact (others other before).imp_right (mt (List.mem_cons_of_mem id))
            · exact .inr (List.mem_singleton.mp last ▸ fresh))
        · exact ⟨chosen', .inl done⟩
        · rw [keys] at before
          obtain ⟨before, last⟩ := List.append_subset.mp before
          exact ⟨chosen', .inr ⟨short', before,
            List.cons_subset.mpr ⟨last (List.mem_singleton_self id), after⟩⟩⟩

/-- Whatever the service answers, as many sources are left as there are, up to the limit. -/
theorem mergeReranked_chosen (keyed : Keyed byId) (distinct : byId.keys.Nodup) (positive : 0 < topK)
    (chunks : List RetrievedChunk) : Chosen byId (mergeReranked topK byId chunks) ∧
      (mergeReranked topK byId chunks).length = min topK byId.length := by
  have picked := pickReranked_chosen keyed chunks Chosen.nil positive
    fun id => (Iff.rfl : id ∈ ([] : List Str) ↔ id ∈ [])
  unfold mergeReranked
  cases outcome : pickReranked topK byId chunks [] [] with
  | inl reranked =>
    rw [outcome] at picked
    obtain ⟨chosen, full⟩ := picked
    have bound := chosen.length_le
    exact ⟨chosen, by rw [full]; omega⟩
  | inr state =>
    obtain ⟨seen, reranked⟩ := state
    rw [outcome] at picked
    obtain ⟨chosen, short, told⟩ := picked
    obtain ⟨chosen', full | ⟨short', -, all⟩⟩ := backfill_chosen keyed (List.Subset.refl byId)
      distinct chosen short (fun id => (told id).mp) fun id listed => .inl ((told id).mpr listed)
    · have bound := chosen'.length_le
      exact ⟨chosen', by dsimp only; omega⟩
    · have bound := chosen'.length_le
      have covered := (List.subperm_of_subset distinct all).length_le
      rw [List.length_map, Dict.keys, List.length_map] at covered
      exact ⟨chosen', by dsimp only; omega⟩

end Choice

section Laws

variable {results : List SearchChannelResult} {context : RetrievalContext}
  {channels channels' : List SearchChannel} {rerank : Option RerankService}

/-- What follows deduplication. -/
def finished (rerank : Option RerankService) (context : RetrievalContext)
    (sources : List RetrievedSource) : List RetrievedSource :=
  (match rerank with
    | none => sources
    | some service => match rerankProcess service sources context with
      | .ok processed => processed
      | .error _ => sources).take (max context.finalTopK 0).toNat

theorem sources_retrieve (channels : List SearchChannel) (rerank : Option RerankService)
    (context : RetrievalContext) :
    (retrieve (multiChannelRetriever channels rerank) context).sources =
      finished rerank context (deduplicated (channelResults channels context)) := by
  cases rerank <;> rfl

theorem keys_deduplicated (results : List SearchChannelResult) :
    (deduplicated results).map sourceKey = (Dict.collect sourceKey [] (prioritized results)).keys := by
  rw [deduplicated, List.map_map]
  exact List.map_congr_left fun entry member => (Dict.key_of_mem_collect member).1.symm

theorem nodup_deduplicated (results : List SearchChannelResult) :
    ((deduplicated results).map sourceKey).Nodup := by
  have empty : (Dict.keys ([] : Dict Str RetrievedSource)).Nodup := List.nodup_nil
  rw [keys_deduplicated]
  exact Dict.nodup_collect empty _

theorem length_deduplicated (results : List SearchChannelResult) :
    (deduplicated results).length = distinctKeys results := by
  rw [deduplicated, List.length_map, Dict.length_collect, keys_prioritized, distinctKeys]

theorem first_of_deduplicated {source : RetrievedSource} (member : source ∈ deduplicated results) :
    ∃ original, First results (sourceKey source) original ∧ Alike original source := by
  obtain ⟨⟨key, source⟩, listed, rfl⟩ := List.mem_map.mp member
  have own : key = sourceKey source := (Dict.key_of_mem_collect listed).1
  rcases Dict.mem_collect.mp listed with before | ⟨-, found⟩
  · cases before
  · exact own ▸ first_of_prioritized found

/-- The dictionary that `rerank` makes of deduplicated sources. -/
theorem collect_deduplicated (results : List SearchChannelResult) :
    Dict.collect sourceId [] (deduplicated results) =
      (deduplicated results).map fun source => (sourceKey source, source) := by
  rw [show sourceId = sourceKey from funext sourceId_eq]
  exact Dict.collect_of_nodup (nodup_deduplicated results)

theorem keyed_pairs (sources : List RetrievedSource) :
    Keyed (sources.map fun source => (sourceKey source, source)) := by
  intro entry member
  obtain ⟨source, -, rfl⟩ := List.mem_map.mp member
  rfl

theorem keys_pairs (sources : List RetrievedSource) :
    Dict.keys (sources.map fun source => (sourceKey source, source)) = sources.map sourceKey := by
  rw [Dict.keys, List.map_map]
  rfl

theorem lawful_of_chosen {sources : List RetrievedSource} {limit : ℕ}
    (chosen : Chosen ((deduplicated results).map fun source => (sourceKey source, source)) sources)
    (count : sources.length = min limit (deduplicated results).length) :
    Lawful results limit sources where
  distinct := chosen.distinct
  count := by rw [count, length_deduplicated]
  provenance source member := by
    obtain ⟨original, listed, alike⟩ := chosen.origin source member
    obtain ⟨kept, member', same⟩ := List.mem_map.mp listed
    obtain ⟨key, rfl⟩ := Prod.mk.inj same
    obtain ⟨first, best, alike'⟩ := first_of_deduplicated member'
    exact ⟨first, key ▸ best, alike'.trans alike⟩

/-- Deduplicated sources that are only cut off. -/
theorem lawful_take (results : List SearchChannelResult) (limit : ℕ) :
    Lawful results limit ((deduplicated results).take limit) := by
  refine lawful_of_chosen ⟨?_, fun source member => ?_⟩ (List.length_take ..)
  · rw [List.map_take]
    exact (nodup_deduplicated results).sublist (List.take_sublist ..)
  · exact ⟨source, List.mem_map.mpr ⟨source, List.mem_of_mem_take member, rfl⟩, .refl source⟩

theorem lawful_finished (results : List SearchChannelResult) (rerank : Option RerankService)
    (context : RetrievalContext) :
    Lawful results (max context.finalTopK 0).toNat
      (finished rerank context (deduplicated results)) := by
  cases rerank with
  | none => exact lawful_take results _
  | some service =>
    unfold finished rerankProcess
    dsimp only
    by_cases nothing : (deduplicated results).isEmpty = true ∨ context.finalTopK ≤ 0
    · -- with no sources or no room nothing is asked of the service
      rw [if_pos nothing, List.take_nil]
      refine lawful_of_chosen .nil ?_
      rcases nothing with empty | noRoom
      · rw [List.isEmpty_iff.mp empty, List.length_nil, Nat.min_zero]
      · rw [max_eq_right noRoom, Int.toNat_zero, Nat.zero_min, List.length_nil]
    · rw [if_neg nothing, collect_deduplicated]
      obtain ⟨-, room⟩ := not_or.mp nothing
      let byId := (deduplicated results).map fun source => (sourceKey source, source)
      cases service context.question (byId.map candidate) context.finalTopK with
      | error error => exact lawful_take results _
      | ok chunks =>
        have distinct : Dict.keys byId |>.Nodup := by
          rw [keys_pairs]
          exact nodup_deduplicated results
        have positive : 0 < context.finalTopK := by omega
        obtain ⟨chosen, count⟩ := mergeReranked_chosen (keyed_pairs (deduplicated results)) distinct
          positive chunks
        rw [List.length_map] at count
        dsimp only [Except.map]
        rw [List.take_of_length_le (by omega)]
        exact lawful_of_chosen chosen (by omega)

/-- The sources of a retrieval have distinct keys, are as many as the limit and the healthy channels
allow, and come from the best channel that returned them. -/
theorem retrieve_lawful (channels : List SearchChannel) (rerank : Option RerankService)
    (context : RetrievalContext) :
    Lawful (channelResults channels context) (max context.finalTopK 0).toNat
      (retrieve (multiChannelRetriever channels rerank) context).sources := by
  rw [sources_retrieve]
  exact lawful_finished _ rerank context

end Laws

section Independence

variable {context : RetrievalContext} {channels channels' : List SearchChannel}
  {rerank : Option RerankService}

/-- The channel is enabled and returns its sources. -/
def SearchChannel.healthy (context : RetrievalContext) (channel : SearchChannel) : Bool :=
  channel.enabled context && (channel.result context).isSome

/-- The results that are merged are labelled with channels of different priorities. -/
def DistinctPriorities (channels : List SearchChannel) (context : RetrievalContext) : Prop :=
  ((channelResults channels context).map fun result => channelPriority result.channel).Nodup

/-- Channels of different priorities that label their results with their own names. -/
theorem distinctPriorities_of_names
    (labelled : ∀ channel ∈ channels, ∀ result ∈ channel.result context,
      result.channel = channel.name)
    (distinct : (channels.map fun channel => channelPriority channel.name).Nodup) :
    DistinctPriorities channels context := by
  unfold DistinctPriorities channelResults
  refine distinct.sublist ?_
  induction channels with
  | nil => exact List.Sublist.refl _
  | cons channel channels ih =>
    obtain ⟨label, labelled⟩ := List.forall_mem_cons.mp labelled
    have later := ih labelled (List.nodup_cons.mp distinct).2
    cases enabled : channel.enabled context with
    | false =>
      rw [List.filter_cons_of_neg (by simp [enabled])]
      exact later.cons _
    | true =>
      rw [List.filter_cons_of_pos enabled]
      cases found : channel.result context with
      | none =>
        rw [List.filterMap_cons_none found]
        exact later.cons _
      | some result =>
        rw [List.filterMap_cons_some found, List.map_cons, List.map_cons, label result found]
        exact later.cons_cons _

theorem channelResults_healthy (channels : List SearchChannel) (context : RetrievalContext) :
    channelResults (channels.filter (SearchChannel.healthy context)) context =
      channelResults channels context := by
  unfold channelResults
  induction channels with
  | nil => rfl
  | cons channel channels ih =>
    cases enabled : channel.enabled context with
    | false =>
      rw [List.filter_cons_of_neg (by simp [SearchChannel.healthy, enabled]),
        List.filter_cons_of_neg (by simp [enabled]), ih]
    | true =>
      cases found : channel.result context with
      | none =>
        rw [List.filter_cons_of_neg (by simp [SearchChannel.healthy, found]), ih,
          List.filter_cons_of_pos enabled, List.filterMap_cons_none found]
      | some result =>
        rw [List.filter_cons_of_pos (by simp [SearchChannel.healthy, enabled, found]),
          List.filter_cons_of_pos enabled, List.filter_cons_of_pos enabled,
          List.filterMap_cons_some found, List.filterMap_cons_some found, ih]

theorem deduplicated_of_perm (perm : channels.Perm channels')
    (distinct : DistinctPriorities channels context) :
    deduplicated (channelResults channels context) =
      deduplicated (channelResults channels' context) := by
  have results : (channelResults channels context).Perm (channelResults channels' context) :=
    (perm.filter _).filterMap _
  rw [deduplicated, prioritized, sortedBy_of_perm results distinct]
  rfl

/-- The sources depend neither on the order of the channels nor on those that fail. -/
theorem retrieve_independent (rerank : Option RerankService)
    (distinct : DistinctPriorities channels context) :
    (∀ channels', channels.Perm channels' →
      (retrieve (multiChannelRetriever channels' rerank) context).sources =
        (retrieve (multiChannelRetriever channels rerank) context).sources) ∧
      (retrieve (multiChannelRetriever (channels.filter (SearchChannel.healthy context)) rerank)
        context).sources = (retrieve (multiChannelRetriever channels rerank) context).sources := by
  constructor
  · intro channels' perm
    rw [sources_retrieve, sources_retrieve, deduplicated_of_perm perm distinct]
  · rw [sources_retrieve, sources_retrieve, channelResults_healthy]

/-- Channels out of order, one of which fails; two of them return the same chunk. -/
def sampleChannels : List SearchChannel :=
  let chunk (id : String) : RetrievedSource := { id := some (.lit id), title := [], content := [] }
  let vector : Str := .lit "vector_global"
  let directed : Str := .lit "intent_directed"
  [⟨vector, fun _ => .ok true, fun _ => .ok ⟨vector, [chunk "b", chunk "a"], 1⟩⟩,
    ⟨.lit "keyword", fun _ => .ok true, fun _ => .error (.lit "keyword unavailable")⟩,
    ⟨directed, fun _ => .ok true, fun _ => .ok ⟨directed, [chunk "a"], 1⟩⟩]

/-- A service that reverses its candidates. -/
def reverseRerank : RerankService := fun _ candidates _ => .ok candidates.reverse

theorem sampleChannels_independent :
    (retrieve (multiChannelRetriever sampleChannels.reverse (some reverseRerank))
        ⟨[], [], [], 10, 5⟩).sources =
      (retrieve (multiChannelRetriever sampleChannels (some reverseRerank))
        ⟨[], [], [], 10, 5⟩).sources ∧
    (retrieve (multiChannelRetriever
        (sampleChannels.filter (SearchChannel.healthy ⟨[], [], [], 10, 5⟩)) (some reverseRerank))
        ⟨[], [], [], 10, 5⟩).sources =
      (retrieve (multiChannelRetriever sampleChannels (some reverseRerank))
        ⟨[], [], [], 10, 5⟩).sources := by
  have distinct : DistinctPriorities sampleChannels ⟨[], [], [], 10, 5⟩ := by
    unfold DistinctPriorities
    decide
  obtain ⟨order, failing⟩ := retrieve_independent (some reverseRerank) distinct
  exact ⟨order _ (List.reverse_perm sampleChannels).symm, failing⟩

end Independence

end HeyeeAgent.Rag.RetrievalPipeline
