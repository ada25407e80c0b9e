import HeyeeAgent.InfraAi.ModelSelector
import HeyeeAgent.Python.Object
import Mathlib.Data.List.DropRight

/-! # The legacy configuration of the models

`_legacy_config` puts the chat model and the embedding model of the settings into one dictionary of
providers, from which `ModelSelector` and `resolve_model_url` take them again. The records are those
of the selector with the addresses and the keys that only the clients read.
-/

namespace HeyeeAgent.InfraAi

open Python

def ModelCapability.value : ModelCapability → String
  | .chat => "chat"
  | .embedding => "embedding"
  | .rerank => "rerank"

namespace Models

structure ProviderConfig extends InfraAi.ProviderConfig where
  url : Option Str := none
  apiKey : Option Str := none
  endpoints : Dict String Str := []

structure ModelCandidate extends InfraAi.ModelCandidate where
  url : Option Str := none
  timeoutSeconds : Option ℚ := none

structure ModelGroup where
  defaultModel : Option String := none
  deepThinkingModel : Option String := none
  candidates : List ModelCandidate := []

structure AIModelConfig where
  providers : Dict String ProviderConfig
  chat : ModelGroup
  embedding : ModelGroup
  rerank : ModelGroup := {}

structure ModelTarget where
  id : String
  capability : ModelCapability
  candidate : ModelCandidate
  provider : ProviderConfig

section Selector

variable (config : AIModelConfig) (store : ModelHealthStore) (now : ℚ)

/-- `_resolve_first_choice_model` -/
def resolveFirstChoiceModel (group : ModelGroup) (deepThinking : Bool) : Option String :=
  if deepThinking && group.deepThinkingModel.any (· != "") then group.deepThinkingModel
  else group.defaultModel

def filterAndSortCandidates (candidates : List ModelCandidate) (firstChoiceModelId : Option String)
    (deepThinking requireTools : Bool) : List ModelCandidate :=
  let enabled := candidates.filter fun candidate =>
    candidate.enabled && (!deepThinking || candidate.supportsThinking) &&
      (!requireTools || candidate.supportsTools)
  enabled.mergeSort fun candidate other =>
    (compareCandidates firstChoiceModelId candidate.toModelCandidate other.toModelCandidate).isLE

def buildModelTarget (capability : ModelCapability) (candidate : ModelCandidate) :
    Option ModelTarget :=
  let modelId := resolveId candidate.toModelCandidate
  if store.isUnavailable now modelId then none
  else (config.providers.get candidate.provider).map fun provider =>
    { id := modelId, capability, candidate, provider }

def selectCandidates (group : ModelGroup) (capability : ModelCapability)
    (firstChoiceModelId : Option String) (deepThinking requireTools : Bool) : List ModelTarget :=
  (filterAndSortCandidates group.candidates firstChoiceModelId deepThinking requireTools).filterMap
    (buildModelTarget config store now capability)

def selectChatCandidates (deepThinking requireTools : Bool) : List ModelTarget :=
  selectCandidates config store now config.chat .chat
    (resolveFirstChoiceModel config.chat deepThinking) deepThinking requireTools

def selectEmbeddingCandidates : List ModelTarget :=
  selectCandidates config store now config.embedding .embedding config.embedding.defaultModel false
    false

end Selector

section Erasure

/-- The records without addresses and keys -/
def ModelGroup.toBase (group : ModelGroup) : InfraAi.ModelGroup where
  defaultModel := group.defaultModel
  deepThinkingModel := group.deepThinkingModel
  candidates := group.candidates.map ModelCandidate.toModelCandidate

def AIModelConfig.toBase (config : AIModelConfig) : InfraAi.AIModelConfig where
  providers := config.providers.map fun entry => (entry.1, entry.2.toProviderConfig)
  chat := config.chat.toBase
  embedding := config.embedding.toBase
  rerank := config.rerank.toBase

def ModelTarget.toBase (target : ModelTarget) : InfraAi.ModelTarget where
  id := target.id
  capability := target.capability
  candidate := target.candidate.toModelCandidate
  provider := target.provider.toProviderConfig

theorem lookup_toBase (config : AIModelConfig) (name : String) :
    config.toBase.providers.lookup name =
      (config.providers.get name).map ProviderConfig.toProviderConfig := by
  rw [AIModelConfig.toBase, Dict.get, Option.map_map]
  induction config.providers with
  | nil => rfl
  | cons entry providers ih =>
    rw [List.map_cons, List.lookup_cons, List.find?_cons]
    by_cases same : entry.1 = name
    · simp [same]
    · have other : (name == entry.1) = false := by simpa using fun eq => same eq.symm
      rw [other, decide_eq_false same]
      exact ih

theorem map_filterAndSortCandidates (candidates : List ModelCandidate)
    (firstChoiceModelId : Option String) (deepThinking requireTools : Bool) :
    (filterAndSortCandidates candidates firstChoiceModelId deepThinking requireTools).map
      ModelCandidate.toModelCandidate =
    InfraAi.filterAndSortCandidates (candidates.map ModelCandidate.toModelCandidate)
      firstChoiceModelId deepThinking requireTools := by
  unfold filterAndSortCandidates InfraAi.filterAndSortCandidates
  dsimp only
  rw [List.filter_map]
  exact List.map_mergeSort fun _ _ _ _ => rfl

/-- Addresses and keys have no part in the selection. -/
theorem map_selectCandidates (config : AIModelConfig) (store : ModelHealthStore) (now : ℚ)
    (group : ModelGroup) (capability : ModelCapability) (firstChoiceModelId : Option String)
    (deepThinking requireTools : Bool) :
    (selectCandidates config store now group capability firstChoiceModelId deepThinking
      requireTools).map ModelTarget.toBase =
    InfraAi.selectCandidates config.toBase store now group.toBase capability firstChoiceModelId
      deepThinking requireTools := by
  rw [selectCandidates, InfraAi.selectCandidates, ModelGroup.toBase,
    ← map_filterAndSortCandidates, List.map_filterMap, List.filterMap_map]
  congr 1
  funext candidate
  rw [Function.comp_apply, buildModelTarget, InfraAi.buildModelTarget]
  split_ifs with unavailable
  · rfl
  · rw [lookup_toBase, Option.map_map, Option.map_map]
    rfl

end Erasure

section UrlResolver

/-- `_endpoint_path`; an error is the text of the `ValueError`. -/
def endpointPath (provider : ProviderConfig) (capability : ModelCapability) : Except String Str :=
  match provider.endpoints.get capability.value with
  | none | some [] => .error ("Provider endpoint is missing: " ++ capability.value)
  | some path => .ok path

/-- `_join_url` -/
def joinUrl (baseUrl path : Str) : Str :=
  baseUrl.rdropWhile (· == 47) ++ Str.lit "/" ++ path.dropWhile (· == 47)

def resolveModelUrl (target : ModelTarget) : Except String Str :=
  match target.candidate.url with
  | some (c :: url) => .ok (c :: url)
  | _ =>
    match target.provider.url with
    | none | some [] => .error "Provider base URL is missing"
    | some url => (endpointPath target.provider target.capability).map (joinUrl url)

end UrlResolver

/-- The settings of a legacy configuration -/
structure Settings where
  aiProvider : String
  aiApiKey : Option Str
  aiBaseUrl : Str
  aiModel : String
  aiTimeoutSeconds : ℚ
  embeddingProvider : String
  embeddingApiKey : Option Str
  embeddingBaseUrl : Str
  embeddingModel : String
  embeddingDimension : ℤ
  embeddingTimeoutSeconds : ℚ

namespace Settings

variable (settings : Settings)

def chatProvider : ProviderConfig where
  name := settings.aiProvider
  url := some settings.aiBaseUrl
  apiKey := settings.aiApiKey
  endpoints := [("chat", .lit "/chat/completions")]

def embeddingProviderConfig : ProviderConfig where
  name := settings.embeddingProvider
  url := some settings.embeddingBaseUrl
  apiKey := settings.embeddingApiKey
  endpoints := [("embedding", .lit "/embeddings")]

def chatCandidate : ModelCandidate where
  id := some settings.aiModel
  provider := settings.aiProvider
  model := settings.aiModel
  priority := some 1
  supportsTools := true
  timeoutSeconds := some settings.aiTimeoutSeconds

def embeddingCandidate : ModelCandidate where
  id := some settings.embeddingModel
  provider := settings.embeddingProvider
  model := settings.embeddingModel
  priority := some 1
  dimension := some settings.embeddingDimension
  timeoutSeconds := some settings.embeddingTimeoutSeconds

/-- `_legacy_config` -/
def legacyConfig : AIModelConfig where
  providers :=
    ((Dict.set [] settings.aiProvider settings.chatProvider).set settings.embeddingProvider
      settings.embeddingProviderConfig).set "noop" { name := "noop" }
  chat := { defaultModel := some settings.aiModel, candidates := [settings.chatCandidate] }
  embedding :=
    { defaultModel := some settings.embeddingModel, candidates := [settings.embeddingCandidate] }
  rerank :=
    { candidates := [
      { id := some "rerank-noop", provider := "noop", model := "noop", priority := some 100 }] }

end Settings

/-- The first target of a selection has the address and the key. -/
def Serves (targets : List ModelTarget) (url : Str) (apiKey : Option Str) : Prop :=
  ∃ target, targets.head? = some target ∧ resolveModelUrl target = .ok url ∧
    target.provider.apiKey = apiKey

namespace Settings

variable {settings : Settings} {store : ModelHealthStore} {now : ℚ}

/-- Chat and embedding go to their own addresses with their own keys. -/
def Faithful (settings : Settings) (store : ModelHealthStore) (now : ℚ) (requireTools : Bool) :
    Prop :=
  Serves (selectChatCandidates settings.legacyConfig store now false requireTools)
    (joinUrl settings.aiBaseUrl (.lit "/chat/completions")) settings.aiApiKey ∧
  Serves (selectEmbeddingCandidates settings.legacyConfig store now)
    (joinUrl settings.embeddingBaseUrl (.lit "/embeddings")) settings.embeddingApiKey

/-- Both circuits are closed. -/
structure Closed (settings : Settings) (store : ModelHealthStore) : Prop where
  chat : (store.health (resolveId settings.chatCandidate.toModelCandidate)).state = .closed
  embedding :
    (store.health (resolveId settings.embeddingCandidate.toModelCandidate)).state = .closed

theorem get_providers (name : String) : settings.legacyConfig.providers.get name =
    if name = "noop" then some { name := "noop" }
    else if name = settings.embeddingProvider then some settings.embeddingProviderConfig
    else if name = settings.aiProvider then some settings.chatProvider
    else none := by
  rw [legacyConfig]
  split_ifs with noop embedding chat
  · rw [noop, Dict.get_set_self]
  · rw [Dict.get_set_of_ne noop, embedding, Dict.get_set_self]
  · rw [Dict.get_set_of_ne noop, Dict.get_set_of_ne embedding, chat, Dict.get_set_self]
  · rw [Dict.get_set_of_ne noop, Dict.get_set_of_ne embedding, Dict.get_set_of_ne chat]
    rfl

/-- A selection among one candidate -/
theorem head_selectCandidates {config : AIModelConfig} {group : ModelGroup}
    {capability : ModelCapability} {candidate : ModelCandidate} {firstChoice : Option String}
    {requireTools : Bool} (only : group.candidates = [candidate]) (enabled : candidate.enabled = true)
    (tools : (!requireTools || candidate.supportsTools) = true)
    (available : store.isUnavailable now (resolveId candidate.toModelCandidate) = false) :
    (selectCandidates config store now group capability firstChoice false requireTools).head? =
      (config.providers.get candidate.provider).map fun provider =>
        ⟨resolveId candidate.toModelCandidate, capability, candidate, provider⟩ := by
  have sorted : filterAndSortCandidates group.candidates firstChoice false requireTools =
      [candidate] := by
    rw [filterAndSortCandidates, only, List.filter_cons_of_pos, List.filter_nil,
      List.mergeSort_singleton]
    simp [enabled, tools]
  rw [selectCandidates, sorted, List.filterMap_cons, buildModelTarget, available,
    if_neg Bool.false_ne_true]
  cases config.providers.get candidate.provider <;> rfl

theorem not_isUnavailable_of_closed {modelId : String}
    (closed : (store.health modelId).state = .closed) : store.isUnavailable now modelId = false := by
  unfold ModelHealthStore.isUnavailable
  cases found : store.get modelId with
  | none => rfl
  | some health =>
    rw [ModelHealthStore.health, found, Option.getD_some] at closed
    simp [closed]

/-- The chat model is served unless its provider's entry is overwritten or has no address. -/
theorem serves_chat_iff {requireTools : Bool}
    (closed : (store.health (resolveId settings.chatCandidate.toModelCandidate)).state = .closed) :
    Serves (selectChatCandidates settings.legacyConfig store now false requireTools)
        (joinUrl settings.aiBaseUrl (.lit "/chat/completions")) settings.aiApiKey ↔
      settings.aiProvider ≠ "noop" ∧ settings.aiProvider ≠ settings.embeddingProvider ∧
        settings.aiBaseUrl ≠ [] := by
  have head := @head_selectCandidates store now settings.legacyConfig settings.legacyConfig.chat .chat
    settings.chatCandidate
    (resolveFirstChoiceModel settings.legacyConfig.chat false) requireTools rfl rfl
    (Bool.or_true _) (not_isUnavailable_of_closed closed)
  rw [Serves, selectChatCandidates, head, get_providers]
  have name : settings.chatCandidate.provider = settings.aiProvider := rfl
  rw [name, if_pos (rfl : settings.aiProvider = settings.aiProvider)]
  split_ifs with noop embedding
  · -- the entry without an address
    refine iff_of_false ?_ fun apart => apart.1 noop
    rintro ⟨target, ⟨⟩, resolved, -⟩
    cases resolved
  · -- the entry of the embedding provider has no chat endpoint
    refine iff_of_false ?_ fun apart => apart.2.1 embedding
    rintro ⟨target, ⟨⟩, resolved, -⟩
    cases url : settings.embeddingBaseUrl <;>
      simp [resolveModelUrl, chatCandidate, embeddingProviderConfig, url, endpointPath, Dict.get,
        ModelCapability.value, Except.map] at resolved
  · cases url : settings.aiBaseUrl with
    | nil =>
      refine iff_of_false ?_ fun apart => apart.2.2 rfl
      rintro ⟨target, ⟨⟩, resolved, -⟩
      simp [resolveModelUrl, chatCandidate, chatProvider, url] at resolved
    | cons c rest =>
      refine iff_of_true ⟨_, rfl, ?_, rfl⟩ ⟨noop, embedding, List.cons_ne_nil c rest⟩
      simp [resolveModelUrl, chatCandidate, chatProvider, url, endpointPath, Dict.get,
        ModelCapability.value, Except.map, Str.lit]

/-- So is the embedding model, whose entry only the one for reranking overwrites. -/
theorem serves_embedding_iff (closed :
      (store.health (resolveId settings.embeddingCandidate.toModelCandidate)).state = .closed) :
    Serves (selectEmbeddingCandidates settings.legacyConfig store now)
        (joinUrl settings.embeddingBaseUrl (.lit "/embeddings")) settings.embeddingApiKey ↔
      settings.embeddingProvider ≠ "noop" ∧ settings.embeddingBaseUrl ≠ [] := by
  have head := @head_selectCandidates store now settings.legacyConfig settings.legacyConfig.embedding
    .embedding settings.embeddingCandidate settings.legacyConfig.embedding.defaultModel false rfl rfl
    rfl (not_isUnavailable_of_closed closed)
  rw [Serves, selectEmbeddingCandidates, head, get_providers]
  have name : settings.embeddingCandidate.provider = settings.embeddingProvider := rfl
  rw [name, if_pos (rfl : settings.embeddingProvider = settings.embeddingProvider)]
  split_ifs with noop
  · refine iff_of_false ?_ fun apart => apart.1 noop
    rintro ⟨target, ⟨⟩, resolved, -⟩
    cases resolved
  · cases url : settings.embeddingBaseUrl with
    | nil =>
      refine iff_of_false ?_ fun apart => apart.2 rfl
      rintro ⟨target, ⟨⟩, resolved, -⟩
      simp [resolveModelUrl, embeddingCandidate, embeddingProviderConfig, url] at resolved
    | cons c rest =>
      refine iff_of_true ⟨_, rfl, ?_, rfl⟩ ⟨noop, List.cons_ne_nil c rest⟩
      simp [resolveModelUrl, embeddingCandidate, embeddingProviderConfig, url, endpointPath, Dict.get,
        ModelCapability.value, Except.map, Str.lit]

/-- The legacy configuration is faithful exactly if the three providers have different names and the
two models have addresses. -/
theorem faithful_legacyConfig_iff {requireTools : Bool} (closed : Closed settings store) :
    Faithful settings store now requireTools ↔
      settings.aiProvider ≠ settings.embeddingProvider ∧ settings.aiProvider ≠ "noop" ∧
        settings.embeddingProvider ≠ "noop" ∧ settings.aiBaseUrl ≠ [] ∧
        settings.embeddingBaseUrl ≠ [] := by
  rw [Faithful, serves_chat_iff closed.chat, serves_embedding_iff closed.embedding]
  tauto

/-- The defaults of the settings -/
def defaults : Settings where
  aiProvider := "openai"
  aiApiKey := none
  aiBaseUrl := .lit "https://api.openai.com/v1"
  aiModel := "gpt-4o-mini"
  aiTimeoutSeconds := 25
  embeddingProvider := "siliconflow"
  embeddingApiKey := none
  embeddingBaseUrl := .lit "https://api.siliconflow.cn/v1"
  embeddingModel := "BAAI/bge-m3"
  embeddingDimension := 1024
  embeddingTimeoutSeconds := 60

theorem closed_getModelHealthStore : Closed settings getModelHealthStore := ⟨rfl, rfl⟩

theorem defaults_faithful : Faithful defaults getModelHealthStore 0 false :=
  (faithful_legacyConfig_iff closed_getModelHealthStore).mpr (by decide)

/-- One provider for both models: its entry for the chat model is lost. -/
theorem oneProvider_not_faithful : ¬ ∀ settings store now requireTools, Closed settings store →
    Faithful settings store now requireTools := by
  intro all
  have faithful := all { defaults with embeddingProvider := "openai" } getModelHealthStore 0 false
    closed_getModelHealthStore
  exact (serves_chat_iff closed_getModelHealthStore.chat).mp faithful.1 |>.2.1 rfl

end Settings

end Models

end HeyeeAgent.InfraAi
