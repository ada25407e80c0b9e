import HeyeeAgent.Python.FloatArithmetic
import HeyeeAgent.Python.JsonEncoder
import HeyeeAgent.Rag.IntentForest
import HeyeeAgent.Rag.LlmResponseCleaner
import HeyeeAgent.Rag.PromptTemplates
import HeyeeAgent.Ranking.Best
import HeyeeAgent.Ranking.BestOfEach

/-! # Asking the user which category is meant

`detect_ambiguity` keeps the best score of every category, and asks if the second best category comes
near the best one. In between the model is asked; a reply that cannot be read counts as a yes.
-/

namespace HeyeeAgent.Rag

open Python Relation ParentLinks Ranking
open Python.JsonEncoder (decimal)

def IntentNode.isKb (node : IntentNode) : Bool := node.kind = .kb

/-- What `_rank_best_per_category` keeps: the node object of a category with its best score -/
structure CategoryScore where
  category : ℕ
  score : PyFloat
  reason : Option Str := none
deriving DecidableEq

structure IntentGuidanceService where
  /-- the tree of the node objects -/
  tree : IntentTreeData
  /-- `guidance-prompt.st` -/
  guidancePrompt : Str
  /-- `guidance-ambiguity-check.st` -/
  ambiguityPrompt : Str
  scoreRatio : PyFloat
  margin : PyFloat
  maxOptions : ℕ
  sorting : FloatSort
  /-- `str.lower` -/
  lower : Str → Str
  /-- `\w` -/
  isWord : ℕ → Bool
  /-- `str` of a score -/
  floatText : PyFloat → Str

namespace IntentTreeData

variable (tree : IntentTreeData)

def idOf (i : ℕ) : Str := ((tree.allNodes[i]?).map fun node => node.id).getD []

def nameOf (i : ℕ) : Str := ((tree.allNodes[i]?).map fun node => node.name).getD []

/-- `node.full_path or node.name` -/
def displayOf (i : ℕ) : Str :=
  let fullPath := ((tree.allNodes[i]?).map fun node => node.fullPath).getD []
  if fullPath = [] then tree.nameOf i else fullPath

/-- The score under its category; none where the bound is too small or the node is not of the tree. -/
def categoryScore (fuel : ℕ) (score : NodeScore) : Option CategoryScore := do
  let place ← tree.idToNode.get score.node.id
  let category ← tree.resolveCategoryNode fuel place
  return { category, score := score.score, reason := score.reason }

end IntentTreeData

namespace IntentGuidanceService

variable (service : IntentGuidanceService)

/-- `_rank_best_per_category` -/
def rankBestPerCategory (fuel : ℕ) (scores : List NodeScore) : Option (List CategoryScore) :=
  (scores.mapM (service.tree.categoryScore fuel)).map fun placed =>
    service.sorting.run CategoryScore.score <| List.map Prod.snd <|
      bestOfEach (fun item => service.tree.idOf item.category)
        (fun item current => PyFloat.lt current.score item.score) placed

/-- `_normalize` -/
def normalize (value : Str) : Str :=
  (service.lower value).filter fun c => service.isWord c && c != 95

/-- Whether the question has the name of the domain above a category -/
def mentions (fuel : ℕ) (normalizedQuestion : Str) (item : CategoryScore) : Option Bool :=
  (service.tree.resolveDomainNode fuel (some item.category)).map fun domain => domain.any fun domain =>
    let normalizedDomain := service.normalize (service.tree.nameOf domain)
    2 ≤ normalizedDomain.length && decide (normalizedDomain <:+: normalizedQuestion)

/-- `_mentions_domain` -/
def mentionsDomain (fuel : ℕ) (question : Str) (ranked : List CategoryScore) : Option Bool :=
  let normalizedQuestion := service.normalize question
  if normalizedQuestion = [] then some false
  else ranked.anyM (service.mentions fuel normalizedQuestion)

/-- `_topic_name` -/
def topicName (subIntent : SubQuestionIntent) : Str :=
  match subIntent.nodeScores.find? fun score => score.node.isKb with
  | some score => score.node.name
  | none => subIntent.subQuestion

/-- `_render_options` -/
def renderOptions (ranked : List CategoryScore) : Str :=
  Str.join [10] ((ranked.zipIdx 1).map fun (item, index) =>
    decimal index ++ .lit ") " ++ service.tree.displayOf item.category)

/-- `_build_candidates_text` -/
def buildCandidatesText (ranked : List CategoryScore) : Str :=
  Str.join [10] (ranked.map fun item =>
    .lit "- id=" ++ service.tree.idOf item.category ++ .lit "\n  name=" ++
      service.tree.nameOf item.category ++ .lit "\n  path=" ++ service.tree.displayOf item.category ++
      .lit "\n  score=" ++ service.floatText item.score)

/-- `check_ambiguity` with the model, which may fail -/
def checkAmbiguity (complete : Str → Option Str) (question : Str) (ranked : List CategoryScore) :
    Bool :=
  let prompt := PromptTemplates.renderText service.ambiguityPrompt
    [(.lit "question", question), (.lit "candidates", service.buildCandidatesText ranked)]
  match (complete prompt).bind parseJsonObject with
  | some parsed => (Object.get parsed (.lit "ambiguous")).truthy
  | none => true

/-- The prompt for the options that are left -/
def promptUser (subIntent : SubQuestionIntent) (ranked : List CategoryScore) : GuidanceDecision where
  action := .prompt
  prompt := some (PromptTemplates.renderText service.guidancePrompt
    [(.lit "topic_name", topicName subIntent),
      (.lit "options", service.renderOptions (ranked.take service.maxOptions))])

/-- The comparison of the two best categories, once no domain is mentioned -/
def compareScores (complete : Str → Option Str) (question : Str) (subIntent : SubQuestionIntent)
    (ranked : List CategoryScore) (top second : PyFloat) : GuidanceDecision :=
  if PyFloat.le top (.finite 0) then ⟨.none, none⟩
  else
    let ratio := second.div top
    if ratio.lt (service.scoreRatio.sub service.margin) then ⟨.none, none⟩
    else if ratio.lt service.scoreRatio && !service.checkAmbiguity complete question ranked then
      ⟨.none, none⟩
    else service.promptUser subIntent ranked

/-- `detect_ambiguity`; none where the bound is too small. -/
def detectAmbiguity (fuel : ℕ) (complete : Str → Option Str) (question : Str) :
    List SubQuestionIntent → Option GuidanceDecision
  | [subIntent] => do
    let ranked ← service.rankBestPerCategory fuel
      (subIntent.nodeScores.filter fun score => score.node.isKb)
    match ranked with
    | top :: second :: _ =>
      if ← service.mentionsDomain fuel question ranked then return ⟨.none, none⟩
      return service.compareScores complete question subIntent ranked top.score second.score
    | _ => return ⟨.none, none⟩
  | _ => some ⟨.none, none⟩

end IntentGuidanceService

section Walks

variable {tree : IntentTreeData} {i c d : ℕ} {path : List ℕ}

namespace IntentTreeData

/-- A category, or a root that stands for one -/
def isCategory (tree : IntentTreeData) (i : ℕ) : Bool :=
  tree.parentOf i = none || tree.levelOf i = some .category

def isDomain (tree : IntentTreeData) (i : ℕ) : Bool := tree.levelOf i = some .domain

/-- The first category on the way up -/
def Category (tree : IntentTreeData) (i c : ℕ) : Prop :=
  ∃ path, Ascent tree.parentOf i path ∧ path.find? tree.isCategory = some c

/-- The first domain on the way up -/
def Domain (tree : IntentTreeData) (i d : ℕ) : Prop :=
  ∃ path, Ascent tree.parentOf i path ∧ path.find? tree.isDomain = some d

end IntentTreeData

theorem resolveCategoryNode_eq (ascent : Ascent tree.parentOf i path) {fuel : ℕ}
    (enough : path.length ≤ fuel) :
    tree.resolveCategoryNode fuel i = path.find? tree.isCategory := by
  induction ascent generalizing fuel with
  | @root i top =>
    obtain ⟨fuel, rfl⟩ := Nat.exists_eq_add_of_le' enough
    rw [List.length_singleton, IntentTreeData.resolveCategoryNode, top, List.find?_cons_of_pos]
    simp [IntentTreeData.isCategory, top]
  | @step i parent path link _ ih =>
    rw [List.length_cons] at enough
    obtain ⟨fuel, rfl⟩ := Nat.exists_eq_add_of_le' (Nat.one_le_of_lt enough)
    rw [IntentTreeData.resolveCategoryNode, link]
    dsimp only
    split_ifs with here
    · rw [List.find?_cons_of_pos]
      simp [IntentTreeData.isCategory, here]
    · rw [List.find?_cons_of_neg (by simp [IntentTreeData.isCategory, link, here])]
      exact ih (by omega)

theorem resolveDomainNode_eq (ascent : Ascent tree.parentOf i path) {fuel : ℕ}
    (enough : path.length < fuel) :
    tree.resolveDomainNode fuel (some i) = some (path.find? tree.isDomain) := by
  induction ascent generalizing fuel with
  | @root i top =>
    rw [List.length_singleton] at enough
    obtain ⟨fuel, rfl⟩ := Nat.exists_eq_add_of_le' enough
    rw [IntentTreeData.resolveDomainNode, top]
    split_ifs with here
    · rw [List.find?_cons_of_pos (by simpa [IntentTreeData.isDomain] using here)]
    · rw [List.find?_cons_of_neg (by simpa [IntentTreeData.isDomain] using here)]
      rfl
  | @step i parent path link _ ih =>
    rw [List.length_cons] at enough
    obtain ⟨fuel, rfl⟩ := Nat.exists_eq_add_of_le' (Nat.one_le_of_lt enough)
    rw [IntentTreeData.resolveDomainNode, link]
    split_ifs with here
    · rw [List.find?_cons_of_pos (by simpa [IntentTreeData.isDomain] using here)]
    · rw [List.find?_cons_of_neg (by simpa [IntentTreeData.isDomain] using here)]
      exact ih (by omega)

/-- Every path has a category, if only the root. -/
theorem exists_category (ascent : Ascent tree.parentOf i path) :
    ∃ c, path.find? tree.isCategory = some c := by
  induction ascent with
  | @root i top =>
    refine ⟨i, List.find?_cons_of_pos ?_⟩
    simp [IntentTreeData.isCategory, top]
  | @step i parent path link _ ih =>
    cases here : tree.isCategory i with
    | true => exact ⟨i, List.find?_cons_of_pos here⟩
    | false =>
      obtain ⟨c, found⟩ := ih
      exact ⟨c, by rw [List.find?_cons_of_neg (by simp [here]), found]⟩

theorem IntentTreeData.Category.unique {c' : ℕ} (first : tree.Category i c) (second : tree.Category i c') :
    c = c' := by
  obtain ⟨path, ascent, found⟩ := first
  obtain ⟨path', ascent', found'⟩ := second
  rw [ascent.unique ascent', found'] at found
  exact (Option.some_inj.mp found).symm

end Walks

/-- Every node that an id names is reached by links from it only to nodes that their ids name, and its
path ends. -/
structure Grounded (tree : IntentTreeData) : Prop where
  named : ∀ code i, tree.idToNode.get code = some i → tree.idOf i = code
  path : ∀ code i, tree.idToNode.get code = some i →
    ∃ path, Ascent tree.parentOf i path ∧ path.length ≤ tree.allNodes.length
  parent : ∀ i j, tree.parentOf i = some j → tree.idToNode.get (tree.idOf j) = some j

/-- The score's node is of the category. -/
def InCategory (tree : IntentTreeData) (score : NodeScore) (c : ℕ) : Prop :=
  ∃ i, tree.idToNode.get score.node.id = some i ∧ tree.Category i c

/-- The categories of the scores with their best scores, the best one first -/
structure RanksCategories (tree : IntentTreeData) (scores : List NodeScore)
    (ranked : List CategoryScore) : Prop where
  distinct : (ranked.map CategoryScore.category).Nodup
  descending : ranked.Pairwise fun item next => PyFloat.le next.score item.score = true
  attained : ∀ item ∈ ranked, ∃ score ∈ scores, InCategory tree score item.category ∧
    item.score = score.score ∧ item.reason = score.reason
  best : ∀ item ∈ ranked, ∀ score ∈ scores, InCategory tree score item.category →
    PyFloat.le score.score item.score = true
  all : ∀ score ∈ scores, ∃ item ∈ ranked, InCategory tree score item.category

section Trees

variable {records : List IntentNodeRecord} {nodes : List TreeNode} {tree : IntentTreeData}

theorem map_id_skeleton (nodes : List TreeNode) :
    (skeleton nodes).map (fun node => node.id) = nodes.map fun node => node.id := by
  rw [skeleton, List.map_map]
  rfl

theorem Built.ids (built : Built nodes tree) :
    tree.allNodes.map (fun node => node.id) = nodes.map fun node => node.id := by
  rw [← map_id_skeleton, built.skeleton, map_id_skeleton]
  refine List.ext_getElem? fun i => ?_
  rw [List.getElem?_map, List.getElem?_map, linkedNodes, getElem?_linkedUpTo, Option.map_map]
  rfl

theorem Built.idOf_eq (built : Built nodes tree) {i : ℕ} {node : TreeNode}
    (here : nodes[i]? = some node) : tree.idOf i = node.id := by
  have same := congrArg (fun ids => ids[i]?) built.ids
  simp only [List.getElem?_map, here, Option.map_some] at same
  rw [IntentTreeData.idOf, same, Option.getD_some]

theorem grounded_of_forest (built : Built nodes tree) (forest : tree.Forest) : Grounded tree where
  named code i found := by
    rw [built.idToNode] at found
    obtain ⟨node, here, same⟩ := exists_of_idToNode found
    rw [built.idOf_eq here, same]
  path code i found := by
    rw [built.idToNode] at found
    obtain ⟨node, here, -⟩ := exists_of_idToNode found
    have inside : i < tree.allNodes.length :=
      built.length_eq ▸ (List.getElem?_eq_some_iff.mp here).1
    obtain ⟨root, member, up⟩ := forest.reaches i inside
    obtain ⟨path, ascent⟩ := exists_ascent_of_root ((forest.roots root).mp member).2 up
    refine ⟨path, ascent, ?_⟩
    have short := ascent.length_le built.closed (Finset.mem_range.mpr inside)
    rwa [Finset.card_range] at short
  parent i j link := by
    rw [built.parentOf_eq] at link
    obtain ⟨node, -, found⟩ := Option.bind_eq_some_iff.mp link
    obtain ⟨parent, there, same⟩ := exists_of_idToNode found
    rw [built.idOf_eq there, same, built.idToNode]
    exact found

/-- The tree of records of which none is above itself. -/
theorem grounded_of_records (distinct : (records.map IntentNodeRecord.intentCode).Nodup)
    (acyclic : AcyclicRecords records) (builds : BuildsIntentTree records tree) :
    tree.Forest ∧ Grounded tree := by
  obtain ⟨tree', builds', built⟩ := exists_built records
  obtain rfl := builds.unique builds'
  have forest := built.forest ((built.exists_ascent_iff distinct).mpr acyclic)
  exact ⟨forest, grounded_of_forest built forest⟩

end Trees

section Ranked

variable {tree : IntentTreeData} {score : NodeScore} {scores : List NodeScore} {c c' : ℕ}

/-- A category is the node that its id names. -/
theorem InCategory.named (grounded : Grounded tree) (placed : InCategory tree score c) :
    tree.idToNode.get (tree.idOf c) = some c := by
  obtain ⟨i, found, path, ascent, first⟩ := placed
  rcases (ascent.of_mem (List.mem_of_find?_eq_some first)).2 with rfl | ⟨j, link⟩
  · rwa [grounded.named _ _ found]
  · exact grounded.parent j c link

theorem InCategory.unique (first : InCategory tree score c) (second : InCategory tree score c') :
    c = c' := by
  obtain ⟨i, found, category⟩ := first
  obtain ⟨i', found', category'⟩ := second
  cases found.symm.trans found'
  exact category.unique category'

/-- What the first loop makes of a score -/
def Placed (tree : IntentTreeData) (score : NodeScore) (item : CategoryScore) : Prop :=
  InCategory tree score item.category ∧ item.score = score.score ∧ item.reason = score.reason

theorem exists_categoryScore (grounded : Grounded tree) {i : ℕ}
    (known : tree.idToNode.get score.node.id = some i) : ∃ item, Placed tree score item ∧
      ∀ fuel, tree.allNodes.length < fuel → tree.categoryScore fuel score = some item := by
  obtain ⟨path, ascent, short⟩ := grounded.path _ i known
  obtain ⟨c, found⟩ := exists_category ascent
  refine ⟨⟨c, score.score, score.reason⟩, ⟨⟨i, known, path, ascent, found⟩, rfl, rfl⟩, ?_⟩
  intro fuel enough
  rw [IntentTreeData.categoryScore, known, Option.bind_eq_bind, Option.bind_some,
    resolveCategoryNode_eq ascent (short.trans enough.le), found]
  rfl

theorem exists_mapM_categoryScore (grounded : Grounded tree)
    (known : ∀ score ∈ scores, ∃ i, tree.idToNode.get score.node.id = some i) :
    ∃ items, List.Forall₂ (Placed tree) scores items ∧
      ∀ fuel, tree.allNodes.length < fuel → scores.mapM (tree.categoryScore fuel) = some items := by
  induction scores with
  | nil => exact ⟨[], .nil, fun _ _ => rfl⟩
  | cons score scores ih =>
    obtain ⟨first, others⟩ := List.forall_mem_cons.mp known
    obtain ⟨i, found⟩ := first
    obtain ⟨item, placed, gives⟩ := exists_categoryScore grounded found
    obtain ⟨items, all, rest⟩ := ih others
    refine ⟨item :: items, .cons placed all, fun fuel enough => ?_⟩
    rw [List.mapM_cons, gives fuel enough, rest fuel enough]
    rfl

/-- The group of an item is its category. -/
theorem Placed.category_eq (grounded : Grounded tree) {other : NodeScore} {item item' : CategoryScore}
    (placed : Placed tree score item) (placed' : Placed tree other item')
    (same : tree.idOf item.category = tree.idOf item'.category) : item.category = item'.category := by
  have found := placed.1.named grounded
  rw [same, placed'.1.named grounded] at found
  exact (Option.some_inj.mp found).symm

/-- Every category has its best score, whatever the order of the scores. -/
theorem ranksCategories (grounded : Grounded tree) (sorting : FloatSort) {items : List CategoryScore}
    (numbers : ∀ score ∈ scores, score.score ≠ .nan)
    (placed : List.Forall₂ (Placed tree) scores items) :
    RanksCategories tree scores (sorting.run CategoryScore.score <| List.map Prod.snd <|
      bestOfEach (fun item => tree.idOf item.category)
        (fun item current => PyFloat.lt current.score item.score) items) := by
  let group (item : CategoryScore) : Str := tree.idOf item.category
  let best := bestOfEach group (fun item current => PyFloat.lt current.score item.score) items
  have of_item : ∀ item ∈ items, ∃ score ∈ scores, Placed tree score item := by
    intro item member
    obtain ⟨i, inside, rfl⟩ := List.mem_iff_getElem.mp member
    have bound : i < scores.length := placed.length_eq ▸ inside
    exact ⟨scores[i], List.getElem_mem bound, List.Forall₂.get placed bound inside⟩
  have of_score : ∀ score ∈ scores, ∃ item ∈ items, Placed tree score item := by
    intro score member
    obtain ⟨i, inside, rfl⟩ := List.mem_iff_getElem.mp member
    have bound : i < items.length := placed.length_eq ▸ inside
    exact ⟨items[i], List.getElem_mem bound, List.Forall₂.get placed inside bound⟩
  have number : ∀ item ∈ items, item.score ≠ .nan := by
    intro item member
    obtain ⟨score, listed, -, same, -⟩ := of_item item member
    exact same ▸ numbers score listed
  have ordered : ∀ item ∈ items, ∀ current ∈ items,
      PyFloat.lt current.score item.score = true ↔ current.score.rank < item.score.rank :=
    fun item first current second =>
      PyFloat.lt_iff_rank (number current second) (number item first)
  have kept := @get_bestOfEach _ _ _ _ group (fun item => item.score.rank) items _ _ ordered
  have first_of (item : CategoryScore) (member : item ∈ best.map Prod.snd) :
      FirstBest group (fun item => item.score.rank) items (group item) item := by
    obtain ⟨⟨k, item⟩, entry, rfl⟩ := List.mem_map.mp member
    have first := (kept k).1 item (get_of_mem nodup_keys_bestOfEach entry)
    dsimp only
    rwa [first.key_eq]
  have keys : best.map (fun entry => group entry.2) = best.keys := by
    refine List.map_congr_left fun entry member => ?_
    exact ((kept entry.1).1 entry.2 (get_of_mem nodup_keys_bestOfEach member)).key_eq
  have perm := sorting.perm CategoryScore.score (best.map Prod.snd)
  refine ⟨?_, sorting.pairwise_run fun item member => number item (first_of item member).mem,
    fun item member => ?_, fun item member score listed own => ?_, fun score member => ?_⟩
  · rw [(perm.map CategoryScore.category).nodup_iff, List.map_map]
    refine List.Nodup.of_map tree.idOf ?_
    rw [List.map_map]
    change (best.map fun entry => group entry.2).Nodup
    rw [keys]
    exact nodup_keys_bestOfEach
  · obtain ⟨score, listed, own, same⟩ := of_item item (first_of item (perm.subset member)).mem
    exact ⟨score, listed, own, same⟩
  · have first := first_of item (perm.subset member)
    obtain ⟨item', listed', placed', same, -⟩ := of_score score listed
    have rank := first.le listed' (congrArg tree.idOf (placed'.unique own))
    rw [← same]
    exact (PyFloat.le_iff_rank (number item' listed') (number item first.mem)).mpr rank
  · obtain ⟨item', listed', placed'⟩ := of_score score member
    cases there : best.get (group item') with
    | none => exact absurd rfl ((kept (group item')).2 there item' listed')
    | some item =>
      have first := (kept (group item')).1 item there
      obtain ⟨score', -, placed⟩ := of_item item first.mem
      have same := Placed.category_eq grounded placed placed' first.key_eq
      refine ⟨item, perm.symm.subset (List.mem_map_of_mem (Dict.mem_of_get there)), ?_⟩
      rw [same]
      exact placed'.1

end Ranked

namespace IntentGuidanceService

section Decision

variable {service : IntentGuidanceService} {complete : Str → Option Str} {question : Str}
  {subIntent : SubQuestionIntent} {ranked : List CategoryScore} {item : CategoryScore}

/-- The question has the name of the domain above the category, but for signs and the case. -/
def Mentioned (service : IntentGuidanceService) (question : Str) (item : CategoryScore) : Prop :=
  ∃ domain, service.tree.Domain item.category domain ∧
    2 ≤ (service.normalize (service.tree.nameOf domain)).length ∧
    service.normalize (service.tree.nameOf domain) <:+: service.normalize question

/-- No domain is mentioned, and the second category is near the best one, or in doubt not far. -/
def Competes (service : IntentGuidanceService) (complete : Str → Option Str) (question : Str)
    (ranked : List CategoryScore) : Prop :=
  ∃ top second rest, ranked = top :: second :: rest ∧
    (∀ item ∈ ranked, ¬ service.Mentioned question item) ∧
    PyFloat.le top.score (.finite 0) = false ∧
    (second.score.div top.score).lt (service.scoreRatio.sub service.margin) = false ∧
    ((second.score.div top.score).lt service.scoreRatio = true →
      service.checkAmbiguity complete question ranked = true)

variable (question) in
theorem exists_mentions (grounded : Grounded service.tree)
    (named : service.tree.idToNode.get (service.tree.idOf item.category) = some item.category) :
    ∃ mentioned, (mentioned = true ↔ service.Mentioned question item) ∧
      ∀ fuel, service.tree.allNodes.length < fuel →
        service.mentions fuel (service.normalize question) item = some mentioned := by
  obtain ⟨path, ascent, short⟩ := grounded.path _ _ named
  refine ⟨(path.find? service.tree.isDomain).any fun domain =>
    2 ≤ (service.normalize (service.tree.nameOf domain)).length &&
      decide (service.normalize (service.tree.nameOf domain) <:+: service.normalize question),
    ?_, fun fuel enough => ?_⟩
  · rw [Option.any_eq_true]
    constructor
    · rintro ⟨domain, found, holds⟩
      rw [Bool.and_eq_true, decide_eq_true_eq, decide_eq_true_eq] at holds
      exact ⟨domain, ⟨path, ascent, found⟩, holds.1, holds.2⟩
    · rintro ⟨domain, ⟨path', ascent', found⟩, long, inside⟩
      rw [ascent.unique ascent']
      exact ⟨domain, found, by simp [long, inside]⟩
  · rw [mentions, resolveDomainNode_eq ascent (short.trans_lt enough), Option.map_some]

variable (question) in
theorem exists_anyM (grounded : Grounded service.tree)
    (named : ∀ item ∈ ranked,
      service.tree.idToNode.get (service.tree.idOf item.category) = some item.category) :
    ∃ mentioned, (mentioned = true ↔ ∃ item ∈ ranked, service.Mentioned question item) ∧
      ∀ fuel, service.tree.allNodes.length < fuel →
        ranked.anyM (service.mentions fuel (service.normalize question)) = some mentioned := by
  induction ranked with
  | nil => exact ⟨false, by simp, fun _ _ => rfl⟩
  | cons item ranked ih =>
    obtain ⟨first, others⟩ := List.forall_mem_cons.mp named
    obtain ⟨here, iff, gives⟩ := exists_mentions question grounded first
    obtain ⟨later, later_iff, rest⟩ := ih others
    refine ⟨here || later, ?_, fun fuel enough => ?_⟩
    · rw [Bool.or_eq_true, iff, later_iff, List.exists_mem_cons_iff]
    · rw [List.anyM_cons, gives fuel enough]
      cases here with
      | true => rfl
      | false => exact rest fuel enough

variable (question) in
/-- A question without words mentions nothing. -/
theorem exists_mentionsDomain (grounded : Grounded service.tree)
    (named : ∀ item ∈ ranked,
      service.tree.idToNode.get (service.tree.idOf item.category) = some item.category) :
    ∃ mentioned, (mentioned = true ↔ ∃ item ∈ ranked, service.Mentioned question item) ∧
      ∀ fuel, service.tree.allNodes.length < fuel →
        service.mentionsDomain fuel question ranked = some mentioned := by
  by_cases wordless : service.normalize question = []
  · refine ⟨false, ⟨fun holds => absurd holds Bool.false_ne_true, ?_⟩, fun fuel _ => if_pos wordless⟩
    rintro ⟨item, -, domain, -, long, inside⟩
    rw [wordless, List.infix_nil] at inside
    rw [inside] at long
    cases long
  · obtain ⟨mentioned, iff, gives⟩ := exists_anyM question grounded named
    exact ⟨mentioned, iff, fun fuel enough => (if_neg wordless).trans (gives fuel enough)⟩

theorem compareScores_cases {top second : CategoryScore} {rest : List CategoryScore}
    (ranks : ranked = top :: second :: rest)
    (free : ∀ item ∈ ranked, ¬ service.Mentioned question item) :
    service.Competes complete question ranked ∧
      service.compareScores complete question subIntent ranked top.score second.score =
        service.promptUser subIntent ranked ∨
    ¬ service.Competes complete question ranked ∧
      service.compareScores complete question subIntent ranked top.score second.score =
        ⟨.none, none⟩ := by
  have iff : service.Competes complete question ranked ↔
      PyFloat.le top.score (.finite 0) = false ∧
      (second.score.div top.score).lt (service.scoreRatio.sub service.margin) = false ∧
      ((second.score.div top.score).lt service.scoreRatio = true →
        service.checkAmbiguity complete question ranked = true) := by
    constructor
    · rintro ⟨top', second', rest', same, -, conditions⟩
      cases ranks.symm.trans same
      exact conditions
    · exact fun conditions => ⟨top, second, rest, ranks, free, conditions⟩
  rw [iff]
  unfold compareScores
  dsimp only
  split_ifs with nothing far doubt
  · exact .inr ⟨fun competes => by simp [nothing] at competes, rfl⟩
  · exact .inr ⟨fun competes => by simp [far] at competes, rfl⟩
  · rw [Bool.and_eq_true, Bool.not_eq_true'] at doubt
    exact .inr ⟨fun competes => by simp [doubt] at competes, rfl⟩
  · refine .inl ⟨⟨Bool.eq_false_iff.mpr nothing, Bool.eq_false_iff.mpr far, fun less => ?_⟩, rfl⟩
    by_contra clear
    exact doubt (by simp [less, clear])

variable (service) in
theorem exists_rankBestPerCategory (scores : List NodeScore) (grounded : Grounded service.tree)
    (known : ∀ score ∈ scores, ∃ i, service.tree.idToNode.get score.node.id = some i)
    (numbers : ∀ score ∈ scores, score.score ≠ .nan) :
    ∃ ranked, RanksCategories service.tree scores ranked ∧
      (∀ item ∈ ranked,
        service.tree.idToNode.get (service.tree.idOf item.category) = some item.category) ∧
      ∀ fuel, service.tree.allNodes.length < fuel →
        service.rankBestPerCategory fuel scores = some ranked := by
  obtain ⟨items, placed, gives⟩ := exists_mapM_categoryScore grounded known
  have ranks := ranksCategories grounded service.sorting numbers placed
  refine ⟨_, ranks, fun item member => ?_, fun fuel enough => ?_⟩
  · obtain ⟨score, -, own, -⟩ := ranks.attained item member
    exact own.named grounded
  · rw [rankBestPerCategory, gives fuel enough, Option.map_some]

/-- One sub-question: the categories are ranked, and the user is asked exactly if they compete. -/
theorem detectAmbiguity_cases (grounded : Grounded service.tree)
    (known : ∀ score ∈ subIntent.nodeScores,
      ∃ i, service.tree.idToNode.get score.node.id = some i)
    (numbers : ∀ score ∈ subIntent.nodeScores, score.score ≠ .nan) :
    ∃ ranked, RanksCategories service.tree
        (subIntent.nodeScores.filter fun score => score.node.isKb) ranked ∧
      ∃ decision, (∀ fuel, service.tree.allNodes.length < fuel →
          service.detectAmbiguity fuel complete question [subIntent] = some decision) ∧
        (service.Competes complete question ranked ∧ decision = service.promptUser subIntent ranked ∨
          ¬ service.Competes complete question ranked ∧ decision = ⟨.none, none⟩) := by
  obtain ⟨ranked, ranks, named, ranking⟩ := exists_rankBestPerCategory service
    (subIntent.nodeScores.filter fun score => score.node.isKb) grounded
    (fun score member => known score (List.mem_filter.mp member).1)
    (fun score member => numbers score (List.mem_filter.mp member).1)
  obtain ⟨mentioned, iff, mentions⟩ := exists_mentionsDomain question grounded named
  refine ⟨ranked, ranks, ?_⟩
  have few (short : ∀ top second rest, ranked ≠ top :: second :: rest) :
      ¬ service.Competes complete question ranked := by
    rintro ⟨top, second, rest, same, -⟩
    exact short top second rest same
  rcases ranked with _ | ⟨top, _ | ⟨second, rest⟩⟩
  · refine ⟨⟨.none, none⟩, fun fuel enough => ?_, .inr ⟨few (by simp), rfl⟩⟩
    rw [detectAmbiguity, ranking fuel enough]
    rfl
  · refine ⟨⟨.none, none⟩, fun fuel enough => ?_, .inr ⟨few (by simp), rfl⟩⟩
    rw [detectAmbiguity, ranking fuel enough]
    rfl
  · cases mentioned with
    | true =>
      refine ⟨⟨.none, none⟩, fun fuel enough => ?_, .inr ⟨?_, rfl⟩⟩
      · rw [detectAmbiguity, ranking fuel enough, Option.bind_eq_bind, Option.bind_some]
        dsimp only
        rw [mentions fuel enough]
        rfl
      · rintro ⟨-, -, -, -, free, -⟩
        obtain ⟨item, member, holds⟩ := iff.mp rfl
        exact free item member holds
    | false =>
      refine ⟨service.compareScores complete question subIntent (top :: second :: rest) top.score
        second.score, fun fuel enough => ?_, ?_⟩
      · rw [detectAmbiguity, ranking fuel enough, Option.bind_eq_bind, Option.bind_some]
        dsimp only
        rw [mentions fuel enough]
        rfl
      · refine compareScores_cases rfl fun item member holds => ?_
        exact absurd (iff.mpr ⟨item, member, holds⟩) Bool.false_ne_true

end Decision

end IntentGuidanceService

end HeyeeAgent.Rag
