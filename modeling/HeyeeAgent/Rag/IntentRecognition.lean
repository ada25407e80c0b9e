import HeyeeAgent.Rag.IntentGuidance
import HeyeeAgent.Rag.IntentResolver

/-! # Recognising the intents of a question

`recognize` gives the sub-questions of a rewritten question to the resolver, and what it keeps to the
guidance service. Both read one tree, so every score names a node of it, and no score that is kept is
`nan`.
-/

namespace HeyeeAgent.Rag

open Python ParentLinks

/-- `id_to_node` with the node objects -/
def IntentTreeData.nodeObjects (tree : IntentTreeData) : Dict Str IntentNode :=
  tree.idToNode.filterMap fun (code, i) =>
    (tree.allNodes[i]?).map fun node => (code, node.toIntentNode)

structure IntentRecognitionPipeline where
  intentResolver : IntentResolver
  guidanceService : IntentGuidanceService
  /-- `repr`, of what is no text -/
  repr : Object → Str
  /-- `float` of a text; none where it raises. -/
  floatOf : Str → Option PyFloat

/-- `merge_intent_group`: the scores of the nodes of a kind -/
def intentsOf (kind : IntentKind) (subIntents : List SubQuestionIntent) : List NodeScore :=
  (subIntents.flatMap SubQuestionIntent.nodeScores).filter fun score => score.node.kind = kind

/-- `is_system_only` -/
def isSystemOnly (subIntents : List SubQuestionIntent) : Bool :=
  let scores := subIntents.flatMap SubQuestionIntent.nodeScores
  !scores.isEmpty && scores.all fun score => score.node.kind = .system

namespace IntentRecognitionPipeline

variable (pipeline : IntentRecognitionPipeline)

/-- The classifier, which reads the tree of the guidance service -/
def classifier : IntentClassifier where
  idToNode := pipeline.guidanceService.tree.nodeObjects
  repr := pipeline.repr
  floatOf := pipeline.floatOf
  sorting := pipeline.intentResolver.sorting

/-- What the resolver keeps of the replies to the sub-questions -/
def subIntents (replies : ℕ → Option Str) (rewriteResult : RewriteResult) :
    List SubQuestionIntent :=
  pipeline.intentResolver.resolve rewriteResult fun index =>
    pipeline.classifier.classifyTargets (replies index)

/-- `recognize`, from the result of rewriting on; none where the bound is too small. -/
def recognize (fuel : ℕ) (replies : ℕ → Option Str) (complete : Str → Option Str)
    (rewriteResult : RewriteResult) : Option IntentRecognitionResult :=
  let subIntents := pipeline.subIntents replies rewriteResult
  (pipeline.guidanceService.detectAmbiguity fuel complete rewriteResult.rewrittenQuestion
    subIntents).map fun guidance => {
      rewriteResult, subIntents, guidance
      kbIntents := intentsOf .kb subIntents
      mcpIntents := intentsOf .mcp subIntents
      isSystemOnly := isSystemOnly subIntents }

end IntentRecognitionPipeline

/-- What the user is offered of the scores: categories of the tree in the order of their best scores,
each one with the names above it. A category is left out only if there are too many as good ones. -/
structure Offers (tree : IntentTreeData) (scores : List NodeScore) (limit : ℕ)
    (options : List CategoryScore) : Prop where
  distinct : (options.map CategoryScore.category).Nodup
  descending : options.Pairwise fun item next => PyFloat.le next.score item.score = true
  attained : ∀ item ∈ options, ∃ score ∈ scores, InCategory tree score item.category ∧
    item.score = score.score
  covers : ∀ score ∈ scores,
    (∃ item ∈ options, InCategory tree score item.category ∧
      PyFloat.le score.score item.score = true) ∨
    options.length = limit ∧ ∀ item ∈ options, PyFloat.le score.score item.score = true
  shown : ∀ item ∈ options, ∃ path, Ascent tree.parentOf item.category path ∧
    tree.displayOf item.category = Str.join (.lit " > ") (namesOn tree.allNodes path)

section Options

variable {tree : IntentTreeData} {scores : List NodeScore} {ranked : List CategoryScore}

/-- A node without a name is shown by its path as well. -/
theorem displayOf_eq (forest : tree.Forest) {i : ℕ} (inside : i < tree.allNodes.length) :
    ∃ path, Ascent tree.parentOf i path ∧
      tree.displayOf i = Str.join (.lit " > ") (namesOn tree.allNodes path) := by
  have here := List.getElem?_eq_getElem inside
  obtain ⟨path, ascent, full⟩ := forest.fullPath i _ here
  refine ⟨path, ascent, ?_⟩
  rw [IntentTreeData.displayOf, here, Option.map_some, Option.getD_some]
  split_ifs with empty
  · rw [← full, empty]
    refine Str.eq_nil_of_join_eq_nil (full.symm.trans empty) _ (List.mem_filterMap.mpr ⟨i, ?_, ?_⟩)
    · refine List.mem_reverse.mpr ?_
      cases ascent with
      | root => exact List.mem_cons_self
      | step => exact List.mem_cons_self
    · rw [here, IntentTreeData.nameOf, here]
      rfl
  · exact full

/-- The categories that are offered of a ranking -/
theorem offers_take (grounded : Grounded tree) (forest : tree.Forest)
    (inside : ∀ code i, tree.idToNode.get code = some i → i < tree.allNodes.length)
    (numbers : ∀ score ∈ scores, score.score ≠ .nan) (ranks : RanksCategories tree scores ranked)
    (limit : ℕ) : Offers tree scores limit (ranked.take limit) := by
  have number : ∀ item ∈ ranked, item.score ≠ .nan := by
    intro item member
    obtain ⟨score, listed, -, same, -⟩ := ranks.attained item member
    exact same ▸ numbers score listed
  have part : (ranked.take limit).Sublist ranked := List.take_sublist limit ranked
  refine ⟨ranks.distinct.sublist (part.map _), ranks.descending.sublist part, fun item member => ?_,
    fun score listed => ?_, fun item member => ?_⟩
  · obtain ⟨score, listed, own, same, -⟩ := ranks.attained item (part.subset member)
    exact ⟨score, listed, own, same⟩
  · obtain ⟨item, member, own⟩ := ranks.all score listed
    have better := ranks.best item member score listed own
    rw [← List.take_append_drop limit ranked, List.mem_append] at member
    rcases member with taken | dropped
    · exact .inl ⟨item, taken, own, better⟩
    · refine .inr ⟨?_, fun option taken => ?_⟩
      · have positive := List.length_pos_of_mem dropped
        rw [List.length_drop] at positive
        rw [List.length_take, min_eq_left (by omega)]
      · have sorted := ranks.descending
        rw [← List.take_append_drop limit ranked] at sorted
        have below := (List.pairwise_append.mp sorted).2.2 option taken item dropped
        have number_item := number item (List.mem_of_mem_drop dropped)
        have number_option := number option (part.subset taken)
        rw [PyFloat.le_iff_rank number_item number_option] at below
        rw [PyFloat.le_iff_rank (numbers score listed) number_item] at better
        exact (PyFloat.le_iff_rank (numbers score listed) number_option).mpr (better.trans below)
  · obtain ⟨score, -, own, -⟩ := ranks.attained item (part.subset member)
    exact displayOf_eq forest (inside _ _ (own.named grounded))

end Options

section Scores

variable {tree : IntentTreeData} {resolver : IntentResolver} {classifier : IntentClassifier}
  {score : NodeScore}

/-- A score that is kept comes from the classifier and is a number. -/
theorem mem_classifyIntents {scores : Option (List NodeScore)}
    (member : score ∈ resolver.classifyIntents scores) :
    (∃ listed, scores = some listed ∧ score ∈ listed) ∧ score.score ≠ .nan := by
  cases scores with
  | none => exact absurd member List.not_mem_nil
  | some listed =>
    obtain ⟨kept, enough⟩ := List.mem_filter.mp (List.mem_of_mem_take member)
    refine ⟨⟨listed, rfl, (resolver.sorting.perm NodeScore.score listed).mem_iff.mp kept⟩, ?_⟩
    intro nan
    rw [nan] at enough
    generalize resolver.minScore = least at enough
    cases least <;> cases enough

theorem length_classifyIntents_le (scores : Option (List NodeScore)) :
    (resolver.classifyIntents scores).length ≤ resolver.maxIntentCount := by
  cases scores with
  | none => exact Nat.zero_le _
  | some listed => exact List.length_take_le ..

theorem exists_of_mapM {α β : Type} {f : α → Option β} {items : List α} {converted : List β}
    (returned : items.mapM f = some converted) : ∀ b ∈ converted, ∃ a ∈ items, f a = some b := by
  induction items generalizing converted with
  | nil =>
    rw [List.mapM_nil] at returned
    cases returned
    exact fun b member => absurd member List.not_mem_nil
  | cons a items ih =>
    rw [List.mapM_cons] at returned
    obtain ⟨first, found, returned⟩ := Option.bind_eq_some_iff.mp returned
    obtain ⟨rest, later, returned⟩ := Option.bind_eq_some_iff.mp returned
    cases returned
    intro b member
    rcases List.mem_cons.mp member with rfl | member
    · exact ⟨a, List.mem_cons_self, found⟩
    · obtain ⟨a', listed, gives⟩ := ih later b member
      exact ⟨a', List.mem_cons_of_mem a listed, gives⟩

/-- Every score is one of a node that its id names. -/
theorem exists_of_parseScore {item : Dict Str Object}
    (parsed : classifier.parseScore item = some (some score)) :
    ∃ code, classifier.idToNode.get code = some score.node := by
  unfold IntentClassifier.parseScore at parsed
  split at parsed
  · cases parsed
  · cases parsed
  · split at parsed
    · cases parsed
    · rename_i node found
      obtain ⟨value, -, same⟩ := Option.map_eq_some_iff.mp parsed
      obtain ⟨number, -, rfl⟩ := Option.map_eq_some_iff.mp same
      exact ⟨_, found⟩

theorem exists_of_classifyTargets {reply : Option Str} {listed : List NodeScore}
    (classified : classifier.classifyTargets reply = some listed) (member : score ∈ listed) :
    ∃ code, classifier.idToNode.get code = some score.node := by
  obtain ⟨scores, parsed, rfl⟩ := Option.map_eq_some_iff.mp classified
  replace member := (classifier.sorting.perm NodeScore.score scores).mem_iff.mp member
  obtain ⟨text, -, parsed⟩ := Option.bind_eq_some_iff.mp parsed
  obtain ⟨items, -, parsed⟩ := Option.bind_eq_some_iff.mp parsed
  obtain ⟨results, converted, rfl⟩ := Option.map_eq_some_iff.mp parsed
  obtain ⟨result, found, same⟩ := List.mem_filterMap.mp member
  cases same
  obtain ⟨item, -, parsed⟩ := exists_of_mapM converted _ found
  exact exists_of_parseScore parsed

end Scores

section Tree

variable {records : List IntentNodeRecord} {nodes : List TreeNode} {tree : IntentTreeData}

theorem Built.lt_of_idToNode (built : Built nodes tree) {code : Str} {i : ℕ}
    (found : tree.idToNode.get code = some i) : i < tree.allNodes.length := by
  rw [built.idToNode] at found
  obtain ⟨node, here, -⟩ := exists_of_idToNode found
  rw [built.length_eq]
  exact (List.getElem?_eq_some_iff.mp here).1

/-- The id of a node object names a node. -/
theorem Built.exists_of_nodeObjects (built : Built nodes tree) {code : Str} {node : IntentNode}
    (found : tree.nodeObjects.get code = some node) : ∃ i, tree.idToNode.get node.id = some i := by
  obtain ⟨⟨code', i⟩, listed, same⟩ := List.mem_filterMap.mp (Dict.mem_of_get found)
  obtain ⟨object, there, same⟩ := Option.map_eq_some_iff.mp same
  cases same
  rw [built.idToNode] at listed
  obtain ⟨⟨before, place⟩, here, same⟩ := Dict.exists_of_mem_comprehend listed
  cases same
  have own : object.id = before.id := by
    have ids := built.idOf_eq (List.mem_zipIdx_iff_getElem?.mp here)
    rwa [IntentTreeData.idOf, there, Option.map_some, Option.getD_some] at ids
  rw [built.idToNode, own]
  have named : ∃ j, (idToNodeOf nodes).get before.id = some j := Dict.exists_get_comprehend here
  exact named

end Tree

namespace IntentResolver

variable {resolver : IntentResolver} {rewriteResult : RewriteResult}
  {scores : ℕ → Option (List NodeScore)} {subIntent : SubQuestionIntent}

theorem length_capTotalIntents (subIntents : List SubQuestionIntent) :
    (resolver.capTotalIntents subIntents).length = subIntents.length := by
  rw [capTotalIntents]
  dsimp only
  split_ifs
  · rfl
  · exact List.length_mapIdx

/-- The scores of one sub-question are never too many in all. -/
theorem nodeScores_of_single (single : resolver.resolve rewriteResult scores = [subIntent]) :
    subIntent.nodeScores = resolver.classifyIntents (scores 0) := by
  have size := congrArg List.length single
  rw [resolve, length_capTotalIntents, List.length_mapIdx, List.length_singleton] at size
  obtain ⟨question, same⟩ := List.length_eq_one_iff.mp size
  rw [resolve, same, capTotalIntents] at single
  simp only [List.mapIdx_cons, List.mapIdx_nil, List.map_cons, List.map_nil, List.sum_cons,
    List.sum_nil, Nat.add_zero] at single
  rw [if_pos (length_classifyIntents_le (scores 0))] at single
  cases single
  rfl

end IntentResolver

theorem IntentGuidanceService.detectAmbiguity_several (service : IntentGuidanceService) {fuel : ℕ}
    {complete : Str → Option Str} {question : Str} {subIntents : List SubQuestionIntent}
    (several : ∀ subIntent, subIntents ≠ [subIntent]) :
    service.detectAmbiguity fuel complete question subIntents = some ⟨.none, none⟩ := by
  rcases subIntents with _ | ⟨first, _ | ⟨second, rest⟩⟩
  · rfl
  · exact absurd rfl (several first)
  · rfl

/-- The scores that the guidance service looks at -/
def SubQuestionIntent.kbScores (subIntent : SubQuestionIntent) : List NodeScore :=
  subIntent.nodeScores.filter fun score => score.node.isKb

/-- For several sub-questions the user is not asked. For one, the user is asked exactly if its
categories compete, and is offered the best of them. -/
structure Guided (service : IntentGuidanceService) (complete : Str → Option Str)
    (result : IntentRecognitionResult) : Prop where
  several : (∀ subIntent, result.subIntents ≠ [subIntent]) → result.guidance = ⟨.none, none⟩
  single : ∀ subIntent, result.subIntents = [subIntent] → ∃ ranked,
    RanksCategories service.tree subIntent.kbScores ranked ∧
    Offers service.tree subIntent.kbScores service.maxOptions (ranked.take service.maxOptions) ∧
    (service.Competes complete result.rewriteResult.rewrittenQuestion ranked →
      result.guidance = service.promptUser subIntent ranked) ∧
    (¬ service.Competes complete result.rewriteResult.rewrittenQuestion ranked →
      result.guidance = ⟨.none, none⟩)

namespace IntentRecognitionPipeline

section Guidance

variable {pipeline : IntentRecognitionPipeline} {records : List IntentNodeRecord}
  {replies : ℕ → Option Str} {complete : Str → Option Str} {rewriteResult : RewriteResult}
  {subIntent : SubQuestionIntent}

/-- The scores that reach the guidance service are numbers, of nodes of its tree. -/
theorem known_of_single
    (built : Built (nodesOf records) pipeline.guidanceService.tree)
    (single : pipeline.subIntents replies rewriteResult = [subIntent]) :
    ∀ score ∈ subIntent.nodeScores, score.score ≠ .nan ∧
      ∃ i, pipeline.guidanceService.tree.idToNode.get score.node.id = some i := by
  intro score member
  rw [IntentResolver.nodeScores_of_single single] at member
  obtain ⟨⟨listed, classified, member⟩, number⟩ := mem_classifyIntents member
  obtain ⟨code, found⟩ := exists_of_classifyTargets classified member
  exact ⟨number, built.exists_of_nodeObjects found⟩

/-- Whatever the model replies, the question is recognised and the user is asked only where two
categories compete. -/
theorem guided_recognize (pipeline : IntentRecognitionPipeline)
    (distinct : (records.map IntentNodeRecord.intentCode).Nodup) (acyclic : AcyclicRecords records)
    (builds : BuildsIntentTree records pipeline.guidanceService.tree)
    (replies : ℕ → Option Str) (complete : Str → Option Str) (rewriteResult : RewriteResult) :
    ∃ result, (∀ fuel, pipeline.guidanceService.tree.allNodes.length < fuel →
      pipeline.recognize fuel replies complete rewriteResult = some result) ∧
      Guided pipeline.guidanceService complete result := by
  obtain ⟨tree, builds', built⟩ := exists_built records
  obtain rfl := builds'.unique builds
  obtain ⟨forest, grounded⟩ := grounded_of_records distinct acyclic builds
  let service := pipeline.guidanceService
  let question := rewriteResult.rewrittenQuestion
  let result (guidance : GuidanceDecision) : IntentRecognitionResult :=
    let subIntents := pipeline.subIntents replies rewriteResult
    { rewriteResult, subIntents, guidance
      kbIntents := intentsOf .kb subIntents
      mcpIntents := intentsOf .mcp subIntents
      isSystemOnly := isSystemOnly subIntents }
  have recognized {decision : GuidanceDecision}
      (decides : ∀ fuel, service.tree.allNodes.length < fuel → service.detectAmbiguity fuel complete
        question (pipeline.subIntents replies rewriteResult) = some decision) :
      ∀ fuel, service.tree.allNodes.length < fuel →
        pipeline.recognize fuel replies complete rewriteResult = some (result decision) :=
    fun fuel enough => congrArg (Option.map result) (decides fuel enough)
  by_cases one : ∃ subIntent, pipeline.subIntents replies rewriteResult = [subIntent]
  · obtain ⟨subIntent, single⟩ := one
    have known := known_of_single built single
    obtain ⟨ranked, ranks, decision, decides, outcome⟩ :=
      @IntentGuidanceService.detectAmbiguity_cases service complete question subIntent grounded
        (fun score member => (known score member).2) (fun score member => (known score member).1)
    rw [← single] at decides
    refine ⟨result decision, recognized decides, fun several => absurd single (several subIntent),
      fun subIntent' single' => ?_⟩
    obtain rfl : subIntent' = subIntent := List.head_eq_of_cons_eq (single'.symm.trans single)
    refine ⟨ranked, ranks, ?_, fun competes => ?_, fun calm => ?_⟩
    · refine offers_take grounded forest (fun _ _ => built.lt_of_idToNode) (fun score member => ?_)
        ranks _
      exact (known score (List.mem_filter.mp member).1).1
    · exact outcome.elim And.right fun other => absurd competes other.1
    · exact outcome.elim (fun other => absurd other.1 calm) And.right
  · have several : ∀ subIntent, pipeline.subIntents replies rewriteResult ≠ [subIntent] :=
      fun subIntent single => one ⟨subIntent, single⟩
    refine ⟨result ⟨.none, none⟩, recognized fun _ _ => service.detectAmbiguity_several several, fun _ => rfl, ?_⟩
    exact fun subIntent single => absurd single (several subIntent)

end Guidance

section Shop

def shopRecords : List IntentNodeRecord := [
  { intentCode := .lit "shop", name := .lit "Shop", level := 0, parentCode := none, kind := 0 },
  { intentCode := .lit "returns", name := .lit "Returns", level := 1
    parentCode := some (.lit "shop"), kind := 0 },
  { intentCode := .lit "delivery", name := .lit "Delivery", level := 1
    parentCode := some (.lit "shop"), kind := 0 }]

theorem shopRecords_acyclic : AcyclicRecords shopRecords :=
  acyclicRecords_of_levels (by decide)

def shopTree : IntentTreeData where
  roots := [0]
  leafNodes := [1, 2]
  idToNode := [(.lit "shop", 0), (.lit "returns", 1), (.lit "delivery", 2)]
  allNodes := [
    { id := .lit "shop", name := .lit "Shop", level := .domain, fullPath := .lit "Shop"
      children := [1, 2] },
    { id := .lit "returns", name := .lit "Returns", level := .category
      fullPath := .lit "Shop > Returns", parentId := some (.lit "shop"), parent := some 0 },
    { id := .lit "delivery", name := .lit "Delivery", level := .category
      fullPath := .lit "Shop > Delivery", parentId := some (.lit "shop"), parent := some 0 }]

theorem shopTree_built : BuildsIntentTree shopRecords shopTree := by
  have nodes : nodesOf shopRecords = shopRecords.map recordToNode := by
    rw [nodesOf, List.mergeSort_of_pairwise]
    decide
  refine ⟨4, ?_⟩
  rw [buildIntentTree, nodes]
  rfl

def shopPipeline : IntentRecognitionPipeline where
  intentResolver := { minScore := .finite 0, maxIntentCount := 3, sorting := FloatSort.insertion }
  guidanceService := {
    tree := shopTree
    guidancePrompt := .lit "Which one?"
    ambiguityPrompt := .lit "Which one is meant?"
    scoreRatio := .finite (4 / 5)
    margin := .finite (3 / 20)
    maxOptions := 6
    sorting := FloatSort.insertion
    lower := id
    isWord := fun _ => true
    floatText := fun _ => [] }
  repr := fun _ => []
  floatOf := fun _ => none

/-- Two categories of one score -/
def shopReply : Str := Str.lit <|
  "[\x7b\"id\": \"returns\", \"score\": 1\x7d, " ++
  "\x7b\"id\": \"delivery\", \"score\": 1\x7d]"

def shopQuestion : RewriteResult := ⟨.lit "How long?", .lit "How long?", [.lit "How long?"]⟩

/-- The user is asked which of the two is meant. -/
theorem guided_recognize_shop :
    (shopPipeline.recognize 4 (fun _ => some shopReply) (fun _ => none) shopQuestion).map
      (fun result => result.guidance.action) = some .prompt ∧
    ∃ result, (∀ fuel, shopTree.allNodes.length < fuel → shopPipeline.recognize fuel
        (fun _ => some shopReply) (fun _ => none) shopQuestion = some result) ∧
      Guided shopPipeline.guidanceService (fun _ => none) result :=
  ⟨by decide +kernel, guided_recognize shopPipeline (by decide) shopRecords_acyclic shopTree_built
    _ _ _⟩

end Shop

end IntentRecognitionPipeline

end HeyeeAgent.Rag
