import HeyeeAgent.Mcp.Execution
import HeyeeAgent.Rag.IntentClassifier

/-! # Intents of sub-questions

The best scores of every sub-question are kept. Where they are too many in all, each sub-question
keeps its best one, and the best of the others fill what is left.
-/

namespace HeyeeAgent.Rag

open Python

structure IntentCandidate where
  subQuestionIndex : ℕ
  nodeScore : NodeScore
deriving DecidableEq

namespace IntentCandidate

def score (candidate : IntentCandidate) : PyFloat := candidate.nodeScore.score

/-- The sub-question with the id of the node -/
def key (candidate : IntentCandidate) : ℕ × Str :=
  (candidate.subQuestionIndex, candidate.nodeScore.node.id)

end IntentCandidate

structure IntentResolver where
  minScore : PyFloat
  maxIntentCount : ℕ
  sorting : FloatSort

namespace IntentResolver

variable (resolver : IntentResolver)

/-- `_classify_intents` with the scores of the classifier, if it does not raise. -/
def classifyIntents (scores : Option (List NodeScore)) : List NodeScore :=
  match scores with
  | none => []
  | some scores =>
    ((resolver.sorting.run NodeScore.score scores).filter fun score =>
      PyFloat.le resolver.minScore score.score).take resolver.maxIntentCount

/-- `_collect_candidates` -/
def collectCandidates (subIntents : List SubQuestionIntent) : List IntentCandidate :=
  resolver.sorting.run IntentCandidate.score <|
    subIntents.zipIdx.flatMap fun (subIntent, index) =>
      subIntent.nodeScores.map fun nodeScore => ⟨index, nodeScore⟩

/-- The loop of `_select_top_per_sub_question`; a flag is set where an index is among the selected. -/
def selectTop (subQuestionCount : ℕ) :
    List IntentCandidate → List IntentCandidate → List IntentCandidate
  | selected, [] => selected
  | selected, candidate :: candidates =>
    if candidate.subQuestionIndex ∈ selected.map IntentCandidate.subQuestionIndex then
      selectTop subQuestionCount selected candidates
    else
      let selected := selected ++ [candidate]
      if selected.length = subQuestionCount then selected
      else selectTop subQuestionCount selected candidates

/-- The loop of `_select_additional` -/
def fillAdditional (selectedIds : List (ℕ × Str)) (remaining : ℕ) :
    List IntentCandidate → List IntentCandidate → List IntentCandidate
  | additional, [] => additional
  | additional, candidate :: candidates =>
    if candidate.key ∈ selectedIds then fillAdditional selectedIds remaining additional candidates
    else
      let additional := additional ++ [candidate]
      if additional.length ≥ remaining then additional
      else fillAdditional selectedIds remaining additional candidates

/-- `_select_additional`; where nothing remains, the difference is not positive. -/
def selectAdditional (candidates selected : List IntentCandidate) (remaining : ℕ) :
    List IntentCandidate :=
  if remaining = 0 then []
  else fillAdditional (selected.map IntentCandidate.key) remaining [] candidates

/-- `_rebuild_sub_intents` -/
def rebuildSubIntents (original : List SubQuestionIntent) (selected : List IntentCandidate) :
    List SubQuestionIntent :=
  original.mapIdx fun index subIntent =>
    let grouped := selected.filter fun candidate => candidate.subQuestionIndex = index
    ⟨subIntent.subQuestion,
      resolver.sorting.run NodeScore.score (grouped.map IntentCandidate.nodeScore)⟩

/-- `cap_total_intents` -/
def capTotalIntents (subIntents : List SubQuestionIntent) : List SubQuestionIntent :=
  let total := (subIntents.map fun subIntent => subIntent.nodeScores.length).sum
  if total ≤ resolver.maxIntentCount then subIntents
  else
    let allCandidates := resolver.collectCandidates subIntents
    let guaranteed := selectTop subIntents.length [] allCandidates
    let remaining := resolver.maxIntentCount - guaranteed.length
    let additional := selectAdditional allCandidates guaranteed remaining
    resolver.rebuildSubIntents subIntents (guaranteed ++ additional)

/-- `rewrite_result.sub_questions or [rewrite_result.rewritten_question]` -/
def subQuestions (rewriteResult : RewriteResult) : List Str :=
  if rewriteResult.subQuestions = [] then [rewriteResult.rewrittenQuestion]
  else rewriteResult.subQuestions

/-- `resolve` with what the classifier gives for each sub-question -/
def resolve (rewriteResult : RewriteResult) (scores : ℕ → Option (List NodeScore)) :
    List SubQuestionIntent :=
  resolver.capTotalIntents <| (subQuestions rewriteResult).mapIdx fun index question =>
    ⟨question, resolver.classifyIntents (scores index)⟩

section Selection

variable {candidates selected additional : List IntentCandidate} {count : ℕ}

/-- The first candidate of a sub-question -/
def top (candidates : List IntentCandidate) (index : ℕ) : Option IntentCandidate :=
  candidates.find? fun candidate => candidate.subQuestionIndex = index

/-- The indices of the candidates -/
def indices (candidates : List IntentCandidate) : List ℕ :=
  candidates.map IntentCandidate.subQuestionIndex

/-- As many different indices as there are sub-questions are all of them. -/
theorem mem_of_full {listed : List ℕ} (distinct : listed.Nodup) (bounded : ∀ i ∈ listed, i < count)
    (full : listed.length = count) {i : ℕ} (below : i < count) : i ∈ listed := by
  have subset : listed ⊆ List.range count := fun j member => List.mem_range.mpr (bounded j member)
  have perm := (List.subperm_of_subset distinct subset).perm_of_length_le (by simp [full])
  exact perm.symm.subset (List.mem_range.mpr below)

theorem top_cons (candidate : IntentCandidate) (candidates : List IntentCandidate) (index : ℕ) :
    top (candidate :: candidates) index =
      if candidate.subQuestionIndex = index then some candidate else top candidates index := by
  unfold top
  rw [List.find?_cons]
  split_ifs with same
  · rw [decide_eq_true same]
  · rw [decide_eq_false same]

theorem mem_of_top {index : ℕ} {c : IntentCandidate} (first : top candidates index = some c) :
    c ∈ candidates ∧ c.subQuestionIndex = index :=
  ⟨List.mem_of_find?_eq_some first, of_decide_eq_true (List.find?_some first :)⟩

theorem mem_indices_append {i : ℕ} {candidate : IntentCandidate} :
    i ∈ indices (selected ++ [candidate]) ↔ i ∈ indices selected ∨ i = candidate.subQuestionIndex := by
  rw [indices, List.map_append, List.mem_append, List.map_singleton, List.mem_singleton]
  rfl

/-- A candidate of a new sub-question is the next to be selected. -/
theorem mem_selected_append {candidate c : IntentCandidate}
    (new : candidate.subQuestionIndex ∉ indices selected) :
    (c ∈ selected ++ [candidate] ∨ c.subQuestionIndex ∉ indices (selected ++ [candidate]) ∧
        top candidates c.subQuestionIndex = some c) ↔
      c ∈ selected ∨ c.subQuestionIndex ∉ indices selected ∧
        top (candidate :: candidates) c.subQuestionIndex = some c := by
  rw [List.mem_append, List.mem_singleton, mem_indices_append, top_cons, not_or, or_assoc]
  refine or_congr_right ?_
  by_cases same : candidate.subQuestionIndex = c.subQuestionIndex
  · rw [if_pos same, Option.some.injEq]
    constructor
    · rintro (rfl | ⟨⟨-, other⟩, -⟩)
      · exact ⟨new, rfl⟩
      · exact absurd same.symm other
    · rintro ⟨-, rfl⟩
      exact .inl rfl
  · rw [if_neg same]
    constructor
    · rintro (rfl | ⟨⟨fresh, -⟩, first⟩)
      · exact absurd rfl same
      · exact ⟨fresh, first⟩
    · rintro ⟨fresh, first⟩
      exact .inr ⟨⟨fresh, fun eq => same eq.symm⟩, first⟩

/-- The first candidate of every sub-question is selected, and no second one. -/
theorem selectTop_spec (bounded : ∀ c ∈ selected ++ candidates, c.subQuestionIndex < count)
    (distinct : (indices selected).Nodup) :
    (indices (selectTop count selected candidates)).Nodup ∧
    ∀ c, c ∈ selectTop count selected candidates ↔ c ∈ selected ∨
      c.subQuestionIndex ∉ indices selected ∧ top candidates c.subQuestionIndex = some c := by
  induction candidates generalizing selected with
  | nil => exact ⟨distinct, fun c => ⟨.inl, fun either => either.elim id fun new => by cases new.2⟩⟩
  | cons candidate candidates ih =>
    rw [selectTop]
    split_ifs with flagged
    · have bounded' : ∀ c ∈ selected ++ candidates, c.subQuestionIndex < count := fun c member =>
        bounded c ((List.Sublist.append_left (List.sublist_cons_self _ _) _).subset member)
      refine ⟨(ih bounded' distinct).1, fun c => ((ih bounded' distinct).2 c).trans ?_⟩
      refine or_congr_right (and_congr_right fun fresh => ?_)
      rw [top_cons, if_neg]
      intro same
      rw [← same] at fresh
      exact fresh flagged
    · have distinct' : (indices (selected ++ [candidate])).Nodup := by
        rw [indices, List.map_append]
        exact distinct.append (List.nodup_singleton _) (List.disjoint_singleton.mpr flagged)
      rw [List.append_cons] at bounded
      dsimp only
      split_ifs with full
      · -- every sub-question has its candidate
        refine ⟨distinct', fun c => Iff.trans ?_ (mem_selected_append flagged)⟩
        refine ⟨.inl, fun either => either.elim id fun new => absurd ?_ new.1⟩
        have below := bounded c (List.mem_append_right _ (mem_of_top new.2).1)
        refine mem_of_full distinct' (fun i listed => ?_) (by simpa [indices] using full) below
        obtain ⟨c, member, rfl⟩ := List.mem_map.mp listed
        exact bounded c (List.mem_append_left _ member)
      · exact ⟨(ih bounded distinct').1, fun c =>
          ((ih bounded distinct').2 c).trans (mem_selected_append flagged)⟩

/-- The next candidates of other keys fill what remains. -/
theorem fillAdditional_eq {selectedIds : List (ℕ × Str)} {remaining : ℕ}
    (room : additional.length < remaining) :
    fillAdditional selectedIds remaining additional candidates = additional ++
      (candidates.filter fun c => c.key ∉ selectedIds).take (remaining - additional.length) := by
  induction candidates generalizing additional with
  | nil =>
    rw [List.filter_nil, List.take_nil, List.append_nil]
    rfl
  | cons candidate candidates ih =>
    rw [fillAdditional]
    split_ifs with taken
    · rw [ih room, List.filter_cons_of_neg (by simpa using taken)]
    · have one : remaining - additional.length = remaining - (additional.length + 1) + 1 := by omega
      have size : (additional ++ [candidate]).length = additional.length + 1 := by simp
      rw [List.filter_cons_of_pos (by simpa using taken), one, List.take_succ_cons]
      dsimp only
      split_ifs with full
      · have none : remaining - (additional.length + 1) = 0 := by omega
        rw [none, List.take_zero]
      · rw [ih (by omega), size, List.append_assoc, List.singleton_append]

theorem selectAdditional_eq (remaining : ℕ) : selectAdditional candidates selected remaining =
    (candidates.filter fun c => c.key ∉ selected.map IntentCandidate.key).take remaining := by
  unfold selectAdditional
  split_ifs with none
  · rw [none, List.take_zero]
  · rw [fillAdditional_eq (Nat.pos_of_ne_zero none)]
    rfl

/-- The node ids of the candidates of a sub-question -/
def idsOf (candidates : List IntentCandidate) (index : ℕ) : List Str :=
  (candidates.filter fun c => c.subQuestionIndex = index).map fun c => c.nodeScore.node.id

/-- The keys differ exactly if the ids of every sub-question do. -/
theorem nodup_keys_iff (bounded : ∀ c ∈ candidates, c.subQuestionIndex < count) :
    (candidates.map IntentCandidate.key).Nodup ↔ ∀ i < count, (idsOf candidates i).Nodup := by
  simp only [idsOf, List.Nodup, List.pairwise_map, List.pairwise_filter, decide_eq_true_eq]
  constructor
  · intro distinct i _
    refine distinct.imp fun {a b} differ first second same => differ ?_
    exact Prod.ext (first.trans second.symm) same
  · intro each
    rw [List.pairwise_iff_getElem]
    intro i j below below' less same
    obtain ⟨index, id⟩ := Prod.mk.inj same
    have differ := List.pairwise_iff_getElem.mp
      (each _ (bounded _ (List.getElem_mem below))) i j below below' less
    exact differ rfl index.symm id

end Selection

section Repetition

variable (resolver : IntentResolver) (scores : ℕ → Option (List NodeScore)) (count : ℕ)

/-- The scores that are high enough, in the order of `sorted` -/
def ranking (scores : Option (List NodeScore)) : List NodeScore :=
  ((scores.map (resolver.sorting.run NodeScore.score)).getD []).filter fun score =>
    PyFloat.le resolver.minScore score.score

/-- The first of every ranking, as many as the limit lets in, in the order of `sorted` -/
def candidatesOf : List IntentCandidate :=
  resolver.sorting.run IntentCandidate.score <| (List.range count).flatMap fun index =>
    ((resolver.ranking (scores index)).take resolver.maxIntentCount).map (IntentCandidate.mk index)

/-- How many there are -/
def totalOf : ℕ :=
  ((List.range count).map fun index =>
    min resolver.maxIntentCount (resolver.ranking (scores index)).length).sum

/-- The places that the best candidates of the sub-questions leave -/
def placesLeft : ℕ :=
  resolver.maxIntentCount -
    ((List.range count).filter fun index => resolver.ranking (scores index) ≠ []).length

/-- The candidates for another node than that of their sub-question's best one -/
def others : List IntentCandidate :=
  (resolver.candidatesOf scores count).filter fun c =>
    (top (resolver.candidatesOf scores count) c.subQuestionIndex).map IntentCandidate.key ≠
      some c.key

/-- Where all scores fit, no ranking has an id twice within the limit; else no two of the candidates
that the places are left for have both their sub-question and their id in common. -/
structure Unrepeated : Prop where
  fits : resolver.totalOf scores count ≤ resolver.maxIntentCount → ∀ index < count,
    (((resolver.ranking (scores index)).take resolver.maxIntentCount).map
      fun score => score.node.id).Nodup
  capped : resolver.maxIntentCount < resolver.totalOf scores count →
    (((resolver.others scores count).take (resolver.placesLeft scores count)).map
      IntentCandidate.key).Nodup

end Repetition

end IntentResolver

/-- A sub-question has at most one score for a node, and at most one request to call its tool. -/
def OncePerIntent (subIntents : List SubQuestionIntent) : Prop :=
  ∀ subIntent ∈ subIntents, (subIntent.nodeScores.map fun score => score.node.id).Nodup ∧
    ((Mcp.requests [subIntent]).map fun request => request.node.id).Nodup

namespace IntentResolver

variable {resolver : IntentResolver} {scores : ℕ → Option (List NodeScore)}
  {rewriteResult : RewriteResult}

theorem forall_mem_mapIdx {α β : Type} {items : List α} {f : ℕ → α → β} {P : β → Prop}
    {Q : ℕ → Prop} (same : ∀ i a, P (f i a) ↔ Q i) :
    (∀ b ∈ items.mapIdx f, P b) ↔ ∀ i < items.length, Q i := by
  constructor
  · intro all i below
    exact (same i items[i]).mp (all _ (List.mem_mapIdx.mpr ⟨i, below, rfl⟩))
  · intro all b member
    obtain ⟨i, below, rfl⟩ := List.mem_mapIdx.mp member
    exact (same i items[i]).mpr (all i below)

/-- The requests of a sub-question name their nodes as its scores do. -/
theorem requests_sublist (subIntent : SubQuestionIntent) :
    ((Mcp.requests [subIntent]).map fun request => request.node.id).Sublist
      (subIntent.nodeScores.map fun score => score.node.id) := by
  rw [Mcp.requests, List.flatMap_singleton]
  induction subIntent.nodeScores with
  | nil => exact List.Sublist.slnil
  | cons score nodeScores ih =>
    rw [List.filterMap_cons]
    split
    case h_1 => exact ih.cons _
    case h_2 request made =>
      have named : request.node = score.node := by
        split at made
        · split_ifs at made
          cases made
          rfl
        · cases made
      rw [List.map_cons, List.map_cons, named]
      exact ih.cons_cons _

theorem oncePerIntent_iff {subIntents : List SubQuestionIntent} : OncePerIntent subIntents ↔
    ∀ subIntent ∈ subIntents, (subIntent.nodeScores.map fun score => score.node.id).Nodup :=
  forall₂_congr fun subIntent _ =>
    ⟨And.left, fun distinct => ⟨distinct, distinct.sublist (requests_sublist subIntent)⟩⟩

section Candidates

variable {count : ℕ} {c : IntentCandidate}

theorem classifyIntents_eq (scores : Option (List NodeScore)) : resolver.classifyIntents scores =
    (resolver.ranking scores).take resolver.maxIntentCount := by
  cases scores with
  | none => exact List.take_nil.symm
  | some scores => rfl

theorem mem_candidatesOf : c ∈ resolver.candidatesOf scores count ↔
    c.subQuestionIndex < count ∧ c.nodeScore ∈
      (resolver.ranking (scores c.subQuestionIndex)).take resolver.maxIntentCount := by
  rw [candidatesOf, (resolver.sorting.perm _ _).mem_iff, List.mem_flatMap]
  constructor
  · rintro ⟨index, below, member⟩
    obtain ⟨nodeScore, kept, rfl⟩ := List.mem_map.mp member
    exact ⟨List.mem_range.mp below, kept⟩
  · rintro ⟨below, kept⟩
    exact ⟨c.subQuestionIndex, List.mem_range.mpr below, List.mem_map.mpr ⟨_, kept, rfl⟩⟩

/-- The best candidates of the sub-questions -/
def guaranteed (resolver : IntentResolver) (scores : ℕ → Option (List NodeScore)) (count : ℕ) :
    List IntentCandidate := selectTop count [] (resolver.candidatesOf scores count)

theorem guaranteed_spec (resolver : IntentResolver) (scores : ℕ → Option (List NodeScore))
    (count : ℕ) : (indices (resolver.guaranteed scores count)).Nodup ∧
    ∀ c, c ∈ resolver.guaranteed scores count ↔
      top (resolver.candidatesOf scores count) c.subQuestionIndex = some c := by
  have bounded : ∀ c ∈ [] ++ resolver.candidatesOf scores count, c.subQuestionIndex < count :=
    fun c member => (mem_candidatesOf.mp member).1
  have spec := selectTop_spec bounded List.nodup_nil
  refine ⟨spec.1, fun c => (spec.2 c).trans ?_⟩
  exact ⟨fun either => either.elim (fun member => absurd member List.not_mem_nil) And.right,
    fun first => .inr ⟨List.not_mem_nil, first⟩⟩

/-- The best candidates name the nodes that are passed over. -/
theorem key_mem_guaranteed : c.key ∈ (resolver.guaranteed scores count).map IntentCandidate.key ↔
    (top (resolver.candidatesOf scores count) c.subQuestionIndex).map IntentCandidate.key =
      some c.key := by
  have spec := (guaranteed_spec resolver scores count).2
  rw [List.mem_map, Option.map_eq_some_iff]
  constructor
  · rintro ⟨g, member, same⟩
    have index : g.subQuestionIndex = c.subQuestionIndex := congrArg Prod.fst same
    exact ⟨g, index ▸ (spec g).mp member, same⟩
  · rintro ⟨g, first, same⟩
    have index : g.subQuestionIndex = c.subQuestionIndex := congrArg Prod.fst same
    exact ⟨g, (spec g).mpr (index ▸ first), same⟩

theorem mem_indices_guaranteed {i : ℕ} : i ∈ indices (resolver.guaranteed scores count) ↔
    i < count ∧ (resolver.ranking (scores i)).take resolver.maxIntentCount ≠ [] := by
  have spec := (guaranteed_spec resolver scores count).2
  rw [indices, List.mem_map]
  constructor
  · rintro ⟨g, member, rfl⟩
    obtain ⟨below, kept⟩ := mem_candidatesOf.mp (mem_of_top ((spec g).mp member)).1
    exact ⟨below, List.ne_nil_of_mem kept⟩
  · rintro ⟨below, some⟩
    obtain ⟨nodeScore, kept⟩ := List.exists_mem_of_ne_nil _ some
    have there : (top (resolver.candidatesOf scores count) i).isSome :=
      List.find?_isSome.mpr ⟨⟨i, nodeScore⟩, mem_candidatesOf.mpr ⟨below, kept⟩, by simp⟩
    obtain ⟨g, first⟩ := Option.isSome_iff_exists.mp there
    obtain ⟨-, index⟩ := mem_of_top first
    exact ⟨g, (spec g).mpr (index ▸ first), index⟩

theorem placesLeft_eq : resolver.placesLeft scores count =
    resolver.maxIntentCount - (resolver.guaranteed scores count).length := by
  cases limit : resolver.maxIntentCount with
  | zero => simp [placesLeft, limit]
  | succ more =>
    have same : (indices (resolver.guaranteed scores count)).Perm
        ((List.range count).filter fun index => resolver.ranking (scores index) ≠ []) := by
      rw [List.perm_ext_iff_of_nodup (guaranteed_spec resolver scores count).1
        (List.nodup_range.filter _)]
      intro i
      rw [mem_indices_guaranteed, List.mem_filter, List.mem_range, decide_eq_true_eq, limit]
      refine and_congr_right fun _ => not_congr ?_
      rw [List.take_eq_nil_iff]
      exact ⟨fun either => either.resolve_left (Nat.succ_ne_zero more), .inr⟩
    rw [placesLeft, limit, ← same.length_eq, indices, List.length_map]

theorem others_eq : resolver.others scores count = (resolver.candidatesOf scores count).filter
    fun c => c.key ∉ (resolver.guaranteed scores count).map IntentCandidate.key :=
  List.filter_congr fun _ _ => decide_eq_decide.mpr (not_congr key_mem_guaranteed.symm)

end Candidates

/-- Next to the best candidates only the additional ones can repeat a key. -/
theorem nodup_selected_iff {count : ℕ} : (∀ i < count, (idsOf (resolver.guaranteed scores count ++
      (resolver.others scores count).take (resolver.placesLeft scores count)) i).Nodup) ↔
    (((resolver.others scores count).take (resolver.placesLeft scores count)).map
      IntentCandidate.key).Nodup := by
  have spec := guaranteed_spec resolver scores count
  have bounded : ∀ c ∈ resolver.guaranteed scores count ++
      (resolver.others scores count).take (resolver.placesLeft scores count),
      c.subQuestionIndex < count := by
    intro c member
    have listed : c ∈ resolver.candidatesOf scores count := by
      rcases List.mem_append.mp member with best | other
      · exact (mem_of_top ((spec.2 c).mp best)).1
      · exact List.mem_of_mem_filter (List.mem_of_mem_take other)
    exact (mem_candidatesOf.mp listed).1
  have distinct : ((resolver.guaranteed scores count).map IntentCandidate.key).Nodup := by
    refine List.Nodup.of_map Prod.fst ?_
    rw [List.map_map]
    exact spec.1
  rw [← nodup_keys_iff bounded, List.map_append, List.nodup_append']
  refine ⟨fun all => all.2.1, fun additional => ⟨distinct, additional, fun key best other => ?_⟩⟩
  obtain ⟨c, member, rfl⟩ := List.mem_map.mp other
  rw [others_eq] at member
  have new := List.of_mem_filter (List.mem_of_mem_take member)
  exact of_decide_eq_true new best

section Resolve

variable {questions : List Str}

/-- The sub-questions with the scores that are kept for each -/
def subIntentsOf (resolver : IntentResolver) (scores : ℕ → Option (List NodeScore))
    (questions : List Str) : List SubQuestionIntent :=
  questions.mapIdx fun index question => ⟨question, resolver.classifyIntents (scores index)⟩

theorem map_subIntentsOf {β : Type} (f : List NodeScore → β) :
    ((subIntentsOf resolver scores questions).map fun subIntent => f subIntent.nodeScores) =
      (List.range questions.length).map fun index =>
        f ((resolver.ranking (scores index)).take resolver.maxIntentCount) :=
  List.ext_getElem (by simp [subIntentsOf]) fun i _ _ => by simp [subIntentsOf, classifyIntents_eq]

theorem collectCandidates_subIntentsOf :
    resolver.collectCandidates (subIntentsOf resolver scores questions) =
      resolver.candidatesOf scores questions.length := by
  unfold collectCandidates candidatesOf
  rw [List.flatMap_def, List.flatMap_def]
  congr 2
  exact List.ext_getElem (by simp [subIntentsOf]) fun i _ _ => by
    simp [subIntentsOf, classifyIntents_eq]

theorem nodup_rebuild {original : List SubQuestionIntent} {selected : List IntentCandidate} :
    (∀ subIntent ∈ resolver.rebuildSubIntents original selected,
      (subIntent.nodeScores.map fun score => score.node.id).Nodup) ↔
    ∀ i < original.length, (idsOf selected i).Nodup := by
  refine forall_mem_mapIdx fun index subIntent => ?_
  have sorted := (resolver.sorting.perm NodeScore.score
    ((selected.filter fun c => c.subQuestionIndex = index).map IntentCandidate.nodeScore)).map
      fun score => score.node.id
  rw [sorted.nodup_iff, List.map_map]
  rfl

/-- The result repeats a node only where the replies do so within the limits. -/
theorem once_resolve_iff : OncePerIntent (resolver.resolve rewriteResult scores) ↔
    resolver.Unrepeated scores (subQuestions rewriteResult).length := by
  have total : (((subIntentsOf resolver scores (subQuestions rewriteResult)).map
      fun subIntent => subIntent.nodeScores.length).sum) =
      resolver.totalOf scores (subQuestions rewriteResult).length :=
    (congrArg List.sum (map_subIntentsOf List.length)).trans (by simp only [List.length_take]; rfl)
  have size : (subIntentsOf resolver scores (subQuestions rewriteResult)).length =
      (subQuestions rewriteResult).length := List.length_mapIdx
  have resolved : resolver.resolve rewriteResult scores =
      resolver.capTotalIntents (subIntentsOf resolver scores (subQuestions rewriteResult)) := rfl
  rw [oncePerIntent_iff, resolved, capTotalIntents]
  dsimp only
  rw [total]
  split_ifs with fits
  · have kept : (∀ subIntent ∈ subIntentsOf resolver scores (subQuestions rewriteResult),
        (subIntent.nodeScores.map fun score => score.node.id).Nodup) ↔
        ∀ index < (subQuestions rewriteResult).length,
          (((resolver.ranking (scores index)).take resolver.maxIntentCount).map
            fun score => score.node.id).Nodup :=
      forall_mem_mapIdx fun index _ => by rw [classifyIntents_eq]
    rw [kept]
    exact ⟨fun distinct => ⟨fun _ => distinct, fun more => absurd fits (Nat.not_le.mpr more)⟩,
      fun unrepeated => unrepeated.fits fits⟩
  · rw [nodup_rebuild, size, collectCandidates_subIntentsOf, selectAdditional_eq,
      ← guaranteed, ← others_eq, ← placesLeft_eq, nodup_selected_iff]
    exact ⟨fun distinct => ⟨fun few => absurd few fits, fun _ => distinct⟩,
      fun unrepeated => unrepeated.capped (Nat.not_le.mp fits)⟩

end Resolve

section Replies

/-- For every reply to every sub-question -/
theorem resolve_once_iff {classifier : IntentClassifier} {reply : ℕ → Option Str} :
    OncePerIntent (resolver.resolve rewriteResult fun index =>
      classifier.classifyTargets (reply index)) ↔
    resolver.Unrepeated (fun index => classifier.classifyTargets (reply index))
      (subQuestions rewriteResult).length := once_resolve_iff

def orderClassifier : IntentClassifier where
  idToNode := [(Mcp.orderNode.id, Mcp.orderNode)]
  repr := fun _ => []
  floatOf := fun _ => none
  sorting := FloatSort.insertion

def sampleResolver : IntentResolver where
  minScore := .finite 0
  maxIntentCount := 3
  sorting := FloatSort.insertion

def sampleQuestion : RewriteResult :=
  ⟨Mcp.orderIntent.subQuestion, Mcp.orderIntent.subQuestion, [Mcp.orderIntent.subQuestion]⟩

/-- The same intent twice -/
def sampleReply : Str := Str.lit <|
  "[\x7b\"id\": \"order-progress\", \"score\": 1\x7d, " ++
  "\x7b\"id\": \"order-progress\", \"score\": 1\x7d]"

/-- The tool of the intent is requested twice for one sub-question. -/
theorem sampleReply_not_once : ¬ OncePerIntent (sampleResolver.resolve sampleQuestion fun _ =>
    orderClassifier.classifyTargets (some sampleReply)) := by
  intro once
  let score : NodeScore := ⟨Mcp.orderNode, .finite 1, none⟩
  have resolved : sampleResolver.resolve sampleQuestion (fun _ =>
      orderClassifier.classifyTargets (some sampleReply)) =
      [⟨Mcp.orderIntent.subQuestion, [score, score]⟩] := by decide +kernel
  rw [resolved] at once
  exact absurd (once _ List.mem_cons_self).2 (by decide)

end Replies

end IntentResolver

end HeyeeAgent.Rag
