import HeyeeAgent.Rag.IntentResolver

/-! # The cap on the intents of a request

What `cap_total_intents` keeps where there are too many intents: the best one of every sub-question
that has any, and the best of the others, whatever the sub-question.
-/

namespace HeyeeAgent.Rag

open Python

/-- The sub-questions name a node once each, and the scores are numbers. -/
structure Scored (subIntents : List SubQuestionIntent) : Prop where
  distinct : ∀ subIntent ∈ subIntents, (subIntent.nodeScores.map fun score => score.node.id).Nodup
  numbers : ∀ subIntent ∈ subIntents, ∀ score ∈ subIntent.nodeScores, score.score ≠ .nan

/-- What is kept of the scores of a sub-question; `best` stands for the one that it always keeps. -/
structure KeptFrom (best : Option NodeScore) (original kept : SubQuestionIntent) : Prop where
  question : kept.subQuestion = original.subQuestion
  scores : kept.nodeScores.Subperm original.nodeScores
  sorted : kept.nodeScores.Pairwise fun score next => PyFloat.le next.score score.score = true
  fair : original.nodeScores ≠ [] → ∃ score ∈ kept.nodeScores, best = some score ∧
    ∀ other ∈ original.nodeScores, PyFloat.le other.score score.score = true

/-- A score of the sub-question at a place -/
def ScoreAt (subIntents : List SubQuestionIntent) (i : ℕ) (score : NodeScore) : Prop :=
  ∃ subIntent, subIntents[i]? = some subIntent ∧ score ∈ subIntent.nodeScores

/-- What the cap leaves of too many intents. -/
structure Capped (limit : ℕ) (original kept : List SubQuestionIntent) (best : ℕ → Option NodeScore) :
    Prop where
  length : kept.length = original.length
  each : ∀ i before after, original[i]? = some before → kept[i]? = some after →
    KeptFrom (best i) before after
  count : (kept.flatMap SubQuestionIntent.nodeScores).length =
    max limit (original.countP fun subIntent => subIntent.nodeScores ≠ [])
  optimal : ∀ i score, ScoreAt kept i score → best i ≠ some score →
    ∀ j dropped, ScoreAt original j dropped → ¬ ScoreAt kept j dropped →
      PyFloat.le dropped.score score.score = true

namespace IntentResolver

variable {resolver : IntentResolver} {subIntents : List SubQuestionIntent}

section Grouping

/-- The candidates of the sub-questions, in their order -/
def flattenFrom (offset : ℕ) (subIntents : List SubQuestionIntent) : List IntentCandidate :=
  (subIntents.zipIdx offset).flatMap fun (subIntent, index) =>
    subIntent.nodeScores.map fun nodeScore => ⟨index, nodeScore⟩

theorem flattenFrom_cons (offset : ℕ) (subIntent : SubQuestionIntent) :
    flattenFrom offset (subIntent :: subIntents) =
      subIntent.nodeScores.map (IntentCandidate.mk offset) ++ flattenFrom (offset + 1) subIntents :=
  rfl

theorem length_flattenFrom {offset : ℕ} : (flattenFrom offset subIntents).length =
    (subIntents.flatMap SubQuestionIntent.nodeScores).length := by
  induction subIntents generalizing offset with
  | nil => rfl
  | cons first rest ih =>
    rw [flattenFrom_cons, List.length_append, List.length_map, ih, List.flatMap_cons,
      List.length_append]

theorem le_of_mem_flattenFrom {offset : ℕ} {c : IntentCandidate}
    (member : c ∈ flattenFrom offset subIntents) : offset ≤ c.subQuestionIndex := by
  obtain ⟨⟨subIntent, index⟩, listed, member⟩ := List.mem_flatMap.mp member
  obtain ⟨nodeScore, -, rfl⟩ := List.mem_map.mp member
  exact (List.mem_zipIdx listed).1

theorem mem_flattenFrom {c : IntentCandidate} :
    c ∈ flattenFrom 0 subIntents ↔ ScoreAt subIntents c.subQuestionIndex c.nodeScore := by
  rw [flattenFrom, List.mem_flatMap]
  constructor
  · rintro ⟨⟨subIntent, index⟩, listed, member⟩
    obtain ⟨nodeScore, scored, rfl⟩ := List.mem_map.mp member
    exact ⟨subIntent, List.mem_zipIdx_iff_getElem?.mp listed, scored⟩
  · rintro ⟨subIntent, listed, member⟩
    exact ⟨(subIntent, c.subQuestionIndex), List.mem_zipIdx_iff_getElem?.mpr listed,
      List.mem_map.mpr ⟨c.nodeScore, member, rfl⟩⟩

/-- The scores of a sub-question come back out of the candidates. -/
theorem filter_flattenFrom {offset i : ℕ} {subIntent : SubQuestionIntent}
    (listed : subIntents[i]? = some subIntent) :
    ((flattenFrom offset subIntents).filter fun c => c.subQuestionIndex = offset + i).map
      IntentCandidate.nodeScore = subIntent.nodeScores := by
  induction subIntents generalizing offset i with
  | nil => cases listed
  | cons first rest ih =>
    rw [flattenFrom_cons, List.filter_append, List.map_append]
    cases i with
    | zero =>
      cases listed
      have later : (flattenFrom (offset + 1) rest).filter
          (fun c => decide (c.subQuestionIndex = offset + 0)) = [] := by
        refine List.filter_eq_nil_iff.mpr fun c member => ?_
        have := le_of_mem_flattenFrom member
        simp only [decide_eq_true_eq]
        omega
      rw [later, List.map_nil, List.append_nil, List.filter_map, List.map_map]
      have all : subIntent.nodeScores.filter ((fun c : IntentCandidate =>
          decide (c.subQuestionIndex = offset + 0)) ∘ IntentCandidate.mk offset) =
          subIntent.nodeScores := List.filter_eq_self.mpr fun _ _ => by simp
      rw [all]
      exact List.map_id _
    | succ i =>
      have other : (first.nodeScores.map (IntentCandidate.mk offset)).filter
          (fun c => decide (c.subQuestionIndex = offset + (i + 1))) = [] := by
        refine List.filter_eq_nil_iff.mpr fun c member => ?_
        obtain ⟨score, -, rfl⟩ := List.mem_map.mp member
        simp
      rw [other, List.map_nil, List.nil_append, ← Nat.add_assoc, Nat.add_right_comm]
      exact ih listed

/-- Candidates grouped by their sub-questions are as many as before. -/
theorem length_grouped {selected : List IntentCandidate} {count : ℕ}
    (bounded : ∀ c ∈ selected, c.subQuestionIndex < count) :
    ((List.range count).flatMap fun i => selected.filter fun c => c.subQuestionIndex = i).length =
      selected.length := by
  have below (n : ℕ) :
      ((List.range n).flatMap fun i => selected.filter fun c => c.subQuestionIndex = i).length =
        (selected.filter fun c => c.subQuestionIndex < n).length := by
    induction n with
    | zero => simp
    | succ n ih =>
      rw [List.range_succ, List.flatMap_append, List.length_append, ih, List.flatMap_singleton]
      simp only [← List.countP_eq_length_filter]
      clear ih bounded
      induction selected with
      | nil => rfl
      | cons c selected ih =>
        simp only [List.countP_cons, decide_eq_true_eq]
        split_ifs <;> omega
  rw [below, List.filter_eq_self.mpr fun c member => decide_eq_true (bounded c member)]

/-- The places of the sub-questions that have a score -/
def answered (subIntents : List SubQuestionIntent) : List ℕ :=
  (subIntents.zipIdx.filter fun entry => entry.1.nodeScores ≠ []).map Prod.snd

theorem mem_answered {i : ℕ} :
    i ∈ answered subIntents ↔ ∃ score, ScoreAt subIntents i score := by
  simp only [answered, List.mem_map, List.mem_filter, Prod.exists, exists_eq_right, ScoreAt,
    decide_eq_true_eq, List.mem_zipIdx_iff_getElem?]
  constructor
  · rintro ⟨subIntent, listed, some⟩
    obtain ⟨score, member⟩ := List.exists_mem_of_ne_nil _ some
    exact ⟨score, subIntent, listed, member⟩
  · rintro ⟨score, subIntent, listed, member⟩
    exact ⟨subIntent, listed, List.ne_nil_of_mem member⟩

theorem nodup_answered (subIntents : List SubQuestionIntent) : (answered subIntents).Nodup := by
  refine List.Nodup.sublist (List.filter_sublist.map Prod.snd) ?_
  rw [List.zipIdx_map_snd]
  exact List.nodup_range'

theorem length_answered (subIntents : List SubQuestionIntent) :
    (answered subIntents).length = subIntents.countP fun subIntent => subIntent.nodeScores ≠ [] := by
  rw [answered, List.length_map, ← List.countP_eq_length_filter]
  conv_rhs => rw [← List.zipIdx_map_fst 0 subIntents, List.countP_map]
  rfl

end Grouping

section Capping

variable (resolver) (subIntents)

/-- The candidates that are guaranteed -/
def tops : List IntentCandidate :=
  selectTop subIntents.length [] (resolver.collectCandidates subIntents)

/-- The other candidates, in the order of their scores -/
def remainder : List IntentCandidate :=
  (resolver.collectCandidates subIntents).filter fun c =>
    !isIn c.key ((resolver.tops subIntents).map IntentCandidate.key)

/-- The candidates that are kept where there are too many -/
def chosen : List IntentCandidate :=
  resolver.tops subIntents ++ (resolver.remainder subIntents).take
    (resolver.maxIntentCount - (resolver.tops subIntents).length)

/-- The score that a sub-question always keeps -/
def bestOf (i : ℕ) : Option NodeScore :=
  (top (resolver.collectCandidates subIntents) i).map IntentCandidate.nodeScore

variable {resolver subIntents}

theorem collectCandidates_perm :
    (resolver.collectCandidates subIntents).Perm (flattenFrom 0 subIntents) :=
  resolver.sorting.perm _ _

theorem mem_collectCandidates {c : IntentCandidate} :
    c ∈ resolver.collectCandidates subIntents ↔
      ScoreAt subIntents c.subQuestionIndex c.nodeScore := by
  rw [collectCandidates_perm.mem_iff, mem_flattenFrom]

theorem index_lt {c : IntentCandidate} (member : c ∈ resolver.collectCandidates subIntents) :
    c.subQuestionIndex < subIntents.length := by
  obtain ⟨subIntent, listed, -⟩ := mem_collectCandidates.mp member
  exact (List.getElem?_eq_some_iff.mp listed).1

/-- The guaranteed candidates are the first ones of the sub-questions. -/
theorem tops_spec : (indices (resolver.tops subIntents)).Nodup ∧ ∀ c, c ∈ resolver.tops subIntents ↔
    top (resolver.collectCandidates subIntents) c.subQuestionIndex = some c := by
  have spec := @selectTop_spec (resolver.collectCandidates subIntents) [] subIntents.length
    (fun c member => index_lt member) List.nodup_nil
  refine ⟨spec.1, fun c => (spec.2 c).trans ?_⟩
  simp [indices]

theorem exists_top {i : ℕ} {score : NodeScore} (scored : ScoreAt subIntents i score) :
    ∃ c ∈ resolver.tops subIntents, c.subQuestionIndex = i ∧
      top (resolver.collectCandidates subIntents) i = some c := by
  have there : (top (resolver.collectCandidates subIntents) i).isSome :=
    List.find?_isSome.mpr ⟨⟨i, score⟩, mem_collectCandidates.mpr scored, decide_eq_true rfl⟩
  obtain ⟨c, first⟩ := Option.isSome_iff_exists.mp there
  obtain ⟨-, rfl⟩ := mem_of_top first
  exact ⟨c, (tops_spec.2 c).mpr first, rfl, first⟩

/-- One candidate is guaranteed for each sub-question that has a score. -/
theorem length_tops : (resolver.tops subIntents).length =
    subIntents.countP fun subIntent => subIntent.nodeScores ≠ [] := by
  have same : (indices (resolver.tops subIntents)).Perm (answered subIntents) := by
    rw [List.perm_ext_iff_of_nodup tops_spec.1 (nodup_answered subIntents)]
    intro i
    rw [mem_answered, indices, List.mem_map]
    constructor
    · rintro ⟨c, member, rfl⟩
      obtain ⟨listed, -⟩ := mem_of_top ((tops_spec.2 c).mp member)
      exact ⟨c.nodeScore, mem_collectCandidates.mp listed⟩
    · rintro ⟨score, scored⟩
      obtain ⟨c, member, same, -⟩ := exists_top scored
      exact ⟨c, member, same⟩
  rw [← length_answered, ← same.length_eq, indices, List.length_map]

/-- The others are taken from the remainder. -/
theorem selectAdditional_tops (remaining : ℕ) :
    selectAdditional (resolver.collectCandidates subIntents) (resolver.tops subIntents) remaining =
      (resolver.remainder subIntents).take remaining := by
  rw [selectAdditional_eq, remainder]
  refine congrArg _ (List.filter_congr fun c _ => ?_)
  rw [Bool.eq_iff_iff, decide_eq_true_iff, not_isIn_iff]

theorem subperm_map {α β : Type} {f : α → β} {part items : List α} (within : part.Subperm items) :
    (part.map f).Subperm (items.map f) := by
  obtain ⟨listed, same, sublist⟩ := within
  exact ⟨listed.map f, same.map f, sublist.map f⟩

/-- Candidates of a sub-question are scores of it. -/
theorem subperm_scores {selected : List IntentCandidate} {i : ℕ} {subIntent : SubQuestionIntent}
    (part : selected.Subperm (resolver.collectCandidates subIntents))
    (listed : subIntents[i]? = some subIntent) :
    ((selected.filter fun c => c.subQuestionIndex = i).map IntentCandidate.nodeScore).Subperm
      subIntent.nodeScores := by
  have grouped := @filter_flattenFrom subIntents 0 i _ listed
  rw [Nat.zero_add] at grouped
  rw [← grouped]
  exact subperm_map ((part.trans collectCandidates_perm.subperm).filter _)

/-- A key stands for one candidate. -/
theorem nodup_keys (scored : Scored subIntents) :
    ((resolver.collectCandidates subIntents).map IntentCandidate.key).Nodup := by
  rw [nodup_keys_iff fun c member => index_lt member]
  intro i below
  have part := @subperm_scores resolver subIntents _ i _ (List.Subperm.refl _)
    (List.getElem?_eq_getElem below)
  have distinct := scored.distinct _ (List.getElem_mem below)
  obtain ⟨ids, same, sublist⟩ := @subperm_map _ _ (fun score => score.node.id) _ _ part
  rw [List.map_map] at same
  exact same.nodup_iff.mp (distinct.sublist sublist)

/-- The guaranteed candidates and the others are all candidates. -/
theorem tops_append_perm (scored : Scored subIntents) :
    (resolver.tops subIntents ++ resolver.remainder subIntents).Perm
      (resolver.collectCandidates subIntents) := by
  have keys := @nodup_keys resolver subIntents scored
  have named : (resolver.tops subIntents).Perm ((resolver.collectCandidates subIntents).filter
      fun c => isIn c.key ((resolver.tops subIntents).map IntentCandidate.key)) := by
    rw [List.perm_ext_iff_of_nodup (tops_spec.1.of_map _) (keys.of_map.filter _)]
    intro c
    rw [List.mem_filter, isIn_iff]
    constructor
    · intro member
      exact ⟨(mem_of_top ((tops_spec.2 c).mp member)).1, List.mem_map_of_mem member⟩
    · rintro ⟨listed, key⟩
      obtain ⟨t, member, same⟩ := List.mem_map.mp key
      have first := (mem_of_top ((tops_spec.2 t).mp member)).1
      exact List.inj_on_of_nodup_map keys first listed same ▸ member
  refine (named.append_right _).trans ?_
  exact List.filter_append_perm (fun c : IntentCandidate =>
    isIn c.key ((resolver.tops subIntents).map IntentCandidate.key))
    (resolver.collectCandidates subIntents)

theorem chosen_subperm (scored : Scored subIntents) :
    (resolver.chosen subIntents).Subperm (resolver.collectCandidates subIntents) :=
  ((List.take_sublist _ _).append_left _).subperm.trans (tops_append_perm scored).subperm

/-- The candidates descend. -/
theorem descending (scored : Scored subIntents) :
    (resolver.collectCandidates subIntents).Pairwise fun c d =>
      PyFloat.le d.score c.score = true := by
  refine resolver.sorting.pairwise_run fun c member => ?_
  obtain ⟨subIntent, listed, found⟩ := mem_flattenFrom.mp member
  exact scored.numbers subIntent (List.mem_of_getElem? listed) c.nodeScore found

/-- The first candidate of a sub-question is its best one. -/
theorem le_top (scored : Scored subIntents) {i : ℕ} {t c : IntentCandidate}
    (first : top (resolver.collectCandidates subIntents) i = some t)
    (member : c ∈ resolver.collectCandidates subIntents) (same : c.subQuestionIndex = i) :
    PyFloat.le c.score t.score = true := by
  have sorted := @descending resolver subIntents scored
  obtain ⟨-, before, after, split, others⟩ := List.find?_eq_some_iff_append.mp first
  rw [split] at member sorted
  rcases List.mem_append.mp member with earlier | member
  · have other := others c earlier
    simp [same] at other
  · rcases List.mem_cons.mp member with rfl | later
    · obtain ⟨subIntent, listed, found⟩ :=
        mem_collectCandidates.mp (split ▸ List.mem_append_right before member)
      have number := scored.numbers subIntent (List.mem_of_getElem? listed) c.nodeScore found
      exact (PyFloat.le_iff_rank number number).mpr le_rfl
    · exact (List.pairwise_cons.mp (List.pairwise_append.mp sorted).2.1).1 c later

/-- A candidate that is not guaranteed but kept is at least as good as one that is dropped. -/
theorem le_of_dropped (scored : Scored subIntents) {c d : IntentCandidate}
    (kept : c ∈ resolver.chosen subIntents) (other : c ∉ resolver.tops subIntents)
    (candidate : d ∈ resolver.collectCandidates subIntents)
    (dropped : d ∉ resolver.chosen subIntents) : PyFloat.le d.score c.score = true := by
  have taken := (List.mem_append.mp kept).resolve_left other
  have listed := (tops_append_perm scored).mem_iff.mpr candidate
  have left : d ∈ resolver.remainder subIntents := (List.mem_append.mp listed).resolve_left
    fun member => dropped (List.mem_append_left _ member)
  have sorted : (resolver.remainder subIntents).Pairwise fun c d =>
      PyFloat.le d.score c.score = true := (descending scored).filter _
  rw [← List.take_append_drop (resolver.maxIntentCount - (resolver.tops subIntents).length)
    (resolver.remainder subIntents)] at sorted left
  have later := (List.mem_append.mp left).resolve_left
    fun member => dropped (List.mem_append_right _ member)
  exact (List.pairwise_append.mp sorted).2.2 c taken d later

end Capping

section Rebuild

/-- What is kept for the sub-question at a place -/
theorem getElem?_rebuildSubIntents {original : List SubQuestionIntent}
    {selected : List IntentCandidate} {i : ℕ} {after : SubQuestionIntent} :
    (resolver.rebuildSubIntents original selected)[i]? = some after ↔
      ∃ before, original[i]? = some before ∧ after = ⟨before.subQuestion,
        resolver.sorting.run NodeScore.score
          ((selected.filter fun c => c.subQuestionIndex = i).map IntentCandidate.nodeScore)⟩ := by
  rw [rebuildSubIntents, List.getElem?_mapIdx, Option.map_eq_some_iff]
  exact exists_congr fun before => and_congr_right fun _ => eq_comm

/-- A score is kept exactly if its candidate is selected. -/
theorem scoreAt_rebuildSubIntents {original : List SubQuestionIntent}
    {selected : List IntentCandidate} {i : ℕ} {score : NodeScore}
    (bounded : ∀ c ∈ selected, c.subQuestionIndex < original.length) :
    ScoreAt (resolver.rebuildSubIntents original selected) i score ↔ ⟨i, score⟩ ∈ selected := by
  have grouped : score ∈ (selected.filter fun c => c.subQuestionIndex = i).map
      IntentCandidate.nodeScore ↔ ⟨i, score⟩ ∈ selected := by
    constructor
    · intro member
      obtain ⟨c, found, rfl⟩ := List.mem_map.mp member
      obtain ⟨listed, same⟩ := List.mem_filter.mp found
      obtain rfl := of_decide_eq_true same
      exact listed
    · intro member
      exact List.mem_map.mpr ⟨⟨i, score⟩, List.mem_filter.mpr ⟨member, decide_eq_true rfl⟩, rfl⟩
  constructor
  · rintro ⟨after, listed, member⟩
    obtain ⟨before, -, rfl⟩ := getElem?_rebuildSubIntents.mp listed
    exact grouped.mp ((resolver.sorting.perm _ _).mem_iff.mp member)
  · intro member
    have listed := List.getElem?_eq_getElem (bounded _ member)
    exact ⟨_, getElem?_rebuildSubIntents.mpr ⟨_, listed, rfl⟩,
      (resolver.sorting.perm _ _).mem_iff.mpr (grouped.mpr member)⟩

theorem length_rebuildSubIntents {original : List SubQuestionIntent}
    {selected : List IntentCandidate}
    (bounded : ∀ c ∈ selected, c.subQuestionIndex < original.length) :
    ((resolver.rebuildSubIntents original selected).flatMap SubQuestionIntent.nodeScores).length =
      selected.length := by
  rw [← length_grouped bounded, List.length_flatMap, List.length_flatMap]
  congr 1
  refine List.ext_getElem (by simp [rebuildSubIntents]) fun i _ _ => ?_
  simp [rebuildSubIntents, (resolver.sorting.perm _ _).length_eq]

end Rebuild

theorem keptFrom_chosen (scored : Scored subIntents) {i : ℕ} {before : SubQuestionIntent}
    (listed : subIntents[i]? = some before) :
    KeptFrom (resolver.bestOf subIntents i) before ⟨before.subQuestion,
      resolver.sorting.run NodeScore.score (((resolver.chosen subIntents).filter fun c =>
        c.subQuestionIndex = i).map IntentCandidate.nodeScore)⟩ := by
  have part := subperm_scores (@chosen_subperm resolver subIntents scored) listed
  have sorted := resolver.sorting.perm NodeScore.score (((resolver.chosen subIntents).filter fun c =>
    c.subQuestionIndex = i).map IntentCandidate.nodeScore)
  refine ⟨rfl, sorted.subperm.trans part, resolver.sorting.pairwise_run fun score member => ?_,
    fun some => ?_⟩
  · exact scored.numbers before (List.mem_of_getElem? listed) score (part.subset member)
  · obtain ⟨score, member⟩ := List.exists_mem_of_ne_nil _ some
    obtain ⟨t, guaranteed, same, first⟩ := @exists_top resolver subIntents i score
      ⟨before, listed, member⟩
    have taken : t ∈ (resolver.chosen subIntents).filter fun c => c.subQuestionIndex = i :=
      List.mem_filter.mpr ⟨List.mem_append_left _ guaranteed, decide_eq_true same⟩
    refine ⟨t.nodeScore, sorted.mem_iff.mpr (List.mem_map_of_mem taken), ?_, fun other found => ?_⟩
    · rw [bestOf, first, Option.map_some]
    · exact le_top (c := ⟨i, other⟩) scored first
        (mem_collectCandidates.mpr ⟨before, listed, found⟩) rfl

/-- As many scores are kept as the limit lets in, and one for each sub-question that has any. -/
theorem length_chosen (scored : Scored subIntents)
    (many : resolver.maxIntentCount < (resolver.collectCandidates subIntents).length) :
    (resolver.chosen subIntents).length = max resolver.maxIntentCount
      (subIntents.countP fun subIntent => subIntent.nodeScores ≠ []) := by
  have all := (@tops_append_perm resolver subIntents scored).length_eq
  rw [List.length_append] at all
  rw [chosen, List.length_append, List.length_take, ← @length_tops resolver]
  omega

/-- The cap does nothing where the scores fit; else it is fair to the sub-questions and keeps the
best scores. -/
theorem capped_capTotalIntents (scored : Scored subIntents) :
    ((subIntents.flatMap SubQuestionIntent.nodeScores).length ≤ resolver.maxIntentCount →
      resolver.capTotalIntents subIntents = subIntents) ∧
    (resolver.maxIntentCount < (subIntents.flatMap SubQuestionIntent.nodeScores).length →
      ∃ best, Capped resolver.maxIntentCount subIntents (resolver.capTotalIntents subIntents)
        best) := by
  have total : (subIntents.map fun subIntent => subIntent.nodeScores.length).sum =
      (subIntents.flatMap SubQuestionIntent.nodeScores).length := (List.length_flatMap).symm
  unfold capTotalIntents
  dsimp only
  rw [total]
  refine ⟨fun few => if_pos few, fun many => ⟨resolver.bestOf subIntents, ?_⟩⟩
  rw [if_neg (Nat.not_le.mpr many), ← tops, selectAdditional_tops, ← chosen]
  have bounded : ∀ c ∈ resolver.chosen subIntents, c.subQuestionIndex < subIntents.length :=
    fun c member => index_lt ((chosen_subperm scored).subset member)
  refine ⟨List.length_mapIdx, fun i before after listed found => ?_, ?_,
    fun i score kept other j dropped candidate absent => ?_⟩
  · obtain ⟨same, again, rfl⟩ := getElem?_rebuildSubIntents.mp found
    rw [listed] at again
    cases again
    exact keptFrom_chosen scored listed
  · have flat : (resolver.collectCandidates subIntents).length =
        (subIntents.flatMap SubQuestionIntent.nodeScores).length := by
      rw [collectCandidates_perm.length_eq, length_flattenFrom]
    rw [length_rebuildSubIntents bounded, length_chosen scored (flat ▸ many)]
  · rw [scoreAt_rebuildSubIntents bounded] at kept absent
    refine le_of_dropped (c := ⟨i, score⟩) (d := ⟨j, dropped⟩) scored kept (fun guaranteed => ?_)
      (mem_collectCandidates.mpr candidate) absent
    have first := (tops_spec.2 _).mp guaranteed
    exact other (by rw [bestOf, first, Option.map_some])

def sampleScore (id : String) (score : ℚ) : NodeScore :=
  ⟨{ Mcp.orderNode with id := Str.lit id }, .finite score, none⟩

def sampleIntents : List SubQuestionIntent := [
  ⟨Str.lit "A", [sampleScore "a1" (9 / 10), sampleScore "a2" (6 / 10)]⟩,
  ⟨Str.lit "B", [sampleScore "b1" (8 / 10), sampleScore "b2" (7 / 10)]⟩]

theorem sampleIntents_capped : ∃ best, Capped 3 sampleIntents
    (sampleResolver.capTotalIntents sampleIntents) best := by
  have scored : Scored sampleIntents := ⟨by decide +kernel, by decide +kernel⟩
  exact (@capped_capTotalIntents sampleResolver sampleIntents scored).2 (by decide +kernel)

end IntentResolver

end HeyeeAgent.Rag
