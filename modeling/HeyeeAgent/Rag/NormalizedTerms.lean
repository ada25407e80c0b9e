import HeyeeAgent.Rag.QueryTermMapping

/-! # Normalised terms

Mappings whose sources stand in their targets and that share no letters do not touch each other. The
check of a pass looks for the target where the source was found, so it is enough for targets that
begin with their source and that do not hide each other.
-/

namespace HeyeeAgent.Rag

open Python GuardedReplacement

section Passes

/-- The pieces of one pass -/
def mappingPieces (mapping : Str × Str) (text : Str) : List Str :=
  if mapping.1 = [] ∨ mapping.2 = [] then singles text else pieces mapping.1 mapping.2 text

/-- The letters in the middle are copied by all passes. -/
def Copied : List (Str × Str) → Str → Str → Str → Prop
  | [], _, _, _ => True
  | mapping :: rest, before, middle, after => ∃ left right, left.length = before.length ∧
      mappingPieces mapping (before ++ middle ++ after) = left ++ singles middle ++ right ∧
      Copied rest left.flatten middle right.flatten

variable {mappings : List (Str × Str)} {mapping : Str × Str} {before middle after text : Str}

theorem applyMapping_eq_flatten (mapping : Str × Str) (text : Str) :
    applyMapping text mapping.1 mapping.2 = (mappingPieces mapping text).flatten := by
  rw [mappingPieces]
  split_ifs with skipped
  · rw [applyMapping, dif_pos (.inr skipped), flatten_singles]
  · rw [not_or] at skipped
    rw [applyMapping_eq skipped.1 skipped.2, result]

/-- The passes leave what they copy. -/
theorem Copied.exists_around (copied : Copied mappings before middle after) :
    ∃ left right, mappings.foldl (fun normalized mapping =>
      applyMapping normalized mapping.1 mapping.2) (before ++ middle ++ after) =
        left ++ middle ++ right := by
  induction mappings generalizing before after with
  | nil => exact ⟨before, after, rfl⟩
  | cons mapping mappings ih =>
    obtain ⟨left, right, -, same, rest⟩ := copied
    rw [List.foldl_cons, applyMapping_eq_flatten, same, List.flatten_append, List.flatten_append,
      flatten_singles]
    exact ih rest

end Passes

namespace QueryTermMappingService

variable (service : QueryTermMappingService)

/-- Every source stands in its target, and the targets share no letters with other mappings. -/
structure Separate : Prop where
  within : ∀ mapping ∈ service.mappings, mapping.1 ≠ [] → mapping.1 <:+: mapping.2
  apart : ∀ mapping ∈ service.mappings, ∀ other ∈ service.mappings, mapping ≠ other →
    ∀ c ∈ mapping.2, c ∉ other.1 ∧ c ∉ other.2

/-- A target that no source overlaps from outside is copied. -/
def KeepsTargets (question : Str) : Prop :=
  ∀ mapping ∈ service.mappings, ∀ before after, question = before ++ mapping.2 ++ after →
    Clear mapping.1 before mapping.2 after →
      Copied service.orderedMappings before mapping.2 after

variable {service} {mapping other : Str × Str} {mappings : List (Str × Str)}
  {before after text : Str}

theorem Separate.target_ne (separate : service.Separate) (listed : mapping ∈ service.mappings)
    (used : mapping.1 ≠ []) : mapping.2 ≠ [] := by
  intro empty
  have found := separate.within mapping listed used
  rw [empty] at found
  exact used (List.infix_nil.mp found)

/-- The letters of a mapping are foreign to the others. -/
theorem Separate.foreign (separate : service.Separate) (listed : mapping ∈ service.mappings)
    (listed' : other ∈ service.mappings) (differ : mapping ≠ other) (used : mapping.1 ≠ []) :
    Foreign other.1 other.2 mapping.1 ∧ Foreign other.1 other.2 mapping.2 := by
  have targets := separate.apart mapping listed other listed' differ
  exact ⟨fun c member => targets c ((separate.within mapping listed used).subset member), targets⟩

theorem mappingPieces_of_used (separate : service.Separate) (listed : mapping ∈ service.mappings)
    (used : mapping.1 ≠ []) (text : Str) :
    mappingPieces mapping text = pieces mapping.1 mapping.2 text := by
  rw [mappingPieces, if_neg]
  rintro (empty | empty)
  · exact used empty
  · exact separate.target_ne listed used empty

/-- A mapping without a source copies everything. -/
theorem mappingPieces_of_skipped (skipped : mapping.1 = []) (before middle after : Str) :
    mappingPieces mapping (before ++ middle ++ after) =
      singles before ++ singles middle ++ singles after := by
  rw [mappingPieces, if_pos (.inl skipped), singles_append, singles_append]

theorem mem_orderedMappings : mapping ∈ service.orderedMappings ↔ mapping ∈ service.mappings :=
  (List.mergeSort_perm _ _).mem_iff

theorem nodup_orderedMappings (service : QueryTermMappingService) :
    service.orderedMappings.Nodup := by
  have distinct : service.mappings.Nodup := service.distinct.of_map Prod.fst
  exact (List.mergeSort_perm _ _).nodup_iff.mpr distinct

section Keeping

/-- An empty target is copied by every pass. -/
theorem copied_nil (mappings : List (Str × Str)) (before after : Str) :
    Copied mappings before [] after := by
  induction mappings generalizing before after with
  | nil => trivial
  | cons mapping mappings ih =>
    have length : (mappingPieces mapping (before ++ [] ++ after)).length =
        before.length + after.length := by
      rw [List.append_nil, mappingPieces]
      split_ifs with skipped
      · rw [length_singles, List.length_append]
      · rw [not_or] at skipped
        rw [length_pieces skipped.1 skipped.2, List.length_append]
    refine ⟨(mappingPieces mapping (before ++ [] ++ after)).take before.length,
      (mappingPieces mapping (before ++ [] ++ after)).drop before.length, ?_, ?_, ih _ _⟩
    · rw [List.length_take, length]
      omega
    · rw [singles, List.map_nil, List.append_nil, List.append_nil, List.take_append_drop]

/-- What a pass of another mapping does around a target -/
theorem exists_pass_of_other (separate : service.Separate) (listed : mapping ∈ service.mappings)
    (listed' : other ∈ service.mappings) (differ : mapping ≠ other) (present : mapping.2 ≠ [])
    (before after : Str) : ∃ left right, left.length = before.length ∧
      mappingPieces other (before ++ mapping.2 ++ after) = left ++ singles mapping.2 ++ right ∧
      (Clear mapping.1 before mapping.2 after →
        Clear mapping.1 left.flatten mapping.2 right.flatten) := by
  rcases eq_or_ne other.1 [] with skipped | used
  · refine ⟨singles before, singles after, length_singles before,
      mappingPieces_of_skipped skipped _ _ _, ?_⟩
    rw [flatten_singles, flatten_singles]
    exact id
  · have target_ne := separate.target_ne listed' used
    refine ⟨pieces other.1 other.2 before, pieces other.1 other.2 after,
      length_pieces used target_ne before, ?_, ?_⟩
    · rw [mappingPieces_of_used separate listed' used]
      exact pieces_around used target_ne (separate.apart mapping listed other listed' differ)
        present before after
    · refine Clear.result used target_ne fun c member inside => ?_
      exact (separate.apart other listed' mapping listed differ.symm c inside).1 member

theorem copied_of_others (separate : service.Separate) (listed : mapping ∈ service.mappings)
    (present : mapping.2 ≠ []) (inside : ∀ other ∈ mappings, other ∈ service.mappings)
    (differ : mapping ∉ mappings) (before after : Str) :
    Copied mappings before mapping.2 after := by
  induction mappings generalizing before after with
  | nil => trivial
  | cons other mappings ih =>
    obtain ⟨first, later⟩ := List.forall_mem_cons.mp inside
    obtain ⟨other_ne, absent⟩ := not_or.mp (mt List.mem_cons.mpr differ)
    obtain ⟨left, right, count, same, -⟩ :=
      exists_pass_of_other separate listed first other_ne present before after
    exact ⟨left, right, count, same, ih later absent _ _⟩

/-- A clear target is copied by all passes, its own and the others. -/
theorem copied_of_clear (separate : service.Separate) (listed : mapping ∈ service.mappings)
    (anchored : mapping.1 ≠ [] → mapping.1 <+: mapping.2 ∧ ¬ Reexpands mapping.1 mapping.2)
    (inside : ∀ other ∈ mappings, other ∈ service.mappings) (distinct : mappings.Nodup)
    (clear : Clear mapping.1 before mapping.2 after) :
    Copied mappings before mapping.2 after := by
  rcases eq_or_ne mapping.2 [] with empty | present
  · rw [empty]
    exact copied_nil mappings before after
  induction mappings generalizing before after with
  | nil => trivial
  | cons other mappings ih =>
    obtain ⟨first, later⟩ := List.forall_mem_cons.mp inside
    obtain ⟨absent, distinct⟩ := List.nodup_cons.mp distinct
    rcases eq_or_ne mapping other with rfl | differ
    · have pass : ∃ left right, left.length = before.length ∧
          mappingPieces mapping (before ++ mapping.2 ++ after) =
            left ++ singles mapping.2 ++ right := by
        rcases eq_or_ne mapping.1 [] with skipped | used
        · exact ⟨singles before, singles after, length_singles before,
            mappingPieces_of_skipped skipped _ _ _⟩
        · rw [mappingPieces_of_used separate listed used]
          exact copiedBy_of_clear used (anchored used).1 (anchored used).2 clear
      obtain ⟨left, right, count, same⟩ := pass
      exact ⟨left, right, count, same,
        copied_of_others separate listed present later absent _ _⟩
    · obtain ⟨left, right, count, same, kept⟩ :=
        exists_pass_of_other separate listed first differ present before after
      exact ⟨left, right, count, same, ih later distinct (kept clear)⟩

end Keeping

section Idempotence

/-- After the passes of mappings a text is stable for each of them, and for those before. -/
theorem stable_foldl (separate : service.Separate)
    (starts : ∀ mapping ∈ service.mappings, mapping.1 ≠ [] → mapping.1 <+: mapping.2)
    (inside : ∀ other ∈ mappings, other ∈ service.mappings)
    (listed : mapping ∈ service.mappings) (used : mapping.1 ≠ [])
    (reached : mapping ∈ mappings ∨ Stable mapping.1 mapping.2 text) :
    Stable mapping.1 mapping.2 (mappings.foldl (fun normalized mapping =>
      applyMapping normalized mapping.1 mapping.2) text) := by
  induction mappings generalizing text with
  | nil => exact reached.resolve_left List.not_mem_nil
  | cons other mappings ih =>
    obtain ⟨first, later⟩ := List.forall_mem_cons.mp inside
    rw [List.foldl_cons]
    refine ih later ?_
    rcases eq_or_ne mapping other with rfl | differ
    · right
      rw [applyMapping_eq used (separate.target_ne listed used)]
      exact stable_result used (starts mapping listed used) text
    refine reached.imp (fun member => (List.mem_cons.mp member).resolve_left differ) ?_
    intro stable
    rcases eq_or_ne other.1 [] with skipped | used'
    · rwa [applyMapping, dif_pos (.inr (.inl skipped))]
    · rw [applyMapping_eq used' (separate.target_ne first used')]
      obtain ⟨sources, targets⟩ := separate.foreign first listed differ.symm used'
      exact Stable.result_of_foreign used (separate.target_ne listed used) used'
        (separate.target_ne first used') sources targets [] stable

theorem foldl_of_stable (separate : service.Separate)
    (inside : ∀ other ∈ mappings, other ∈ service.mappings)
    (stable : ∀ mapping ∈ mappings, mapping.1 ≠ [] → Stable mapping.1 mapping.2 text) :
    mappings.foldl (fun normalized mapping =>
      applyMapping normalized mapping.1 mapping.2) text = text := by
  induction mappings with
  | nil => rfl
  | cons mapping mappings ih =>
    obtain ⟨first, later⟩ := List.forall_mem_cons.mp inside
    obtain ⟨stable_first, stable_later⟩ := List.forall_mem_cons.mp stable
    have same : applyMapping text mapping.1 mapping.2 = text := by
      rcases eq_or_ne mapping.1 [] with skipped | used
      · rw [applyMapping, dif_pos (.inr (.inl skipped))]
      · rw [applyMapping_eq used (separate.target_ne first used)]
        exact result_of_stable (stable_first used)
    rw [List.foldl_cons, same]
    exact ih later stable_later

/-- Where every target begins with its source, a normalised question stays. -/
theorem normalize_normalize (separate : service.Separate)
    (starts : ∀ mapping ∈ service.mappings, mapping.1 ≠ [] → mapping.1 <+: mapping.2)
    (question : Str) : service.normalize (service.normalize question) = service.normalize question := by
  have inside : ∀ other ∈ service.orderedMappings, other ∈ service.mappings :=
    fun other member => mem_orderedMappings.mp member
  refine foldl_of_stable separate inside fun mapping member used => ?_
  exact stable_foldl separate starts inside (inside mapping member) used (.inl member)

end Idempotence

section Expansion

/-- In a text of the letters of one target the other passes copy everything. -/
theorem copiedBy_of_copied (separate : service.Separate) (listed : mapping ∈ service.mappings)
    (used : mapping.1 ≠ []) (inside : ∀ other ∈ mappings, other ∈ service.mappings)
    (member : mapping ∈ mappings) (before_letters : before ⊆ mapping.2)
    (after_letters : after ⊆ mapping.2) (copied : Copied mappings before mapping.2 after) :
    CopiedBy mapping.1 mapping.2 before mapping.2 after := by
  induction mappings with
  | nil => exact absurd member List.not_mem_nil
  | cons other mappings ih =>
    obtain ⟨first, later⟩ := List.forall_mem_cons.mp inside
    obtain ⟨left, right, count, same, rest⟩ := copied
    rcases eq_or_ne mapping other with rfl | differ
    · rw [mappingPieces_of_used separate listed used] at same
      exact ⟨left, right, count, same⟩
    have letters : before ++ mapping.2 ++ after ⊆ mapping.2 :=
      List.append_subset.mpr ⟨List.append_subset.mpr ⟨before_letters, List.Subset.refl _⟩,
        after_letters⟩
    have plain : mappingPieces other (before ++ mapping.2 ++ after) =
        singles (before ++ mapping.2 ++ after) := by
      rcases eq_or_ne other.1 [] with skipped | used'
      · rw [mappingPieces, if_pos (.inl skipped)]
      · rw [mappingPieces_of_used separate first used']
        refine stable_of_foreign used' (separate.target_ne first used') fun c shown => ?_
        exact separate.apart mapping listed other first differ c (letters shown)
    rw [plain, singles_append, singles_append, List.append_assoc, List.append_assoc] at same
    obtain ⟨same, others⟩ := List.append_inj same (by rw [length_singles, count])
    rw [← same, ← List.append_cancel_left others, flatten_singles, flatten_singles] at rest
    exact ih later ((List.mem_cons.mp member).resolve_left differ) rest

end Expansion

/-- Targets are kept and normalising is idempotent for all questions exactly if every target begins
with its source and hides no other occurrence of itself. -/
theorem keepsTargets_iff (separate : service.Separate) :
    (∀ question, service.KeepsTargets question ∧
        service.normalize (service.normalize question) = service.normalize question) ↔
      ∀ mapping ∈ service.mappings, mapping.1 ≠ [] →
        mapping.1 <+: mapping.2 ∧ ¬ Reexpands mapping.1 mapping.2 := by
  have inside : ∀ other ∈ service.orderedMappings, other ∈ service.mappings :=
    fun other member => mem_orderedMappings.mp member
  constructor
  · intro holds mapping listed used
    have member : mapping ∈ service.orderedMappings := mem_orderedMappings.mpr listed
    -- a target that stands at the end of a question is copied by its own pass
    have last (before : Str) (letters : before ⊆ mapping.2)
        (clear : Clear mapping.1 before mapping.2 []) :
        CopiedBy mapping.1 mapping.2 before mapping.2 [] := by
      refine copiedBy_of_copied separate listed used inside member letters (List.nil_subset _) ?_
      exact (holds (before ++ mapping.2 ++ [])).1 mapping listed before [] rfl clear
    have starts : mapping.1 <+: mapping.2 := by
      by_contra other
      refine not_copiedBy_self used (separate.within mapping listed used) other ?_
      exact last [] (List.nil_subset _) (clear_of_last fun o less => absurd less o.not_lt_zero)
    refine ⟨starts, fun reexpands => ?_⟩
    obtain ⟨before, shown, clear, expanded⟩ := exists_not_copiedBy used starts reexpands
    exact expanded (last before shown.subset clear)
  · intro anchored question
    refine ⟨?_, normalize_normalize separate (fun mapping listed used =>
      (anchored mapping listed used).1) question⟩
    rintro mapping listed before after rfl clear
    exact copied_of_clear separate listed (anchored mapping listed) inside
      (nodup_orderedMappings service) clear

theorem separate_of_single (single : service.mappings = [mapping])
    (within : mapping.1 <:+: mapping.2) : service.Separate := by
  refine ⟨fun first listed _ => ?_, fun first listed second listed' differ => ?_⟩
  · rw [single] at listed
    rw [List.mem_singleton.mp listed]
    exact within
  · rw [single] at listed listed'
    exact absurd ((List.mem_singleton.mp listed).trans (List.mem_singleton.mp listed').symm) differ

/-- A term with its full name -/
def insurer : QueryTermMappingService where
  mappings := [(.lit "平安", .lit "平安保司")]
  distinct := List.nodup_singleton _

theorem insurer_keepsTargets : insurer.KeepsTargets (.lit "平安保司和平安车险") ∧
    insurer.normalize (insurer.normalize (.lit "平安保司和平安车险")) =
      insurer.normalize (.lit "平安保司和平安车险") := by
  have separate : insurer.Separate := separate_of_single rfl (by decide)
  refine (keepsTargets_iff separate).mpr (fun mapping listed used => ?_) _
  rw [List.mem_singleton.mp listed] at used ⊢
  exact ⟨by decide, not_reexpands_of_nodup used (by decide)⟩

/-- A term that stands at the end of its full name -/
def handset : QueryTermMappingService where
  mappings := [(.lit "手机", .lit "苹果手机")]
  distinct := List.nodup_singleton _

/-- A full name is expanded again, each time. -/
theorem handset_not_keepsTargets : ¬ ∀ service : QueryTermMappingService, service.Separate →
    ∀ question, service.KeepsTargets question ∧
      service.normalize (service.normalize question) = service.normalize question := by
  intro all
  have separate : handset.Separate := separate_of_single rfl (by decide)
  have normalize_eq (question : Str) : handset.normalize question =
      result (Str.lit "手机") (Str.lit "苹果手机") question := by
    rw [normalize, orderedMappings, handset, List.mergeSort_singleton, List.foldl_cons,
      List.foldl_nil, applyMapping_eq (by decide) (by decide)]
  have same := (all handset separate (.lit "苹果手机")).2
  rw [normalize_eq, normalize_eq] at same
  exact absurd same (by decide)

end QueryTermMappingService

end HeyeeAgent.Rag
