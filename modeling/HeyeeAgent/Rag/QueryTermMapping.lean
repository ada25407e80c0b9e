import HeyeeAgent.Python.Collections
import HeyeeAgent.Python.Text
import HeyeeAgent.Replacement.Guarded

/-! # Term mappings

A question is normalised by one pass for each mapping, the longest sources first. A pass leaves a
target that begins where its source was found.
-/

namespace HeyeeAgent.Rag

open Python GuardedReplacement

/-- The service with the mappings that it has loaded -/
structure QueryTermMappingService where
  mappings : Dict Str Str
  distinct : mappings.keys.Nodup

/-- `text.find(source)` -/
def findText (source : Str) : Str → Option ℕ
  | [] => if source = [] then some 0 else none
  | c :: rest => if source <+: c :: rest then some 0 else (findText source rest).map (· + 1)

/-- The loop of `_apply_mapping`, on the rest of the text -/
def applyLoop {source target : Str} (source_ne : source ≠ []) (target_ne : target ≠ [])
    (rest : Str) : Str :=
  if _more : rest = [] then []
  else
    match findText source rest with
    | none => rest
    | some hit =>
      rest.take hit ++ target ++ applyLoop source_ne target_ne
        (if target <+: rest.drop hit then rest.drop (hit + target.length)
          else rest.drop (hit + source.length))
termination_by rest.length
decreasing_by
  have sources := List.length_pos_iff.mpr source_ne
  have targets := List.length_pos_iff.mpr target_ne
  have letters := List.length_pos_iff.mpr _more
  split_ifs <;> rw [List.length_drop] <;> omega

/-- `_apply_mapping` -/
def applyMapping (text source target : Str) : Str :=
  if skipped : text = [] ∨ source = [] ∨ target = [] then text
  else applyLoop (fun empty => skipped (.inr (.inl empty)))
    (fun empty => skipped (.inr (.inr empty))) text

namespace QueryTermMappingService

variable (service : QueryTermMappingService)

/-- `_ordered_mappings` -/
def orderedMappings : List (Str × Str) :=
  service.mappings.mergeSort fun mapping other => other.1.length ≤ mapping.1.length

def normalize (question : Str) : Str :=
  service.orderedMappings.foldl (fun normalized mapping =>
    applyMapping normalized mapping.1 mapping.2) question

end QueryTermMappingService

section Scan

variable {source target text : Str} {hit : ℕ}

theorem missed_of_findText_none (nowhere : findText source text = none) :
    ∀ w, w ≠ [] → w <:+ text → ¬ source <+: w := by
  induction text with
  | nil =>
    intro w present suffix
    exact absurd (List.suffix_nil.mp suffix) present
  | cons c rest ih =>
    rw [findText] at nowhere
    split_ifs at nowhere with here
    intro w present suffix
    rcases List.suffix_cons_iff.mp suffix with rfl | later
    · exact here
    · exact ih (Option.map_eq_none_iff.mp nowhere) w present later

theorem findText_some (found : findText source text = some hit) :
    source <+: text.drop hit ∧
      ∀ w, w ≠ [] → w <:+ text.take hit → ¬ source <+: w ++ text.drop hit := by
  induction text generalizing hit with
  | nil =>
    rw [findText] at found
    split_ifs at found with empty
    rw [List.take_nil, List.drop_nil, empty]
    refine ⟨List.nil_prefix, fun w present suffix => absurd (List.suffix_nil.mp suffix) present⟩
  | cons c rest ih =>
    rw [findText] at found
    split_ifs at found with here
    · cases found
      exact ⟨here, fun w present suffix => absurd (List.suffix_nil.mp suffix) present⟩
    · obtain ⟨later, found_later, rfl⟩ := Option.map_eq_some_iff.mp found
      obtain ⟨there, missed⟩ := ih found_later
      rw [List.drop_succ_cons, List.take_succ_cons]
      refine ⟨there, fun w present suffix => ?_⟩
      rcases List.suffix_cons_iff.mp suffix with rfl | inside
      · rwa [List.cons_append, List.take_append_drop]
      · exact missed w present inside

/-- The loop is the scan of the guarded replacement. -/
theorem applyLoop_eq (source_ne : source ≠ []) (target_ne : target ≠ []) (rest : Str) :
    applyLoop source_ne target_ne rest = result source target rest := by
  induction length : rest.length using Nat.strong_induction_on generalizing rest with
  | _ n ih =>
    rw [applyLoop]
    split_ifs with empty
    · rw [empty]
      rfl
    have letters := List.length_pos_iff.mpr empty
    have sources := List.length_pos_iff.mpr source_ne
    have targets := List.length_pos_iff.mpr target_ne
    cases found : findText source rest with
    | none =>
      have missed := missed_of_findText_none found
      have stable : pieces source target (rest ++ []) = singles rest ++ pieces source target [] :=
        pieces_of_missed fun w present suffix => by
          rw [List.append_nil]
          exact missed w present suffix
      rw [List.append_nil, pieces_nil, List.append_nil] at stable
      exact (result_of_stable stable).symm
    | some hit =>
      obtain ⟨here, missed⟩ := findText_some found
      have split : result source target rest =
          rest.take hit ++ result source target (rest.drop hit) := by
        conv_lhs => rw [← List.take_append_drop hit rest]
        rw [result, pieces_of_missed missed, List.flatten_append, flatten_singles, ← result]
      dsimp only
      rw [split, List.append_assoc]
      refine congrArg (rest.take hit ++ ·) ?_
      by_cases guarded : target <+: rest.drop hit
      · rw [if_pos guarded, ih _ (by rw [List.length_drop]; omega) _ rfl]
        obtain ⟨later, same⟩ := guarded
        rw [← same] at here
        rw [← same, result_target target_ne here, ← List.drop_drop, ← same, List.drop_left]
      · rw [if_neg guarded, ih _ (by rw [List.length_drop]; omega) _ rfl]
        obtain ⟨later, same⟩ := here
        rw [← same] at guarded
        rw [← same, result_source source_ne guarded, ← List.drop_drop, ← same, List.drop_left]

theorem applyMapping_eq (source_ne : source ≠ []) (target_ne : target ≠ []) (text : Str) :
    applyMapping text source target = result source target text := by
  rw [applyMapping]
  split_ifs with skipped
  · rw [skipped.resolve_right fun empty => empty.elim source_ne target_ne]
    rfl
  · exact applyLoop_eq source_ne target_ne text

end Scan

end HeyeeAgent.Rag
