import HeyeeAgent.Knowledge.FixedSize
import HeyeeAgent.Knowledge.StructureAware
import Mathlib.Data.List.Forall2

/-! # The text in the chunks

Each chunk ends with a range of the text, behind what it may repeat of the chunk before. The ranges go
forward and leave out white space only, so the visible characters of the text are in the chunks, in
their order, for both strategies and every configuration.
-/

namespace HeyeeAgent.Knowledge.ChunkingService

open Python Machine

/-- The characters of a text that are no white space -/
def visibleText (text : List Char) : List Char := text.filter fun c => !isSpace c

@[simp] theorem visibleText_append (first second : List Char) :
    visibleText (first ++ second) = visibleText first ++ visibleText second := List.filter_append _ _

/-- Chunks with their ranges of a text. -/
structure Reproduces (text : List Char) (ranges : List (ℕ × ℕ)) (chunks : List TextChunk) : Prop where
  contents : List.Forall₂ (fun range chunk =>
    (slice text range.1 range.2).map Char.toNat <:+ chunk.content) ranges chunks
  forward : ranges.Pairwise fun before after => before.1 < after.1 ∧ before.2 < after.2
  covers : Covers text ranges text.length

section Reading

variable {text : List Char} {ranges : List (ℕ × ℕ)} {chunks : List TextChunk}

theorem visibleText_eq_nil (blank : ∀ c ∈ text, isSpace c = true) : visibleText text = [] :=
  List.filter_eq_nil_iff.mpr fun c member => by simp [blank c member]

/-- Where no visible character stands, a slice has none. -/
theorem visibleText_slice_eq_nil {start stop : ℕ}
    (blank : ∀ pos c, text[pos]? = some c → start ≤ pos → pos < stop → isSpace c = true) :
    visibleText (slice text start stop) = [] := by
  apply visibleText_eq_nil
  intro c member
  obtain ⟨index, found⟩ := List.mem_iff_getElem?.mp member
  rw [slice, List.getElem?_drop, List.getElem?_take] at found
  split at found
  case isTrue inside => exact blank _ c found (Nat.le_add_right _ _) inside
  case isFalse => cases found

/-- A slice that begins with white space has its visible characters where a later one begins. -/
theorem visibleText_slice_sublist {limit start stop : ℕ} (reached : limit ≤ stop)
    (blank : ∀ pos c, text[pos]? = some c → limit ≤ pos → pos < start → isSpace c = true) :
    (visibleText (slice text limit stop)).Sublist (slice text start stop) := by
  by_cases inside : start ≤ limit
  · rw [slice_append inside reached]
    exact List.filter_sublist.trans (List.sublist_append_right _ _)
  · by_cases before : start ≤ stop
    · rw [slice_append (show limit ≤ start by omega) before, visibleText_append,
        visibleText_slice_eq_nil blank, List.nil_append]
      exact List.filter_sublist
    · rw [visibleText_slice_eq_nil fun pos c found behind within => blank pos c found behind (by omega)]
      exact List.nil_sublist _

theorem drop_eq_slice_append {limit stop : ℕ} (reached : limit ≤ stop) :
    text.drop limit = slice text limit stop ++ text.drop stop := by
  have whole (start : ℕ) : text.drop start = slice text start (max text.length stop) := by
    rw [slice, List.take_of_length_le (le_max_left _ _)]
  rw [whole limit, whole stop, slice_append reached (le_max_right _ _)]

/-- What is visible behind a limit is read in the ranges that cover it, from the first to the last. -/
theorem visibleText_drop_sublist (limit : ℕ)
    (contents : List.Forall₂ (fun range chunk =>
      (slice text range.1 range.2).map Char.toNat <:+ chunk.content) ranges chunks)
    (forward : ranges.Pairwise fun before after => before.1 < after.1 ∧ before.2 < after.2)
    (covers : ∀ pos c, text[pos]? = some c → isSpace c = false → limit ≤ pos →
      ∃ range ∈ ranges, range.1 ≤ pos ∧ pos < range.2) :
    ((visibleText (text.drop limit)).map Char.toNat).Sublist
      (chunks.map TextChunk.content).flatten := by
  induction contents generalizing limit with
  | nil =>
    have blank : visibleText (text.drop limit) = [] := by
      apply visibleText_eq_nil
      intro c member
      obtain ⟨index, found⟩ := List.mem_iff_getElem?.mp member
      rw [List.getElem?_drop] at found
      by_contra shown
      obtain ⟨range, none_of, -⟩ := covers _ c found (Bool.eq_false_iff.mpr shown)
        (Nat.le_add_right _ _)
      cases none_of
    rw [blank]
    exact List.nil_sublist _
  | @cons range chunk ranges chunks ends contents ih =>
    obtain ⟨later, forward⟩ := List.pairwise_cons.mp forward
    -- in front of the first range nothing is visible, and the others cover what is behind it
    have blank (pos : ℕ) (c : Char) (found : text[pos]? = some c) (behind : limit ≤ pos)
        (before : pos < range.1) : isSpace c = true := by
      by_contra shown
      obtain ⟨other, member, first, -⟩ := covers pos c found (Bool.eq_false_iff.mpr shown) behind
      rcases List.mem_cons.mp member with rfl | member
      · omega
      · have := (later other member).1
        omega
    have rest := ih (max limit range.2) forward fun pos c found shown behind => by
      obtain ⟨other, member, within⟩ := covers pos c found shown (by omega)
      rcases List.mem_cons.mp member with rfl | member
      · omega
      · exact ⟨other, member, within⟩
    rw [List.map_cons, List.flatten_cons]
    by_cases reached : limit ≤ range.2
    · rw [max_eq_right reached] at rest
      rw [drop_eq_slice_append reached, visibleText_append, List.map_append]
      exact (((visibleText_slice_sublist reached blank).map _).trans ends.sublist).append rest
    · rw [max_eq_left (by omega)] at rest
      exact rest.trans (List.sublist_append_right _ _)

theorem Reproduces.visibleText_sublist (reproduces : Reproduces text ranges chunks) :
    ((visibleText text).map Char.toNat).Sublist (chunks.map TextChunk.content).flatten := by
  refine visibleText_drop_sublist 0 reproduces.contents reproduces.forward fun pos c found shown _ => ?_
  obtain ⟨inside, -⟩ := List.getElem?_eq_some_iff.mp found
  exact reproduces.covers pos c found shown inside

end Reading

section Strategies

variable {py : Interpreter} {drawn : ℕ → Str} {text : List Char} {ranges : List (ℕ × ℕ)}

theorem forall₂_chunksOf (text : List Char) (ranges : List (ℕ × ℕ)) :
    List.Forall₂ (fun range chunk => (slice text range.1 range.2).map Char.toNat <:+ chunk.content)
      ranges (chunksOf py drawn text ranges) := by
  refine List.forall₂_iff_get.mpr ⟨(length_chunksOf py drawn text ranges).symm, fun index _ _ => ?_⟩
  simp [chunksOf, makeChunk]

variable (py drawn) in
/-- The chunks of a fixed size reproduce the normalized text. -/
theorem reproduces_splitFixedSize {c : Char} (member : c ∈ text) (shown : isSpace c = false)
    (config : Object) : ∃ ranges, ranges ≠ [] ∧
      Reproduces (normalizeForFixedSize py text) ranges
        (chunksOf py drawn (normalizeForFixedSize py text) ranges) ∧
      ∀ rounds, (normalizeForFixedSize py text).length < rounds →
        splitFixedSize py drawn rounds text config =
          some (chunksOf py drawn (normalizeForFixedSize py text) ranges) := by
  have there := mem_normalizeForFixedSize py shown member
  have positive := chunkSize_pos config
  have smaller := clampedOverlap_lt config positive
  obtain ⟨last, ⟨ranges, chunks, cuts, covers⟩, reached⟩ :=
    @loop_ends _ (Cutting.round py drawn (normalizeForFixedSize py text) (chunkSize config).toNat
      (clampedOverlap config (chunkSize config)).toNat) _ _ _
      (fun s next inv taken => Cutting.Inv.again inv (by omega) taken)
      (fun s last inv taken => Cutting.Inv.done inv (by omega) taken) _
      (Cutting.Inv.initial (List.ne_nil_of_mem there) (by omega))
  refine ⟨ranges, ?_, ⟨forall₂_chunksOf _ _, ?_, covers⟩, fun rounds enough => ?_⟩
  · rintro rfl
    obtain ⟨pos, found⟩ := List.mem_iff_getElem?.mp there
    obtain ⟨inside, -⟩ := List.getElem?_eq_some_iff.mp found
    obtain ⟨range, none_of, -⟩ := covers pos c found shown inside
    cases none_of
  · exact cuts.ordered.imp fun ordered => ⟨ordered.1, ordered.2.1⟩
  · simp only [splitFixedSize, if_neg (show chunkSize config ≠ -1 by omega)]
    rw [reached rounds (by simpa using enough), Option.map_some, chunks]

/-- Behind its overlap a chunk is its range. -/
theorem forall₂_overlapping {overlap : ℕ} {previous : List Char} {contents : List (List Char)}
    (overlapping : Overlapping text overlap previous ranges contents) (index : ℕ) :
    List.Forall₂ (fun range chunk => (slice text range.1 range.2).map Char.toNat <:+ chunk.content)
      ranges (overlappedChunks py drawn index ranges contents) := by
  induction overlapping generalizing index with
  | nil => exact .nil
  | @cons previous kept range ranges contents suffix length rest ih =>
    rw [overlappedChunks, List.zip_cons_cons, List.mapIdx_cons]
    refine .cons ?_ ?_
    · rw [makeChunk, List.map_append]
      exact List.suffix_append _ _
    · have next := ih (index + 1)
      simp only [overlappedChunks, Nat.add_assoc, Nat.add_comm 1] at next ⊢
      exact next

theorem Consecutive.start_le {start stop : ℕ} {range : ℕ × ℕ}
    (consecutive : Consecutive start ranges stop) (member : range ∈ ranges) :
    start ≤ range.1 ∧ range.1 < range.2 := by
  induction ranges generalizing start with
  | nil => cases member
  | cons first ranges ih =>
    obtain ⟨begins, grows, rest⟩ := consecutive
    rcases List.mem_cons.mp member with rfl | member
    · exact ⟨begins.ge, grows⟩
    · obtain ⟨behind, grows'⟩ := ih rest member
      exact ⟨by omega, grows'⟩

theorem Consecutive.forward {start stop : ℕ} (consecutive : Consecutive start ranges stop) :
    ranges.Pairwise fun before after => before.1 < after.1 ∧ before.2 < after.2 := by
  induction ranges generalizing start with
  | nil => exact .nil
  | cons first ranges ih =>
    obtain ⟨begins, grows, rest⟩ := consecutive
    refine .cons (fun range member => ?_) (ih rest)
    have behind := rest.start_le member
    omega

theorem Consecutive.exists_range {start stop pos : ℕ} (consecutive : Consecutive start ranges stop)
    (first : start ≤ pos) (before : pos < stop) : ∃ range ∈ ranges, range.1 ≤ pos ∧ pos < range.2 := by
  induction ranges generalizing start with
  | nil =>
    have empty : start = stop := consecutive
    omega
  | cons range ranges ih =>
    obtain ⟨begins, grows, rest⟩ := consecutive
    by_cases here : pos < range.2
    · exact ⟨range, List.mem_cons_self, by omega, here⟩
    · obtain ⟨other, member, within⟩ := ih rest (by omega)
      exact ⟨other, List.mem_cons_of_mem _ member, within⟩

theorem IsBlank.isSpace (blank : IsBlank text) {c : Char} (member : c ∈ text) : isSpace c = true := by
  rcases blank c member with rfl | rfl | rfl <;> decide

/-- The structure-aware chunks reproduce the text with its newlines normalized. -/
theorem reproduces_splitStructureAware {c : Char} (member : c ∈ text) (shown : Python.isSpace c = false)
    (config : Object) : ∃ ranges,
      Reproduces (normalizeNewlines text) ranges (splitStructureAware py drawn text config) := by
  have other : c ≠ '\r' := by
    rintro rfl
    exact absurd shown (by decide)
  have nonempty := segmentToBlocks_ne_nil (mem_normalizeNewlines other member) shown
  simp only [splitStructureAware]
  generalize packed : packBlocksToChunks _ _ _ _ = ranges
  obtain ⟨contents, overlapping, chunks⟩ := overlapping_materializeFrom py drawn
    (normalizeNewlines text) (structureOverlap config) 0 [] ranges
  have start :
      (if 0 < structureOverlap config then tail [] (structureOverlap config) else []) = [] := by
    simp [tail]
  rw [start] at chunks
  subst packed
  obtain ⟨-, ⟨start, stop, consecutive, before, inside, after⟩, -⟩ :=
    structured_pack rfl nonempty overlapping
  refine ⟨_, chunks ▸ forall₂_overlapping overlapping 0, consecutive.forward, ?_⟩
  intro pos c found shown _
  apply consecutive.exists_range
  · by_contra early
    have taken : c ∈ (normalizeNewlines text).take start :=
      List.mem_iff_getElem?.mpr ⟨pos, by rw [List.getElem?_take, if_pos (by omega), found]⟩
    rw [before.isSpace taken] at shown
    cases shown
  · by_contra late
    have dropped : c ∈ (normalizeNewlines text).drop stop :=
      List.mem_iff_getElem?.mpr ⟨pos - stop, by
        rw [List.getElem?_drop, Nat.add_sub_cancel' (by omega), found]⟩
    rw [after.isSpace dropped] at shown
    cases shown

/-- Newlines are white space, however they are written. -/
theorem visibleText_normalizeNewlines (text : List Char) :
    visibleText (normalizeNewlines text) = visibleText text := by
  have spaces : ∀ c, c = '\r' ∨ c = '\n' → (!isSpace c) = false := by
    rintro c (rfl | rfl) <;> decide
  have replaced (c : Char) (text : List Char) :
      visibleText ((if c = '\r' then '\n' else c) :: text) = visibleText [c] ++ visibleText text := by
    rw [← visibleText_append, List.singleton_append]
    by_cases returns : c = '\r'
    · rw [if_pos returns, visibleText, visibleText, List.filter_cons, List.filter_cons,
        spaces _ (.inr rfl), spaces _ (.inl returns), if_neg Bool.false_ne_true,
        if_neg Bool.false_ne_true]
    · rw [if_neg returns]
  rw [normalizeNewlines]
  fun_induction joinReturns text with
  | case1 rest ih =>
    rw [List.map_cons, replaced, ih, ← visibleText_append]
    rfl
  | case2 c rest _ ih =>
    rw [List.map_cons, replaced, ih, ← visibleText_append]
    rfl
  | case3 => rfl

theorem exists_visible (shown : stripChars text ≠ []) : ∃ c ∈ text, isSpace c = false := by
  by_contra none_shown
  refine shown (stripChars_eq_nil.mpr fun c member => ?_)
  by_contra space
  exact none_shown ⟨c, member, Bool.eq_false_iff.mpr space⟩

/-- Whatever the strategy and the configuration, the visible characters of a text are in its chunks. -/
theorem visibleText_sublist_split {rounds : ℕ} {strategy : Str} {config : Object}
    {chunks : List TextChunk} (enough : (normalizeForFixedSize py text).length < rounds)
    (cut : split py drawn rounds text strategy config = some chunks) :
    ((visibleText text).map Char.toNat).Sublist (chunks.map TextChunk.content).flatten := by
  rw [split] at cut
  split_ifs at cut with blank fixed structured
  · obtain ⟨c, member, shown⟩ := exists_visible blank
    obtain ⟨ranges, -, reproduces, made⟩ := reproduces_splitFixedSize py drawn member shown config
    cases (made rounds enough).symm.trans cut
    have kept : visibleText (normalizeForFixedSize py text) = visibleText text :=
      filter_normalizeForFixedSize py text
    exact kept ▸ reproduces.visibleText_sublist
  · cases cut
    obtain ⟨c, member, shown⟩ := exists_visible blank
    obtain ⟨ranges, reproduces⟩ := reproduces_splitStructureAware member shown config
    exact visibleText_normalizeNewlines text ▸ reproduces.visibleText_sublist

end Strategies

end HeyeeAgent.Knowledge.ChunkingService
