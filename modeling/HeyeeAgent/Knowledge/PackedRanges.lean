import HeyeeAgent.Intervals.Stretches
import HeyeeAgent.Knowledge.StructureAware

/-! # Ranges of packed blocks

The packing cuts a row of blocks into stretches of neighbours and gives the reach of each. A stretch
takes on blocks as long as it stays in bounds, and one block more where it is too short without it.
The last stretch may be taken into the one before.
-/

namespace HeyeeAgent.Knowledge.ChunkingService

open Intervals

def stretchRange (stretch : Stretch Block) : ℕ × ℕ := stretch.reach Block.start Block.stop

/-- The characters of a stretch, with the gaps in it -/
def stretchSize (stretch : Stretch Block) : ℕ := stretch.last.stop - stretch.first.start

/-- What the packing allows of a stretch -/
def SizeRule (minChars maxChars : ℕ) (stretch : Stretch Block) : Prop :=
  stretchSize stretch ≤ maxChars ∨ stretch.rest = [] ∨ stretchSize stretch.dropLast < minChars

/-- The next block does not fit, and the stretch is not too short without it. -/
structure Full (minChars maxChars : ℕ) (stretch : Stretch Block) (next : Block) : Prop where
  exceeds : maxChars < next.stop - stretch.first.start
  enough : minChars ≤ stretchSize stretch ∨ maxChars < stretchSize stretch

/-- A range that is the last two of the pass in one -/
def MergesLastTwo (maxChars : ℕ) (packed ranges : List (ℕ × ℕ)) (range : ℕ × ℕ) : Prop :=
  ∃ earlier previous last, packed = earlier ++ [previous, last] ∧ ranges = earlier ++ [range] ∧
    range = (previous.1, last.2) ∧ range.2 - range.1 ≤ maxChars * 2

/-- What the ranges of packed blocks are: the reaches of stretches of blocks, each as long as the rules
allow and with no room for the next block, and the last one short only where it has to be. -/
structure Packed (minChars target maxChars : ℕ) (blocks : List Block)
    (stretches : List (Stretch Block)) (ranges : List (ℕ × ℕ)) : Prop where
  cut : stretches.flatMap Stretch.items = blocks
  reaches : ranges = stretches.map stretchRange
  once : ∀ block ∈ blocks, ∃! range, range ∈ ranges ∧ Within Block.start Block.stop block range
  sizes : ∀ stretch ∈ stretches, SizeRule minChars maxChars stretch ∨
    MergesLastTwo maxChars (packFrom minChars maxChars 0 blocks) ranges (stretchRange stretch)
  greedy : stretches.IsChain fun stretch next => maxChars < next.first.stop - stretch.first.start
  tail : ∀ earlier previous last, ranges = earlier ++ [previous, last] →
    last.2 - last.1 < min minChars (target / 2) → maxChars * 2 < last.2 - previous.1

variable {minChars target maxChars : ℕ} {blocks : List Block} {stretch next : Stretch Block}

section Pass

/-- One block more -/
def addBlock (stretch : Stretch Block) (block : Block) : Stretch Block := stretch.append ⟨block, []⟩

theorem dropLast_addBlock (block : Block) : (addBlock stretch block).dropLast = stretch := by
  rw [addBlock, Stretch.append, Stretch.dropLast, Stretch.items, List.dropLast_concat]

theorem stretchSize_addBlock (block : Block) :
    stretchSize (addBlock stretch block) = block.stop - stretch.first.start := by
  rw [stretchSize, addBlock, Stretch.last_append]
  rfl

theorem items_addBlock (block : Block) (rest : List Block) :
    (addBlock stretch block).items ++ rest = stretch.items ++ block :: rest := by
  rw [addBlock, Stretch.items_append, List.append_assoc]
  rfl

/-- The stretch that takes on the next blocks, and what holds it back -/
theorem grow_stretch (ordered : Ordered Block.start Block.stop (stretch.items ++ blocks))
    (fits : stretchSize stretch ≤ maxChars ∨ stretch.rest = []) :
    ∃ grown taken, grow minChars maxChars stretch.first.start stretch.last.stop blocks =
        (grown.last.stop, taken) ∧
      grown.first = stretch.first ∧ grown.items ++ blocks.drop taken = stretch.items ++ blocks ∧
      SizeRule minChars maxChars grown ∧
      ∀ next ∈ (blocks.drop taken).head?, Full minChars maxChars grown next := by
  induction blocks generalizing stretch with
  | nil => exact ⟨stretch, 0, rfl, rfl, rfl, fits.imp_right .inl, by simp⟩
  | cons block rest ih =>
    have last : (addBlock stretch block).last = block := Stretch.last_append stretch ⟨block, []⟩
    have size := @stretchSize_addBlock stretch block
    rw [← items_addBlock] at ordered
    by_cases inside : block.stop - stretch.first.start ≤ maxChars
    · have within : stretchSize (addBlock stretch block) ≤ maxChars := by omega
      obtain ⟨grown, taken, grows, first, items, rule, stops⟩ :=
        ih ordered (.inl within)
      rw [last] at grows
      refine ⟨grown, taken + 1, ?_, first, ?_, rule, stops⟩
      · rw [grow, if_pos inside]
        exact congrArg (fun grown => (grown.1, grown.2 + 1)) grows
      · rw [List.drop_succ_cons, items, items_addBlock]
    · by_cases short : stretchSize stretch < minChars
      · -- the stretch takes the block on all the same, and then no other one
        refine ⟨addBlock stretch block, 1, ?_, rfl, ?_, .inr (.inr ?_), fun next follows => ?_⟩
        · rw [grow, if_neg inside, last]
          exact if_pos short
        · rw [List.drop_one, List.tail_cons, items_addBlock]
        · rwa [dropLast_addBlock]
        · rw [List.drop_one, List.tail_cons] at follows
          obtain ⟨-, -, apart⟩ := ordered.of_append
          have member := List.mem_of_head? follows
          have behind := apart _ (Stretch.last_mem _) next member
          have proper := ordered.proper next (List.mem_append_right _ member)
          rw [last] at behind
          exact ⟨by simp only [addBlock, Stretch.append]; omega, .inr (by omega)⟩
      · refine ⟨stretch, 0, ?_, rfl, rfl, fits.imp_right .inl, fun next follows => ?_⟩
        · rw [grow, if_neg inside]
          exact if_neg short
        · cases follows
          exact ⟨by omega, .inl (by omega)⟩

/-- The pass cuts the blocks into stretches, and all but the last one are full. -/
theorem packFrom_stretches {jump : ℕ} (ordered : Ordered Block.start Block.stop (blocks.drop jump)) :
    ∃ stretches : List (Stretch Block), stretches.flatMap Stretch.items = blocks.drop jump ∧
      packFrom minChars maxChars jump blocks = stretches.map stretchRange ∧
      (∀ stretch ∈ stretches, SizeRule minChars maxChars stretch) ∧
      stretches.IsChain fun stretch next => Full minChars maxChars stretch next.first := by
  induction blocks generalizing jump with
  | nil =>
    refine ⟨[], by simp, ?_, List.forall_mem_nil _, .nil⟩
    cases jump <;> rfl
  | cons block rest ih =>
    cases jump with
    | succ jump => exact ih ordered
    | zero =>
      have single : stretchSize ⟨block, []⟩ ≤ maxChars ∨ (Stretch.mk block []).rest = [] := .inr rfl
      obtain ⟨grown, taken, grows, first, items, rule, stops⟩ :=
        @grow_stretch minChars maxChars rest ⟨block, []⟩ ordered single
      have left : Ordered Block.start Block.stop (grown.items ++ rest.drop taken) :=
        items ▸ ordered
      obtain ⟨stretches, cut, packed, rules, chain⟩ := ih left.of_append.2.1
      refine ⟨grown :: stretches, ?_, ?_, List.forall_mem_cons.mpr ⟨rule, rules⟩, ?_⟩
      · rw [List.flatMap_cons, cut, items]
        rfl
      · have range : stretchRange grown = (block.start, grown.last.stop) := by
          rw [stretchRange, Stretch.reach, first]
        rw [packFrom, List.map_cons, ← packed, range]
        exact congrArg (fun grown => (block.start, grown.1) ::
          packFrom minChars maxChars grown.2 rest) grows
      · refine List.isChain_cons.mpr ⟨fun next follows => stops next.first ?_, chain⟩
        rw [← cut]
        cases stretches with
        | nil => cases follows
        | cons other stretches =>
          cases follows
          rfl

end Pass

section Tail

/-- The last two ranges become one, or the last one stays. -/
theorem mergeTail_cases (minChars target maxChars : ℕ) (ranges : List (ℕ × ℕ)) :
    (mergeTail minChars target maxChars ranges = ranges ∧
      ∀ earlier previous last, ranges = earlier ++ [previous, last] →
        last.2 - last.1 < min minChars (target / 2) → maxChars * 2 < last.2 - previous.1) ∨
    ∃ earlier previous last, ranges = earlier ++ [previous, last] ∧
      last.2 - previous.1 ≤ maxChars * 2 ∧
      mergeTail minChars target maxChars ranges = earlier ++ [(previous.1, last.2)] := by
  fun_induction mergeTail minChars target maxChars ranges with
  | case1 previous last short => exact .inr ⟨[], previous, last, rfl, short.2, rfl⟩
  | case2 previous last stays =>
    refine .inl ⟨rfl, fun earlier first second same short => ?_⟩
    cases earlier with
    | nil =>
      cases same
      omega
    | cons range earlier =>
      have lengths := congrArg List.length same
      simp only [List.length_cons, List.length_append] at lengths
      omega
  | case3 range ranges more ih =>
    rcases ih with ⟨same, rule⟩ | ⟨earlier, previous, last, rfl, fits, merged⟩
    · refine .inl ⟨congrArg (range :: ·) same, fun earlier previous last split short => ?_⟩
      cases earlier with
      | nil =>
        cases split
        exact absurd rfl (more last)
      | cons first earlier =>
        obtain ⟨rfl, behind⟩ := List.cons_eq_cons.mp split
        exact rule earlier previous last behind short
    · exact .inr ⟨range :: earlier, previous, last, rfl, fits, congrArg (range :: ·) merged⟩
  | case4 =>
    refine .inl ⟨rfl, fun earlier previous last split _ => ?_⟩
    exact absurd split.symm (List.append_ne_nil_of_right_ne_nil earlier (List.cons_ne_nil _ _))

end Tail

section Rules

variable {stretches earlier : List (Stretch Block)} {previous last : Stretch Block}

theorem stretchRange_append (previous last : Stretch Block) :
    stretchRange (previous.append last) = (previous.first.start, last.last.stop) := by
  rw [stretchRange, Stretch.reach, Stretch.last_append]
  rfl

/-- A stretch is as long as its first block at least. -/
theorem first_stop_le (ordered : Ordered Block.start Block.stop stretch.items) :
    stretch.first.stop ≤ stretch.last.stop :=
  (ordered.within_reach List.mem_cons_self).2

/-- After the merge the last stretch is long, or too long to be merged once more. -/
theorem merged_tail {before : Stretch Block}
    (ordered : Ordered Block.start Block.stop ((before.items ++ previous.items) ++ last.items))
    (full : Full minChars maxChars before previous.first)
    (full' : Full minChars maxChars previous last.first)
    (short : last.last.stop - previous.first.start < min minChars (target / 2)) :
    maxChars * 2 < last.last.stop - before.first.start := by
  obtain ⟨both, later, -⟩ := ordered.of_append
  obtain ⟨front, -, apart⟩ := both.of_append
  have behind := apart _ before.last_mem previous.first List.mem_cons_self
  have longer := first_stop_le later
  have proper := (front.within_reach before.last_mem).1
  have exceeds := full'.exceeds
  -- what is over the bound and still too short leaves no bound to the stretch before
  have enough := full.enough
  rw [stretchSize] at enough
  omega

/-- The last two stretches of a list of ranges -/
theorem exists_of_last_two {ranges : List (ℕ × ℕ)} {one other : ℕ × ℕ}
    (split : stretches.map stretchRange = ranges ++ [one, other]) :
    ∃ earlier previous last, stretches = earlier ++ [previous, last] ∧
      earlier.map stretchRange = ranges ∧ stretchRange previous = one ∧ stretchRange last = other := by
  obtain ⟨earlier, behind, rfl, front, back⟩ := List.map_eq_append_iff.mp split
  obtain ⟨previous, behind, rfl, first, back⟩ := List.map_eq_cons_iff.mp back
  obtain ⟨last, behind, rfl, second, back⟩ := List.map_eq_cons_iff.mp back
  cases List.map_eq_nil_iff.mp back
  exact ⟨earlier, previous, last, rfl, front, first, second⟩

/-- The rules hold once the last two stretches of the pass are one. -/
theorem packed_merge (ordered : Ordered Block.start Block.stop blocks)
    (cut : (earlier ++ [previous, last]).flatMap Stretch.items = blocks)
    (packed : packFrom minChars maxChars 0 blocks = (earlier ++ [previous, last]).map stretchRange)
    (rules : ∀ stretch ∈ earlier ++ [previous, last], SizeRule minChars maxChars stretch)
    (chain : (earlier ++ [previous, last]).IsChain fun stretch next =>
      Full minChars maxChars stretch next.first)
    (fits : last.last.stop - previous.first.start ≤ maxChars * 2) :
    Packed minChars target maxChars blocks (earlier ++ [previous.append last])
      (earlier.map stretchRange ++ [(previous.first.start, last.last.stop)]) := by
  have cut' : (earlier ++ [previous.append last]).flatMap Stretch.items = blocks := by
    rw [← cut]
    simp
  have reaches : earlier.map stretchRange ++ [(previous.first.start, last.last.stop)] =
      (earlier ++ [previous.append last]).map stretchRange := by
    rw [List.map_append, List.map_singleton, stretchRange_append]
  obtain ⟨front, both, joint⟩ := List.isChain_append.mp chain
  refine ⟨cut', reaches, ?_, ?_, ?_, ?_⟩
  · rw [reaches]
    rw [← cut'] at ordered ⊢
    exact fun block member => ordered.exists_unique_reach member
  · intro stretch member
    rcases List.mem_append.mp member with old | new
    · exact .inl (rules stretch (List.mem_append_left _ old))
    · cases List.mem_singleton.mp new
      refine .inr ⟨earlier.map stretchRange, stretchRange previous, stretchRange last, ?_, ?_, ?_, ?_⟩
      · rw [packed, List.map_append]
        rfl
      · rw [stretchRange_append]
      · exact stretchRange_append previous last
      · rw [stretchRange_append]
        exact fits
  · refine List.isChain_append.mpr ⟨front.imp fun _ _ full => full.exceeds, .singleton _, ?_⟩
    rintro before ends _ ⟨⟩
    exact (joint before ends previous rfl).exceeds
  · intro others one other split short
    rw [reaches] at split
    obtain ⟨front', before, final, same, -, rfl, rfl⟩ := exists_of_last_two split
    rw [show front' ++ [before, final] = (front' ++ [before]) ++ [final] by simp] at same
    obtain ⟨rfl, ends⟩ := List.append_inj' same rfl
    cases List.singleton_inj.mp ends
    have three : (before.items ++ previous.items) ++ last.items <:+ blocks := by
      refine ⟨front'.flatMap Stretch.items, ?_⟩
      rw [← cut]
      simp
    have full := joint before (by simp) previous rfl
    have full' := List.isChain_pair.mp both
    rw [stretchRange_append] at short ⊢
    exact merged_tail (ordered.sublist three.sublist) full full' short

/-- The packing obeys its size rules, with any bounds. -/
theorem packed_packBlocksToChunks (ordered : Ordered Block.start Block.stop blocks)
    (minChars target maxChars : ℕ) :
    ∃ stretches, Packed minChars target maxChars blocks stretches
      (packBlocksToChunks blocks minChars target maxChars) := by
  obtain ⟨stretches, cut, packed, rules, chain⟩ :=
    @packFrom_stretches minChars maxChars blocks 0 ordered
  rw [List.drop_zero] at cut
  rw [packBlocksToChunks, packed]
  rcases mergeTail_cases minChars target maxChars (stretches.map stretchRange) with
    ⟨same, tail⟩ | ⟨earlier, previous, last, split, fits, merged⟩
  · rw [same]
    refine ⟨stretches, cut, rfl, ?_, fun stretch member => .inl (rules stretch member), ?_, tail⟩
    · rw [← cut] at ordered ⊢
      exact fun block member => ordered.exists_unique_reach member
    · exact chain.imp fun _ _ full => full.exceeds
  · obtain ⟨earlier, previous, last, rfl, rfl, rfl, rfl⟩ := exists_of_last_two split
    rw [merged]
    exact ⟨_, packed_merge ordered cut packed rules chain fits⟩

/-- A heading with its paragraph, a long code block, and two short paragraphs with a gap -/
def layout : List Block :=
  [⟨.heading, 0, 3⟩, ⟨.para, 4, 9⟩, ⟨.code, 9, 30⟩, ⟨.para, 30, 36⟩, ⟨.para, 40, 43⟩]

theorem packed_packBlocksToChunks_layout :
    ∃ stretches, Packed 5 10 8 layout stretches (packBlocksToChunks layout 5 10 8) :=
  packed_packBlocksToChunks ⟨by decide, by decide⟩ 5 10 8

/-- The heading takes on its paragraph, and the last paragraph is merged. -/
example : packBlocksToChunks layout 5 10 8 = [(0, 9), (9, 30), (30, 43)] := by decide

end Rules

end HeyeeAgent.Knowledge.ChunkingService
