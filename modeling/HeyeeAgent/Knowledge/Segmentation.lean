import HeyeeAgent.Knowledge.BlankChunks
import HeyeeAgent.Knowledge.PackedRanges

/-! # The blocks of a text

The segmentation reads the lines of a text as segments: the lines of a block, behind blank lines. A
block is where the lines of its segment stand, and then it takes in the blank lines of the next one.
-/

namespace HeyeeAgent.Knowledge.ChunkingService

open Intervals

/-- The lines of a block, behind blank lines -/
structure Segment where
  kind : BlockKind
  gap : List (List Char)
  body : List (List Char)

/-- What the lines of a block are -/
inductive Shaped : BlockKind → List (List Char) → Prop
  | para {lines : List (List Char)} (nonempty : lines ≠ [])
      (textual : ∀ line ∈ lines, isTextLine line = true) : Shaped .para lines
  | alone {kind : BlockKind} {line : List Char} (other : kind = .heading ∨ kind = .atomic)
      (plain : isFenceLine line = false) (shown : trimmed line ≠ []) : Shaped kind [line]
  | code {opening closing : List Char} {inside : List (List Char)}
      (opens : isFenceLine opening = true) (plain : ∀ line ∈ inside, isFenceLine line = false)
      (closes : isFenceLine closing = true) : Shaped .code (opening :: (inside ++ [closing]))

def Blank (lines : List (List Char)) : Prop := ∀ line ∈ lines, trimmed line = []

/-- The lines of a text as segments; a fence that is not closed goes on to the end. -/
inductive Reads : List (List Char) → List Segment → Prop
  | blank {lines : List (List Char)} (blank : Blank lines) : Reads lines []
  | unclosed {gap inside : List (List Char)} {opening : List Char} (blank : Blank gap)
      (opens : isFenceLine opening = true) (plain : ∀ line ∈ inside, isFenceLine line = false) :
      Reads (gap ++ opening :: inside) [⟨.code, gap, opening :: inside⟩]
  | segment {segment : Segment} {lines : List (List Char)} {segments : List Segment}
      (blank : Blank segment.gap) (shaped : Shaped segment.kind segment.body)
      (rest : Reads lines segments) :
      Reads (segment.gap ++ (segment.body ++ lines)) (segment :: segments)

/-- Where the blocks stand, from a position on -/
def blocksFrom (pos : ℕ) : List Segment → List Block
  | [] => []
  | segment :: segments =>
    let start := pos + segment.gap.flatten.length
    let stop := start + segment.body.flatten.length
    ⟨segment.kind, start, stop⟩ :: blocksFrom stop segments

section Lines

variable {line : List Char} {lines rest : List (List Char)} {para : Option ℕ} {pos : ℕ}

/-- The lines that the segmentation holds: none, those behind an open fence, or a paragraph. -/
inductive Held (start : ℕ) : Option ℕ → Option ℕ → List (List Char) → Prop
  | nothing : Held start none none []
  | fence {opening : List Char} {inside : List (List Char)} (opens : isFenceLine opening = true)
      (plain : ∀ line ∈ inside, isFenceLine line = false) :
      Held start (some start) none (opening :: inside)
  | para {body : List (List Char)} (nonempty : body ≠ [])
      (textual : ∀ line ∈ body, isTextLine line = true) : Held start none (some start) body

theorem Blank.append {first second : List (List Char)} (one : Blank first) (other : Blank second) :
    Blank (first ++ second) := List.forall_mem_append.mpr ⟨one, other⟩

/-- Blank lines before the segments -/
theorem Reads.gap {gap : List (List Char)} {segments : List Segment} (reads : Reads lines segments)
    (blank : Blank gap) : ∃ segments', Reads (gap ++ lines) segments' ∧
      blocksFrom (pos + gap.flatten.length) segments = blocksFrom pos segments' := by
  cases reads with
  | blank other => exact ⟨[], .blank (blank.append other), rfl⟩
  | @unclosed gap' inside opening blank' opens plain =>
    rw [← List.append_assoc]
    refine ⟨_, .unclosed (blank.append blank') opens plain, ?_⟩
    simp [blocksFrom, Nat.add_assoc]
  | @segment segment lines segments blank' shaped rest =>
    rw [← List.append_assoc]
    refine ⟨_, @Reads.segment ⟨segment.kind, gap ++ segment.gap, segment.body⟩ _ _
      (blank.append blank') shaped rest, ?_⟩
    simp [blocksFrom, Nat.add_assoc]

/-- The lines of a block before the segments -/
theorem Reads.body {kind : BlockKind} {body : List (List Char)} {segments : List Segment} {here : ℕ}
    (reads : Reads lines segments) (shaped : Shaped kind body)
    (stands : here = pos + body.flatten.length) :
    ∃ segments', Reads (body ++ lines) segments' ∧
      ⟨kind, pos, here⟩ :: blocksFrom here segments = blocksFrom pos segments' := by
  subst stands
  exact ⟨⟨kind, [], body⟩ :: segments,
    @Reads.segment ⟨kind, [], body⟩ _ _ (List.forall_mem_nil _) shaped reads, rfl⟩

/-- The lines that are held are a paragraph if any. -/
theorem Held.closes {start here : ℕ} {body : List (List Char)} {segments : List Segment}
    (held : Held start none para body) (stands : here = start + body.flatten.length)
    (reads : Reads lines segments) : ∃ segments', Reads (body ++ lines) segments' ∧
      closePara para here ++ blocksFrom here segments = blocksFrom start segments' := by
  cases held with
  | nothing => exact ⟨segments, reads, by rw [stands]; rfl⟩
  | para nonempty textual => exact reads.body (.para nonempty textual) stands

/-- A line of a paragraph more -/
theorem Held.text {start here : ℕ} {body : List (List Char)} (held : Held start none para body)
    (stands : here = start + body.flatten.length) (textual : isTextLine line = true) :
    Held start none (some (para.getD here)) (body ++ [line]) := by
  cases held with
  | nothing =>
    cases stands
    exact .para (List.cons_ne_nil _ _) (List.forall_mem_singleton.mpr textual)
  | para nonempty before =>
    exact .para (List.append_ne_nil_of_left_ne_nil nonempty _)
      (List.forall_mem_append.mpr ⟨before, List.forall_mem_singleton.mpr textual⟩)

/-- The segmentation finds the blocks of the segments that it reads. -/
theorem Held.reads {start here : ℕ} {fence : Option ℕ} {body : List (List Char)}
    (held : Held start fence para body) (stands : here = start + body.flatten.length) :
    ∃ segments, Reads (body ++ lines) segments ∧
      segmentFrom here fence para lines = blocksFrom start segments := by
  induction lines generalizing start here fence para body with
  | nil =>
    rw [List.append_nil]
    cases held with
    | nothing => exact ⟨[], .blank (List.forall_mem_nil _), rfl⟩
    | fence opens plain =>
      have none_before : Blank [] := List.forall_mem_nil _
      refine ⟨_, .unclosed none_before opens plain, ?_⟩
      simp [segmentFrom, blocksFrom, stands]
    | para nonempty textual =>
      rw [← List.append_nil body]
      exact (Reads.blank (List.forall_mem_nil _)).body (.para nonempty textual) stands
  | cons line lines ih =>
    have alone : here + line.length = here + [line].flatten.length := by simp
    have settled : ∃ segments, Reads lines segments ∧
        segmentFrom (here + line.length) none none lines =
          blocksFrom (here + line.length) segments := ih .nothing rfl
    have more : here + line.length = start + (body ++ [line]).flatten.length := by
      rw [length_flatten_snoc, stands, Nat.add_assoc]
    cases fence with
    | none =>
      obtain ⟨opens, found⟩ | ⟨nothing, found⟩ | ⟨kind, shape, found⟩ | ⟨textual, found⟩ :=
        segmentFrom_line here para line lines
      · obtain ⟨segments, reads, rest⟩ := ih (.fence opens (List.forall_mem_nil _)) alone
        rw [found, rest]
        exact held.closes stands reads
      · obtain ⟨segments, reads, rest⟩ := settled
        obtain ⟨segments, reads, same⟩ := reads.gap (List.forall_mem_singleton.mpr nothing)
        rw [found, rest, alone, same]
        exact held.closes stands reads
      · have shaped : Shaped kind [line] :=
          .alone (shape.mark.imp And.left And.left) shape.plain shape.shown
        obtain ⟨segments, reads, rest⟩ := settled
        obtain ⟨segments, reads, same⟩ := reads.body shaped alone
        rw [found, rest, same]
        exact held.closes stands reads
      · have longer := ih (held.text stands textual) more
        rwa [List.append_assoc, ← found] at longer
    | some start =>
      cases held with
      | @fence opening inside opens plain =>
        obtain ⟨closes, found⟩ | ⟨within, found⟩ := segmentFrom_inside here start none line lines
        · obtain ⟨segments, reads, rest⟩ := settled
          obtain ⟨segments, reads, same⟩ := reads.body (.code opens plain closes) more
          refine ⟨segments, ?_, ?_⟩
          · rwa [← List.cons_append, List.append_assoc] at reads
          · rw [found, rest, same]
        · have longer := ih (.fence opens (List.forall_mem_append.mpr
            ⟨plain, List.forall_mem_singleton.mpr within⟩)) more
          rwa [← List.cons_append, List.append_assoc, ← found] at longer

end Lines

section Blanks

variable {text : List Char}

/-- Each block goes on to the start of the next one. -/
def joined : List Block → List Block
  | block :: next :: rest => { block with stop := next.start } :: joined (next :: rest)
  | blocks => blocks

theorem joined_cons_ne_nil (block : Block) (rest : List Block) : joined (block :: rest) ≠ [] := by
  cases rest <;> exact List.cons_ne_nil _ _

/-- Between two blocks there are blanks only, so every block takes them in. -/
theorem coalesceFrom_of_tiles {previous : Block} {rest : List Block} {stop : ℕ}
    (tiles : Tiles text previous.stop rest stop) :
    coalesceFrom text previous rest = joined (previous :: rest) := by
  induction rest generalizing previous with
  | nil => rfl
  | cons current rest ih =>
    obtain ⟨-, blank, -, later⟩ := tiles
    rw [coalesceFrom, if_pos (isAllBlank_of_isBlank blank), joined, ih later]

/-- The blocks of a text are those of segments of it. -/
theorem exists_segments (text : List Char) : ∃ segments, Reads (cutLines text) segments ∧
    segmentToBlocks text = joined (blocksFrom 0 segments) := by
  obtain ⟨segments, reads, found⟩ := @Held.reads (cutLines text) _ 0 0 _ [] .nothing rfl
  refine ⟨segments, reads, ?_⟩
  have tiles := (segmented_segmentFrom text).tiles
  rw [segmentToBlocks, ← found]
  generalize segmentFrom 0 none none (cutLines text) = blocks at tiles
  cases blocks with
  | nil => rfl
  | cons first rest => exact coalesceFrom_of_tiles tiles.2.2.2

end Blanks

section Fences

/-- The lines behind an opening fence that are part of its block: up to the next fence line, and the
blank lines behind it unless the block is the last one; or all of them. -/
inductive Closes (last : Prop) : List (List Char) → List (List Char) → Prop
  | fence {inside blanks after : List (List Char)} {closing : List Char}
      (plain : ∀ line ∈ inside, isFenceLine line = false) (closes : isFenceLine closing = true)
      (blank : Blank blanks) (none_taken : last → blanks = [])
      (all_taken : ¬ last → ∃ next ∈ after.head?, trimmed next ≠ []) :
      Closes last (inside ++ closing :: (blanks ++ after)) (inside ++ closing :: blanks)
  | unclosed {rest : List (List Char)} (plain : ∀ line ∈ rest, isFenceLine line = false)
      (is_last : last) : Closes last rest rest

/-- The block is that of a fence which opens outside every other one. -/
def CodeBlock (text : List Char) (last : Prop) (block : Block) : Prop :=
  ∃ before opening rest body, cutLines text = before ++ opening :: rest ∧
    block.start = before.flatten.length ∧ isFenceLine opening = true ∧
    Even (before.countP isFenceLine) ∧ Closes last rest body ∧
    block.stop = (before ++ opening :: body).flatten.length

variable {text line : List Char} {past lines gap body : List (List Char)} {kind : BlockKind}
  {segments : List Segment}

theorem trimmed_ne_nil_of_fence (fence : isFenceLine line = true) : trimmed line ≠ [] := by
  intro nothing
  rw [plain_of_blank nothing] at fence
  cases fence

theorem countP_blank (blank : Blank lines) : lines.countP isFenceLine = 0 := by
  rw [List.countP_eq_zero]
  exact fun line member fence => trimmed_ne_nil_of_fence fence (blank line member)

theorem countP_plain (plain : ∀ line ∈ lines, isFenceLine line = false) :
    lines.countP isFenceLine = 0 := by
  rw [List.countP_eq_zero]
  simpa using plain

/-- The fences in the lines of a block are closed. -/
theorem Shaped.even (shaped : Shaped kind body) : Even (body.countP isFenceLine) := by
  cases shaped with
  | para nonempty textual =>
    rw [countP_plain fun line member => plain_of_text (textual line member)]
    exact Even.zero
  | alone other plain shown =>
    rw [List.countP_singleton, plain]
    exact Even.zero
  | code opens plain closes =>
    rw [List.countP_cons, List.countP_append, countP_plain plain, List.countP_singleton, opens, closes]
    decide

/-- The lines of a block do not begin with a blank one. -/
theorem Shaped.first (shaped : Shaped kind body) : ∃ next ∈ body.head?, trimmed next ≠ [] := by
  cases shaped with
  | para nonempty textual =>
    obtain ⟨line, lines, rfl⟩ := List.exists_cons_of_ne_nil nonempty
    refine ⟨line, rfl, fun nothing => ?_⟩
    have textual := textual line List.mem_cons_self
    rw [not_text_of_blank nothing] at textual
    cases textual
  | alone other plain shown => exact ⟨_, rfl, shown⟩
  | code opens plain closes => exact ⟨_, rfl, trimmed_ne_nil_of_fence opens⟩

/-- The lines behind the blank ones -/
theorem Reads.first {segment : Segment} (reads : Reads lines (segment :: segments)) :
    ∃ after, lines = segment.gap ++ after ∧ Blank segment.gap ∧
      ∃ next ∈ after.head?, trimmed next ≠ [] := by
  cases reads with
  | unclosed blank opens plain => exact ⟨_, rfl, blank, _, rfl, trimmed_ne_nil_of_fence opens⟩
  | segment blank shaped rest =>
    obtain ⟨next, first, shown⟩ := shaped.first
    refine ⟨_, rfl, blank, next, ?_, shown⟩
    rw [List.head?_append, Option.mem_def.mp first]
    rfl

theorem length_flatten_append (first second : List (List Char)) :
    (first ++ second).flatten.length = first.flatten.length + second.flatten.length := by
  rw [List.flatten_append, List.length_append]

/-- A fence that opens behind blank lines -/
theorem codeBlock_of_closes {last : Prop} {block : Block} {opening : List Char}
    {rest : List (List Char)} (cut : cutLines text = past ++ (gap ++ opening :: rest))
    (outside : Even (past.countP isFenceLine)) (blank : Blank gap)
    (opens : isFenceLine opening = true) (closes : Closes last rest body)
    (start : block.start = past.flatten.length + gap.flatten.length)
    (stop : block.stop = past.flatten.length + gap.flatten.length + (opening :: body).flatten.length) :
    CodeBlock text last block := by
  refine ⟨past ++ gap, opening, rest, body, ?_, ?_, opens, ?_, closes, ?_⟩
  · rw [cut, List.append_assoc]
  · rw [start, length_flatten_append]
  · rwa [List.countP_append, countP_blank blank, Nat.add_zero]
  · rw [stop, length_flatten_append, length_flatten_append]

theorem Shaped.fences (shaped : Shaped .code body) : ∃ opening inside closing,
    body = opening :: (inside ++ [closing]) ∧ isFenceLine opening = true ∧
      (∀ line ∈ inside, isFenceLine line = false) ∧ isFenceLine closing = true := by
  cases shaped with
  | alone other => simp at other
  | code opens plain closes => exact ⟨_, _, _, rfl, opens, plain, closes⟩

/-- Every code block among the blocks is that of a fence. -/
theorem Reads.codeBlock (reads : Reads lines segments) (cut : cutLines text = past ++ lines)
    (outside : Even (past.countP isFenceLine)) {earlier later : List Block} {block : Block}
    (found : joined (blocksFrom past.flatten.length segments) = earlier ++ block :: later)
    (code : block.kind = .code) : CodeBlock text (later = []) block := by
  induction reads generalizing past earlier with
  | blank blank => cases earlier <;> cases found
  | @unclosed gap inside opening blank opens plain =>
    obtain ⟨rfl, same⟩ | ⟨-, none_left⟩ := List.append_eq_singleton_iff.mp found.symm
    · cases same
      exact codeBlock_of_closes cut outside blank opens (.unclosed plain rfl) rfl rfl
    · cases none_left
  | @segment segment lines segments blank shaped rest ih =>
    obtain ⟨kind, gap, body⟩ := segment
    cases segments with
    | nil =>
      obtain ⟨rfl, same⟩ | ⟨-, none_left⟩ := List.append_eq_singleton_iff.mp found.symm
      · cases same
        cases code
        obtain ⟨opening, inside, closing, rfl, opens, plain, closes⟩ := shaped.fences
        have closed : Closes ([] = ([] : List Block)) (inside ++ closing :: ([] ++ lines))
            (inside ++ closing :: []) :=
          .fence plain closes (List.forall_mem_nil _) (fun _ => rfl) (absurd rfl)
        refine codeBlock_of_closes ?_ outside blank opens closed rfl rfl
        rw [cut]
        simp
      · cases none_left
    | cons next segments =>
      obtain ⟨after, rfl, blank', begins⟩ := rest.first
      cases earlier with
      | nil =>
        cases found
        cases code
        obtain ⟨opening, inside, closing, rfl, opens, plain, closes⟩ := shaped.fences
        refine codeBlock_of_closes ?_ outside blank opens (.fence plain closes blank'
          (fun last => absurd last (joined_cons_ne_nil _ _)) fun _ => begins) rfl ?_
        · rw [cut]
          simp
        · simp
          omega
      | cons first earlier =>
        have behind := (List.cons_eq_cons.mp found).2
        have place : (past ++ (gap ++ body)).flatten.length =
            past.flatten.length + gap.flatten.length + body.flatten.length := by
          rw [length_flatten_append, length_flatten_append, Nat.add_assoc]
        change joined (blocksFrom (past.flatten.length + gap.flatten.length + body.flatten.length)
          (next :: segments)) = earlier ++ block :: later at behind
        rw [← place] at behind
        refine ih ?_ ?_ behind
        · rw [cut]
          simp
        · rw [List.countP_append, List.countP_append, countP_blank blank, Nat.zero_add]
          exact outside.add shaped.even

end Fences

section Rules

variable {text line : List Char} {before after : List (List Char)} {blocks : List Block} {pos : ℕ}

/-- The start of a line, or the end of the text -/
def LineBoundary (text : List Char) (pos : ℕ) : Prop :=
  ∃ before after, cutLines text = before ++ after ∧ pos = before.flatten.length

/-- What the blocks of a text are. -/
structure Segmentation (text : List Char) (blocks : List Block) : Prop where
  ordered : Ordered Block.start Block.stop blocks
  joined : blocks.IsChain fun block next => block.stop = next.start
  boundaries : ∀ block ∈ blocks, LineBoundary text block.start ∧ LineBoundary text block.stop
  lines : ∀ before line after, cutLines text = before ++ line :: after →
    (∃ c ∈ line, c ≠ ' ' ∧ c ≠ '\t' ∧ c ≠ '\n') →
    ∃! block, block ∈ blocks ∧ block.start ≤ before.flatten.length ∧
      before.flatten.length + line.length ≤ block.stop
  code : ∀ earlier block later, blocks = earlier ++ block :: later → block.kind = .code →
    CodeBlock text (later = []) block

theorem BlockBoundary.lineBoundary (boundary : BlockBoundary text pos) : LineBoundary text pos := by
  obtain ⟨before, after, cut, place, -⟩ := boundary
  exact ⟨before, after, cut, place⟩

/-- No boundary is inside a line. -/
theorem LineBoundary.not_inside (boundary : LineBoundary text pos)
    (cut : cutLines text = before ++ line :: after) :
    pos ≤ before.flatten.length ∨ before.flatten.length + line.length ≤ pos := by
  obtain ⟨front, behind, cut', rfl⟩ := boundary
  rw [cut] at cut'
  rcases List.append_eq_append_iff.mp cut' with ⟨more, rfl, same⟩ | ⟨more, rfl, -⟩
  · cases more with
    | nil => exact .inl (by simp)
    | cons first more =>
      cases same
      right
      rw [length_flatten_append, List.flatten_cons, List.length_append]
      omega
  · left
    rw [length_flatten_append]
    omega

/-- Consecutive blocks are joined. -/
theorem Consecutive.joined {start stop : ℕ}
    (consecutive : Consecutive start (blocks.map Block.range) stop) :
    (∀ block ∈ blocks, block.start < block.stop) ∧
      blocks.IsChain fun block next => block.stop = next.start := by
  induction blocks generalizing start with
  | nil => exact ⟨List.forall_mem_nil _, .nil⟩
  | cons block rest ih =>
    obtain ⟨-, longer, later⟩ := consecutive
    obtain ⟨proper, chain⟩ := ih later
    refine ⟨List.forall_mem_cons.mpr ⟨longer, proper⟩, List.isChain_cons.mpr ⟨?_, chain⟩⟩
    intro next follows
    cases rest with
    | nil => cases follows
    | cons other rest =>
      cases follows
      exact later.1.symm

/-- Where consecutive blocks end -/
theorem Consecutive.reach {start stop : ℕ} {first : Block} {rest : List Block}
    (consecutive : Consecutive start ((first :: rest).map Block.range) stop) :
    first.start = start ∧ (Stretch.mk first rest).last.stop = stop := by
  refine ⟨consecutive.1, ?_⟩
  induction rest generalizing start first with
  | nil => exact consecutive.2.2
  | cons next rest ih =>
    rw [Stretch.last_cons]
    exact ih consecutive.2.2

/-- The lines of a text stand where the lines before them end. -/
theorem slice_of_line (cut : cutLines text = before ++ line :: after) :
    slice text before.flatten.length (before.flatten.length + line.length) = line := by
  rw [← flatten_cutLines text, cut, slice_line]

/-- A line with something in it does not lie in blanks. -/
theorem not_within_blanks {start stop : ℕ} (cut : cutLines text = before ++ line :: after)
    (blank : IsBlank (slice text start stop)) (shown : ∃ c ∈ line, c ≠ ' ' ∧ c ≠ '\t' ∧ c ≠ '\n') :
    ¬(start ≤ before.flatten.length ∧ before.flatten.length + line.length ≤ stop) := by
  rintro ⟨lower, upper⟩
  obtain ⟨c, member, no_space, no_tab, no_newline⟩ := shown
  have part : slice text _ _ ⊆ slice text start stop := slice_subset lower upper
  rw [slice_of_line cut] at part
  rcases blank c (part member) with same | same | same
  · exact no_space same
  · exact no_tab same
  · exact no_newline same

/-- A line with something in it lies in one block. -/
theorem exists_unique_block (cut : cutLines text = before ++ line :: after)
    (shown : ∃ c ∈ line, c ≠ ' ' ∧ c ≠ '\t' ∧ c ≠ '\n') :
    ∃! block, block ∈ segmentToBlocks text ∧ block.start ≤ before.flatten.length ∧
      before.flatten.length + line.length ≤ block.stop := by
  have within : before.flatten.length + line.length ≤ text.length := by
    rw [← flatten_cutLines text, cut, length_flatten_append, List.flatten_cons, List.length_append]
    omega
  cases found : segmentToBlocks text with
  | nil =>
    have blank := isBlank_of_segmentToBlocks found
    rw [← List.take_length (l := text), ← List.drop_zero (l := text.take text.length)] at blank
    exact absurd ⟨Nat.zero_le _, within⟩ (not_within_blanks cut blank shown)
  | cons first rest =>
    obtain ⟨⟨start, stop, consecutive, front, inside, back⟩, boundaries⟩ :=
      segmentToBlocks_spec found (List.cons_ne_nil _ _)
    obtain ⟨proper, chain⟩ := consecutive.joined
    obtain ⟨starts, stops⟩ := consecutive.reach
    have ordered := ordered_of_joined proper chain
    have long : 0 < line.length := by
      obtain ⟨c, member, -⟩ := shown
      exact List.length_pos_of_mem member
    -- a block holds the start of the line, and no boundary is inside the line
    have whole {block : Block} (member : block ∈ first :: rest) :
        Contains Block.start Block.stop before.flatten.length block ↔
          block.start ≤ before.flatten.length ∧
            before.flatten.length + line.length ≤ block.stop := by
      have outside := (boundaries block member).2.lineBoundary.not_inside cut
      rw [Contains]
      omega
    have from_start : first.start ≤ before.flatten.length := by
      have outside := (boundaries first List.mem_cons_self).1.lineBoundary.not_inside cut
      refine outside.resolve_right fun behind => ?_
      rw [starts] at behind
      rw [← List.drop_zero (l := text.take start)] at front
      exact not_within_blanks cut front shown ⟨Nat.zero_le _, behind⟩
    have to_end : before.flatten.length < (Stretch.mk first rest).last.stop := by
      have outside := (boundaries _ (Stretch.last_mem ⟨first, rest⟩)).2.lineBoundary.not_inside cut
      rw [stops] at outside ⊢
      refine Nat.lt_of_not_le fun behind => ?_
      rw [← List.take_length (l := text)] at back
      exact not_within_blanks cut back shown ⟨behind, within⟩
    obtain ⟨block, member, holds⟩ := exists_contains chain from_start to_end
    refine ⟨block, ⟨member, (whole member).mp holds⟩, ?_⟩
    rintro other ⟨listed, covers⟩
    exact ordered.eq_of_contains listed member ((whole listed).mpr covers) holds

/-- The blocks follow each other, at boundaries. -/
theorem consecutive_segmentToBlocks (text : List Char) :
    (∃ start stop, Consecutive start ((segmentToBlocks text).map Block.range) stop) ∧
      ∀ block ∈ segmentToBlocks text,
        BlockBoundary text block.start ∧ BlockBoundary text block.stop := by
  by_cases none_found : segmentToBlocks text = []
  · rw [none_found]
    exact ⟨⟨0, 0, rfl⟩, List.forall_mem_nil _⟩
  · obtain ⟨⟨start, stop, consecutive, -⟩, boundaries⟩ := segmentToBlocks_spec rfl none_found
    exact ⟨⟨start, stop, consecutive⟩, boundaries⟩

/-- The segmentation cuts every text into blocks. -/
theorem segmentation_segmentToBlocks (text : List Char) :
    Segmentation text (segmentToBlocks text) := by
  obtain ⟨⟨start, stop, consecutive⟩, boundaries⟩ := consecutive_segmentToBlocks text
  obtain ⟨proper, chain⟩ := consecutive.joined
  obtain ⟨segments, reads, found⟩ := exists_segments text
  have outside : Even (([] : List (List Char)).countP isFenceLine) := Even.zero
  refine ⟨ordered_of_joined proper chain, chain, fun block member => ?_,
    fun before line after cut shown => exists_unique_block cut shown,
    fun earlier block later split code => reads.codeBlock rfl outside (found ▸ split) code⟩
  obtain ⟨one, other⟩ := boundaries block member
  exact ⟨one.lineBoundary, other.lineBoundary⟩

/-- A heading, a paragraph, a fence with the blank line behind it, a heading and a paragraph -/
example : (segmentToBlocks document).map Block.range =
    [(0, 5), (5, 16), (16, 40), (40, 44), (44, 53)] := by decide +kernel

end Rules

end HeyeeAgent.Knowledge.ChunkingService
