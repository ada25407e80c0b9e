import HeyeeAgent.Knowledge.WholeText
import Mathlib.Data.List.Induction

/-! # Blank chunks

A line of white space other than space and tab is a line of a paragraph, so a paragraph may be blank,
and with it a chunk. Headings, links and fences have a mark of their own, and a chunk of a fixed size
that is blank is left out.
-/

namespace HeyeeAgent.Knowledge.ChunkingService

open Python Machine

/-- There is a character that is no white space. -/
def Visible (text : List Char) : Prop := ∃ c ∈ text, isSpace c = false

/-- A paragraph of white space: lines of a paragraph outside every fence, with none before or behind
them. -/
def BlankParagraph (text : List Char) : Prop :=
  ∃ before lines after, cutLines text = before ++ (lines ++ after) ∧ lines ≠ [] ∧
    Even (before.countP isFenceLine) ∧
    (∀ line ∈ lines, isTextLine line = true ∧ ¬ Visible line) ∧
    (∀ last ∈ before.getLast?, isTextLine last = false) ∧
    ∀ next ∈ after.head?, isTextLine next = false

/-- There are chunks, numbered from zero on, and none of them is blank. -/
structure NoBlankChunk (chunks : List TextChunk) : Prop where
  nonempty : chunks ≠ []
  numbered : Numbered chunks
  visible : ∀ chunk ∈ chunks, ∃ c ∈ chunk.content, isSpaceCode c = false

/-- The text is split into such chunks, once the rounds of the loop suffice. -/
def Splits (py : Interpreter) (drawn : ℕ → Str) (text : List Char) (strategy : Str)
    (config : Object) : Prop :=
  ∃ chunks, NoBlankChunk chunks ∧ ∀ rounds, (normalizeForFixedSize py text).length < rounds →
    split py drawn rounds text strategy config = some chunks

section Characters

variable {text first second : List Char}

theorem visible_append : Visible (first ++ second) ↔ Visible first ∨ Visible second := by
  simp only [Visible, List.mem_append, or_and_right, exists_or]

theorem visible_flatten {lines : List (List Char)} :
    Visible lines.flatten ↔ ∃ line ∈ lines, Visible line := by
  constructor
  · rintro ⟨c, member, shown⟩
    obtain ⟨line, listed, inside⟩ := List.mem_flatten.mp member
    exact ⟨line, listed, c, inside, shown⟩
  · rintro ⟨line, listed, c, inside, shown⟩
    exact ⟨c, List.mem_flatten.mpr ⟨line, listed, inside⟩, shown⟩

theorem Visible.mono (visible : Visible first) (subset : first ⊆ second) : Visible second := by
  obtain ⟨c, member, shown⟩ := visible
  exact ⟨c, subset member, shown⟩

theorem IsBlank.not_visible (blank : IsBlank text) : ¬ Visible text := by
  rintro ⟨c, member, shown⟩
  rcases blank c member with rfl | rfl | rfl <;> cases shown

theorem visible_trimmed {line : List Char} (visible : Visible (trimmed line)) : Visible line := by
  refine visible.mono fun c member => ?_
  rw [trimmed, List.mem_reverse] at member
  have before := (List.dropWhile_sublist _).subset member
  exact (List.takeWhile_sublist _).subset (List.mem_reverse.mp before)

/-- A chunk is blank exactly if its text is. -/
theorem shown_makeChunk {py : Interpreter} {drawn : ℕ → Str} {index : ℕ} {metadata : Object} :
    (∃ c ∈ (makeChunk py drawn index text metadata).content, isSpaceCode c = false) ↔
      Visible text := by
  constructor
  · rintro ⟨_, member, shown⟩
    obtain ⟨c, inside, rfl⟩ := List.mem_map.mp member
    exact ⟨c, inside, shown⟩
  · rintro ⟨c, inside, shown⟩
    exact ⟨c.toNat, List.mem_map_of_mem inside, shown⟩

theorem visible_of_head {c : Char} (head : text.head? = some c) (shown : isSpace c = false) :
    Visible text := ⟨c, List.mem_of_head? head, shown⟩

end Characters

section Marks

variable {line : List Char}

theorem visible_of_isCodeFence (fence : isCodeFence line = true) : Visible line := by
  obtain ⟨rest, rfl⟩ := List.isPrefixOf_iff_prefix.mp fence
  exact ⟨'`', List.mem_append_left rest (by decide), by decide⟩

theorem visible_of_isHeading (heading : isHeading line = true) : Visible line := by
  cases line with
  | nil => cases heading
  | cons c rest =>
    by_cases mark : c = '#'
    · exact visible_of_head (c := c) rfl (by rw [mark]; rfl)
    · rw [isHeading, List.takeWhile_cons_of_neg (by simpa using mark)] at heading
      cases heading

theorem visible_of_bracketed {opening closing : Char} {least : ℕ} {rest : List Char}
    (found : bracketed opening closing least line = some rest) (shown : isSpace opening = false) :
    Visible line := by
  cases line with
  | nil => cases found
  | cons c inside =>
    rw [bracketed] at found
    obtain ⟨⟨rfl, -⟩, -⟩ := Option.ite_none_right_eq_some.mp found
    exact visible_of_head (c := c) rfl shown

theorem visible_of_atomic (atomic : (isAtomicImage line || isAtomicLink line) = true) :
    Visible line := by
  rcases Bool.or_eq_true_iff.mp atomic with image | link
  · unfold isAtomicImage at image
    split at image
    · exact visible_of_head (c := '!') rfl rfl
    · cases image
  · unfold isAtomicLink at link
    split at link
    · next found =>
      obtain ⟨middle, first, -⟩ := Option.bind_eq_some_iff.mp found
      exact visible_of_bracketed first rfl
    · cases link

theorem Alone.visible {kind : BlockKind} (alone : Alone kind line) : Visible line := by
  rcases alone.mark with ⟨-, heading⟩ | ⟨-, atomic⟩
  · exact visible_trimmed (visible_of_isHeading heading)
  · exact visible_trimmed (visible_of_atomic atomic)

end Marks

section Segments

variable {text line : List Char} {past lines rest : List (List Char)} {fence para : Option ℕ}
  {pos start : ℕ}

/-- Lines stand where the lines before them end. -/
theorem slice_lines (before lines after : List (List Char)) :
    slice (before ++ (lines ++ after)).flatten before.flatten.length
      (before ++ lines).flatten.length = lines.flatten := by
  rw [← List.append_assoc, List.flatten_append, slice, List.take_left', List.flatten_append,
    List.drop_left']
  · rfl
  · rfl

/-- A line outside a fence opens one, or stands alone, or goes on with a paragraph. -/
theorem segmentFrom_outside (pos : ℕ) (para : Option ℕ) (line : List Char)
    (rest : List (List Char)) :
    (isFenceLine line = true ∧ isTextLine line = false ∧ segmentFrom pos none para (line :: rest) =
      closePara para pos ++ segmentFrom (pos + line.length) (some pos) none rest) ∨
    (isFenceLine line = false ∧ isTextLine line = false ∧ ∃ own,
      (∀ block ∈ own, Visible line ∧ block.start = pos ∧ block.stop = pos + line.length) ∧
      segmentFrom pos none para (line :: rest) =
        closePara para pos ++ (own ++ segmentFrom (pos + line.length) none none rest)) ∨
    (isFenceLine line = false ∧ isTextLine line = true ∧ segmentFrom pos none para (line :: rest) =
      segmentFrom (pos + line.length) none (some (para.getD pos)) rest) := by
  obtain ⟨opens, found⟩ | ⟨nothing, found⟩ | ⟨kind, alone, found⟩ | ⟨textual, found⟩ :=
    segmentFrom_line pos para line rest
  · exact .inl ⟨opens, not_text_of_fence opens, found⟩
  · exact .inr (.inl ⟨plain_of_blank nothing, not_text_of_blank nothing, [], List.forall_mem_nil _,
      found⟩)
  · exact .inr (.inl ⟨alone.plain, alone.not_text, [⟨kind, pos, pos + line.length⟩],
      List.forall_mem_singleton.mpr ⟨alone.visible, rfl, rfl⟩, found⟩)
  · exact .inr (.inr ⟨plain_of_text textual, textual, found⟩)

/-- What a line does to what is open, and the blocks that it ends -/
theorem segmentFrom_cons (pos : ℕ) (line : List Char) (rest : List (List Char))
    (alone : fence ≠ none → para = none) :
    ∃ blocks fence' para', segmentFrom pos fence para (line :: rest) =
        blocks ++ segmentFrom (pos + line.length) fence' para' rest ∧
      (fence' = none ↔ (fence = none ↔ isFenceLine line = false)) ∧
      (fence' ≠ none → para' = none) ∧ (isTextLine line = false → para' = none) := by
  cases fence with
  | some start =>
    obtain rfl := alone (Option.some_ne_none start)
    obtain ⟨fence, segments⟩ | ⟨plain, segments⟩ := segmentFrom_inside pos start none line rest
    · exact ⟨[_], none, none, segments, by simp [fence], fun _ => rfl, fun _ => rfl⟩
    · exact ⟨[], some start, none, segments, by simp [plain], fun _ => rfl, fun _ => rfl⟩
  | none =>
    obtain ⟨fence, -, segments⟩ | ⟨plain, -, own, -, segments⟩ | ⟨plain, textual, segments⟩ :=
      segmentFrom_outside pos para line rest
    · exact ⟨_, some pos, none, segments, by simp [fence], fun _ => rfl, fun _ => rfl⟩
    · rw [← List.append_assoc] at segments
      exact ⟨_, none, none, segments, by simp [plain], fun _ => rfl, fun _ => rfl⟩
    · refine ⟨[], none, _, segments, by simp [plain], fun closed => absurd rfl closed, fun other => ?_⟩
      rw [textual] at other
      cases other

/-- What is open after the lines before a place -/
theorem segmentFrom_append (before rest : List (List Char)) :
    ∃ blocks fence' para', segmentFrom 0 none none (before ++ rest) =
        blocks ++ segmentFrom before.flatten.length fence' para' rest ∧
      (fence' = none ↔ Even (before.countP isFenceLine)) ∧ (fence' ≠ none → para' = none) ∧
      ((∀ last ∈ before.getLast?, isTextLine last = false) → para' = none) := by
  induction before using List.reverseRecOn generalizing rest with
  | nil => exact ⟨[], none, none, rfl, by simp, fun _ => rfl, fun _ => rfl⟩
  | append_singleton before line ih =>
    obtain ⟨blocks, fence, para, segments, outside, alone, -⟩ := ih (line :: rest)
    obtain ⟨more, fence', para', segments', outside', alone', settled⟩ :=
      segmentFrom_cons before.flatten.length line rest alone
    refine ⟨blocks ++ more, fence', para', ?_, ?_, alone', fun plain => settled ?_⟩
    · rw [List.append_assoc, List.singleton_append, segments, segments', List.append_assoc,
        length_flatten_snoc]
    · rw [outside', outside, List.countP_append, List.countP_singleton]
      cases isFenceLine line <;> simp [Nat.even_add_one]
    · exact plain line (by rw [List.getLast?_concat]; rfl)

/-- A line of a paragraph outside a fence -/
theorem segmentFrom_text (textual : isTextLine line = true) :
    segmentFrom pos none para (line :: rest) =
      segmentFrom (pos + line.length) none (some (para.getD pos)) rest := by
  obtain ⟨-, other, -⟩ | ⟨-, other, -⟩ | ⟨-, -, segments⟩ := segmentFrom_outside pos para line rest
  · rw [textual] at other
    cases other
  · rw [textual] at other
    cases other
  · exact segments

/-- The lines of an open paragraph stay in it. -/
theorem segmentFrom_para (textual : ∀ line ∈ lines, isTextLine line = true) :
    segmentFrom pos none (some start) (lines ++ rest) =
      segmentFrom (pos + lines.flatten.length) none (some start) rest := by
  induction lines generalizing pos with
  | nil => rfl
  | cons line lines ih =>
    obtain ⟨first, later⟩ := List.forall_mem_cons.mp textual
    rw [List.cons_append, segmentFrom_text first, Option.getD_some, ih later, List.flatten_cons,
      List.length_append, Nat.add_assoc]

/-- A line of another kind ends it. -/
theorem segmentFrom_ends (pos start : ℕ) (ends : ∀ next ∈ lines.head?, isTextLine next = false) :
    ∃ blocks, segmentFrom pos none (some start) lines = ⟨.para, start, pos⟩ :: blocks := by
  cases lines with
  | nil => exact ⟨[], rfl⟩
  | cons line lines =>
    obtain ⟨-, -, segments⟩ | ⟨-, -, own, -, segments⟩ | ⟨-, textual, -⟩ :=
      segmentFrom_outside pos (some start) line lines
    · exact ⟨_, segments⟩
    · exact ⟨_, segments⟩
    · rw [ends line rfl] at textual
      cases textual

/-- A blank paragraph is a block. -/
theorem block_of_blankParagraph (blank : BlankParagraph text) :
    ∃ block ∈ segmentFrom 0 none none (cutLines text),
      ¬ Visible (slice text block.start block.stop) := by
  obtain ⟨before, lines, after, cut, nonempty, even, textual, opens, ends⟩ := blank
  obtain ⟨line, more, rfl⟩ := List.exists_cons_of_ne_nil nonempty
  obtain ⟨blocks, fence, para, segments, outside, -, settled⟩ :=
    segmentFrom_append before ((line :: more) ++ after)
  obtain ⟨first, later⟩ := List.forall_mem_cons.mp textual
  obtain ⟨others, closed⟩ := segmentFrom_ends
    (before.flatten.length + line.length + more.flatten.length) before.flatten.length ends
  have whole : text = (before ++ ((line :: more) ++ after)).flatten := by
    rw [← cut, flatten_cutLines]
  rw [cut, segments, outside.mpr even, settled opens, List.cons_append, segmentFrom_text first.1,
    Option.getD_none, segmentFrom_para fun line member => (later line member).1, closed]
  refine ⟨_, List.mem_append_right blocks List.mem_cons_self, ?_⟩
  have behind : before.flatten.length + line.length + more.flatten.length =
      (before ++ line :: more).flatten.length := by simp [Nat.add_assoc]
  rw [behind, whole, slice_lines, visible_flatten]
  rintro ⟨line, member, visible⟩
  exact (textual line member).2 visible

/-- The lines of what is open: a fence, or a paragraph with none before it. -/
structure Grouped (past : List (List Char)) (fence para : Option ℕ) : Prop where
  fenced : ∀ start, fence = some start → ∃ before line lines, past = before ++ line :: lines ∧
    start = before.flatten.length ∧ isFenceLine line = true
  opened : ∀ start, para = some start → ∃ before lines, past = before ++ lines ∧ lines ≠ [] ∧
    start = before.flatten.length ∧ Even (before.countP isFenceLine) ∧
    (∀ line ∈ lines, isTextLine line = true) ∧ ∀ last ∈ before.getLast?, isTextLine last = false

theorem grouped_none (past : List (List Char)) : Grouped past none none where
  fenced := by simp
  opened := by simp

theorem visible_of_fenceLine (fence : isFenceLine line = true) : Visible (line :: rest).flatten :=
  visible_flatten.mpr ⟨line, List.mem_cons_self, visible_trimmed (visible_of_isCodeFence fence)⟩

/-- The paragraph that ends here is not blank. -/
theorem Grouped.closePara (grouped : Grouped past none para) (cut : cutLines text = past ++ lines)
    (none_blank : ¬ BlankParagraph text) (ends : ∀ next ∈ lines.head?, isTextLine next = false) :
    ∀ block ∈ closePara para past.flatten.length, Visible (slice text block.start block.stop) := by
  cases para with
  | none => exact List.forall_mem_nil _
  | some start =>
    obtain ⟨before, run, rfl, nonempty, rfl, even, textual, opens⟩ := grouped.opened start rfl
    refine List.forall_mem_singleton.mpr ?_
    rw [List.append_assoc] at cut
    have whole : text = (before ++ (run ++ lines)).flatten := by rw [← cut, flatten_cutLines]
    rw [whole, slice_lines, visible_flatten]
    by_contra blank
    refine none_blank ⟨before, run, lines, cut, nonempty, even, ?_, opens, ends⟩
    exact fun line member => ⟨textual line member, fun visible => blank ⟨line, member, visible⟩⟩

/-- A line that goes on with a paragraph, or opens one -/
theorem Grouped.inPara (grouped : Grouped past none para)
    (scan : Scanning text past (line :: lines) none para) (textual : isTextLine line = true) :
    Grouped (past ++ [line]) none (some (para.getD past.flatten.length)) where
  fenced := by simp
  opened := by
    rintro _ ⟨⟩
    cases para with
    | none =>
      exact ⟨past, [line], rfl, List.cons_ne_nil _ _, rfl, scan.outside rfl,
        List.forall_mem_singleton.mpr textual, scan.settled rfl rfl⟩
    | some start =>
      obtain ⟨before, run, rfl, nonempty, rfl, even, all, opens⟩ := grouped.opened start rfl
      refine ⟨before, run ++ [line], List.append_assoc _ _ _, by simp, rfl, even, ?_, opens⟩
      exact List.forall_mem_append.mpr ⟨all, List.forall_mem_singleton.mpr textual⟩

/-- The block of a line alone -/
theorem visible_line (cut : cutLines text = past ++ line :: lines) (visible : Visible line) :
    Visible (slice text past.flatten.length (past ++ [line]).flatten.length) := by
  have whole : text = (past ++ ([line] ++ lines)).flatten := by
    rw [List.singleton_append, ← cut, flatten_cutLines]
  rwa [whole, slice_lines, List.flatten_singleton]

/-- The block from an open fence on -/
theorem Grouped.visible_fence (grouped : Grouped past (some start) para)
    (more : List (List Char)) (cut : cutLines text = past ++ (more ++ lines)) :
    Visible (slice text start (past ++ more).flatten.length) := by
  obtain ⟨before, line, run, rfl, rfl, fence⟩ := grouped.fenced start rfl
  have whole : text = (before ++ ((line :: run ++ more) ++ lines)).flatten := by
    rw [← flatten_cutLines text, cut]
    simp
  rw [whole, List.append_assoc before, slice_lines]
  exact visible_of_fenceLine fence

/-- Without a blank paragraph no block is blank. -/
theorem visible_segmentFrom (scan : Scanning text past lines fence para)
    (grouped : Grouped past fence para) (shapes : ∀ line ∈ lines, IsLine line)
    (none_blank : ¬ BlankParagraph text) :
    ∀ block ∈ segmentFrom past.flatten.length fence para lines,
      Visible (slice text block.start block.stop) := by
  induction lines generalizing past fence para with
  | nil =>
    cases fence with
    | none => exact grouped.closePara scan.cut none_blank (by simp)
    | some start =>
      have last := grouped.visible_fence [] scan.cut
      rw [List.append_nil] at last
      exact List.forall_mem_singleton.mpr last
  | cons line lines ih =>
    obtain ⟨shape, later⟩ := List.forall_mem_cons.mp shapes
    have next := length_flatten_snoc past line
    cases fence with
    | none =>
      obtain ⟨opens, stops, segments⟩ | ⟨plain, stops, own, alone, segments⟩ |
          ⟨plain, textual, segments⟩ :=
        segmentFrom_outside past.flatten.length para line lines
      · have boundary := scan.boundary (.inr (by simpa using stops))
        have opened : Grouped (past ++ [line]) (some past.flatten.length) none := by
          refine ⟨?_, by simp⟩
          rintro _ ⟨⟩
          exact ⟨past, line, [], rfl, rfl, opens⟩
        rw [segments, ← next]
        exact List.forall_mem_append.mpr
          ⟨grouped.closePara scan.cut none_blank (by simpa using stops),
            ih (scan.opensFence shape opens boundary) opened later⟩
      · obtain ⟨-, -, behind, -⟩ := scan.ends shape plain stops
        rw [segments, ← next]
        refine List.forall_mem_append.mpr
          ⟨grouped.closePara scan.cut none_blank (by simpa using stops), ?_⟩
        refine List.forall_mem_append.mpr ⟨fun block member => ?_, ih behind (grouped_none _) later⟩
        obtain ⟨visible, first, last⟩ := alone block member
        rw [first, last, ← next]
        exact visible_line scan.cut visible
      · rw [segments, ← next]
        exact ih (scan.inPara shape plain) (grouped.inPara scan textual) later
    | some start =>
      obtain ⟨odd, rfl, -, -⟩ := scan.fenced start rfl
      obtain ⟨closes, segments⟩ | ⟨plain, segments⟩ :=
        segmentFrom_inside past.flatten.length start none line lines
      · have even : Even ((past ++ [line]).countP isFenceLine) := by
          simpa [closes, Nat.even_add_one] using odd
        have fence : isCodeFence (trimmed line) = true := closes
        have behind := scan.closed even (by simp [isTextLine, fence])
        have visible := grouped.visible_fence [line] scan.cut
        rw [segments, ← next]
        exact List.forall_mem_cons.mpr ⟨visible, ih behind (grouped_none _) later⟩
      · rw [segments, ← next]
        refine ih (scan.within plain) ⟨?_, by simp⟩ later
        rintro _ ⟨⟩
        obtain ⟨before, first, run, rfl, rfl, fence⟩ := grouped.fenced start rfl
        exact ⟨before, first, run ++ [line], by simp, rfl, fence⟩

end Segments

section Packing

variable {text : List Char} {blocks : List Block} {minChars maxChars chunkStart chunkEnd stop : ℕ}

/-- The blanks that a block takes in do not make it visible. -/
theorem visible_coalesceFrom {previous : Block} {rest : List Block} {last : ℕ}
    (forward : previous.start < previous.stop) (tiles : Tiles text previous.stop rest last) :
    (∀ block ∈ coalesceFrom text previous rest, Visible (slice text block.start block.stop)) ↔
      ∀ block ∈ previous :: rest, Visible (slice text block.start block.stop) := by
  induction rest generalizing previous with
  | nil => rfl
  | cons current rest ih =>
    obtain ⟨further, blank, longer, tiles⟩ := tiles
    have gap : slice text previous.start current.start =
        slice text previous.start previous.stop ++ slice text previous.stop current.start :=
      slice_append forward.le further
    simp only [coalesceFrom, isAllBlank_of_isBlank blank, if_true]
    rw [List.forall_mem_cons, ih longer tiles, List.forall_mem_cons (a := previous)]
    refine and_congr_left fun _ => ?_
    rw [gap, visible_append, or_iff_left blank.not_visible]

/-- No block is blank exactly if no paragraph is. -/
theorem visible_segmentToBlocks_iff :
    (∀ block ∈ segmentToBlocks text, Visible (slice text block.start block.stop)) ↔
      ¬ BlankParagraph text := by
  have segmented := (segmented_segmentFrom text).tiles
  have raw : (∀ block ∈ segmentFrom 0 none none (cutLines text),
      Visible (slice text block.start block.stop)) ↔ ¬ BlankParagraph text := by
    constructor
    · intro visible blank
      obtain ⟨block, member, hidden⟩ := block_of_blankParagraph blank
      exact hidden (visible block member)
    · have start : Scanning text [] (cutLines text) none none :=
        ⟨rfl, by simp, by simp, by simp, by simp⟩
      exact visible_segmentFrom start (grouped_none []) (isLine_of_mem_cutLines text)
  rw [← raw, segmentToBlocks]
  generalize segmentFrom 0 none none (cutLines text) = found at segmented
  cases found with
  | nil => rfl
  | cons first rest =>
    obtain ⟨-, -, forward, tiles⟩ := segmented
    exact visible_coalesceFrom forward tiles

/-- A range holds a whole block. -/
def Holds (blocks : List Block) (range : ℕ × ℕ) : Prop :=
  ∃ block ∈ blocks, range.1 ≤ block.start ∧ block.stop ≤ range.2

theorem holds_packFrom {start jump : ℕ}
    (consecutive : Consecutive start ((blocks.drop jump).map Block.range) stop) :
    ∀ range ∈ packFrom minChars maxChars jump blocks, Holds blocks range := by
  induction blocks generalizing start jump with
  | nil => cases jump <;> exact List.forall_mem_nil _
  | cons block rest ih =>
    have further {range : ℕ × ℕ} (holds : Holds rest range) : Holds (block :: rest) range := by
      obtain ⟨inner, member, inside⟩ := holds
      exact ⟨inner, List.mem_cons_of_mem block member, inside⟩
    cases jump with
    | succ jump => exact fun range member => further (ih consecutive range member)
    | zero =>
      obtain ⟨same, longer, later⟩ := consecutive
      obtain ⟨reached, behind⟩ :
        block.stop ≤ (grow minChars maxChars block.start block.stop rest).1 ∧ _ :=
        consecutive_grow later
      exact List.forall_mem_cons.mpr ⟨⟨block, List.mem_cons_self, le_rfl, reached⟩,
        fun range member => further (ih behind range member)⟩

theorem holds_mergeTail {start target : ℕ} {ranges : List (ℕ × ℕ)}
    (consecutive : Consecutive start ranges stop) (holds : ∀ range ∈ ranges, Holds blocks range) :
    ∀ range ∈ mergeTail minChars target maxChars ranges, Holds blocks range := by
  fun_induction mergeTail minChars target maxChars ranges generalizing start with
  | case1 previous last short =>
    obtain ⟨-, -, next, further, -⟩ := consecutive
    obtain ⟨block, member, first, inside⟩ := holds previous List.mem_cons_self
    exact List.forall_mem_singleton.mpr ⟨block, member, first, by simp only; omega⟩
  | case2 => exact holds
  | case3 range ranges _ ih =>
    obtain ⟨here, later⟩ := List.forall_mem_cons.mp holds
    exact List.forall_mem_cons.mpr ⟨here, ih consecutive.2.2 later⟩
  | case4 => exact holds

theorem slice_subset {start stop first last : ℕ} (lower : start ≤ first) (upper : last ≤ stop) :
    slice text first last ⊆ slice text start stop := by
  intro c member
  obtain ⟨pos, found⟩ := List.mem_iff_getElem?.mp member
  rw [slice, List.getElem?_drop, List.getElem?_take] at found
  split_ifs at found with inside
  exact mem_slice found (by omega) (by omega)

/-- Contents of ranges that are not blank are not blank. -/
theorem Overlapping.visible {overlap : ℕ} {previous : List Char} {ranges : List (ℕ × ℕ)}
    {contents : List (List Char)} (overlapping : Overlapping text overlap previous ranges contents)
    (visible : ∀ range ∈ ranges, Visible (slice text range.1 range.2)) :
    ∀ content ∈ contents, Visible content := by
  induction overlapping with
  | nil previous => exact List.forall_mem_nil _
  | cons suffix length rest ih =>
    obtain ⟨here, later⟩ := List.forall_mem_cons.mp visible
    exact List.forall_mem_cons.mpr ⟨visible_append.mpr (.inr here), ih later⟩

/-- With the least bounds every block is a range of its own. -/
theorem packFrom_single {start : ℕ}
    (consecutive : Consecutive start (blocks.map Block.range) stop) :
    packFrom 0 1 0 blocks = blocks.map Block.range := by
  induction blocks generalizing start with
  | nil => rfl
  | cons block rest ih =>
    obtain ⟨same, longer, later⟩ := consecutive
    have alone : grow 0 1 block.start block.stop rest = (block.stop, 0) := by
      cases rest with
      | nil => rfl
      | cons next rest =>
        obtain ⟨first, further, -⟩ := later
        simp only [Block.range] at first longer further
        rw [grow, if_neg (by omega), if_neg (Nat.not_lt_zero _)]
    rw [packFrom, alone]
    exact congrArg (block.range :: ·) (ih later)

theorem mergeTail_zero {target : ℕ} (ranges : List (ℕ × ℕ)) :
    mergeTail 0 target maxChars ranges = ranges := by
  fun_induction mergeTail 0 target maxChars ranges with
  | case1 previous last short => omega
  | case2 => rfl
  | case3 range ranges _ ih => rw [ih]
  | case4 => rfl

end Packing

section Split

variable {py : Interpreter} {drawn : ℕ → Str} {text : List Char} {config : Object}

/-- The loop leaves a blank piece out. -/
theorem visible_splitFixedSize {rounds : ℕ} {chunks : List TextChunk}
    (cut : splitFixedSize py drawn rounds text config = some chunks) :
    ∀ chunk ∈ chunks, ∃ c ∈ chunk.content, isSpaceCode c = false := by
  have positive := chunkSize_pos config
  have added (normalized : List Char) (s : Cutting) (stop : ℕ)
      (visible : ∀ chunk ∈ s.chunks, ∃ c ∈ chunk.content, isSpaceCode c = false) :
      ∀ chunk ∈ s.add py drawn normalized stop, ∃ c ∈ chunk.content, isSpaceCode c = false := by
    rw [Cutting.add]
    split_ifs with blank
    · exact visible
    · exact List.forall_mem_append.mpr ⟨visible,
        List.forall_mem_singleton.mpr (shown_makeChunk.mpr (exists_visible blank))⟩
  rw [splitFixedSize, if_neg (by omega)] at cut
  obtain ⟨last, ended, rfl⟩ := Option.map_eq_some_iff.mp cut
  refine loop_keeps (I := fun s : Cutting => ∀ chunk ∈ s.chunks, ∃ c ∈ chunk.content,
    isSpaceCode c = false) ?_ ?_ (List.forall_mem_nil _) ended
  · intro s next visible taken
    simp only [Cutting.round] at taken
    split_ifs at taken <;> cases taken <;> exact added _ s _ visible
  · intro s last visible taken
    simp only [Cutting.round] at taken
    split_ifs at taken <;> cases taken
    · exact added _ s _ visible
    · exact visible

/-- Chunks of a fixed size are not blank, whatever the configuration. -/
theorem splits_fixedSize (visible : Visible text) (config : Object) :
    Splits py drawn text (.lit "fixed_size") config := by
  have ⟨_, member, shown⟩ := visible
  obtain ⟨ranges, nonempty, -, cut⟩ := reproduces_splitFixedSize py drawn member shown config
  have enough := cut _ (Nat.lt_succ_self _)
  refine ⟨_, ⟨?_, numbered_splitFixedSize py drawn enough, visible_splitFixedSize enough⟩, ?_⟩
  · rw [← List.length_pos_iff, length_chunksOf]
    exact List.length_pos_iff.mpr nonempty
  · intro rounds more
    obtain ⟨c, member, shown⟩ := visible
    have split_text : stripChars text ≠ [] := fun blank => by
      rw [stripChars_eq_nil.mp blank c member] at shown
      cases shown
    rw [split, if_neg split_text, if_pos rfl, cut rounds more]

theorem splits_structureAware_iff (visible : Visible text) :
    Splits py drawn text (.lit "structure_aware") config ↔
      NoBlankChunk (splitStructureAware py drawn text config) := by
  have cut (rounds : ℕ) : split py drawn rounds text (.lit "structure_aware") config =
      some (splitStructureAware py drawn text config) := by
    obtain ⟨c, member, shown⟩ := visible
    have split_text : stripChars text ≠ [] := fun blank => by
      rw [stripChars_eq_nil.mp blank c member] at shown
      cases shown
    rw [split, if_neg split_text, if_neg (by decide), if_pos rfl]
  constructor
  · rintro ⟨chunks, whole, made⟩
    have one := made _ (Nat.lt_succ_self _)
    rw [cut, Option.some_inj] at one
    rwa [one]
  · exact fun whole => ⟨_, whole, fun rounds _ => cut rounds⟩

/-- The bounds with which every block is a chunk -/
def singleConfig : Object :=
  [(.lit "targetChars", .number (.lit "1")), (.lit "maxChars", .number (.lit "1"))]

/-- Without an overlap every range is a chunk. -/
theorem mem_materializeFrom (py : Interpreter) (drawn : ℕ → Str) (text : List Char) (index : ℕ)
    {ranges : List (ℕ × ℕ)} {range : ℕ × ℕ} (member : range ∈ ranges) : ∃ place,
      makeChunk py drawn place (slice text range.1 range.2) (rangeMetadata range.1 range.2) ∈
        materializeFrom py drawn text 0 index [] ranges := by
  induction ranges generalizing index with
  | nil => cases member
  | cons first ranges ih =>
    rcases List.mem_cons.mp member with rfl | later
    · exact ⟨index, List.mem_cons_self⟩
    · obtain ⟨place, found⟩ := ih (index + 1) later
      exact ⟨place, List.mem_cons_of_mem _ found⟩

theorem segmentToBlocks_ne_nil_of_visible (visible : Visible text) :
    segmentToBlocks (normalizeNewlines text) ≠ [] := by
  obtain ⟨c, member, shown⟩ := visible
  have other : c ≠ '\r' := by
    rintro rfl
    cases shown
  exact segmentToBlocks_ne_nil (mem_normalizeNewlines other member) shown

/-- With these bounds a chunk is blank where a block is. -/
theorem visible_of_single (visible : Visible text)
    (whole : NoBlankChunk (splitStructureAware py drawn text singleConfig)) :
    ∀ block ∈ segmentToBlocks (normalizeNewlines text),
      Visible (slice (normalizeNewlines text) block.start block.stop) := by
  intro block member
  have nonempty := segmentToBlocks_ne_nil_of_visible visible
  obtain ⟨⟨start, stop, consecutive, -⟩, -⟩ := segmentToBlocks_spec rfl nonempty
  have packed : packBlocksToChunks (segmentToBlocks (normalizeNewlines text)) 0 1 1 =
      (segmentToBlocks (normalizeNewlines text)).map Block.range := by
    rw [packBlocksToChunks, packFrom_single consecutive, mergeTail_zero]
  have chunks : splitStructureAware py drawn text singleConfig =
      materializeFrom py drawn (normalizeNewlines text) 0 0 []
        ((segmentToBlocks (normalizeNewlines text)).map Block.range) := by
    rw [← packed, splitStructureAware]
    cases found : segmentToBlocks (normalizeNewlines text) with
    | nil => exact absurd found nonempty
    | cons first rest => rfl
  obtain ⟨place, found⟩ := mem_materializeFrom py drawn (normalizeNewlines text) 0
    (List.mem_map_of_mem (f := Block.range) member)
  rw [← chunks] at found
  exact shown_makeChunk.mp (whole.visible _ found)

theorem mem_overlappedChunks {index : ℕ} {ranges : List (ℕ × ℕ)} {contents : List (List Char)}
    {chunk : TextChunk} (member : chunk ∈ overlappedChunks py drawn index ranges contents) :
    ∃ place metadata, ∃ content ∈ contents, chunk = makeChunk py drawn place content metadata := by
  obtain ⟨i, inside, rfl⟩ := List.mem_mapIdx.mp member
  have listed := List.getElem_mem inside
  exact ⟨index + i, _, _, (List.of_mem_zip listed).2, rfl⟩

/-- Every range holds a block, so without a blank paragraph no chunk is blank. -/
theorem noBlankChunk_structureAware (visible : Visible text)
    (none_blank : ¬ BlankParagraph (normalizeNewlines text)) (config : Object) :
    NoBlankChunk (splitStructureAware py drawn text config) := by
  have nonempty := segmentToBlocks_ne_nil_of_visible visible
  have shown := visible_segmentToBlocks_iff.mpr none_blank
  obtain ⟨⟨start, stop, consecutive, -⟩, -⟩ := segmentToBlocks_spec rfl nonempty
  have undropped : Consecutive start (((segmentToBlocks (normalizeNewlines text)).drop 0).map
      Block.range) stop := consecutive
  obtain ⟨minChars, target, maxChars, packed⟩ : ∃ minChars target maxChars,
      splitStructureAware py drawn text config = materializeFrom py drawn (normalizeNewlines text)
        (structureOverlap config) 0 [] (packBlocksToChunks
          (segmentToBlocks (normalizeNewlines text)) minChars target maxChars) := by
    rw [splitStructureAware]
    cases found : segmentToBlocks (normalizeNewlines text) with
    | nil => exact absurd found nonempty
    | cons first rest => exact ⟨_, _, _, rfl⟩
  have holds : ∀ range ∈ packBlocksToChunks (segmentToBlocks (normalizeNewlines text)) minChars
      target maxChars, Visible (slice (normalizeNewlines text) range.1 range.2) := by
    intro range member
    obtain ⟨block, listed, lower, upper⟩ := holds_mergeTail
      (consecutive_packFrom undropped) (holds_packFrom undropped) range member
    exact (shown block listed).mono (slice_subset lower upper)
  obtain ⟨contents, overlapping, chunks⟩ := overlapping_materializeFrom py drawn
    (normalizeNewlines text) (structureOverlap config) 0 []
    (packBlocksToChunks (segmentToBlocks (normalizeNewlines text)) minChars target maxChars)
  have start :
      (if 0 < structureOverlap config then tail [] (structureOverlap config) else []) = [] := by
    simp [tail]
  rw [start, ← packed] at chunks
  refine ⟨?_, numbered_splitStructureAware py drawn text config, fun chunk member => ?_⟩
  · obtain ⟨block, rest, found⟩ := List.exists_cons_of_ne_nil nonempty
    have ranges : packBlocksToChunks (segmentToBlocks (normalizeNewlines text)) minChars target
        maxChars ≠ [] := mergeTail_ne_nil (by rw [found, packFrom]; exact List.cons_ne_nil _ _)
    obtain ⟨range, ranges, cut⟩ := List.exists_cons_of_ne_nil ranges
    rw [packed, cut, materializeFrom]
    exact List.cons_ne_nil _ _
  · rw [chunks] at member
    obtain ⟨place, metadata, content, listed, rfl⟩ := mem_overlappedChunks member
    exact shown_makeChunk.mpr (overlapping.visible holds content listed)

/-- No chunk of a text is blank, with either strategy and any configuration, exactly if no paragraph
of it is; with a fixed size none ever is. -/
theorem splits_iff (visible : Visible text) :
    (∀ config, Splits py drawn text (.lit "fixed_size") config) ∧
    ((∀ strategy config, strategy = .lit "fixed_size" ∨ strategy = .lit "structure_aware" →
      Splits py drawn text strategy config) ↔ ¬ BlankParagraph (normalizeNewlines text)) := by
  refine ⟨splits_fixedSize visible, fun all => ?_, ?_⟩
  · have single := (splits_structureAware_iff visible).mp (all _ singleConfig (.inr rfl))
    exact visible_segmentToBlocks_iff.mp (visible_of_single visible single)
  · rintro none_blank strategy config (rfl | rfl)
    · exact splits_fixedSize visible config
    · exact (splits_structureAware_iff visible).mpr
        (noBlankChunk_structureAware visible none_blank config)

end Split

section Documents

theorem splits_document :
    (∀ config, Splits asciiInterpreter (fun _ => []) document (.lit "fixed_size") config) ∧
    ((∀ strategy config, strategy = .lit "fixed_size" ∨ strategy = .lit "structure_aware" →
      Splits asciiInterpreter (fun _ => []) document strategy config) ↔
      ¬ BlankParagraph (normalizeNewlines document)) :=
  splits_iff ⟨'A', by decide +kernel, by decide +kernel⟩

/-- A heading, a line with an ideographic space, and a paragraph -/
def spacedDocument : List Char := "# Warranty\n\u3000\n\nTwo years.".toList

def spacedConfig : Object :=
  [(.lit "targetChars", .number (.lit "12")), (.lit "maxChars", .number (.lit "12"))]

/-- The line in the middle becomes a chunk. -/
theorem spacedDocument_not_splits : ¬ ∀ text : List Char, Visible text → ∀ strategy config,
    strategy = .lit "fixed_size" ∨ strategy = .lit "structure_aware" →
      Splits asciiInterpreter (fun _ => []) text strategy config := by
  intro all
  have visible : Visible spacedDocument := ⟨'W', by decide +kernel, by decide +kernel⟩
  have whole := (splits_structureAware_iff visible).mp
    (all spacedDocument visible (.lit "structure_aware") spacedConfig (.inr rfl))
  have blank : (splitStructureAware asciiInterpreter (fun _ => []) spacedDocument spacedConfig).any
      (fun chunk => chunk.content.all isSpaceCode) = true := by decide +kernel
  obtain ⟨chunk, member, spaces⟩ := List.any_eq_true.mp blank
  obtain ⟨c, inside, shown⟩ := whole.visible chunk member
  rw [List.all_eq_true.mp spaces c inside] at shown
  cases shown

end Documents

end HeyeeAgent.Knowledge.ChunkingService
