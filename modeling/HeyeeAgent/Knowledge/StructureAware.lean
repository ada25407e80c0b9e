import Mathlib.Algebra.Group.Nat.Even
import HeyeeAgent.Knowledge.FixedSize

/-! # Structure-aware chunks

The blocks of a text follow each other with blank lines between them; after the blanks have been
taken into the blocks each block starts where the one before ends, and the packing joins
neighbours only. Where a block may begin or end is said of the lines of the text: outside every code
fence, and not between two lines of one paragraph.
-/

namespace HeyeeAgent.Knowledge.ChunkingService

open Python

section Lines

/-- The lines are the text. -/
theorem flatten_cutLines (text : List Char) : (cutLines text).flatten = text := by
  fun_induction cutLines text with
  | case1 => rfl
  | case2 rest ih => simp [ih]
  | case3 c rest other none_of ih =>
    rw [none_of] at ih
    simp [← ih]
  | case4 c rest other line lines cut ih =>
    rw [cut] at ih
    simp [← ih]

/-- A line is not empty, and a newline is its last character. -/
structure IsLine (line : List Char) : Prop where
  nonempty : line ≠ []
  newline : line.dropWhile (fun c => c != '\n') = [] ∨ line.dropWhile (fun c => c != '\n') = ['\n']

theorem isLine_of_mem_cutLines (text : List Char) : ∀ line ∈ cutLines text, IsLine line := by
  fun_induction cutLines text with
  | case1 => simp
  | case2 rest ih =>
    intro line member
    rcases List.mem_cons.mp member with rfl | later
    · exact ⟨by simp, .inr rfl⟩
    · exact ih line later
  | case3 c rest other none_of ih =>
    intro line member
    cases List.mem_singleton.mp member
    exact ⟨by simp, .inl (by simpa using other)⟩
  | case4 c rest other first lines cut ih =>
    rw [cut] at ih
    intro line member
    rcases List.mem_cons.mp member with rfl | later
    · refine ⟨by simp, ?_⟩
      rw [List.dropWhile_cons_of_pos (by simpa using other)]
      exact (ih first (by simp)).newline
    · exact ih line (List.mem_cons_of_mem _ later)

/-- Space, tab and newline. -/
def IsBlank (text : List Char) : Prop := ∀ c ∈ text, c = ' ' ∨ c = '\t' ∨ c = '\n'

theorem isBlank_of_trimmed {line : List Char} (shape : IsLine line) (nothing : trimmed line = []) :
    IsBlank line := by
  intro c member
  rw [← List.takeWhile_append_dropWhile (p := fun c => c != '\n') (l := line)] at member
  rcases List.mem_append.mp member with before | newline
  · simp only [trimmed, List.reverse_eq_nil_iff, List.dropWhile_eq_nil_iff, List.mem_reverse] at nothing
    have blank := nothing c before
    simp only [Bool.or_eq_true, beq_iff_eq] at blank
    tauto
  · rcases shape.newline with none_of | one
    · rw [none_of] at newline
      cases newline
    · rw [one] at newline
      exact .inr (.inr (List.mem_singleton.mp newline))

def isFenceLine (line : List Char) : Bool := isCodeFence (trimmed line)

/-- A line of a paragraph, if it stands outside a fence. -/
def isTextLine (line : List Char) : Bool :=
  let line := trimmed line
  !isCodeFence line && line ≠ [] && !isHeading line && !(isAtomicImage line || isAtomicLink line)

/-- A place between two lines that is in no code block and in no paragraph. A fence opens a code
block or closes the one that is open; the last one may stay open to the end of the text. -/
def BlockBoundary (text : List Char) (pos : ℕ) : Prop :=
  ∃ before after, cutLines text = before ++ after ∧ pos = before.flatten.length ∧
    (after = [] ∨ Even (before.countP isFenceLine)) ∧
    ∀ last ∈ before.getLast?, ∀ next ∈ after.head?, ¬(isTextLine last ∧ isTextLine next)

end Lines

section Tiling

/-- Blocks of a text from `start` to `stop`, with nothing but blanks between them. -/
def Tiles (text : List Char) (start : ℕ) : List Block → ℕ → Prop
  | [], stop => start ≤ stop ∧ IsBlank (slice text start stop)
  | block :: blocks, stop =>
    start ≤ block.start ∧ IsBlank (slice text start block.start) ∧ block.start < block.stop ∧
      Tiles text block.stop blocks stop

/-- Each range starts where the one before ends. -/
def Consecutive (start : ℕ) : List (ℕ × ℕ) → ℕ → Prop
  | [], stop => start = stop
  | range :: ranges, stop => range.1 = start ∧ range.1 < range.2 ∧ Consecutive range.2 ranges stop

def Block.range (block : Block) : ℕ × ℕ := (block.start, block.stop)

theorem slice_append {text : List Char} {start middle stop : ℕ} (first : start ≤ middle)
    (second : middle ≤ stop) :
    slice text start stop = slice text start middle ++ slice text middle stop := by
  have parts : text.take stop = text.take middle ++ (text.take stop).drop middle := by
    have cut := List.take_append_drop middle (text.take stop)
    rw [List.take_take, min_eq_left second] at cut
    exact cut.symm
  simp only [slice]
  rw [parts, List.drop_append]
  congr 1
  rw [← parts, List.drop_drop, List.length_take]
  by_cases inside : middle ≤ text.length
  · rw [min_eq_left inside]
    congr 1
    omega
  · rw [List.drop_eq_nil_of_le, List.drop_eq_nil_of_le] <;> simp only [List.length_take] <;> omega

/-- A line stands where the lines before it end. -/
theorem slice_line (before after : List (List Char)) (line : List Char) :
    slice (before ++ line :: after).flatten before.flatten.length
      (before.flatten.length + line.length) = line := by
  simp [slice, List.take_append]

theorem IsBlank.append {first second : List Char} (one : IsBlank first) (other : IsBlank second) :
    IsBlank (first ++ second) := by
  intro c member
  rcases List.mem_append.mp member with here | there
  · exact one c here
  · exact other c there

/-- Blanks before the blocks. -/
theorem Tiles.gap {text : List Char} {start middle stop : ℕ} {blocks : List Block}
    (forward : start ≤ middle) (blank : IsBlank (slice text start middle))
    (tiles : Tiles text middle blocks stop) : Tiles text start blocks stop := by
  cases blocks with
  | nil =>
    obtain ⟨further, blanks⟩ := tiles
    refine ⟨by omega, ?_⟩
    rw [slice_append forward further]
    exact blank.append blanks
  | cons block blocks =>
    obtain ⟨further, blanks, rest⟩ := tiles
    refine ⟨by omega, ?_, rest⟩
    rw [slice_append forward further]
    exact blank.append blanks

theorem isBlank_nil_slice (text : List Char) (pos : ℕ) : IsBlank (slice text pos pos) := by
  intro c member
  rw [slice, List.drop_eq_nil_of_le (List.length_take_le _ _)] at member
  cases member

/-- A block that starts right here. -/
theorem Tiles.block {text : List Char} {start middle stop : ℕ} {blocks : List Block}
    (kind : BlockKind) (forward : start < middle) (tiles : Tiles text middle blocks stop) :
    Tiles text start (⟨kind, start, middle⟩ :: blocks) stop :=
  ⟨le_rfl, isBlank_nil_slice text start, forward, tiles⟩

end Tiling

section Segmentation

/-- Where the segmentation stands: the lines `past` behind it, the lines `lines` before it, and what
is open since a boundary. -/
structure Scanning (text : List Char) (past lines : List (List Char)) (fence para : Option ℕ) :
    Prop where
  cut : cutLines text = past ++ lines
  outside : fence = none → Even (past.countP isFenceLine)
  fenced : ∀ start, fence = some start → ¬Even (past.countP isFenceLine) ∧ para = none ∧
    BlockBoundary text start ∧ start < past.flatten.length
  opened : ∀ start, para = some start → BlockBoundary text start ∧ start < past.flatten.length
  settled : para = none → fence = none → ∀ last ∈ past.getLast?, isTextLine last = false

variable {text : List Char} {past lines : List (List Char)} {line : List Char}
  {fence para : Option ℕ}

/-- The place before a line is a boundary, if nothing or a paragraph is open that the line does not
carry on. -/
theorem Scanning.boundary (scan : Scanning text past lines none para)
    (closes : para = none ∨ ∀ next ∈ lines.head?, isTextLine next = false) :
    BlockBoundary text past.flatten.length := by
  refine ⟨past, lines, scan.cut, rfl, .inr (scan.outside rfl), ?_⟩
  rintro last member next follows ⟨one, other⟩
  rcases closes with settled | ends
  · rw [scan.settled settled rfl last member] at one
    cases one
  · rw [ends next follows] at other
    cases other

/-- The end of the text is a boundary. -/
theorem Scanning.end_boundary (scan : Scanning text past [] fence para) :
    BlockBoundary text past.flatten.length := by
  refine ⟨past, [], scan.cut, rfl, .inl rfl, ?_⟩
  intro last _ next none_of
  cases none_of

theorem length_flatten_snoc (past : List (List Char)) (line : List Char) :
    (past ++ [line]).flatten.length = past.flatten.length + line.length := by
  simp

/-- Behind a line after which nothing is open. -/
theorem Scanning.closed (scan : Scanning text past (line :: lines) fence para)
    (even : Even ((past ++ [line]).countP isFenceLine)) (ends : isTextLine line = false) :
    Scanning text (past ++ [line]) lines none none where
  cut := by rw [scan.cut, List.append_assoc]; rfl
  outside := fun _ => even
  fenced := by simp
  opened := by simp
  settled := by
    intro _ _ last member
    rw [List.getLast?_concat, Option.mem_some_iff] at member
    exact member ▸ ends

/-- Behind a line inside a fence that it does not end. -/
theorem Scanning.within {start : ℕ} (scan : Scanning text past (line :: lines) (some start) para)
    (more : isFenceLine line = false) :
    Scanning text (past ++ [line]) lines (some start) para where
  cut := by rw [scan.cut, List.append_assoc]; rfl
  outside := by simp
  fenced := by
    obtain ⟨odd, alone, boundary, before⟩ := scan.fenced start rfl
    rintro _ ⟨⟩
    refine ⟨by simpa [more] using odd, alone, boundary, ?_⟩
    rw [length_flatten_snoc]
    omega
  opened := by
    intro start member
    obtain ⟨boundary, before⟩ := scan.opened start member
    exact ⟨boundary, by rw [length_flatten_snoc]; omega⟩
  settled := by simp

/-- Behind a line that opens a fence. -/
theorem Scanning.opensFence (scan : Scanning text past (line :: lines) none para)
    (shape : IsLine line) (opens : isFenceLine line = true)
    (boundary : BlockBoundary text past.flatten.length) :
    Scanning text (past ++ [line]) lines (some past.flatten.length) none where
  cut := by rw [scan.cut, List.append_assoc]; rfl
  outside := by simp
  fenced := by
    have even := scan.outside rfl
    rintro _ ⟨⟩
    refine ⟨by simpa [opens, Nat.even_add_one] using even, rfl, boundary, ?_⟩
    have := List.length_pos_iff.mpr shape.nonempty
    rw [length_flatten_snoc]
    omega
  opened := by simp
  settled := by simp

/-- Behind a line that goes on with a paragraph or opens one. -/
theorem Scanning.inPara (scan : Scanning text past (line :: lines) none para)
    (shape : IsLine line) (plain : isFenceLine line = false) :
    Scanning text (past ++ [line]) lines none (some (para.getD past.flatten.length)) where
  cut := by rw [scan.cut, List.append_assoc]; rfl
  outside := by
    have even := scan.outside rfl
    intro _
    simpa [plain] using even
  fenced := by simp
  opened := by
    have := List.length_pos_iff.mpr shape.nonempty
    rintro _ ⟨⟩
    rw [length_flatten_snoc]
    cases para with
    | none => exact ⟨scan.boundary (.inl rfl), by simp only [Option.getD_none]; omega⟩
    | some start =>
      obtain ⟨boundary, before⟩ := scan.opened start rfl
      exact ⟨boundary, by simp only [Option.getD_some]; omega⟩
  settled := by simp

/-- Blocks that are what is left of a text from `start` on, and that begin and end at boundaries. -/
structure Segmented (text : List Char) (start : ℕ) (blocks : List Block) : Prop where
  tiles : Tiles text start blocks text.length
  boundaries : ∀ block ∈ blocks, BlockBoundary text block.start ∧ BlockBoundary text block.stop

theorem Segmented.block {start middle : ℕ} {blocks : List Block} (kind : BlockKind)
    (forward : start < middle) (one : BlockBoundary text start) (other : BlockBoundary text middle)
    (rest : Segmented text middle blocks) : Segmented text start (⟨kind, start, middle⟩ :: blocks) where
  tiles := rest.tiles.block kind forward
  boundaries := by
    intro block member
    rcases List.mem_cons.mp member with rfl | later
    · exact ⟨one, other⟩
    · exact rest.boundaries block later

/-- The open paragraph, if there is one, ends here. -/
theorem Scanning.closePara {blocks : List Block} (scan : Scanning text past lines none para)
    (boundary : BlockBoundary text past.flatten.length)
    (rest : Segmented text past.flatten.length blocks) :
    Segmented text (para.getD past.flatten.length) (closePara para past.flatten.length ++ blocks) := by
  cases para with
  | none => exact rest
  | some start =>
    obtain ⟨opened, before⟩ := scan.opened start rfl
    exact rest.block .para before opened boundary

theorem Scanning.length_text (scan : Scanning text past lines fence para) :
    text.length = past.flatten.length + lines.flatten.length := by
  rw [← flatten_cutLines text, scan.cut, List.flatten_append, List.length_append]

/-- Nothing is left at the end of the text. -/
theorem Segmented.nil (text : List Char) : Segmented text text.length [] :=
  ⟨⟨le_rfl, isBlank_nil_slice text _⟩, by simp⟩

/-- A line that begins and ends at boundaries, behind which nothing is open. -/
theorem Scanning.ends (scan : Scanning text past (line :: lines) none para) (shape : IsLine line)
    (plain : isFenceLine line = false) (alone : isTextLine line = false) :
    BlockBoundary text past.flatten.length ∧
      past.flatten.length < (past ++ [line]).flatten.length ∧
      Scanning text (past ++ [line]) lines none none ∧
      BlockBoundary text (past ++ [line]).flatten.length := by
  have even := scan.outside rfl
  have behind := scan.closed (by simpa [plain] using even) alone
  have := List.length_pos_iff.mpr shape.nonempty
  refine ⟨scan.boundary (.inr (by simpa using alone)), ?_, behind, behind.boundary (.inl rfl)⟩
  rw [length_flatten_snoc]
  omega

/-- A blank line leaves a gap. -/
theorem Scanning.blank {blocks : List Block} (scan : Scanning text past (line :: lines) fence para)
    (shape : IsLine line) (nothing : trimmed line = [])
    (rest : Segmented text (past ++ [line]).flatten.length blocks) :
    Segmented text past.flatten.length blocks := by
  refine ⟨?_, rest.boundaries⟩
  have whole : text = (past ++ line :: lines).flatten := by rw [← scan.cut, flatten_cutLines]
  apply rest.tiles.gap
  · rw [length_flatten_snoc]
    omega
  · rw [length_flatten_snoc, whole, slice_line]
    exact isBlank_of_trimmed shape nothing

/-- A line outside a fence that is a block of its own -/
structure Alone (kind : BlockKind) (line : List Char) : Prop where
  mark : kind = .heading ∧ isHeading (trimmed line) = true ∨
    kind = .atomic ∧ (isAtomicImage (trimmed line) || isAtomicLink (trimmed line)) = true
  plain : isFenceLine line = false
  shown : trimmed line ≠ []

theorem Alone.not_text {kind : BlockKind} (alone : Alone kind line) : isTextLine line = false := by
  rcases alone.mark with ⟨-, heading⟩ | ⟨-, atomic⟩
  · simp [isTextLine, heading]
  · simp [isTextLine, atomic]

/-- What the segmentation does with a line outside a fence. -/
theorem segmentFrom_line (pos : ℕ) (para : Option ℕ) (line : List Char) (rest : List (List Char)) :
    (isFenceLine line = true ∧ segmentFrom pos none para (line :: rest) =
      closePara para pos ++ segmentFrom (pos + line.length) (some pos) none rest) ∨
    (trimmed line = [] ∧ segmentFrom pos none para (line :: rest) =
      closePara para pos ++ segmentFrom (pos + line.length) none none rest) ∨
    (∃ kind, Alone kind line ∧ segmentFrom pos none para (line :: rest) =
      closePara para pos ++
        ⟨kind, pos, pos + line.length⟩ :: segmentFrom (pos + line.length) none none rest) ∨
    (isTextLine line = true ∧ segmentFrom pos none para (line :: rest) =
      segmentFrom (pos + line.length) none (some (para.getD pos)) rest) := by
  simp only [segmentFrom]
  by_cases opens : isCodeFence (trimmed line) = true
  · exact .inl ⟨opens, if_pos opens⟩
  right
  have plain : isFenceLine line = false := (Bool.not_eq_true _).mp opens
  rw [if_neg opens]
  by_cases nothing : trimmed line = []
  · exact .inl ⟨nothing, if_pos nothing⟩
  right
  rw [if_neg nothing]
  by_cases heading : isHeading (trimmed line) = true
  · exact .inl ⟨.heading, ⟨.inl ⟨rfl, heading⟩, plain, nothing⟩, if_pos heading⟩
  rw [if_neg heading]
  by_cases atomic : (isAtomicImage (trimmed line) || isAtomicLink (trimmed line)) = true
  · exact .inl ⟨.atomic, ⟨.inr ⟨rfl, atomic⟩, plain, nothing⟩, if_pos atomic⟩
  · refine .inr ⟨?_, if_neg atomic⟩
    simp [isTextLine, opens, nothing, heading, (Bool.not_eq_true _).mp atomic]

/-- A line inside a fence ends it or is part of it. -/
theorem segmentFrom_inside (pos start : ℕ) (para : Option ℕ) (line : List Char)
    (rest : List (List Char)) :
    (isFenceLine line = true ∧ segmentFrom pos (some start) para (line :: rest) =
      ⟨.code, start, pos + line.length⟩ :: segmentFrom (pos + line.length) none para rest) ∨
    (isFenceLine line = false ∧ segmentFrom pos (some start) para (line :: rest) =
      segmentFrom (pos + line.length) (some start) para rest) := by
  simp only [segmentFrom]
  by_cases closes : isCodeFence (trimmed line) = true
  · exact .inl ⟨closes, if_pos closes⟩
  · exact .inr ⟨(Bool.not_eq_true _).mp closes, if_neg closes⟩

theorem not_text_of_fence (fence : isFenceLine line = true) : isTextLine line = false := by
  have opens : isCodeFence (trimmed line) = true := fence
  simp [isTextLine, opens]

theorem plain_of_text (textual : isTextLine line = true) : isFenceLine line = false := by
  by_contra fence
  rw [not_text_of_fence ((Bool.not_eq_false _).mp fence)] at textual
  cases textual

theorem not_text_of_blank (nothing : trimmed line = []) : isTextLine line = false := by
  simp [isTextLine, nothing]

theorem plain_of_blank (nothing : trimmed line = []) : isFenceLine line = false := by
  rw [isFenceLine, nothing]
  rfl

/-- The blocks that the segmentation finds from where it stands on. -/
theorem Scanning.segmented (scan : Scanning text past lines fence para)
    (shapes : ∀ line ∈ lines, IsLine line) :
    Segmented text ((fence.or para).getD past.flatten.length)
      (segmentFrom past.flatten.length fence para lines) := by
  induction lines generalizing past fence para with
  | nil =>
    have whole : text.length = past.flatten.length := by simpa using scan.length_text
    have rest : Segmented text past.flatten.length [] := whole ▸ Segmented.nil text
    cases fence with
    | none =>
      have closed := scan.closePara scan.end_boundary rest
      rwa [List.append_nil] at closed
    | some start =>
      obtain ⟨-, -, boundary, before⟩ := scan.fenced start rfl
      exact rest.block .code before boundary scan.end_boundary
  | cons line lines ih =>
    obtain ⟨shape, later⟩ := List.forall_mem_cons.mp shapes
    have next := length_flatten_snoc past line
    cases fence with
    | none =>
      obtain ⟨opens, found⟩ | ⟨nothing, found⟩ | ⟨kind, alone, found⟩ | ⟨textual, found⟩ :=
        segmentFrom_line past.flatten.length para line lines
      · have boundary := scan.boundary (.inr (by simpa using not_text_of_fence opens))
        rw [found, ← next]
        exact scan.closePara boundary (ih (scan.opensFence shape opens boundary) later)
      · obtain ⟨boundary, -, behind, -⟩ :=
          scan.ends shape (plain_of_blank nothing) (not_text_of_blank nothing)
        rw [found, ← next]
        exact scan.closePara boundary (scan.blank shape nothing (ih behind later))
      · obtain ⟨boundary, forward, behind, after⟩ := scan.ends shape alone.plain alone.not_text
        rw [found, ← next]
        exact scan.closePara boundary ((ih behind later).block kind forward boundary after)
      · rw [found, ← next]
        exact ih (scan.inPara shape (plain_of_text textual)) later
    | some start =>
      obtain ⟨odd, alone, boundary, before⟩ := scan.fenced start rfl
      subst alone
      obtain ⟨closes, found⟩ | ⟨within, found⟩ :=
        segmentFrom_inside past.flatten.length start none line lines
      · have even : Even ((past ++ [line]).countP isFenceLine) := by
          simpa [closes, Nat.even_add_one] using odd
        have behind := scan.closed even (not_text_of_fence closes)
        have forward : start < (past ++ [line]).flatten.length := by omega
        rw [found, ← next]
        exact (ih behind later).block .code forward boundary (behind.boundary (.inl rfl))
      · rw [found, ← next]
        exact ih (scan.within within) later

/-- The blocks of a text before the blanks between them are taken in. -/
theorem segmented_segmentFrom (text : List Char) :
    Segmented text 0 (segmentFrom 0 none none (cutLines text)) := by
  have start : Scanning text [] (cutLines text) none none :=
    ⟨rfl, by simp, by simp, by simp, by simp⟩
  exact start.segmented (isLine_of_mem_cutLines text)

end Segmentation

section Coalescing

variable {text : List Char}

theorem isAllBlank_of_isBlank {start stop : ℕ} (blank : IsBlank (slice text start stop)) :
    isAllBlank text start stop = true := by
  refine List.all_eq_true.mpr fun c member => ?_
  rcases blank c member with rfl | rfl | rfl <;> decide

/-- Once the blanks are taken in, each block starts where the one before ends. -/
theorem consecutive_coalesceFrom {previous : Block} {rest : List Block} {stop : ℕ}
    (forward : previous.start < previous.stop) (tiles : Tiles text previous.stop rest stop) :
    ∃ last, Consecutive previous.start ((coalesceFrom text previous rest).map Block.range) last ∧
      last ≤ stop ∧ IsBlank (slice text last stop) := by
  induction rest generalizing previous with
  | nil => exact ⟨previous.stop, ⟨rfl, forward, rfl⟩, tiles⟩
  | cons current rest ih =>
    obtain ⟨further, blank, longer, tiles⟩ := tiles
    obtain ⟨last, consecutive, inside, blanks⟩ := ih longer tiles
    refine ⟨last, ?_, inside, blanks⟩
    simp only [coalesceFrom, isAllBlank_of_isBlank blank, if_true, List.map_cons]
    exact ⟨rfl, by simp only [Block.range]; omega, consecutive⟩

/-- A block that takes blanks in ends where the next one starts. -/
theorem boundaries_coalesceFrom {P : ℕ → Prop} {previous : Block} {rest : List Block}
    (bounds : ∀ block ∈ previous :: rest, P block.start ∧ P block.stop) :
    ∀ block ∈ coalesceFrom text previous rest, P block.start ∧ P block.stop := by
  induction rest generalizing previous with
  | nil => exact bounds
  | cons current rest ih =>
    have here := bounds previous (by simp)
    have next := bounds current (by simp)
    intro block member
    rcases List.mem_cons.mp member with rfl | later
    · split
      · exact ⟨here.1, next.1⟩
      · exact here
    · exact ih (fun block member => bounds block (List.mem_cons_of_mem _ member)) block later

end Coalescing

section Packing

variable {P Q : ℕ → Prop} {minChars maxChars chunkStart chunkEnd stop : ℕ} {blocks : List Block}

/-- A chunk takes on the next blocks and ends where the first block ends that it leaves out. -/
theorem consecutive_grow (consecutive : Consecutive chunkEnd (blocks.map Block.range) stop) :
    chunkEnd ≤ (grow minChars maxChars chunkStart chunkEnd blocks).1 ∧
      Consecutive (grow minChars maxChars chunkStart chunkEnd blocks).1
        ((blocks.drop (grow minChars maxChars chunkStart chunkEnd blocks).2).map Block.range) stop := by
  induction blocks generalizing chunkEnd with
  | nil => exact ⟨le_rfl, consecutive⟩
  | cons block rest ih =>
    obtain ⟨same, longer, later⟩ := consecutive
    simp only [Block.range] at same longer later
    simp only [grow]
    split
    · obtain ⟨further, behind⟩ := ih later
      exact ⟨by omega, behind⟩
    · split
      · exact ⟨by simp only; omega, later⟩
      · exact ⟨le_rfl, same, longer, later⟩

theorem boundary_grow (here : Q chunkEnd) (bounds : ∀ block ∈ blocks, Q block.stop) :
    Q (grow minChars maxChars chunkStart chunkEnd blocks).1 := by
  induction blocks generalizing chunkEnd with
  | nil => exact here
  | cons block rest ih =>
    have next := bounds block (by simp)
    simp only [grow]
    split
    · exact ih next fun block member => bounds block (List.mem_cons_of_mem _ member)
    · split
      · exact next
      · exact here

theorem consecutive_packFrom {start jump : ℕ}
    (consecutive : Consecutive start ((blocks.drop jump).map Block.range) stop) :
    Consecutive start (packFrom minChars maxChars jump blocks) stop := by
  induction blocks generalizing start jump with
  | nil =>
    rw [List.drop_nil] at consecutive
    cases jump <;> exact consecutive
  | cons block rest ih =>
    cases jump with
    | succ jump => exact ih consecutive
    | zero =>
      obtain ⟨same, longer, later⟩ := consecutive
      obtain ⟨further, behind⟩ :
        block.stop ≤ (grow minChars maxChars block.start block.stop rest).1 ∧ _ :=
        consecutive_grow later
      simp only [packFrom]
      exact ⟨same, by simp only [Block.range] at longer further ⊢; omega, ih behind⟩

theorem boundaries_packFrom {jump : ℕ} (bounds : ∀ block ∈ blocks, P block.start ∧ Q block.stop) :
    ∀ range ∈ packFrom minChars maxChars jump blocks, P range.1 ∧ Q range.2 := by
  induction blocks generalizing jump with
  | nil => cases jump <;> simp [packFrom]
  | cons block rest ih =>
    have later : ∀ block ∈ rest, P block.start ∧ Q block.stop :=
      fun block member => bounds block (List.mem_cons_of_mem _ member)
    cases jump with
    | succ jump => exact ih later
    | zero =>
      have here := bounds block (by simp)
      intro range member
      rcases List.mem_cons.mp member with rfl | behind
      · exact ⟨here.1, boundary_grow here.2 fun block member => (later block member).2⟩
      · exact ih later range behind

theorem consecutive_mergeTail {start target : ℕ} {ranges : List (ℕ × ℕ)}
    (consecutive : Consecutive start ranges stop) :
    Consecutive start (mergeTail minChars target maxChars ranges) stop := by
  fun_induction mergeTail minChars target maxChars ranges generalizing start with
  | case1 previous last short =>
    obtain ⟨same, longer, next, further, rfl⟩ := consecutive
    exact ⟨same, by simp only; omega, rfl⟩
  | case2 => exact consecutive
  | case3 range ranges _ ih =>
    obtain ⟨same, longer, later⟩ := consecutive
    exact ⟨same, longer, ih later⟩
  | case4 => exact consecutive

theorem boundaries_mergeTail {target : ℕ} {ranges : List (ℕ × ℕ)}
    (bounds : ∀ range ∈ ranges, P range.1 ∧ Q range.2) :
    ∀ range ∈ mergeTail minChars target maxChars ranges, P range.1 ∧ Q range.2 := by
  fun_induction mergeTail minChars target maxChars ranges with
  | case1 previous last short =>
    intro range member
    cases List.mem_singleton.mp member
    exact ⟨(bounds previous (by simp)).1, (bounds last (by simp)).2⟩
  | case2 => exact bounds
  | case3 range ranges _ ih =>
    intro other member
    rcases List.mem_cons.mp member with rfl | later
    · exact bounds other (by simp)
    · exact ih (fun range member => bounds range (List.mem_cons_of_mem _ member)) other later
  | case4 => exact bounds

theorem boundaries_packBlocksToChunks {target : ℕ}
    (bounds : ∀ block ∈ blocks, P block.start ∧ Q block.stop) :
    ∀ range ∈ packBlocksToChunks blocks minChars target maxChars, P range.1 ∧ Q range.2 :=
  boundaries_mergeTail (boundaries_packFrom bounds)

end Packing

section Materialization

/-- Each content is a range of the text behind the end of the content before, as much of it as the
overlap asks for. -/
inductive Overlapping (text : List Char) (overlap : ℕ) :
    List Char → List (ℕ × ℕ) → List (List Char) → Prop
  | nil (previous : List Char) : Overlapping text overlap previous [] []
  | cons {previous kept : List Char} {range : ℕ × ℕ} {ranges : List (ℕ × ℕ)}
      {contents : List (List Char)} (suffix : kept <:+ previous)
      (length : kept.length = min overlap previous.length)
      (rest : Overlapping text overlap (kept ++ slice text range.1 range.2) ranges contents) :
      Overlapping text overlap previous (range :: ranges)
        ((kept ++ slice text range.1 range.2) :: contents)

/-- The chunks of a list of contents, each with its range. -/
def overlappedChunks (py : Interpreter) (drawn : ℕ → Str) (index : ℕ) (ranges : List (ℕ × ℕ))
    (contents : List (List Char)) : List TextChunk :=
  (ranges.zip contents).mapIdx fun i chunk =>
    makeChunk py drawn (index + i) chunk.2 (rangeMetadata chunk.1.1 chunk.1.2)

theorem overlapping_materializeFrom (py : Interpreter) (drawn : ℕ → Str) (text : List Char)
    (overlap index : ℕ) (previous : List Char) (ranges : List (ℕ × ℕ)) :
    ∃ contents, Overlapping text overlap previous ranges contents ∧
      materializeFrom py drawn text overlap index (if 0 < overlap then tail previous overlap else [])
        ranges = overlappedChunks py drawn index ranges contents := by
  induction ranges generalizing index previous with
  | nil => exact ⟨[], .nil previous, rfl⟩
  | cons range ranges ih =>
    generalize kept_eq : (if 0 < overlap then tail previous overlap else []) = kept
    have suffix : kept <:+ previous := by
      subst kept_eq
      split
      · exact List.drop_suffix _ _
      · exact List.nil_suffix
    have length : kept.length = min overlap previous.length := by
      subst kept_eq
      split
      · rw [tail, List.length_drop]
        omega
      · simp only [List.length_nil]
        omega
    have body : (if 0 < overlap ∧ kept ≠ [] then kept ++ slice text range.1 range.2
        else slice text range.1 range.2) = kept ++ slice text range.1 range.2 := by
      split
      · rfl
      · have none_kept : kept = [] := by
          by_contra some_kept
          have := List.length_pos_iff.mpr some_kept
          exact absurd ⟨by omega, some_kept⟩ ‹¬(0 < overlap ∧ kept ≠ [])›
        rw [none_kept, List.nil_append]
    obtain ⟨contents, overlapping, chunks⟩ := ih (index + 1) (kept ++ slice text range.1 range.2)
    refine ⟨_, .cons suffix length overlapping, ?_⟩
    simp only [materializeFrom, body, chunks, overlappedChunks, List.zip_cons_cons, List.mapIdx_cons,
      Nat.add_zero]
    congr 2
    funext i chunk
    rw [Nat.add_assoc, Nat.add_comm 1]

end Materialization

/-- What the structure-aware chunks of a text are: consecutive ranges with blanks around them, each
boundary that of a block, and the contents with their overlaps. -/
structure Structured (text : List Char) (overlap : ℕ) (ranges : List (ℕ × ℕ))
    (contents : List (List Char)) : Prop where
  nonempty : ranges ≠ []
  consecutive : ∃ start stop, Consecutive start ranges stop ∧ IsBlank (text.take start) ∧
    stop ≤ text.length ∧ IsBlank (text.drop stop)
  boundaries : ∀ range ∈ ranges, BlockBoundary text range.1 ∧ BlockBoundary text range.2
  blocks : ∀ range ∈ ranges, (∃ block ∈ segmentToBlocks text, range.1 = block.start) ∧
    ∃ block ∈ segmentToBlocks text, range.2 = block.stop
  overlapping : Overlapping text overlap [] ranges contents

section Packed

variable {text : List Char} {blocks : List Block}

theorem mergeTail_ne_nil {minChars target maxChars : ℕ} {ranges : List (ℕ × ℕ)}
    (nonempty : ranges ≠ []) : mergeTail minChars target maxChars ranges ≠ [] := by
  fun_cases mergeTail minChars target maxChars ranges <;> simp_all

/-- The blocks of a text after the blanks between them are taken in. -/
theorem segmentToBlocks_spec (found : segmentToBlocks text = blocks) (nonempty : blocks ≠ []) :
    (∃ start stop, Consecutive start (blocks.map Block.range) stop ∧ IsBlank (text.take start) ∧
      stop ≤ text.length ∧ IsBlank (text.drop stop)) ∧
    ∀ block ∈ blocks, BlockBoundary text block.start ∧ BlockBoundary text block.stop := by
  have segmented := segmented_segmentFrom text
  subst found
  simp only [segmentToBlocks] at nonempty ⊢
  generalize segmentFrom 0 none none (cutLines text) = raw at segmented nonempty ⊢
  cases raw with
  | nil => exact absurd rfl nonempty
  | cons first rest =>
    obtain ⟨⟨_, before, forward, tiles⟩, boundaries⟩ := segmented
    obtain ⟨stop, consecutive, inside, after⟩ := consecutive_coalesceFrom forward tiles
    refine ⟨⟨first.start, stop, consecutive, ?_, inside, ?_⟩, boundaries_coalesceFrom boundaries⟩
    · rwa [slice, List.drop_zero] at before
    · rwa [slice, List.take_length] at after

/-- The packing joins neighbours, whatever its bounds. -/
theorem structured_pack {minChars target maxChars overlap : ℕ} {contents : List (List Char)}
    (found : segmentToBlocks text = blocks) (nonempty : blocks ≠ [])
    (overlapping : Overlapping text overlap []
      (packBlocksToChunks blocks minChars target maxChars) contents) :
    Structured text overlap (packBlocksToChunks blocks minChars target maxChars) contents := by
  obtain ⟨⟨start, stop, consecutive, before, inside, after⟩, boundaries⟩ :=
    segmentToBlocks_spec found nonempty
  refine ⟨?_, ⟨start, stop, ?_, before, inside, after⟩, ?_, ?_, overlapping⟩
  · apply mergeTail_ne_nil
    obtain ⟨block, rest, rfl⟩ := List.exists_cons_of_ne_nil nonempty
    simp [packFrom]
  · apply consecutive_mergeTail
    apply consecutive_packFrom
    rwa [List.drop_zero]
  · exact boundaries_packBlocksToChunks boundaries
  · subst found
    exact boundaries_packBlocksToChunks
      (P := fun pos => ∃ block ∈ segmentToBlocks text, pos = block.start)
      (Q := fun pos => ∃ block ∈ segmentToBlocks text, pos = block.stop)
      fun block member => ⟨⟨block, member, rfl⟩, block, member, rfl⟩

end Packed

theorem mem_normalizeNewlines {text : List Char} {c : Char} (other : c ≠ '\r') (member : c ∈ text) :
    c ∈ normalizeNewlines text := by
  have kept : c ∈ joinReturns text := by
    fun_induction joinReturns text with
    | case1 rest ih => simp only [List.mem_cons] at member ⊢; tauto
    | case2 d rest _ ih => simp only [List.mem_cons] at member ⊢; tauto
    | case3 => exact member
  exact List.mem_map.mpr ⟨c, kept, if_neg other⟩

/-- A text without blocks is blank. -/
theorem isBlank_of_segmentToBlocks {text : List Char} (none_found : segmentToBlocks text = []) :
    IsBlank text := by
  have segmented := segmented_segmentFrom text
  rw [segmentToBlocks] at none_found
  generalize segmentFrom 0 none none (cutLines text) = raw at segmented none_found
  cases raw with
  | nil =>
    obtain ⟨-, blank⟩ := segmented.tiles
    rwa [slice, List.take_length, List.drop_zero] at blank
  | cons first rest => cases rest <;> cases none_found

/-- A text with a visible character has a block. -/
theorem segmentToBlocks_ne_nil {text : List Char} {c : Char} (member : c ∈ text)
    (visible : isSpace c = false) : segmentToBlocks text ≠ [] := by
  intro none_found
  rcases isBlank_of_segmentToBlocks none_found c member with rfl | rfl | rfl <;> cases visible

/-- Of a text with a visible character, the structure-aware chunks are consecutive ranges of whole
blocks, behind the overlaps that the configuration asks for. -/
theorem splitStructureAware_lossless (py : Interpreter) (drawn : ℕ → Str) {text : List Char}
    (config : Object) (visible : ∃ c ∈ text, isSpace c = false) :
    ∃ ranges contents,
      Structured (normalizeNewlines text) (structureOverlap config) ranges contents ∧
      splitStructureAware py drawn text config = overlappedChunks py drawn 0 ranges contents := by
  obtain ⟨c, member, visible⟩ := visible
  have other : c ≠ '\r' := by
    rintro rfl
    exact absurd visible (by decide)
  have nonempty := segmentToBlocks_ne_nil (mem_normalizeNewlines other member) visible
  simp only [splitStructureAware]
  generalize packed : packBlocksToChunks _ _ _ _ = ranges
  obtain ⟨contents, overlapping, chunks⟩ := overlapping_materializeFrom py drawn
    (normalizeNewlines text) (structureOverlap config) 0 [] ranges
  have start :
      (if 0 < structureOverlap config then tail [] (structureOverlap config) else []) = [] := by
    simp [tail]
  rw [start] at chunks
  subst packed
  exact ⟨_, contents, structured_pack rfl nonempty overlapping, chunks⟩

/-- A heading, a paragraph and a fence, in chunks of at most thirty-two characters. -/
def document : List Char := "# A\n\nsome text\n\n```python\nprint(1)\n```\n\n# B\nmore text".toList

def documentConfig : Object :=
  [(.lit "targetChars", .number (.lit "18")), (.lit "maxChars", .number (.lit "32")),
    (.lit "minChars", .number (.lit "8")), (.lit "overlapChars", .number (.lit "3"))]

theorem splitStructureAware_lossless_document :
    ∃ ranges contents,
      Structured (normalizeNewlines document) (structureOverlap documentConfig) ranges contents ∧
      splitStructureAware asciiInterpreter (fun _ => []) document documentConfig =
        overlappedChunks asciiInterpreter (fun _ => []) 0 ranges contents :=
  splitStructureAware_lossless asciiInterpreter (fun _ => []) documentConfig
    ⟨'A', by decide +kernel, by decide +kernel⟩

example : (splitStructureAware asciiInterpreter (fun _ => []) document documentConfig).map
    TextChunk.content = [Str.lit "# A\n\nsome text\n\n",
      Str.lit "t\n\n```python\nprint(1)\n```\n\n# B\n", Str.lit " B\nmore text"] := by decide +kernel

end HeyeeAgent.Knowledge.ChunkingService
