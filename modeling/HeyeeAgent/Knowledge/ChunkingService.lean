import HeyeeAgent.Knowledge.Repository
import HeyeeAgent.Machine.Loop

/-! # The chunking service

`ChunkingService.split` with its two strategies. A text is what the extractor decoded, so it has no
surrogates and every chunk of it can be encoded. The tables of the interpreter for letters and
digits, the hash and the identifiers that are drawn are parameters. An index into a text that only
moves forward over a list is the list that is left, with the number of elements still to jump over.
-/

namespace HeyeeAgent.Knowledge.ChunkingService

open Python Python.JsonDecoder Machine

/-- What the interpreter computes of characters and of an encoded text. -/
structure Interpreter where
  isAlpha : Char → Bool
  isDigit : Char → Bool
  isAlnum : Char → Bool
  /-- the hex digest of the encoded text -/
  sha256 : List Char → Str

/-- The tables for ASCII, with the code points of a text in place of its hash. -/
def asciiInterpreter : Interpreter where
  isAlpha := Char.isAlpha
  isDigit := Char.isDigit
  isAlnum := Char.isAlphanum
  sha256 := fun text => text.map Char.toNat

section Config

def decimal (text : Str) : ℕ := text.foldl (fun value c => value * 10 + (c - 48)) 0

/-- The value as an `int`; a `bool` is one, a number with a fraction or an exponent is not. -/
def int? : Value → Option ℤ
  | .bool value => some (if value then 1 else 0)
  | .number (45 :: text) => if text.all isDigit then some (-decimal text) else none
  | .number text => if text.all isDigit then some (decimal text) else none
  | _ => none

def positiveInt (value : Value) (default : ℤ) : ℤ :=
  match int? value with
  | some n => if 0 < n then n else default
  | none => default

def nonNegativeInt (value : Value) (default : ℤ) : ℤ :=
  match int? value with
  | some n => if 0 ≤ n then n else default
  | none => default

theorem positiveInt_pos (value : Value) {default : ℤ} (positive : 0 < default) :
    0 < positiveInt value default := by
  unfold positiveInt
  split
  · split <;> assumption
  · exact positive

theorem positiveInt_eq_or (value : Value) (default : ℤ) :
    positiveInt value default = default ∨ 0 < positiveInt value default := by
  unfold positiveInt
  split
  · split
    · exact .inr ‹_›
    · exact .inl rfl
  · exact .inl rfl

end Config

section Chunk

/-- `text[start:end]` -/
def slice (text : List Char) (start stop : ℕ) : List Char := (text.take stop).drop start

def rangeMetadata (start stop : ℕ) : Object :=
  [(.lit "startChar", .number (.lit (toString start))),
    (.lit "endChar", .number (.lit (toString stop)))]

def estimateTokenCount (text : List Char) : ℕ := max 1 (text.length / 2)

def makeChunk (py : Interpreter) (drawn : ℕ → Str) (index : ℕ) (content : List Char)
    (metadata : Object) : TextChunk where
  chunkId := drawn index
  chunkIndex := index
  content := content.map Char.toNat
  contentHash := py.sha256 content
  charCount := content.length
  tokenCount := estimateTokenCount content
  metadata := metadata

end Chunk

section Normalization

def looksLikeUrlStart (text : List Char) : Bool :=
  "http://".toList.isPrefixOf text || "https://".toList.isPrefixOf text

def isListItemStart (py : Interpreter) (text : List Char) : Bool :=
  let text := text.dropWhile fun c => c == ' ' || c == '\t'
  match text.takeWhile py.isDigit, text.dropWhile py.isDigit with
  | _ :: _, c :: _ => ['.', '）', ')'].contains c
  | _, _ => false

def shouldJoinBrokenUrl (py : Interpreter) (previous : Option Char) (next : Char)
    (text : List Char) : Bool :=
  if isListItemStart py text then false
  else if previous = some '.' ∧ py.isAlpha next then true
  else if previous.any fun c => ['/', '?', '&', '=', '#', '%', '-', '_', ':'].contains c then true
  else ['/', '?', '&', '=', '#'].contains next

def isUrlChar (py : Interpreter) (c : Char) : Bool :=
  py.isAlnum c || "-._~:/?#[]@!$&'()*+,;=%".toList.contains c

def isCjkPunctuation (c : Char) : Bool := "。，、；：！？（）【】《》“”‘’".toList.contains c

def isCjkWordChar (c : Option Char) : Bool :=
  c.any fun c =>
    if isSpace c || isCjkPunctuation c then false
    else
      let code := c.toNat
      (0x4E00 ≤ code && code ≤ 0x9FFF) || (0x3400 ≤ code && code ≤ 0x4DBF) ||
        (0x20000 ≤ code && code ≤ 0x2A6DF) || (0xF900 ≤ code && code ≤ 0xFAFF) ||
        (0xFF00 ≤ code && code ≤ 0xFFEF)

/-- The white space of a broken URL is left out. -/
def joinsUrl (py : Interpreter) (previous : Option Char) (spaces after : List Char) : Bool :=
  match after with
  | next :: _ => spaces.contains '\n' && shouldJoinBrokenUrl py previous next after
  | [] => false

/-- The loop of `_normalize_for_fixed_size`, with the character before the index. -/
def normalizeFrom (py : Interpreter) (inUrl : Bool) (previous : Option Char) :
    ℕ → List Char → List Char
  | _, [] => []
  | jump + 1, c :: rest => normalizeFrom py inUrl (some c) jump rest
  | 0, c :: rest =>
    if inUrl || looksLikeUrlStart (c :: rest) then
      if isSpace c then
        let spaces := c :: rest.takeWhile isSpace
        let after := rest.dropWhile isSpace
        if joinsUrl py previous spaces after then
          normalizeFrom py true (some c) (rest.takeWhile isSpace).length rest
        else spaces ++ normalizeFrom py false (some c) (rest.takeWhile isSpace).length rest
      else c :: normalizeFrom py (isUrlChar py c) (some c) 0 rest
    else if c = '\n' ∧ isCjkWordChar previous ∧ isCjkWordChar rest.head? then
      normalizeFrom py false (some c) 0 rest
    else c :: normalizeFrom py false (some c) 0 rest

def normalizeForFixedSize (py : Interpreter) (text : List Char) : List Char :=
  normalizeFrom py false none 0 (text.filter fun c => c != '\r')

end Normalization

section FixedSize

/-- The loops of `_adjust_to_boundary`: `left` positions back from an offset, not down to `start`. -/
def lookBack (start targetEnd : ℕ) (stops : ℕ → Bool) : ℕ → ℕ → Option ℕ
  | _, 0 => none
  | offset, left + 1 =>
    let pos := targetEnd - offset - 1
    if pos ≤ start then none
    else if stops pos then some (pos + 1)
    else lookBack start targetEnd stops (offset + 1) left

def adjustToBoundary (text : List Char) (start targetEnd overlap : ℕ) : ℕ :=
  if targetEnd ≤ start then targetEnd
  else
    let maxLookback := min overlap (targetEnd - start)
    if maxLookback = 0 then targetEnd
    else
      let find (stops : ℕ → Bool) := lookBack start targetEnd stops 0 (maxLookback + 1)
      let among (chars : List Char) (pos : ℕ) := (text[pos]?).any chars.contains
      let ended (pos : ℕ) := (text[pos]?).all isSpace
      ((find (among ['\n'])).or <| (find (among ['。', '！', '？'])).or <|
        find fun pos => among ['.', '!', '?'] pos && ended (pos + 1)).getD targetEnd

def chunkSize (config : Object) : ℤ :=
  let size := positiveInt (.get config "chunkSize") 0
  if size ≠ 0 then size else positiveInt (.get config "targetChars") 1400

/-- The overlap that the configuration asks for, below the size of a chunk. -/
def clampedOverlap (config : Object) (size : ℤ) : ℤ :=
  let overlap := nonNegativeInt (.get config "overlapSize") (-1)
  let overlap := if overlap < 0 then nonNegativeInt (.get config "overlapChars") 0 else overlap
  if 1 < size then min overlap (size - 1) else 0

/-- The variables of the loop of `_split_fixed_size`. -/
structure Cutting where
  start : ℕ := 0
  lastEnd : ℤ := -1
  chunks : List TextChunk := []

/-- The end of the chunk that a round cuts. -/
def Cutting.stop (text : List Char) (size overlap : ℕ) (s : Cutting) : ℕ :=
  let targetEnd := min (s.start + size) text.length
  let stop := adjustToBoundary text s.start targetEnd overlap
  if stop ≤ s.start ∨ (stop : ℤ) ≤ s.lastEnd then targetEnd else stop

/-- A chunk more, unless its content is blank. -/
def Cutting.add (py : Interpreter) (drawn : ℕ → Str) (text : List Char) (s : Cutting) (stop : ℕ) :
    List TextChunk :=
  let content := slice text s.start stop
  if stripChars content = [] then s.chunks
  else s.chunks ++ [makeChunk py drawn s.chunks.length content (rangeMetadata s.start stop)]

def Cutting.round (py : Interpreter) (drawn : ℕ → Str) (text : List Char) (size overlap : ℕ)
    (s : Cutting) : Turn Cutting :=
  if s.start < text.length then
    let stop := s.stop text size overlap
    let chunks := s.add py drawn text stop
    if text.length ≤ stop then .done { s with lastEnd := stop, chunks }
    else
      let nextStart := stop - overlap
      .again { start := if nextStart ≤ s.start then stop else nextStart, lastEnd := stop, chunks }
  else .done s

/-- `none` if the rounds of the loop do not suffice. -/
def splitFixedSize (py : Interpreter) (drawn : ℕ → Str) (rounds : ℕ) (text : List Char)
    (config : Object) : Option (List TextChunk) :=
  let normalized := normalizeForFixedSize py text
  let size := chunkSize config
  if size = -1 then
    some [makeChunk py drawn 0 normalized (rangeMetadata 0 normalized.length)]
  else
    let overlap := clampedOverlap config size
    (loop (Cutting.round py drawn normalized size.toNat overlap.toNat) rounds {}).map Cutting.chunks

end FixedSize

section StructureAware

inductive BlockKind where
  | para
  | code
  | heading
  | atomic

structure Block where
  kind : BlockKind
  start : ℕ
  stop : ℕ

/-- `\r\n` gives `\n`. -/
def joinReturns : List Char → List Char
  | '\r' :: '\n' :: rest => '\n' :: joinReturns rest
  | c :: rest => c :: joinReturns rest
  | [] => []

def normalizeNewlines (text : List Char) : List Char :=
  (joinReturns text).map fun c => if c = '\r' then '\n' else c

/-- The lines of a text, each with its newline. -/
def cutLines : List Char → List (List Char)
  | [] => []
  | '\n' :: rest => ['\n'] :: cutLines rest
  | c :: rest =>
    match cutLines rest with
    | [] => [[c]]
    | line :: lines => (c :: line) :: lines

/-- A line without its newline and the blanks before it. -/
def trimmed (line : List Char) : List Char :=
  ((line.takeWhile fun c => c != '\n').reverse.dropWhile fun c => c == ' ' || c == '\t').reverse

/-- `_CODE_FENCE_RE` -/
def isCodeFence (line : List Char) : Bool := "```".toList.isPrefixOf line

/-- `_HEADING_RE` -/
def isHeading (line : List Char) : Bool :=
  let marks := (line.takeWhile fun c => c == '#').length
  1 ≤ marks && marks ≤ 6 && ((line.drop marks).head?).any isSpace

/-- What follows `open`, a text without `close`, and `close`. -/
def bracketed (first last : Char) (least : ℕ) (line : List Char) : Option (List Char) :=
  match line with
  | c :: rest =>
    let inside := rest.takeWhile fun c => c != last
    if c = first ∧ least ≤ inside.length ∧ inside.length < rest.length then
      some (rest.drop (inside.length + 1))
    else none
  | [] => none

/-- `_ATOMIC_IMAGE_RE` -/
def isAtomicImage (line : List Char) : Bool :=
  match line with
  | '!' :: rest =>
    match (bracketed '[' ']' 0 rest).bind (bracketed '(' ')' 1) with
    | none => false
    | some rest =>
      rest.all isSpace ||
        match bracketed '\x22' '\x22' 0 (rest.dropWhile isSpace) with
        | some rest => rest.all isSpace
        | none => false
  | _ => false

/-- `_ATOMIC_LINK_RE` -/
def isAtomicLink (line : List Char) : Bool :=
  match (bracketed '[' ']' 1 line).bind (bracketed '(' ')' 1) with
  | some rest => rest.all isSpace
  | none => false

/-- The block of an open paragraph. -/
def closePara (para : Option ℕ) (pos : ℕ) : List Block :=
  match para with
  | some start => [⟨.para, start, pos⟩]
  | none => []

/-- The loop of `_segment_to_blocks` over the lines that are left, with the open fence and the open
paragraph. -/
def segmentFrom (pos : ℕ) (fence para : Option ℕ) : List (List Char) → List Block
  | [] =>
    match fence with
    | some start => [⟨.code, start, pos⟩]
    | none => closePara para pos
  | line :: lines =>
    let next := pos + line.length
    let line := trimmed line
    match fence with
    | none =>
      if isCodeFence line then closePara para pos ++ segmentFrom next (some pos) none lines
      else if line = [] then closePara para pos ++ segmentFrom next none none lines
      else if isHeading line then
        closePara para pos ++ ⟨.heading, pos, next⟩ :: segmentFrom next none none lines
      else if isAtomicImage line || isAtomicLink line then
        closePara para pos ++ ⟨.atomic, pos, next⟩ :: segmentFrom next none none lines
      else segmentFrom next none (some (para.getD pos)) lines
    | some start =>
      if isCodeFence line then ⟨.code, start, next⟩ :: segmentFrom next none para lines
      else segmentFrom next (some start) para lines

def isAllBlank (text : List Char) (start stop : ℕ) : Bool :=
  (slice text start stop).all [' ', '\t', '\r', '\n'].contains

/-- The loop of `_coalesce_trailing_blanks`, after the block `previous`. -/
def coalesceFrom (text : List Char) (previous : Block) : List Block → List Block
  | [] => [previous]
  | current :: rest =>
    let previous :=
      if isAllBlank text previous.stop current.start then { previous with stop := current.start }
      else previous
    previous :: coalesceFrom text current rest

def coalesceTrailingBlanks (text : List Char) : List Block → List Block
  | [] => []
  | first :: rest => coalesceFrom text first rest

def segmentToBlocks (text : List Char) : List Block :=
  coalesceTrailingBlanks text (segmentFrom 0 none none (cutLines text))

/-- The inner loop of the packing: the end of a chunk, and how many blocks it takes on. -/
def grow (minChars maxChars chunkStart chunkEnd : ℕ) : List Block → ℕ × ℕ
  | [] => (chunkEnd, 0)
  | block :: rest =>
    if block.stop - chunkStart ≤ maxChars then
      let (chunkEnd, taken) := grow minChars maxChars chunkStart block.stop rest
      (chunkEnd, taken + 1)
    else if chunkEnd - chunkStart < minChars then (block.stop, 1)
    else (chunkEnd, 0)

def packFrom (minChars maxChars : ℕ) : ℕ → List Block → List (ℕ × ℕ)
  | _, [] => []
  | jump + 1, _ :: rest => packFrom minChars maxChars jump rest
  | 0, block :: rest =>
    let (chunkEnd, taken) := grow minChars maxChars block.start block.stop rest
    (block.start, chunkEnd) :: packFrom minChars maxChars taken rest

/-- A short last range is merged into the one before, if that stays in bounds. -/
def mergeTail (minChars target maxChars : ℕ) : List (ℕ × ℕ) → List (ℕ × ℕ)
  | [previous, last] =>
    if last.2 - last.1 < min minChars (target / 2) ∧ last.2 - previous.1 ≤ maxChars * 2 then
      [(previous.1, last.2)]
    else [previous, last]
  | range :: ranges => range :: mergeTail minChars target maxChars ranges
  | [] => []

def packBlocksToChunks (blocks : List Block) (minChars target maxChars : ℕ) : List (ℕ × ℕ) :=
  mergeTail minChars target maxChars (packFrom minChars maxChars 0 blocks)

/-- `text[-count:]` for a positive count. -/
def tail (text : List Char) (count : ℕ) : List Char := text.drop (text.length - count)

/-- The loop of `_materialize_structure_chunks`, with the index of the next chunk. -/
def materializeFrom (py : Interpreter) (drawn : ℕ → Str) (text : List Char) (overlap : ℕ)
    (index : ℕ) (previousTail : List Char) : List (ℕ × ℕ) → List TextChunk
  | [] => []
  | (start, stop) :: ranges =>
    let body := slice text start stop
    let body := if 0 < overlap ∧ previousTail ≠ [] then previousTail ++ body else body
    let previousTail := if 0 < overlap then tail body overlap else []
    makeChunk py drawn index body (rangeMetadata start stop) ::
      materializeFrom py drawn text overlap (index + 1) previousTail ranges

def structureOverlap (config : Object) : ℕ :=
  (nonNegativeInt (.get config "overlapChars") 0).toNat

def splitStructureAware (py : Interpreter) (drawn : ℕ → Str) (text : List Char) (config : Object) :
    List TextChunk :=
  let normalized := normalizeNewlines text
  let target := positiveInt (.get config "targetChars") 1400
  let maxChars := positiveInt (.get config "maxChars") (max target 1800)
  let minChars := nonNegativeInt (.get config "minChars") 0
  match segmentToBlocks normalized with
  | [] => [makeChunk py drawn 0 normalized (rangeMetadata 0 normalized.length)]
  | blocks =>
    let ranges := packBlocksToChunks blocks minChars.toNat target.toNat maxChars.toNat
    materializeFrom py drawn normalized (structureOverlap config) 0 [] ranges

end StructureAware

/-- `split`; `none` if it raises `ValueError`. -/
def split (py : Interpreter) (drawn : ℕ → Str) (rounds : ℕ) (text : List Char) (strategy : Str)
    (config : Object) : Option (List TextChunk) :=
  if stripChars text = [] then none
  else if strategy = .lit "fixed_size" then splitFixedSize py drawn rounds text config
  else if strategy = .lit "structure_aware" then some (splitStructureAware py drawn text config)
  else none

section Indices

variable (py : Interpreter) (drawn : ℕ → Str)

/-- The index of a chunk is its place. -/
def Numbered (chunks : List TextChunk) : Prop :=
  chunks.map TextChunk.chunkIndex = List.range chunks.length

theorem numbered_singleton (content : List Char) (metadata : Object) :
    Numbered [makeChunk py drawn 0 content metadata] := rfl

theorem Numbered.append_singleton {chunks : List TextChunk} (numbered : Numbered chunks)
    (content : List Char) (metadata : Object) :
    Numbered (chunks ++ [makeChunk py drawn chunks.length content metadata]) := by
  rw [Numbered, List.map_append, numbered, List.length_append, List.length_singleton,
    List.range_succ]
  rfl

theorem numbered_add {text : List Char} {s : Cutting} (numbered : Numbered s.chunks) (stop : ℕ) :
    Numbered (s.add py drawn text stop) := by
  simp only [Cutting.add]
  split
  · exact numbered
  · exact numbered.append_singleton py drawn _ _

theorem numbered_splitFixedSize {rounds : ℕ} {text : List Char} {config : Object}
    {chunks : List TextChunk} (cut : splitFixedSize py drawn rounds text config = some chunks) :
    Numbered chunks := by
  simp only [splitFixedSize] at cut
  split at cut
  · cases cut
    exact numbered_singleton py drawn _ _
  · obtain ⟨last, ended, rfl⟩ := Option.map_eq_some_iff.mp cut
    refine loop_keeps (I := fun s : Cutting => Numbered s.chunks) ?_ ?_ (by rfl) ended
    · intro s next numbered taken
      simp only [Cutting.round] at taken
      split at taken
      · split at taken
        · cases taken
        · cases taken
          exact numbered_add py drawn numbered _
      · cases taken
    · intro s last numbered taken
      simp only [Cutting.round] at taken
      split at taken
      · split at taken
        · cases taken
          exact numbered_add py drawn numbered _
        · cases taken
      · cases taken
        exact numbered

theorem chunkIndex_materializeFrom (text : List Char) (overlap index : ℕ) (previousTail : List Char)
    (ranges : List (ℕ × ℕ)) :
    (materializeFrom py drawn text overlap index previousTail ranges).map TextChunk.chunkIndex =
      List.range' index ranges.length := by
  induction ranges generalizing index previousTail with
  | nil => rfl
  | cons range ranges ih =>
    simp only [materializeFrom, List.map_cons, ih, List.length_cons, List.range'_succ]
    rfl

theorem numbered_materializeFrom (text : List Char) (overlap : ℕ) (previousTail : List Char)
    (ranges : List (ℕ × ℕ)) :
    Numbered (materializeFrom py drawn text overlap 0 previousTail ranges) := by
  have indices := chunkIndex_materializeFrom py drawn text overlap 0 previousTail ranges
  have lengths := congrArg List.length indices
  rw [List.length_map, List.length_range'] at lengths
  rw [Numbered, indices, lengths, List.range_eq_range']

theorem numbered_splitStructureAware (text : List Char) (config : Object) :
    Numbered (splitStructureAware py drawn text config) := by
  simp only [splitStructureAware]
  split
  · exact numbered_singleton py drawn _ _
  · exact numbered_materializeFrom py drawn _ _ _ _

/-- The chunks of a text are numbered from zero on. -/
theorem numbered_split {rounds : ℕ} {text : List Char} {strategy : Str} {config : Object}
    {chunks : List TextChunk} (cut : split py drawn rounds text strategy config = some chunks) :
    Numbered chunks := by
  simp only [split] at cut
  split at cut
  · cases cut
  · split at cut
    · exact numbered_splitFixedSize py drawn cut
    · split at cut
      · cases cut
        exact numbered_splitStructureAware py drawn text config
      · cases cut

end Indices

end HeyeeAgent.Knowledge.ChunkingService
