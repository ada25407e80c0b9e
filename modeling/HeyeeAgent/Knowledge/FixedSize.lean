import HeyeeAgent.Knowledge.NormalizedText

/-! # Chunks of a fixed size

The normalization keeps every visible character. The loop that cuts the normalized text goes forward
with every round: its start stays within the part that is cut, at most the overlap before the last
end, and the overlap is below the size of a chunk. So it ends, and no visible character is left out.
-/

namespace HeyeeAgent.Knowledge.ChunkingService

open Python Machine

variable (py : Interpreter) (drawn : ℕ → Str)

/-- The chunks of a list of ranges. -/
def chunksOf (text : List Char) (ranges : List (ℕ × ℕ)) : List TextChunk :=
  ranges.mapIdx fun index range =>
    makeChunk py drawn index (slice text range.1 range.2) (rangeMetadata range.1 range.2)

@[simp] theorem length_chunksOf (text : List Char) (ranges : List (ℕ × ℕ)) :
    (chunksOf py drawn text ranges).length = ranges.length := List.length_mapIdx

theorem chunksOf_append_singleton (text : List Char) (ranges : List (ℕ × ℕ)) (range : ℕ × ℕ) :
    chunksOf py drawn text (ranges ++ [range]) = chunksOf py drawn text ranges ++
      [makeChunk py drawn ranges.length (slice text range.1 range.2)
        (rangeMetadata range.1 range.2)] :=
  List.mapIdx_concat

/-- Ranges of a text, no longer than a size, that go forward and step back by an overlap at most. -/
structure Cuts (text : List Char) (size overlap : ℕ) (ranges : List (ℕ × ℕ)) : Prop where
  bounds : ∀ range ∈ ranges,
    range.1 < range.2 ∧ range.2 ≤ text.length ∧ range.2 - range.1 ≤ size
  ordered : ranges.Pairwise fun before after =>
    before.1 < after.1 ∧ before.2 < after.2 ∧ before.2 ≤ after.1 + overlap

/-- The visible characters of the text before a limit lie in the ranges. -/
def Covers (text : List Char) (ranges : List (ℕ × ℕ)) (limit : ℕ) : Prop :=
  ∀ pos c, text[pos]? = some c → isSpace c = false → pos < limit →
    ∃ range ∈ ranges, range.1 ≤ pos ∧ pos < range.2

section Normalization

theorem mem_normalizeForFixedSize {text : List Char} {c : Char} (visible : isSpace c = false)
    (member : c ∈ text) : c ∈ normalizeForFixedSize py text := by
  have there : c ∈ text.filter fun c => !isSpace c :=
    List.mem_filter.mpr ⟨member, by simp [visible]⟩
  rw [← filter_normalizeForFixedSize py text] at there
  exact (List.mem_filter.mp there).1

end Normalization

section Boundary

theorem lookBack_bounds {start targetEnd offset left stop : ℕ} {stops : ℕ → Bool}
    (found : lookBack start targetEnd stops offset left = some stop) :
    start < stop ∧ stop ≤ targetEnd := by
  induction left generalizing offset with
  | zero => cases found
  | succ left ih =>
    simp only [lookBack] at found
    split at found
    · cases found
    · split at found
      · cases found
        omega
      · exact ih found

/-- The end goes back to a boundary, never to the start. -/
theorem adjustToBoundary_bounds (text : List Char) {start targetEnd : ℕ} (overlap : ℕ)
    (forward : start < targetEnd) :
    start < adjustToBoundary text start targetEnd overlap ∧
      adjustToBoundary text start targetEnd overlap ≤ targetEnd := by
  simp only [adjustToBoundary, if_neg (Nat.not_le.mpr forward)]
  split
  · exact ⟨forward, le_rfl⟩
  · generalize sought : Option.or _ _ = result
    cases result with
    | none => exact ⟨forward, le_rfl⟩
    | some stop =>
      simp only [Option.or_eq_some_iff] at sought
      obtain found | ⟨-, found | ⟨-, found⟩⟩ := sought <;> exact lookBack_bounds found

end Boundary

section Config

theorem chunkSize_pos (config : Object) : 0 < chunkSize config := by
  simp only [chunkSize]
  split
  case isTrue given => exact (positiveInt_eq_or _ _).resolve_left given
  case isFalse => exact positiveInt_pos _ (by decide)

/-- The overlap is below the size of a chunk. -/
theorem clampedOverlap_lt (config : Object) {size : ℤ} (positive : 0 < size) :
    clampedOverlap config size < size := by
  simp only [clampedOverlap]
  split <;> omega

end Config

section Rounds

/-- Where the loop stands before a round, with the ranges of the chunks it has made. -/
structure Cutting.Inv (text : List Char) (size overlap : ℕ) (s : Cutting) : Prop where
  inside : s.start < text.length
  forward : (s.start : ℤ) ≤ max 0 s.lastEnd
  back : s.lastEnd ≤ s.start + overlap
  further : s.lastEnd < s.start + size
  unfinished : s.lastEnd < text.length
  made : ∃ ranges, s.chunks = chunksOf py drawn text ranges ∧ Cuts text size overlap ranges ∧
    Covers text ranges s.lastEnd.toNat ∧
    ∀ range ∈ ranges, range.1 < s.start ∧ (range.2 : ℤ) ≤ s.lastEnd

/-- What the loop has made when it ends. -/
def Cutting.Made (text : List Char) (size overlap : ℕ) (s : Cutting) : Prop :=
  ∃ ranges, s.chunks = chunksOf py drawn text ranges ∧ Cuts text size overlap ranges ∧
    Covers text ranges text.length

variable {py drawn} {text : List Char} {size overlap : ℕ} {s : Cutting}

/-- A blank piece of the text leaves no visible character uncovered. -/
theorem Covers.extend {ranges : List (ℕ × ℕ)} {limit stop : ℕ}
    (covers : Covers text ranges limit)
    (piece : ∀ pos c, text[pos]? = some c → isSpace c = false → limit ≤ pos → pos < stop →
      ∃ range ∈ ranges, range.1 ≤ pos ∧ pos < range.2) : Covers text ranges stop := by
  intro pos c there visible before
  by_cases early : pos < limit
  · exact covers pos c there visible early
  · exact piece pos c there visible (by omega) before

theorem Covers.mono {ranges more : List (ℕ × ℕ)} {limit : ℕ} (covers : Covers text ranges limit)
    (subset : ranges ⊆ more) : Covers text more limit := by
  intro pos c there visible before
  obtain ⟨range, member, within⟩ := covers pos c there visible before
  exact ⟨range, subset member, within⟩

theorem mem_slice {start stop pos : ℕ} {c : Char} (there : text[pos]? = some c)
    (after : start ≤ pos) (before : pos < stop) : c ∈ slice text start stop := by
  refine List.mem_iff_getElem?.mpr ⟨pos - start, ?_⟩
  rw [slice, List.getElem?_drop, List.getElem?_take, if_pos (by omega)]
  rwa [Nat.add_sub_cancel' after]

/-- A round cuts a piece that starts where it stands and ends behind the last end. -/
theorem Cutting.Inv.stop_bounds (inv : s.Inv py drawn text size overlap) (smaller : overlap < size) :
    s.start < s.stop text size overlap ∧ s.lastEnd < s.stop text size overlap ∧
      s.stop text size overlap ≤ s.start + size ∧ s.stop text size overlap ≤ text.length := by
  have inside := inv.inside
  have back := inv.back
  have further := inv.further
  have unfinished := inv.unfinished
  have adjusted := adjustToBoundary_bounds text overlap
    (show s.start < min (s.start + size) text.length by omega)
  simp only [Cutting.stop]
  split <;> omega

/-- One piece more, from the start of a round to its end. -/
theorem Cutting.Inv.add {stop : ℕ} (inv : s.Inv py drawn text size overlap)
    (forward : s.start < stop) (new : s.lastEnd < stop) (fits : stop ≤ s.start + size)
    (inside : stop ≤ text.length) :
    ∃ ranges, s.add py drawn text stop = chunksOf py drawn text ranges ∧
      Cuts text size overlap ranges ∧ Covers text ranges stop ∧
      ∀ range ∈ ranges, range.1 ≤ s.start ∧ range.2 ≤ stop := by
  obtain ⟨ranges, chunks, cuts, covers, before⟩ := inv.made
  have reached : s.start ≤ s.lastEnd.toNat := by
    have := inv.forward
    omega
  simp only [Cutting.add]
  split
  case isTrue blank =>
    refine ⟨ranges, chunks, cuts, ?_, ?_⟩
    · apply covers.extend
      intro pos c there visible after before
      have space := stripChars_eq_nil.mp blank c (mem_slice there (by omega) before)
      rw [space] at visible
      cases visible
    · intro range member
      have := before range member
      omega
  case isFalse visible =>
    refine ⟨ranges ++ [(s.start, stop)], ?_, ⟨?_, ?_⟩, ?_, ?_⟩
    · rw [chunksOf_append_singleton, chunks, length_chunksOf]
    · intro range member
      rcases List.mem_append.mp member with old | last
      · exact cuts.bounds range old
      · cases List.mem_singleton.mp last
        exact ⟨forward, inside, by simp only; omega⟩
    · refine List.pairwise_append.mpr ⟨cuts.ordered, List.pairwise_singleton _ _, ?_⟩
      intro range old last member
      cases List.mem_singleton.mp member
      have := before range old
      have := inv.back
      simp only
      omega
    · apply (covers.mono (List.subset_append_left ranges [(s.start, stop)])).extend
      intro pos c _ _ after before
      exact ⟨(s.start, stop), by simp, by simp only; omega, before⟩
    · intro range member
      rcases List.mem_append.mp member with old | last
      · have := before range old
        omega
      · cases List.mem_singleton.mp last
        exact ⟨le_rfl, le_rfl⟩

theorem Cutting.Inv.again {next : Cutting} (inv : s.Inv py drawn text size overlap)
    (smaller : overlap < size) (taken : s.round py drawn text size overlap = .again next) :
    next.Inv py drawn text size overlap ∧ text.length - next.start < text.length - s.start := by
  obtain ⟨forward, new, fits, inside⟩ := inv.stop_bounds smaller
  obtain ⟨ranges, chunks, cuts, covers, before⟩ := inv.add forward new fits inside
  simp only [Cutting.round, if_pos inv.inside] at taken
  split at taken
  case isTrue => cases taken
  case isFalse more =>
    cases taken
    have here := inv.inside
    refine ⟨⟨?_, ?_, ?_, ?_, ?_, ranges, chunks, cuts, covers, ?_⟩, ?_⟩
    · simp only
      split <;> omega
    · simp only
      split <;> omega
    · simp only
      split <;> omega
    · simp only
      split <;> omega
    · simp only
      omega
    · intro range member
      have := before range member
      simp only
      split <;> omega
    · simp only
      split <;> omega

theorem Cutting.Inv.done {last : Cutting} (inv : s.Inv py drawn text size overlap)
    (smaller : overlap < size) (taken : s.round py drawn text size overlap = .done last) :
    last.Made py drawn text size overlap := by
  obtain ⟨forward, new, fits, inside⟩ := inv.stop_bounds smaller
  obtain ⟨ranges, chunks, cuts, covers, -⟩ := inv.add forward new fits inside
  simp only [Cutting.round, if_pos inv.inside] at taken
  split at taken
  case isTrue whole =>
    cases taken
    have stop : s.stop text size overlap = text.length := by omega
    exact ⟨ranges, chunks, cuts, stop ▸ covers⟩
  case isFalse => cases taken

theorem Cutting.Inv.initial (nonempty : text ≠ []) (positive : 0 < size) :
    Cutting.Inv py drawn text size overlap {} where
  inside := List.length_pos_iff.mpr nonempty
  forward := by decide
  back := by simp only; omega
  further := by simp only; omega
  unfinished := by simp only; omega
  made := ⟨[], rfl, ⟨by simp, .nil⟩, fun _ _ _ _ before => (Nat.not_lt_zero _ before).elim, by simp⟩

end Rounds

/-- Of a text with a visible character, the chunks of a fixed size are ranges of the normalized text
that go forward and hold every visible character of it, whatever the configuration. -/
theorem splitFixedSize_lossless {text : List Char} (config : Object)
    (visible : ∃ c ∈ text, isSpace c = false) :
    ∃ ranges, ranges ≠ [] ∧
      Cuts (normalizeForFixedSize py text) (chunkSize config).toNat
        (clampedOverlap config (chunkSize config)).toNat ranges ∧
      Covers (normalizeForFixedSize py text) ranges (normalizeForFixedSize py text).length ∧
      ∀ rounds, (normalizeForFixedSize py text).length < rounds →
        splitFixedSize py drawn rounds text config =
          some (chunksOf py drawn (normalizeForFixedSize py text) ranges) := by
  obtain ⟨c, member, visible⟩ := visible
  have there := mem_normalizeForFixedSize py visible member
  have positive := chunkSize_pos config
  have smaller := clampedOverlap_lt config positive
  obtain ⟨last, ⟨ranges, chunks, cuts, covers⟩, reached⟩ :=
    @loop_ends _ (Cutting.round py drawn (normalizeForFixedSize py text) (chunkSize config).toNat
      (clampedOverlap config (chunkSize config)).toNat) _ _ _
      (fun s next inv taken => Cutting.Inv.again inv (by omega) taken)
      (fun s last inv taken => Cutting.Inv.done inv (by omega) taken) _
      (Cutting.Inv.initial (List.ne_nil_of_mem there) (by omega))
  refine ⟨ranges, ?_, cuts, covers, ?_⟩
  · rintro rfl
    obtain ⟨pos, found⟩ := List.mem_iff_getElem?.mp there
    obtain ⟨inside, -⟩ := List.getElem?_eq_some_iff.mp found
    obtain ⟨range, none_of, -⟩ := covers pos c found visible inside
    cases none_of
  · intro rounds enough
    simp only [splitFixedSize, if_neg (show chunkSize config ≠ -1 by omega)]
    rw [reached rounds (by simpa using enough), Option.map_some, chunks]

/-- Three sentences, cut at nine characters with an overlap of four. -/
def sentences : List Char := "第一段内容。第二段内容。第三段内容。".toList

def sentencesConfig : Object :=
  [(.lit "targetChars", .number (.lit "9")), (.lit "overlapChars", .number (.lit "4"))]

theorem splitFixedSize_lossless_sentences :
    ∃ ranges, ranges ≠ [] ∧
      Cuts (normalizeForFixedSize asciiInterpreter sentences) (chunkSize sentencesConfig).toNat
        (clampedOverlap sentencesConfig (chunkSize sentencesConfig)).toNat ranges ∧
      Covers (normalizeForFixedSize asciiInterpreter sentences) ranges
        (normalizeForFixedSize asciiInterpreter sentences).length ∧
      ∀ rounds, (normalizeForFixedSize asciiInterpreter sentences).length < rounds →
        splitFixedSize asciiInterpreter (fun _ => []) rounds sentences sentencesConfig =
          some (chunksOf asciiInterpreter (fun _ => [])
            (normalizeForFixedSize asciiInterpreter sentences)
            ranges) :=
  splitFixedSize_lossless asciiInterpreter (fun _ => []) sentencesConfig
    ⟨'第', by decide +kernel, by decide +kernel⟩

example : splitFixedSize asciiInterpreter (fun _ => []) 19 sentences sentencesConfig =
    some (chunksOf asciiInterpreter (fun _ => []) sentences
      [(0, 6), (2, 11), (7, 12), (8, 17), (13, 18)]) := by rfl

end HeyeeAgent.Knowledge.ChunkingService
