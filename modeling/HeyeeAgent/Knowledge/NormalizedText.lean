import HeyeeAgent.Framing.Deletions
import HeyeeAgent.Knowledge.ChunkingService

/-! # What the normalization leaves out

The normalization for chunks of a fixed size cuts a text into pieces and leaves out some of its white
space: a newline between two words of Chinese, and the white space at which a URL is broken.
-/

namespace HeyeeAgent.Knowledge.ChunkingService

open Python Deletions

/-- A URL begins before the place between the pieces and the rest, or right there, and goes on up to
it, but for white space that is left out. -/
def InsideUrl (py : Interpreter) (before : List (Piece Char)) (rest : List Char) : Prop :=
  ∃ earlier url, before = earlier ++ url ∧ looksLikeUrlStart (source url ++ rest) = true ∧
    ∀ piece ∈ url, piece.kept = true → ∀ c ∈ piece.text, isSpace c = false ∧ isUrlChar py c = true

/-- Why the normalization may leave a piece out -/
inductive Removable (py : Interpreter) (before : List (Piece Char)) :
    List Char → List (Piece Char) → Prop
  | lineBreak {after : List (Piece Char)} (first : isCjkWordChar (source before).getLast? = true)
      (second : isCjkWordChar (source after).head? = true)
      (outside : ¬ InsideUrl py before ('\n' :: source after)) : Removable py before ['\n'] after
  | brokenUrl {spaces : List Char} {after : List (Piece Char)} (newline : '\n' ∈ spaces)
      (blank : ∀ c ∈ spaces, isSpace c = true)
      (starts : ∀ c ∈ (source before).getLast?, isSpace c = false)
      (ends : ∀ c ∈ (source after).head?, isSpace c = false)
      (inside : InsideUrl py before (spaces ++ source after)) : Removable py before spaces after

variable {py : Interpreter} {inUrl : Bool} {previous : Option Char} {past : List (Piece Char)}
  {piece : Piece Char} {c : Char} {rest spaces : List Char}

/-- A URL begins behind the piece, or it goes on with it. -/
theorem insideUrl_snoc : InsideUrl py (past ++ [piece]) rest ↔
    looksLikeUrlStart rest = true ∨ InsideUrl py past (piece.text ++ rest) ∧
      (piece.kept = true → ∀ c ∈ piece.text, isSpace c = false ∧ isUrlChar py c = true) := by
  constructor
  · rintro ⟨earlier, url, split, starts, chars⟩
    rcases List.eq_nil_or_concat url with rfl | ⟨url, last, rfl⟩
    · exact .inl starts
    · rw [List.concat_eq_append] at *
      rw [← List.append_assoc] at split
      obtain ⟨rfl, same⟩ := List.append_inj' split rfl
      cases List.singleton_inj.mp same
      refine .inr ⟨⟨earlier, url, rfl, by simpa using starts, fun piece member => ?_⟩, ?_⟩
      · exact chars piece (List.mem_append_left _ member)
      · exact chars piece (List.mem_append_right _ (List.mem_singleton_self _))
  · rintro (starts | ⟨⟨earlier, url, rfl, starts, chars⟩, goes⟩)
    · exact ⟨past ++ [piece], [], (List.append_nil _).symm, starts, List.forall_mem_nil _⟩
    · refine ⟨earlier, url ++ [piece], List.append_assoc _ _ _, by simpa using starts, ?_⟩
      exact List.forall_mem_append.mpr ⟨chars, List.forall_mem_singleton.mpr goes⟩

/-- Where the loop stands: whether in a URL, and at the start of white space in it. -/
structure Standing (py : Interpreter) (inUrl : Bool) (past : List (Piece Char)) (rest : List Char) :
    Prop where
  mode : (inUrl || looksLikeUrlStart rest) = true ↔ InsideUrl py past rest
  fresh : inUrl = true → ∀ c ∈ rest.head?, isSpace c = true →
    ∀ last ∈ (source past).getLast?, isSpace last = false

/-- Behind a character of a URL -/
theorem Standing.url (standing : Standing py inUrl past (c :: rest))
    (inside : (inUrl || looksLikeUrlStart (c :: rest)) = true) (visible : isSpace c = false) :
    Standing py (isUrlChar py c) (past ++ [⟨[c], true⟩]) rest where
  mode := by
    have here : InsideUrl py past (c :: rest) := standing.mode.mp inside
    rw [insideUrl_snoc, Bool.or_eq_true]
    simp [here, visible, or_comm]
  fresh := by
    intro _ _ _ _ last ends
    simp only [source_append, source_cons, source_nil, List.append_nil, List.getLast?_concat,
      Option.mem_some_iff] at ends
    exact ends ▸ visible

/-- Behind a piece outside every URL -/
theorem Standing.outside (none_here : ¬ InsideUrl py past (piece.text ++ rest)) :
    Standing py false (past ++ [piece]) rest where
  mode := by
    rw [insideUrl_snoc, Bool.false_or]
    simp [none_here]
  fresh := by simp

/-- Behind white space that ends a URL -/
theorem Standing.ended (blank : ∀ d ∈ c :: spaces, isSpace d = true) :
    Standing py false (past ++ [⟨c :: spaces, true⟩]) rest where
  mode := by
    rw [insideUrl_snoc, Bool.false_or]
    simp [blank c List.mem_cons_self]
  fresh := by simp

/-- Behind white space that is left out of a URL -/
theorem Standing.mended (inside : InsideUrl py past (spaces ++ rest))
    (ends : ∀ c ∈ rest.head?, isSpace c = false) :
    Standing py true (past ++ [⟨spaces, false⟩]) rest where
  mode := by
    rw [insideUrl_snoc]
    simp [inside]
  fresh := by
    intro _ c first blank
    rw [ends c first] at blank
    cases blank

/-- The loop jumps over the white space that it has looked at. -/
theorem normalizeFrom_jump (spaces : List Char) :
    normalizeFrom py inUrl previous spaces.length (spaces ++ rest) =
      normalizeFrom py inUrl (spaces.getLast?.or previous) 0 rest := by
  induction spaces generalizing previous with
  | nil => rfl
  | cons c spaces ih =>
    rw [List.length_cons, List.cons_append, normalizeFrom, ih, List.getLast?_cons]
    cases spaces.getLast? <;> rfl

theorem getLast?_source_snoc (past : List (Piece Char)) (piece : Piece Char) :
    (source (past ++ [piece])).getLast? = piece.text.getLast?.or (source past).getLast? := by
  rw [source_append, List.getLast?_append, source_cons, source_nil, List.append_nil]

theorem normalizeFrom_run (past : List (Piece Char)) (kept : Bool) :
    normalizeFrom py inUrl (some c) (rest.takeWhile isSpace).length rest =
      normalizeFrom py inUrl (source (past ++ [⟨c :: rest.takeWhile isSpace, kept⟩])).getLast? 0
        (rest.dropWhile isSpace) := by
  have jumps := @normalizeFrom_jump py inUrl (some c) (rest.dropWhile isSpace) (rest.takeWhile isSpace)
  rw [List.takeWhile_append_dropWhile] at jumps
  rw [jumps, getLast?_source_snoc, List.getLast?_cons]
  cases (rest.takeWhile isSpace).getLast? <;> rfl

/-- No URL begins with white space. -/
theorem looksLikeUrlStart_blank (blank : isSpace c = true) : looksLikeUrlStart (c :: rest) = false := by
  have other : 'h' ≠ c := by
    rintro rfl
    cases blank
  simp [looksLikeUrlStart, List.isPrefixOf, other]

theorem head?_dropWhile_isSpace (text : List Char) :
    ∀ c ∈ (text.dropWhile isSpace).head?, isSpace c = false := by
  intro c first
  have none_of := List.head?_dropWhile_not isSpace text
  rw [Option.mem_def.mp first] at none_of
  exact none_of

/-- What a newline in a broken URL joins is not the end of the text. -/
theorem newline_mem_of_joinsUrl {after : List Char} (joins : joinsUrl py previous spaces after = true) :
    '\n' ∈ spaces := by
  cases after with
  | nil => cases joins
  | cons next after =>
    rw [joinsUrl, Bool.and_eq_true] at joins
    exact List.contains_iff_mem.mp joins.1

/-- The loop gives the pieces that it keeps, and it leaves out what may be left out. -/
theorem Standing.pieces (standing : Standing py inUrl past rest) :
    ∃ pieces, source pieces = rest ∧
      remains pieces = normalizeFrom py inUrl (source past).getLast? 0 rest ∧
      Justified (Removable py) past pieces := by
  induction length : rest.length using Nat.strongRecOn generalizing inUrl past rest with
  | ind bound ih =>
    cases rest with
    | nil => exact ⟨[], rfl, rfl, justified_nil⟩
    | cons c rest =>
      have next (inUrl : Bool) (text : List Char) (kept : Bool) (later : List Char)
          (shorter : later.length ≤ rest.length)
          (standing : Standing py inUrl (past ++ [⟨text, kept⟩]) later) :=
        ih later.length (by simp only [List.length_cons] at length; omega) standing rfl
      by_cases inside : (inUrl || looksLikeUrlStart (c :: rest)) = true
      · have here := standing.mode.mp inside
        by_cases blank : isSpace c = true
        · have run : ∀ d ∈ c :: rest.takeWhile isSpace, isSpace d = true :=
            List.forall_mem_cons.mpr ⟨blank, fun d member => List.mem_takeWhile_imp member⟩
          have whole : (c :: rest.takeWhile isSpace) ++ rest.dropWhile isSpace = c :: rest :=
            congrArg (c :: ·) List.takeWhile_append_dropWhile
          have shorter : (rest.dropWhile isSpace).length ≤ rest.length :=
            (List.dropWhile_sublist isSpace).length_le
          by_cases joins : joinsUrl py (source past).getLast? (c :: rest.takeWhile isSpace)
              (rest.dropWhile isSpace) = true
          · have within : inUrl = true := by
              rwa [looksLikeUrlStart_blank blank, Bool.or_false] at inside
            have ends := head?_dropWhile_isSpace rest
            rw [← whole] at here
            obtain ⟨pieces, ending, remaining, justified⟩ :=
              next true (c :: rest.takeWhile isSpace) false _ shorter (.mended here ends)
            rw [← ending] at here ends
            refine ⟨⟨c :: rest.takeWhile isSpace, false⟩ :: pieces, ?_, ?_, .remove ?_ justified⟩
            · rw [source_cons, ending, whole]
            · rw [normalizeFrom, if_pos inside, if_pos blank, if_pos joins, remains_removed, remaining,
                normalizeFrom_run past false]
            · exact .brokenUrl (newline_mem_of_joinsUrl joins) run
                (standing.fresh within c rfl blank) ends here
          · obtain ⟨pieces, ending, remaining, justified⟩ :=
              next false (c :: rest.takeWhile isSpace) true _ shorter (.ended run)
            refine ⟨⟨c :: rest.takeWhile isSpace, true⟩ :: pieces, ?_, ?_, justified.keep⟩
            · rw [source_cons, ending, whole]
            · rw [normalizeFrom, if_pos inside, if_pos blank, if_neg joins, remains_kept, remaining,
                normalizeFrom_run past true]
        · have visible : isSpace c = false := (Bool.not_eq_true _).mp blank
          obtain ⟨pieces, rfl, remaining, justified⟩ :=
            next _ [c] true rest le_rfl (standing.url inside visible)
          refine ⟨⟨[c], true⟩ :: pieces, rfl, ?_, justified.keep⟩
          rw [normalizeFrom, if_pos inside, if_neg blank, remains_kept, remaining,
            getLast?_source_snoc]
          rfl
      · have none_here : ¬ InsideUrl py past (c :: rest) := mt standing.mode.mpr inside
        by_cases joins : c = '\n' ∧ isCjkWordChar (source past).getLast? = true ∧
            isCjkWordChar rest.head? = true
        · obtain ⟨rfl, first, second⟩ := joins
          obtain ⟨pieces, rfl, remaining, justified⟩ :=
            next false ['\n'] false rest le_rfl (.outside none_here)
          refine ⟨⟨['\n'], false⟩ :: pieces, rfl, ?_,
            .remove (.lineBreak first second none_here) justified⟩
          rw [normalizeFrom, if_neg inside, if_pos ⟨rfl, first, second⟩, remains_removed, remaining,
            getLast?_source_snoc]
          rfl
        · obtain ⟨pieces, rfl, remaining, justified⟩ :=
            next false [c] true rest le_rfl (.outside none_here)
          refine ⟨⟨[c], true⟩ :: pieces, rfl, ?_, justified.keep⟩
          rw [normalizeFrom, if_neg inside, if_neg joins, remains_kept, remaining,
            getLast?_source_snoc]
          rfl

/-- Before the first character -/
theorem standing_start (py : Interpreter) (text : List Char) : Standing py false [] text where
  mode := by
    rw [Bool.false_or]
    constructor
    · exact fun starts => ⟨[], [], rfl, starts, List.forall_mem_nil _⟩
    · rintro ⟨earlier, url, split, starts, -⟩
      obtain ⟨rfl, rfl⟩ := List.append_eq_nil_iff.mp split.symm
      exact starts
  fresh := by simp

theorem Removable.blank {before after : List (Piece Char)} {text : List Char}
    (removable : Removable py before text after) : ∀ c ∈ text, isSpace c = true := by
  cases removable with
  | lineBreak => exact List.forall_mem_singleton.mpr rfl
  | brokenUrl newline blank => exact blank

/-- The pieces of a text without carriage returns, some of which are left out -/
theorem pieces_normalizeForFixedSize (py : Interpreter) (text : List Char) :
    ∃ pieces, source pieces = text.filter (fun c => c != '\r') ∧
      remains pieces = normalizeForFixedSize py text ∧ Justified (Removable py) [] pieces :=
  (standing_start py (text.filter fun c => c != '\r')).pieces

/-- The normalization leaves out white space only. -/
theorem filter_normalizeForFixedSize (py : Interpreter) (text : List Char) :
    (normalizeForFixedSize py text).filter (fun c => !isSpace c) =
      text.filter fun c => !isSpace c := by
  obtain ⟨pieces, whole, kept, justified⟩ := pieces_normalizeForFixedSize py text
  have spared (piece : List Char) (member : ⟨piece, false⟩ ∈ pieces) :
      ∀ c ∈ piece, (!isSpace c) = false := by
    obtain ⟨before, after, split⟩ := List.append_of_mem member
    intro c inside
    rw [(justified before piece after split).blank c inside]
    rfl
  have same := filter_remains spared
  rw [kept, whole, List.filter_filter] at same
  refine same.trans (List.filter_congr fun c _ => ?_)
  by_cases carriage : c = '\r'
  · subst carriage
    rfl
  · simp [carriage]

/-- What the normalization makes of a text: the same visible characters, without carriage returns,
newlines between two words of Chinese and the white space at which a URL is broken. -/
structure Normalized (py : Interpreter) (text normalized : List Char) : Prop where
  sublist : normalized.Sublist text
  visible : normalized.filter (fun c => !isSpace c) = text.filter fun c => !isSpace c
  pieces : ∃ pieces, source pieces = text.filter (fun c => c != '\r') ∧ remains pieces = normalized ∧
    Justified (Removable py) [] pieces

/-- The normalization keeps every text. -/
theorem normalized_normalizeForFixedSize (py : Interpreter) (text : List Char) :
    Normalized py text (normalizeForFixedSize py text) := by
  refine ⟨?_, filter_normalizeForFixedSize py text, pieces_normalizeForFixedSize py text⟩
  obtain ⟨pieces, whole, kept, -⟩ := pieces_normalizeForFixedSize py text
  have part := remains_sublist pieces
  rw [kept, whole] at part
  exact part.trans List.filter_sublist

/-- A newline between two words, a broken URL, and a newline behind a URL -/
example : normalizeForFixedSize asciiInterpreter "保修\n政策\r\nhttp://a.cn/b?\n id=1\nend".toList =
    "保修政策\nhttp://a.cn/b?id=1\nend".toList := by decide +kernel

end HeyeeAgent.Knowledge.ChunkingService
