import HeyeeAgent.InfraAi.StreamedText
import HeyeeAgent.Python.JsonPieces
import Mathlib.Algebra.Order.BigOperators.Group.List
import Mathlib.Data.List.Flatten

/-! # What the client reads of an upstream stream

The lines of an event stream end at carriage returns and line feeds, and `splitlines` cuts a stream
at more. A line with text that is cut gives no text any more: its first piece ends inside a string,
and the others have no key of a chunk. So the client reads the whole text of a stream, or less.
-/

namespace HeyeeAgent.InfraAi

open Python Python.JsonDecoder

/-- The data of a line of an event stream, without the blanks around it. -/
def eventData (line : Str) : Option Str :=
  if (Str.lit "data:").isPrefixOf line then some ((skipBlanks (line.drop 5)).rdropWhile isBlank)
  else none

/-- The first choice of a chunk. -/
def chunkChoice (line : Str) : Option (List (Str × Value)) :=
  match (eventData line).bind loads with
  | some (.obj data) =>
    match Value.get data "choices" with
    | .arr (.obj choice0 :: _) => some choice0
    | _ => none
  | _ => none

/-- The text that a line carries in `delta.content`. -/
def lineText (line : Str) : Str :=
  match chunkChoice line with
  | some choice0 =>
    match containerField choice0 "delta" "content" with
    | .str content => content
    | _ => []
  | none => []

/-- A line with a `finish_reason`, or the `[DONE]` line. -/
def lineEnds (line : Str) : Bool :=
  match chunkChoice line with
  | some choice0 =>
    match Value.get choice0 "finish_reason" with
    | .null => false
    | _ => true
  | none => eventData line == some (.lit "[DONE]")

/-- The text of a stream. -/
def upstreamText (text : Str) : Str := (textLines text).flatMap lineText

/-- No line that carries text holds a character at which only `splitlines` cuts. -/
def Unsplit (text : Str) : Prop :=
  ∀ line ∈ textLines text, lineText line ≠ [] → ∀ c ∈ line, isSeparator c = false

section Reading

variable (repr : Value → Str) (reasoningEnabled : Bool)

/-- The content that the client finds in a piece. -/
def pieceText (piece : Str) : Str :=
  ((parseSseLine repr reasoningEnabled piece).bind StreamEvent.content).getD []

def pieceEnds (piece : Str) : Bool :=
  (parseSseLine repr reasoningEnabled piece).any StreamEvent.completed

/-- A line without text: its pieces are read to none, and end the stream if the line does. -/
structure Quiet (line : Str) : Prop where
  silent : ∀ piece ∈ Str.pieces line, pieceText repr reasoningEnabled piece = []
  ends : (Str.pieces line).any (pieceEnds repr reasoningEnabled) = lineEnds line

/-- A stream of chunks that ends, with no text after its end. -/
structure Upstream (text : Str) : Prop where
  quiet : ∀ line ∈ textLines text, lineText line = [] → Quiet repr reasoningEnabled line
  ends : ∃ line ∈ textLines text, lineEnds line = true
  last : (textLines text).Pairwise fun line later => lineEnds line = true → lineText later = []

instance (line : Str) : Decidable (Quiet repr reasoningEnabled line) :=
  decidable_of_iff (_ ∧ _) ⟨fun quiet => ⟨quiet.1, quiet.2⟩,
    fun quiet => ⟨quiet.silent, quiet.ends⟩⟩

instance (text : Str) : Decidable (Upstream repr reasoningEnabled text) :=
  decidable_of_iff (_ ∧ _ ∧ _) ⟨fun upstream => ⟨upstream.1, upstream.2.1, upstream.2.2⟩,
    fun upstream => ⟨upstream.quiet, upstream.ends, upstream.last⟩⟩

/-- What the client calls for a stream that is read to its end. -/
def upstreamCalls (text : Str) : List CallbackCall :=
  runStream repr reasoningEnabled ⟨uncancelled (Str.splitlines text), .closed false⟩

end Reading

section Payload

variable {line piece json value : Str} {choice0 : List (Str × Value)} {c : ℕ}

/-- White space after a text is taken away. -/
theorem strip_append_spaces {gap : Str} (space : ∀ c ∈ gap, isSpaceCode c = true) (text : Str) :
    Str.strip (text ++ gap) = Str.strip text := by
  obtain ⟨before, after, split, first, last⟩ := Str.strip_split text
  have bare := Str.strip_strip text
  by_cases empty : Str.strip text = []
  · rw [empty, Str.strip_eq_nil_iff]
    exact fun c member =>
      (List.mem_append.mp member).elim (Str.strip_eq_nil_iff.mp empty c) (space c)
  · generalize Str.strip text = core at split bare empty ⊢
    subst split
    rw [List.append_assoc, List.append_assoc, Str.strip_spaces_append first]
    obtain ⟨c, rest, rfl⟩ := List.exists_cons_of_ne_nil empty
    have head : isSpaceCode c = false := Str.head_of_strip bare c rfl
    have gone : ∀ d ∈ (after ++ gap).reverse, isSpaceCode d = true := fun d member =>
      (List.mem_append.mp (List.mem_reverse.mp member)).elim (last d) (space d)
    have kept (text : Str) : (c :: text).dropWhile isSpaceCode = c :: text :=
      List.dropWhile_cons_of_neg (by rw [head]; exact Bool.false_ne_true)
    unfold Str.strip at bare ⊢
    rw [kept] at bare
    rw [List.cons_append, kept, ← List.cons_append, List.reverse_append,
      List.dropWhile_append_of_pos gone]
    exact bare

/-- The payload of a line of data is its value without the white space around it. -/
theorem ssePayload_data (value : Str) :
    ssePayload (Str.lit "data:" ++ value) = Str.strip value := by
  obtain ⟨before, after, split, first, last⟩ := Str.strip_split value
  have whole : Str.strip (Str.lit "data:" ++ value) =
      Str.strip (Str.lit "data:" ++ (before ++ Str.strip value)) := by
    conv_lhs => rw [split, ← List.append_assoc, strip_append_spaces last]
  by_cases empty : Str.strip value = []
  · have named : Str.strip (Str.lit "data:" ++ value) = Str.lit "data:" := by
      rw [strip_append_spaces (Str.strip_eq_nil_iff.mp empty)]
      decide
    unfold ssePayload
    rw [named, empty]
    decide
  · have kept : Str.strip (Str.lit "data:" ++ value) =
        Str.lit "data:" ++ (before ++ Str.strip value) := by
      rw [whole]
      refine Str.strip_eq_self ?_ ?_
      · rintro c ⟨⟩
        decide
      · rw [← List.append_assoc, List.getLast?_append_of_ne_nil _ empty]
        exact Str.last_of_strip (Str.strip_strip value)
    have named : (Str.lit "data:").isPrefixOf (Str.lit "data:" ++ (before ++ Str.strip value)) =
        true := List.isPrefixOf_iff_prefix.mpr (List.prefix_append _ _)
    unfold ssePayload
    rw [kept]
    dsimp only
    rw [if_pos named]
    change Str.strip (before ++ Str.strip value) = _
    rw [Str.strip_spaces_append first, Str.strip_strip]

/-- Before a payload there is white space, and perhaps the name of the field. -/
theorem ssePayload_split (piece : Str) : ∃ before after,
    piece = before ++ (ssePayload piece ++ after) ∧ ∀ c ∈ before, c ≠ quote ∧ c ≠ backslash := by
  have plain {gap : Str} (space : ∀ c ∈ gap, isSpaceCode c = true) :
      ∀ c ∈ gap, c ≠ quote ∧ c ≠ backslash := by
    intro c member
    constructor
    · rintro rfl
      cases space _ member
    · rintro rfl
      cases space _ member
  obtain ⟨before, after, split, first, -⟩ := Str.strip_split piece
  unfold ssePayload
  dsimp only
  split_ifs with named
  · obtain ⟨value, same⟩ := List.isPrefixOf_iff_prefix.mp named
    obtain ⟨before', after', split', first', -⟩ := Str.strip_split value
    rw [← same]
    change ∃ before after, piece = before ++ (Str.strip value ++ after) ∧ _
    refine ⟨before ++ (Str.lit "data:" ++ before'), after' ++ after, ?_, ?_⟩
    · conv_lhs => rw [split, ← same, split']
      simp
    · intro c member
      rcases List.mem_append.mp member with gap | member
      · exact plain first c gap
      · rcases List.mem_append.mp member with letter | gap
        · have letters : ∀ c ∈ Str.lit "data:", c ≠ quote ∧ c ≠ backslash := by decide
          exact letters c letter
        · exact plain first' c gap
  · exact ⟨before, after, by rw [← List.append_assoc]; exact split, plain first⟩

/-- The data stands in its line between blanks. -/
theorem eventData_some (given : eventData line = some json) : ∃ gap gap',
    line = Str.lit "data:" ++ (gap ++ (json ++ gap')) ∧ (∀ c ∈ gap, isBlank c = true) ∧
      (∀ c ∈ gap', isBlank c = true) ∧ (∀ c ∈ json.head?, isBlank c = false) ∧
      ∀ c ∈ json.getLast?, isBlank c = false := by
  unfold eventData at given
  split_ifs at given with named
  cases given
  obtain ⟨value, rfl⟩ := List.isPrefixOf_iff_prefix.mp named
  have dropped : (Str.lit "data:" ++ value).drop 5 = value := rfl
  rw [dropped]
  refine ⟨value.takeWhile isBlank, (skipBlanks value).rtakeWhile isBlank, ?_, ?_, ?_, ?_, ?_⟩
  · rw [List.rdropWhile_append_rtakeWhile, skipBlanks, List.takeWhile_append_dropWhile]
  · exact fun c member => List.mem_takeWhile_imp member
  · intro c member
    unfold List.rtakeWhile at member
    exact List.mem_takeWhile_imp (List.mem_reverse.mp member)
  · intro c first
    have front := List.head?_dropWhile_not isBlank value
    obtain ⟨after, split⟩ := List.rdropWhile_prefix isBlank (l := skipBlanks value)
    have same : (value.dropWhile isBlank).head? = some c := by
      rw [← skipBlanks, ← split, List.head?_append_of_ne_nil]
      · exact first
      · rintro empty
        rw [empty] at first
        cases first
    rw [same] at front
    exact front
  · intro c last
    obtain ⟨nonempty, rfl⟩ := List.mem_getLast?_eq_getLast last
    exact Bool.eq_false_iff.mpr (List.rdropWhile_last_not isBlank _ nonempty)

/-- A JSON text without blanks at its ends has no white space there. -/
theorem strip_of_loads {v : Value} (loaded : loads json = some v)
    (first : ∀ c ∈ json.head?, isBlank c = false) (last : ∀ c ∈ json.getLast?, isBlank c = false) :
    Str.strip json = json := by
  have lexed := strictLex_of_loads loaded
  refine Str.strip_eq_self ?_ ?_
  · intro c member
    rw [Bool.eq_false_iff]
    intro space
    obtain ⟨rest, rfl⟩ : ∃ rest, json = [c] ++ rest := by
      cases json with
      | nil => cases member
      | cons d rest =>
        cases member
        exact ⟨rest, rfl⟩
    have spaces : ∀ d ∈ [c], isSpaceCode d = true := by simpa using space
    have blank := (strictLex_space spaces lexed).1 c (by simp)
    rw [first c member] at blank
    cases blank
  · intro c member
    rw [Bool.eq_false_iff]
    intro space
    obtain ⟨front, rfl⟩ := List.getLast?_eq_some_iff.mp member
    have spaces : ∀ d ∈ [c], isSpaceCode d = true := by simpa using space
    have blank := (strictLex_rspace spaces lexed).1 c (by simp)
    rw [last c member] at blank
    cases blank

/-- What is known of a line of data with a choice. -/
theorem chunkChoice_some (chosen : chunkChoice line = some choice0) : ∃ value json data others,
    line = Str.lit "data:" ++ value ∧ eventData line = some json ∧ Str.strip value = json ∧
      strictLex .outside value = some .outside ∧ loads json = some (.obj data) ∧
      Value.get data "choices" = .arr (.obj choice0 :: others) := by
  unfold chunkChoice at chosen
  split at chosen <;> try cases chosen
  next data loaded =>
  split at chosen <;> cases chosen
  next others listed =>
  obtain ⟨json, given, decoded⟩ := Option.bind_eq_some_iff.mp loaded
  obtain ⟨gap, gap', rfl, blank, blank', first, last⟩ := eventData_some given
  have space {gap : Str} (blank : ∀ c ∈ gap, isBlank c = true) :
      ∀ c ∈ gap, isSpaceCode c = true := by
    intro c member
    rcases Respaced.blank_cases (blank c member) with rfl | rfl | rfl | rfl <;> rfl
  have outside {gap : Str} (blank : ∀ c ∈ gap, isBlank c = true) :
      strictLex .outside gap = some .outside :=
    strictLex_outside fun c member => isOutside_of_isBlank (blank c member)
  refine ⟨_, json, data, others, rfl, given, ?_, ?_, decoded, listed⟩
  · rw [Str.strip_spaces_append (space blank), strip_append_spaces (space blank')]
    exact strip_of_loads decoded first last
  · rw [strictLex_append, outside blank, Option.bind_some, strictLex_append,
      strictLex_of_loads decoded, Option.bind_some]
    exact outside blank'

end Payload

section Lines

variable {repr : Value → Str} {reasoningEnabled : Bool} {line piece : Str}

/-- A line with text has a choice with that text. -/
theorem lineText_ne_nil (spoken : lineText line ≠ []) : ∃ choice0, chunkChoice line = some choice0 ∧
    containerField choice0 "delta" "content" = .str (lineText line) := by
  cases chosen : chunkChoice line with
  | none =>
    unfold lineText at spoken
    rw [chosen] at spoken
    exact absurd rfl spoken
  | some choice0 =>
    refine ⟨choice0, rfl, ?_⟩
    unfold lineText at spoken ⊢
    rw [chosen] at spoken ⊢
    dsimp only at spoken ⊢
    split at spoken
    · next content found => rw [found]
    · exact absurd rfl spoken

/-- A chunk that is not cut is read as it is. -/
theorem parse_chunk (repr : Value → Str) (reasoningEnabled : Bool) {choice0 : List (Str × Value)}
    (chosen : chunkChoice line = some choice0) : ∃ event,
    parseSseLine repr reasoningEnabled line = some event ∧
      event.content = extractStreamText repr choice0 "content" ∧
        event.completed = lineEnds line := by
  have ends : lineEnds line = match Value.get choice0 "finish_reason" with
      | .null => false
      | _ => true := by rw [lineEnds, chosen]
  obtain ⟨value, json, data, others, rfl, -, bare, -, loaded, listed⟩ := chunkChoice_some chosen
  have payload : ssePayload (Str.lit "data:" ++ value) = json := by rw [ssePayload_data, bare]
  have some_text : Str.strip (Str.lit "data:" ++ value) ≠ [] := by
    rw [ne_eq, Str.strip_eq_nil_iff]
    intro spaces
    cases spaces 100 List.mem_cons_self
  have going : isDone json = false := by
    rw [Bool.eq_false_iff]
    intro done
    rw [loads_of_isDone done] at loaded
    cases loaded
  unfold parseSseLine
  rw [if_neg some_text, payload, going, loaded]
  dsimp only
  rw [if_neg (by decide), listed]
  exact ⟨_, rfl, rfl, ends.symm⟩

/-- A line with text that is not cut is read to this text. -/
theorem parse_lineText (repr : Value → Str) (reasoningEnabled : Bool)
    (spoken : lineText line ≠ []) : ∃ event,
    parseSseLine repr reasoningEnabled line = some event ∧ event.content = some (lineText line) ∧
      event.completed = lineEnds line := by
  obtain ⟨choice0, chosen, content⟩ := lineText_ne_nil spoken
  obtain ⟨event, parsed, extracted, completed⟩ := parse_chunk repr reasoningEnabled chosen
  refine ⟨event, parsed, extracted.trans ?_, completed⟩
  unfold extractStreamText
  rw [content]
  exact if_neg spoken

/-- Without the key of a chunk a piece has no content. -/
theorem pieceText_of_foreign (foreign : ∀ data, loads (ssePayload piece) = some (.obj data) →
    Value.get data "choices" = .null) : pieceText repr reasoningEnabled piece = [] := by
  unfold pieceText parseSseLine
  by_cases blank : Str.strip piece = []
  · rw [if_pos blank]
    rfl
  · rw [if_neg blank]
    by_cases done : isDone (ssePayload piece) = true
    · rw [if_pos done]
      rfl
    · rw [if_neg done]
      split
      · rfl
      · next data loaded =>
        rw [foreign data loaded]
        rfl
      · rfl

theorem lex_plain {gap : Str} (plain : ∀ c ∈ gap, c ≠ quote ∧ c ≠ backslash) :
    lex anything .inside gap = some .inside := by
  induction gap with
  | nil => rfl
  | cons c gap ih =>
    obtain ⟨⟨closing, escaping⟩, later⟩ := List.forall_mem_cons.mp plain
    rw [lex_cons]
    unfold lexStep
    dsimp only
    rw [if_neg closing, if_pos (show anything c = true from rfl), if_neg escaping]
    exact ih later

/-- The pieces of a line that is cut inside its JSON have no content. -/
theorem pieceText_cut {choice0 : List (Str × Value)} {c : ℕ}
    (chosen : chunkChoice line = some choice0)
    (unended : ∀ c ∈ line, c ≠ 10 ∧ c ≠ 13) (member : c ∈ line) (separates : isSeparator c = true)
    (listed : piece ∈ Str.pieces line) : pieceText repr reasoningEnabled piece = [] := by
  obtain ⟨value, json, data, others, rfl, -, -, lexed, -, -⟩ := chunkChoice_some chosen
  have breaks : Str.isLineBreak c = true := by
    simp only [isSeparator, Bool.or_eq_true, beq_iff_eq] at separates
    rcases separates with (rfl | rfl) | rfl <;> rfl
  have feedless : ∀ c ∈ value, c ≠ 10 ∧ c ≠ 13 := fun c inside =>
    unended c (List.mem_append_right _ inside)
  obtain ⟨first, later, cut⟩ := List.exists_cons_of_ne_nil (Str.pieces_ne_nil value)
  rw [Str.pieces_append (by decide) cut] at listed
  refine pieceText_of_foreign fun data loaded => ?_
  rcases List.mem_cons.mp listed with rfl | listed
  · -- the first piece ends inside a string, so it is no JSON
    exfalso
    have more : later ≠ [] := by
      rintro rfl
      have within : c ∈ value := by
        refine (List.mem_append.mp member).resolve_left fun letter => ?_
        have letters : ∀ c ∈ Str.lit "data:", Str.isLineBreak c = false := by decide
        rw [letters c letter] at breaks
        cases breaks
      rw [Str.unbroken_of_pieces cut c within] at breaks
      cases breaks
    obtain ⟨second, later, rfl⟩ := List.exists_cons_of_ne_nil more
    obtain ⟨d, rest, rfl, breaks'⟩ := Str.head_pieces cut
    obtain ⟨-, within, read, inside, -⟩ := inside_of_isLineBreak breaks'
      (feedless d (List.mem_append_right _ List.mem_cons_self)) lexed
    rw [ssePayload_data] at loaded
    obtain ⟨before, after, split, space, space'⟩ := Str.strip_split first
    have stripped := strictLex_of_loads loaded
    rw [split, List.append_assoc] at read
    obtain ⟨-, read⟩ := strictLex_space space read
    rw [strictLex_append, stripped, Option.bind_some] at read
    have alone : strictLex .outside (after ++ []) = some within := by rwa [List.append_nil]
    exact inside (Option.some.inj (strictLex_space space' alone).2).symm
  · have tail : piece ∈ (Str.pieces value).tail := by rwa [cut]
    obtain ⟨front, d, rest, rfl, breaks'⟩ := Str.mem_tail_pieces tail
    obtain ⟨-, within, -, -, read⟩ := inside_of_isLineBreak breaks'
      (feedless d (List.mem_append_right _ List.mem_cons_self)) lexed
    obtain ⟨before, after, split, plain⟩ := ssePayload_split piece
    have inside := lex_of_strictLex read
    rw [split, List.append_assoc, lex_append, lex_plain plain, Option.bind_some, List.append_assoc,
      lex_append] at inside
    obtain ⟨final, own, -⟩ := Option.bind_eq_some_iff.mp inside
    exact get_of_foreign (keys_of_inside own loaded data rfl) (c := 99) (by decide) (by decide)

/-- A line with a choice that holds no separator is not cut. -/
theorem pieces_unsplit {choice0 : List (Str × Value)} (chosen : chunkChoice line = some choice0)
    (unended : ∀ c ∈ line, c ≠ 10 ∧ c ≠ 13) (unsplit : ∀ c ∈ line, isSeparator c = false) :
    Str.pieces line = [line] := by
  obtain ⟨value, json, data, others, rfl, -, -, lexed, -, -⟩ := chunkChoice_some chosen
  refine Str.pieces_unbroken fun c member => ?_
  rw [Bool.eq_false_iff]
  intro breaks
  rcases List.mem_append.mp member with letter | inside
  · have letters : ∀ c ∈ Str.lit "data:", Str.isLineBreak c = false := by decide
    rw [letters c letter] at breaks
    cases breaks
  · obtain ⟨before, rest, rfl⟩ := List.append_of_mem inside
    have separates := (inside_of_isLineBreak breaks (unended c member) lexed).1
    rw [unsplit c member] at separates
    cases separates

/-- A line that is not cut is quiet if it is read to no text, and to the end if it is one. -/
theorem quiet_of_whole (whole : Str.pieces line = [line])
    (silent : pieceText repr reasoningEnabled line = [])
    (ends : pieceEnds repr reasoningEnabled line = lineEnds line) :
    Quiet repr reasoningEnabled line := by
  refine ⟨fun piece listed => ?_, ?_⟩
  · rw [whole] at listed
    rwa [List.mem_singleton.mp listed]
  · rw [whole, List.any_cons, ends, List.any_nil, Bool.or_false]

/-- A chunk without content is quiet, unless it is cut. -/
theorem quiet_chunk {choice0 : List (Str × Value)} (chosen : chunkChoice line = some choice0)
    (unended : ∀ c ∈ line, c ≠ 10 ∧ c ≠ 13) (unsplit : ∀ c ∈ line, isSeparator c = false)
    (silent : extractStreamText repr choice0 "content" = none) :
    Quiet repr reasoningEnabled line := by
  obtain ⟨event, parsed, extracted, completed⟩ := parse_chunk repr reasoningEnabled chosen
  refine quiet_of_whole (pieces_unsplit chosen unended unsplit) ?_ ?_
  · rw [pieceText, parsed, Option.bind_some, extracted, silent]
    rfl
  · rw [pieceEnds, parsed]
    exact completed

/-- So is a comment or another field, unless it is a bare JSON object or a bare `[DONE]`. -/
theorem quiet_other (unbroken : ∀ c ∈ line, Str.isLineBreak c = false)
    (dataless : eventData line = none) (going : isDone (ssePayload line) = false)
    (foreign : ∀ data, loads (ssePayload line) ≠ some (.obj data)) :
    Quiet repr reasoningEnabled line := by
  refine quiet_of_whole (Str.pieces_unbroken unbroken)
    (pieceText_of_foreign fun data loaded => absurd loaded (foreign data)) ?_
  have last : lineEnds line = false := by
    rw [lineEnds, chunkChoice, dataless]
    rfl
  rw [last]
  unfold pieceEnds parseSseLine
  rw [going]
  by_cases blank : Str.strip line = []
  · rw [if_pos blank]
    rfl
  · rw [if_neg blank, if_neg Bool.false_ne_true]
    split
    · rfl
    · next data loaded => exact absurd loaded (foreign data)
    · rfl

end Lines

section Calls

variable (repr : Value → Str) (reasoningEnabled : Bool)

/-- The pieces up to the first that ends the stream. -/
def answered : List Str → List Str
  | [] => []
  | piece :: pieces =>
    piece :: if pieceEnds repr reasoningEnabled piece then [] else answered pieces

/-- The pieces of a line give its text, and end the stream if it does. -/
def Heard (line : Str) : Prop :=
  (answered repr reasoningEnabled (Str.pieces line)).flatMap (pieceText repr reasoningEnabled) =
      lineText line ∧
    (Str.pieces line).any (pieceEnds repr reasoningEnabled) = lineEnds line

/-- A call with a text that is not empty. -/
def CallbackCall.IsChunk : CallbackCall → Prop
  | .onThinking content | .onContent content => content ≠ []
  | _ => False

/-- The call at the end of a stream. -/
def lastCall (ends : Bool) : CallbackCall :=
  if ends then .onComplete else .onError (.lit "chat stream ended before completion")

variable {repr : Value → Str} {reasoningEnabled : Bool} {pieces : List Str} {piece : Str}

theorem answered_append (pieces more : List Str) :
    answered repr reasoningEnabled (pieces ++ more) = answered repr reasoningEnabled pieces ++
      if pieces.any (pieceEnds repr reasoningEnabled) then [] else
        answered repr reasoningEnabled more := by
  induction pieces with
  | nil => rfl
  | cons piece pieces ih =>
    rw [List.cons_append, answered, answered, ih, List.any_cons]
    cases pieceEnds repr reasoningEnabled piece <;> rfl

theorem answered_sublist (pieces : List Str) :
    (answered repr reasoningEnabled pieces).Sublist pieces := by
  induction pieces with
  | nil => exact .slnil
  | cons piece pieces ih =>
    rw [answered]
    split_ifs
    · exact .cons_cons _ (List.nil_sublist _)
    · exact .cons_cons _ ih

theorem extractStreamText_ne_nil {choice0 : List (Str × Value)} {fieldName : String} :
    extractStreamText repr choice0 fieldName ≠ some [] := by
  have spoken (text : Str) : nonempty text ≠ some [] := by
    unfold nonempty
    split_ifs with empty
    · exact (Option.some_ne_none _).symm
    · exact fun same => empty (Option.some.inj same)
  unfold extractStreamText
  split
  · split
    · exact (Option.some_ne_none _).symm
    · exact spoken _
  · exact spoken _

/-- What a piece is read to calls no empty text. -/
theorem parse_spoken {event : StreamEvent}
    (parsed : parseSseLine repr reasoningEnabled piece = some event) :
    event.content ≠ some [] ∧ event.reasoning ≠ some [] := by
  have silent : (none : Option Str) ≠ some [] := (Option.some_ne_none _).symm
  unfold parseSseLine at parsed
  split_ifs at parsed
  · cases parsed
    exact ⟨silent, silent⟩
  · cases parsed
    exact ⟨silent, silent⟩
  all_goals
    split at parsed
    · cases parsed
    · split at parsed <;> cases parsed
      · first
          | exact ⟨extractStreamText_ne_nil, extractStreamText_ne_nil⟩
          | exact ⟨extractStreamText_ne_nil, silent⟩
      · exact ⟨silent, silent⟩
    · cases parsed
      exact ⟨silent, silent⟩

theorem calls_spoken {event : StreamEvent}
    (parsed : parseSseLine repr reasoningEnabled piece = some event) :
    (∀ call ∈ event.calls, call.IsChunk) ∧
      (contents event.calls).flatten = pieceText repr reasoningEnabled piece := by
  obtain ⟨spoken, thought⟩ := parse_spoken parsed
  have text : pieceText repr reasoningEnabled piece = event.content.getD [] := by
    rw [pieceText, parsed]
    rfl
  obtain ⟨content, reasoning, completed⟩ := event
  rw [text]
  unfold StreamEvent.calls
  dsimp only at spoken thought ⊢
  constructor
  · intro call member
    rcases List.mem_append.mp member with member | member
    · obtain ⟨text, rfl, rfl⟩ := Option.map_eq_some_iff.mp (Option.mem_toList.mp member)
      rintro rfl
      exact thought rfl
    · obtain ⟨text, rfl, rfl⟩ := Option.map_eq_some_iff.mp (Option.mem_toList.mp member)
      rintro rfl
      exact spoken rfl
  · rw [contents_append]
    cases reasoning <;> cases content <;> simp [contents]

/-- The calls for a stream: chunks, with the text of the pieces up to the end, and the end. -/
theorem readLines_calls (repr : Value → Str) (reasoningEnabled : Bool) (pieces : List Str) :
    ∃ spoken : List CallbackCall,
    readLines repr reasoningEnabled (.closed false) (uncancelled pieces) =
        spoken ++ [lastCall (pieces.any (pieceEnds repr reasoningEnabled))] ∧
      (∀ call ∈ spoken, call.IsChunk) ∧ (contents spoken).flatten =
        (answered repr reasoningEnabled pieces).flatMap (pieceText repr reasoningEnabled) := by
  induction pieces with
  | nil => exact ⟨[], rfl, List.forall_mem_nil _, rfl⟩
  | cons piece pieces ih =>
    obtain ⟨later, read, chunks, text⟩ := ih
    change ∃ spoken,
      readLines repr reasoningEnabled _ ((piece, false) :: uncancelled pieces) = _ ∧ _
    unfold readLines
    rw [if_neg (by decide), List.any_cons, answered, List.flatMap_cons]
    cases parsed : parseSseLine repr reasoningEnabled piece with
    | none =>
      have going : pieceEnds repr reasoningEnabled piece = false := by rw [pieceEnds, parsed]; rfl
      have silent : pieceText repr reasoningEnabled piece = [] := by rw [pieceText, parsed]; rfl
      rw [going, silent]
      exact ⟨later, read, chunks, text⟩
    | some event =>
      have ends : pieceEnds repr reasoningEnabled piece = event.completed := by
        rw [pieceEnds, parsed]
        rfl
      obtain ⟨first, own⟩ := calls_spoken parsed
      rw [ends]
      dsimp only
      cases event.completed with
      | true =>
        refine ⟨event.calls, rfl, first, ?_⟩
        rw [own]
        exact (List.append_nil _).symm
      | false =>
        refine ⟨event.calls ++ later, ?_, ?_, ?_⟩
        · rw [if_neg (by decide), read, List.append_assoc]
          rfl
        · exact fun call member => (List.mem_append.mp member).elim (first call) (chunks call)
        · rw [contents_append, List.flatten_append, own, text]
          rfl

/-- An empty line at the end is read to nothing. -/
theorem readLines_blank {ending : ResponseEnd} (pieces : List Str) :
    readLines repr reasoningEnabled ending (uncancelled (pieces ++ [[]])) =
      readLines repr reasoningEnabled ending (uncancelled pieces) := by
  induction pieces with
  | nil => rfl
  | cons piece pieces ih =>
    change readLines repr reasoningEnabled ending ((piece, false) :: uncancelled (pieces ++ [[]])) =
      readLines repr reasoningEnabled ending ((piece, false) :: uncancelled pieces)
    unfold readLines
    rw [ih]

theorem readLines_splitlines {ending : ResponseEnd} (text : Str) :
    readLines repr reasoningEnabled ending (uncancelled (Str.splitlines text)) =
      readLines repr reasoningEnabled ending (uncancelled (Str.pieces text)) := by
  unfold Str.splitlines
  dsimp only
  split_ifs with last
  · rw [← readLines_blank, List.dropLast_append_getLast? [] last]
  · rfl

end Calls

section Streams

variable {repr : Value → Str} {reasoningEnabled : Bool} {text line : Str}

/-- The pieces of a stream are those of its lines. -/
theorem pieces_textLines (text : Str) : Str.pieces text = (textLines text).flatMap Str.pieces := by
  induction text using textLines.induct with
  | case1 => rfl
  | case2 rest ih =>
    rw [Str.pieces, textLines, List.flatMap_cons, ih]
    rfl
  | case3 c rest other newline ih =>
    have breaks : Str.isLineBreak c = true := by rcases newline with rfl | rfl <;> rfl
    rw [Str.pieces.eq_3 c rest other, if_pos breaks, textLines.eq_3 c rest other, if_pos newline,
      List.flatMap_cons, ih]
    rfl
  | case4 c rest other plain ih =>
    obtain ⟨head, lines, inner⟩ := List.exists_cons_of_ne_nil (textLines_ne_nil rest)
    have unended (text : Str) : ∀ rest, c = 13 → text = 10 :: rest → False :=
      fun _ carriage _ => plain (.inr carriage)
    obtain ⟨first, others, cut⟩ := List.exists_cons_of_ne_nil (Str.pieces_ne_nil head)
    rw [textLines_plain plain, Str.pieces.eq_3 c rest other, ih, inner, List.modifyHead_cons,
      List.flatMap_cons, List.flatMap_cons, Str.pieces.eq_3 c head (unended head), cut]
    split_ifs <;> rfl

theorem Quiet.heard (quiet : Quiet repr reasoningEnabled line) (silent : lineText line = []) :
    Heard repr reasoningEnabled line := by
  refine ⟨?_, quiet.ends⟩
  rw [silent, List.flatMap_eq_nil_iff]
  exact fun piece member => quiet.silent piece ((answered_sublist _).subset member)

theorem heard_of_unsplit (repr : Value → Str) (reasoningEnabled : Bool)
    (spoken : lineText line ≠ []) (unended : ∀ c ∈ line, c ≠ 10 ∧ c ≠ 13)
    (unsplit : ∀ c ∈ line, isSeparator c = false) : Heard repr reasoningEnabled line := by
  obtain ⟨choice0, chosen, -⟩ := lineText_ne_nil spoken
  obtain ⟨event, parsed, content, completed⟩ := parse_lineText repr reasoningEnabled spoken
  have text : pieceText repr reasoningEnabled line = lineText line := by
    rw [pieceText, parsed, Option.bind_some, content]
    rfl
  have ends : pieceEnds repr reasoningEnabled line = lineEnds line := by
    rw [pieceEnds, parsed]
    exact completed
  unfold Heard
  rw [pieces_unsplit chosen unended unsplit, List.any_cons, ends, List.any_nil, Bool.or_false]
  refine ⟨?_, rfl⟩
  rw [answered, ends]
  cases lineEnds line <;> simp [answered, text]

/-- Where every line is heard, the whole text is. -/
theorem heard_lines {lines : List Str} (heard : ∀ line ∈ lines, Heard repr reasoningEnabled line)
    (last : lines.Pairwise fun line later => lineEnds line = true → lineText later = []) :
    (answered repr reasoningEnabled (lines.flatMap Str.pieces)).flatMap
        (pieceText repr reasoningEnabled) = lines.flatMap lineText ∧
      (lines.flatMap Str.pieces).any (pieceEnds repr reasoningEnabled) = lines.any lineEnds := by
  induction lines with
  | nil => exact ⟨rfl, rfl⟩
  | cons line lines ih =>
    obtain ⟨⟨own, ends⟩, heard⟩ := List.forall_mem_cons.mp heard
    obtain ⟨after, last⟩ := List.pairwise_cons.mp last
    obtain ⟨later, ended⟩ := ih heard last
    rw [List.flatMap_cons, List.flatMap_cons, List.any_append, ends, ended, List.any_cons,
      answered_append, List.flatMap_append, own, ends]
    refine ⟨congrArg _ ?_, rfl⟩
    cases closing : lineEnds line with
    | true => exact (List.flatMap_eq_nil_iff.mpr fun line member => after line member closing).symm
    | false => exact later

/-- The code units of a text in UTF-16. -/
def utf16 (text : Str) : List ℕ := text.flatMap fun c =>
  if c < 0x10000 then [c] else [0xd800 + (c - 0x10000) / 0x400, 0xdc00 + (c - 0x10000) % 0x400]

theorem utf16_append (text more : Str) : utf16 (text ++ more) = utf16 text ++ utf16 more :=
  List.flatMap_append

theorem length_utf16_le {text text' : Str} (part : text.Sublist text') :
    (utf16 text).length ≤ (utf16 text').length :=
  (part.flatMap _).length_le

theorem length_utf16_pos (spoken : text ≠ []) : 0 < (utf16 text).length := by
  obtain ⟨c, rest, rfl⟩ := List.exists_cons_of_ne_nil spoken
  unfold utf16
  rw [List.flatMap_cons, List.length_append]
  split_ifs <;> simp

theorem length_utf16_flatMap {α : Type} (text : α → Str) (items : List α) :
    (utf16 (items.flatMap text)).length =
      (items.map fun item => (utf16 (text item)).length).sum := by
  induction items with
  | nil => rfl
  | cons item items ih =>
    rw [List.flatMap_cons, utf16_append, List.length_append, ih, List.map_cons, List.sum_cons]

/-- A line with text that is cut has none left. -/
theorem pieces_silent {c : ℕ} (spoken : lineText line ≠ []) (unended : ∀ c ∈ line, c ≠ 10 ∧ c ≠ 13)
    (member : c ∈ line) (separates : isSeparator c = true) :
    (Str.pieces line).flatMap (pieceText repr reasoningEnabled) = [] := by
  obtain ⟨choice0, chosen, -⟩ := lineText_ne_nil spoken
  exact List.flatMap_eq_nil_iff.mpr fun piece listed =>
    pieceText_cut chosen unended member separates listed

variable (upstream : Upstream repr reasoningEnabled text)
include upstream

/-- The whole text is read, and the stream is completed. -/
theorem Upstream.whole (unsplit : Unsplit text) :
    (answered repr reasoningEnabled (Str.pieces text)).flatMap (pieceText repr reasoningEnabled) =
        upstreamText text ∧
      (Str.pieces text).any (pieceEnds repr reasoningEnabled) = true := by
  have heard : ∀ line ∈ textLines text, Heard repr reasoningEnabled line := by
    intro line listed
    by_cases spoken : lineText line = []
    · exact (upstream.quiet line listed spoken).heard spoken
    · exact heard_of_unsplit repr reasoningEnabled spoken
        (fun c member => (mem_textLines listed member).2) (unsplit line listed spoken)
  obtain ⟨read, ends⟩ := heard_lines heard upstream.last
  rw [pieces_textLines]
  refine ⟨read, ends.trans ?_⟩
  obtain ⟨line, listed, closing⟩ := upstream.ends
  exact List.any_eq_true.mpr ⟨line, listed, closing⟩

/-- Where a line with text is cut, less is read. -/
theorem Upstream.less (cut : ¬ Unsplit text) :
    (utf16 ((answered repr reasoningEnabled (Str.pieces text)).flatMap
      (pieceText repr reasoningEnabled))).length < (utf16 (upstreamText text)).length := by
  unfold Unsplit at cut
  push Not at cut
  obtain ⟨broken, listed, spoken, c, member, separates⟩ := cut
  have separates : isSeparator c = true := by simpa using separates
  have unended {line : Str} (listed : line ∈ textLines text) : ∀ c ∈ line, c ≠ 10 ∧ c ≠ 13 :=
    fun c member => (mem_textLines listed member).2
  have whole : (utf16 ((answered repr reasoningEnabled (Str.pieces text)).flatMap
      (pieceText repr reasoningEnabled))).length ≤ ((textLines text).map fun line =>
        (utf16 ((Str.pieces line).flatMap (pieceText repr reasoningEnabled))).length).sum := by
    rw [← length_utf16_flatMap, ← List.flatMap_assoc, ← pieces_textLines]
    exact length_utf16_le ((answered_sublist _).flatMap _)
  refine Nat.lt_of_le_of_lt whole ?_
  rw [upstreamText, length_utf16_flatMap]
  refine List.sum_lt_sum _ _ (fun line listed => ?_) ⟨broken, listed, ?_⟩
  · by_cases silent : lineText line = []
    · rw [List.flatMap_eq_nil_iff.mpr (upstream.quiet line listed silent).silent]
      exact Nat.zero_le _
    · by_cases kept : ∀ c ∈ line, isSeparator c = false
      · obtain ⟨choice0, chosen, -⟩ := lineText_ne_nil silent
        rw [pieces_unsplit chosen (unended listed) kept,
          ← (heard_of_unsplit repr reasoningEnabled silent (unended listed) kept).1,
          pieces_unsplit chosen (unended listed) kept]
        refine length_utf16_le ?_
        rw [answered]
        split_ifs <;> exact .refl _
      · push Not at kept
        obtain ⟨d, inside, separates'⟩ := kept
        rw [pieces_silent silent (unended listed) inside (by simpa using separates')]
        exact Nat.zero_le _
  · rw [pieces_silent spoken (unended listed) member separates]
    exact length_utf16_pos spoken

end Streams

end HeyeeAgent.InfraAi
