import HeyeeAgent.Mcp.HttpClient
import HeyeeAgent.Python.JsonLines
import Mathlib.Tactic.IntervalCases

/-! # Event streams of JSON objects

A stream of frames, each with the data lines of the text of one object, or with none, among lines of
events, ids and comments. The reader cuts the stream by `splitlines`, which parts a line at
separators that are no line ends of a stream. It gives back the objects if their texts hold no
separator, and raises if one does.
-/

namespace HeyeeAgent.Mcp

open Python JsonDecoder

inductive LineEnd where
  | feed
  | carriage
deriving DecidableEq

def LineEnd.text : LineEnd → Str
  | .feed => [10]
  | .carriage => [13, 10]

inductive EventLine where
  | data (spaced : Bool) (value : Str)
  | other (text : Str)
deriving DecidableEq

namespace EventLine

def text : EventLine → Str
  | .data spaced value => Str.lit "data:" ++ ((if spaced then [32] else []) ++ value)
  | .other text => text

def value : EventLine → Option Str
  | .data _ value => some value
  | .other _ => none

end EventLine

/-- An event, an id or a comment. -/
structure IsOther (text : Str) : Prop where
  unended : ∀ c ∈ text, c ≠ 10 ∧ c ≠ 13
  field : ∃ name ∈ ["event:", "id:", ":"], (Str.lit name).isPrefixOf text = true

/-- What the data lines of a frame with an object hold. -/
def dataOf : Option (Str × Dict Str Object) → List Str
  | none => []
  | some (json, _) => textLines json

structure EventFrame where
  lines : List (EventLine × LineEnd)
  ending : LineEnd
  /-- the object of the frame with its JSON text -/
  message : Option (Str × Dict Str Object)
  others : ∀ line ∈ lines, ∀ text, line.1 = .other text → IsOther text
  carries : lines.filterMap (·.1.value) = dataOf message
  decodes : ∀ json object, message = some (json, object) → Object.loads json = some (.dict object)

namespace EventFrame

def write (frame : EventFrame) : Str :=
  (frame.lines.flatMap fun line => line.1.text ++ line.2.text) ++ frame.ending.text

/-- The lines that the reader finds in a frame. -/
def pieces (frame : EventFrame) : List Str :=
  (frame.lines.flatMap fun line => Str.pieces line.1.text) ++ [[]]

end EventFrame

def streamText (frames : List EventFrame) : Str := frames.flatMap EventFrame.write

def streamObjects (frames : List EventFrame) : List (Dict Str Object) :=
  frames.filterMap fun frame => frame.message.map Prod.snd

/-- What `splitlines` takes for a line end and JSON allows in a string. -/
def isSeparator (c : ℕ) : Bool := c == 0x85 || c == 0x2028 || c == 0x2029

/-- No text of an object holds a separator. -/
def Unbroken (frames : List EventFrame) : Prop :=
  ∀ frame ∈ frames, ∀ json object, frame.message = some (json, object) →
    ∀ c ∈ json, isSeparator c = false

/-- What the reader makes of the rest of a line that is cut does nothing. -/
def inertPiece (piece : Str) : Bool := piece ≠ [] && !(Str.lit "data:").isPrefixOf piece

/-- The other lines do nothing wherever they are cut; so do all lines that are not. -/
def Inert (frames : List EventFrame) : Prop :=
  ∀ frame ∈ frames, ∀ text ending, (EventLine.other text, ending) ∈ frame.lines →
    ∀ piece ∈ (Str.pieces text).tail, inertPiece piece = true

section Lines

/-- A data line has the letters of its field, perhaps a blank, and its value. -/
theorem forall_data {P : ℕ → Prop} {spaced : Bool} {value : Str}
    (letters : ∀ c ∈ Str.lit "data:", P c) (blank : P 32) (inside : ∀ c ∈ value, P c) :
    ∀ c ∈ (EventLine.data spaced value).text, P c := by
  intro c member
  rcases List.mem_append.mp member with field | member
  · exact letters c field
  · rcases List.mem_append.mp member with gap | valued
    · cases spaced with
      | false => cases gap
      | true => exact List.mem_singleton.mp gap ▸ blank
    · exact inside c valued

theorem unended_text (frame : EventFrame) {line : EventLine × LineEnd} (listed : line ∈ frame.lines) :
    ∀ c ∈ line.1.text, c ≠ 10 ∧ c ≠ 13 := by
  obtain ⟨line, ending⟩ := line
  cases line with
  | other text => exact (frame.others _ listed text rfl).unended
  | data spaced value =>
    have carried : value ∈ dataOf frame.message := by
      rw [← frame.carries]
      exact List.mem_filterMap.mpr ⟨_, listed, rfl⟩
    have plain : ∀ c ∈ value, c ≠ 10 ∧ c ≠ 13 := by
      intro c member
      cases message : frame.message with
      | none =>
        rw [message] at carried
        cases carried
      | some message' =>
        rw [message] at carried
        exact (mem_textLines carried member).2
    exact forall_data (by decide) (by decide) plain

theorem LineEnd.text_cases (ending : LineEnd) : ending.text = [10] ∨ ending.text = [13, 10] := by
  cases ending with
  | feed => exact .inl rfl
  | carriage => exact .inr rfl

theorem pieces_write (frame : EventFrame) (rest : Str) :
    Str.pieces (frame.write ++ rest) = frame.pieces ++ Str.pieces rest := by
  have each : ∀ lines : List (EventLine × LineEnd), (∀ line ∈ lines, line ∈ frame.lines) →
      ∀ rest, Str.pieces ((lines.flatMap fun line => line.1.text ++ line.2.text) ++ rest) =
        (lines.flatMap fun line => Str.pieces line.1.text) ++ Str.pieces rest := by
    intro lines listed rest
    induction lines with
    | nil => rfl
    | cons line lines ih =>
      obtain ⟨first, later⟩ := List.forall_mem_cons.mp listed
      simp only [List.flatMap_cons, List.append_assoc]
      rw [Str.pieces_newline line.2.text_cases (unended_text frame first), ih later]
  have ends : Str.pieces ([] ++ (frame.ending.text ++ rest)) = Str.pieces [] ++ Str.pieces rest :=
    Str.pieces_newline frame.ending.text_cases (by simp) rest
  rw [EventFrame.write, List.append_assoc, each frame.lines (fun _ => id), EventFrame.pieces,
    List.append_assoc]
  exact congrArg _ ends

/-- The reader goes through the lines of the frames, and an empty one at the end. -/
theorem lines_streamText (frames : List EventFrame) :
    Str.splitlines (streamText frames) ++ [[]] = frames.flatMap EventFrame.pieces ++ [[]] := by
  have cut : Str.pieces (streamText frames) = frames.flatMap EventFrame.pieces ++ [[]] := by
    induction frames with
    | nil => rfl
    | cons frame frames ih =>
      have split : streamText (frame :: frames) = frame.write ++ streamText frames := rfl
      rw [split, pieces_write, ih, List.flatMap_cons, List.append_assoc]
  have last : (frames.flatMap EventFrame.pieces ++ [[]]).getLast? = some [] := by simp
  rw [Str.splitlines, cut, if_pos last, List.dropLast_concat]

end Lines

section Reading

variable {s : SseState} {payloads : List (Dict Str Object)}

/-- The pieces of another line do nothing. -/
theorem foldlM_inert {pieces : List Str} (inert : ∀ piece ∈ pieces, inertPiece piece = true) :
    pieces.foldlM sseLine s = .ok s := by
  induction pieces with
  | nil => rfl
  | cons piece pieces ih =>
    obtain ⟨first, later⟩ := List.forall_mem_cons.mp inert
    obtain ⟨nonempty, field⟩ := Bool.and_eq_true_iff.mp first
    rw [List.foldlM_cons, sseLine_other (by simpa using field) (of_decide_eq_true nonempty)]
    exact ih later

/-- The first piece of another line keeps the name of its field. -/
theorem IsOther.pieces {text : Str} (other : IsOther text)
    (inert : ∀ piece ∈ (Str.pieces text).tail, inertPiece piece = true) :
    ∀ piece ∈ Str.pieces text, inertPiece piece = true := by
  obtain ⟨name, known, begins⟩ := other.field
  obtain ⟨rest, rfl⟩ := List.isPrefixOf_iff_prefix.mp begins
  obtain ⟨line, lines, cut⟩ := List.exists_cons_of_ne_nil (Str.pieces_ne_nil rest)
  have plain : ∀ name ∈ ["event:", "id:", ":"], ∀ c ∈ Str.lit name, Str.isLineBreak c = false := by
    decide
  have named : ∀ name ∈ ["event:", "id:", ":"], ∀ line : Str,
      inertPiece (Str.lit name ++ line) = true := by
    simp [inertPiece, Str.lit, List.isPrefixOf]
  rw [Str.pieces_append (plain name known) cut] at inert ⊢
  exact List.forall_mem_cons.mpr ⟨named name known line, inert⟩

theorem lstrip_spaced (spaced : Bool) (value : Str) :
    Str.lstrip ((if spaced then [32] else []) ++ value) = Str.lstrip value := by
  cases spaced <;> rfl

/-- A line of data that is not cut. -/
theorem foldlM_data {spaced : Bool} {value : Str}
    (plain : ∀ c ∈ value, Str.isLineBreak c = false) :
    (Str.pieces (EventLine.data spaced value).text).foldlM sseLine s =
      .ok { s with dataLines := s.dataLines ++ [Str.lstrip value] } := by
  have whole : Str.pieces (EventLine.data spaced value).text =
      [(EventLine.data spaced value).text] :=
    Str.pieces_unbroken (forall_data (by decide) rfl plain)
  rw [whole, List.foldlM_cons, EventLine.text, sseLine_data, lstrip_spaced]
  rfl

/-- The lines of a frame give their data. -/
theorem foldlM_lines {lines : List (EventLine × LineEnd)}
    (plain : ∀ value ∈ lines.filterMap (·.1.value), ∀ c ∈ value, Str.isLineBreak c = false)
    (inert : ∀ text ending, (EventLine.other text, ending) ∈ lines →
      ∀ piece ∈ Str.pieces text, inertPiece piece = true) :
    (lines.flatMap fun line => Str.pieces line.1.text).foldlM sseLine s =
      .ok { s with
        dataLines := s.dataLines ++ (lines.filterMap (·.1.value)).map Str.lstrip } := by
  induction lines generalizing s with
  | nil => simp only [List.flatMap_nil, List.foldlM_nil, List.filterMap_nil, List.map_nil,
      List.append_nil]; rfl
  | cons line lines ih =>
    have others : ∀ text ending, (EventLine.other text, ending) ∈ lines →
        ∀ piece ∈ Str.pieces text, inertPiece piece = true :=
      fun text ending listed => inert text ending (List.mem_cons_of_mem _ listed)
    obtain ⟨line, ending⟩ := line
    rw [List.flatMap_cons, List.foldlM_append]
    cases line with
    | other text =>
      have skipped : (Str.pieces (EventLine.other text).text).foldlM sseLine s = .ok s :=
        foldlM_inert (inert text ending List.mem_cons_self)
      rw [skipped]
      exact ih plain others
    | data spaced value =>
      obtain ⟨first, later⟩ := List.forall_mem_cons.mp plain
      rw [foldlM_data first]
      refine (ih later others).trans ?_
      simp [EventLine.value]

/-- A frame gives its object. -/
theorem foldlM_frame {frame : EventFrame}
    (plain : ∀ value ∈ dataOf frame.message, ∀ c ∈ value, Str.isLineBreak c = false)
    (inert : ∀ text ending, (EventLine.other text, ending) ∈ frame.lines →
      ∀ piece ∈ Str.pieces text, inertPiece piece = true) :
    frame.pieces.foldlM sseLine ⟨[], payloads⟩ =
      .ok ⟨[], payloads ++ (frame.message.map Prod.snd).toList⟩ := by
  rw [← frame.carries] at plain
  rw [EventFrame.pieces, List.foldlM_append, foldlM_lines plain inert, frame.carries]
  change List.foldlM sseLine ⟨(dataOf frame.message).map Str.lstrip, payloads⟩ [[]] = _
  cases message : frame.message with
  | none => simp [dataOf, sseLine_idle]
  | some message' =>
    obtain ⟨json, object⟩ := message'
    have loaded := frame.decodes json object message
    obtain ⟨value, decoded, made⟩ := Option.bind_eq_some_iff.mp loaded
    have joined : Object.loads (Str.join (Str.lit "\n") ((textLines json).map Str.lstrip)) =
        some (.dict object) := Option.bind_eq_some_iff.mpr ⟨value, loads_rejoined decoded, made⟩
    have some_line : (textLines json).map Str.lstrip ≠ [] :=
      mt List.map_eq_nil_iff.mp (textLines_ne_nil json)
    rw [List.foldlM_cons, dataOf, sseLine_ends some_line joined]
    rfl

end Reading

section Separators

variable {phase final : Phase} {line : Str} {c : ℕ}

/-- A character that is read and that `splitlines` cuts at is a line end or a separator. -/
theorem separator_of_isLineBreak (lexed : strictLex phase line = some final) (member : c ∈ line)
    (breaks : Str.isLineBreak c = true) : c = 10 ∨ c = 13 ∨ isSeparator c = true := by
  induction line generalizing phase with
  | nil => cases member
  | cons d line ih =>
    obtain ⟨middle, read, later⟩ := strictLex_cons_some.mp lexed
    rcases List.mem_cons.mp member with rfl | member
    · by_cases control : c < 32
      · obtain ⟨rfl, rfl⟩ := strictStep_control control read
        interval_cases c <;>
          first | exact absurd breaks (by decide) | exact absurd read (by decide) | omega
      · simp only [Str.isLineBreak, Bool.or_eq_true, Bool.and_eq_true, decide_eq_true_eq,
          beq_iff_eq] at breaks
        simp only [isSeparator, Bool.or_eq_true, beq_iff_eq]
        omega
    · exact ih later member

/-- A line up to a separator ends inside a string. -/
theorem not_outside_of_separator {start rest : Str}
    (lexed : strictLex .outside (start ++ c :: rest) = some .outside)
    (separates : isSeparator c = true) : strictLex .outside start ≠ some .outside := by
  intro outside
  rw [strictLex_append, outside] at lexed
  obtain ⟨middle, read, -⟩ := strictLex_cons_some.mp lexed
  simp only [isSeparator, Bool.or_eq_true, beq_iff_eq] at separates
  rcases separates with (rfl | rfl) | rfl <;> cases read

theorem lstrip_not_outside {start rest : Str}
    (lexed : strictLex .outside (start ++ c :: rest) = some .outside)
    (separates : isSeparator c = true) : strictLex .outside (Str.lstrip start) ≠ some .outside := by
  have inside := not_outside_of_separator lexed separates
  rw [strictLex_append] at lexed
  obtain ⟨middle, read, -⟩ := Option.bind_eq_some_iff.mp lexed
  have parts : start.takeWhile isSpaceCode ++ Str.lstrip start = start :=
    List.takeWhile_append_dropWhile
  have stripped := (strictLex_space (fun c member => List.mem_takeWhile_imp member)
    (parts.symm ▸ read)).2
  rw [stripped, ← read]
  exact inside

/-- Data that ends inside a string is no JSON, whatever lines follow it. -/
theorem poisoned_of_inside {dataLines : List Str} {last : Str}
    (inside : strictLex .outside last ≠ some .outside) : Poisoned (dataLines ++ [last]) := by
  intro more
  rw [Option.eq_none_iff_forall_not_mem]
  intro value loaded
  have lexed := strictLex_of_loads loaded
  cases dataLines with
  | nil => exact inside (strictLex_join lexed).1
  | cons line dataLines =>
    refine inside ((strictLex_join lexed).2 last ?_)
    exact List.mem_append_left _ (List.mem_append_right _ (List.mem_singleton_self _))

theorem isLineBreak_of_isSeparator (separates : isSeparator c = true) :
    Str.isLineBreak c = true := by
  simp only [isSeparator, Bool.or_eq_true, beq_iff_eq] at separates
  rcases separates with (rfl | rfl) | rfl <;> rfl

/-- A text is parted at its first boundary. -/
theorem exists_first_break (member : c ∈ line) (breaks : Str.isLineBreak c = true) :
    ∃ start d rest, line = start ++ d :: rest ∧ Str.isLineBreak d = true ∧
      ∀ e ∈ start, Str.isLineBreak e = false := by
  induction line with
  | nil => cases member
  | cons d line ih =>
    by_cases first : Str.isLineBreak d = true
    · exact ⟨[], d, line, rfl, first, by simp⟩
    · rcases List.mem_cons.mp member with rfl | member
      · exact absurd breaks first
      · obtain ⟨start, e, rest, rfl, breaks', plain⟩ := ih member
        exact ⟨d :: start, e, rest, rfl, breaks',
          List.forall_mem_cons.mpr ⟨Bool.eq_false_iff.mpr first, plain⟩⟩

/-- The reader raises from a line of JSON with a separator on. -/
theorem broken_raises (spaced : Bool) (lexed : strictLex .outside line = some .outside)
    (unended : ∀ c ∈ line, c ≠ 10 ∧ c ≠ 13) (member : c ∈ line) (separates : isSeparator c = true)
    (s : SseState) (after : List Str) :
    (Str.pieces (EventLine.data spaced line).text ++ (after ++ [[]])).foldlM sseLine s =
      .error (.protocol "MCP SSE data is not valid JSON") := by
  obtain ⟨start, d, rest, rfl, breaks, plain⟩ :=
    exists_first_break member (isLineBreak_of_isSeparator separates)
  have boundary : d ∈ start ++ d :: rest := List.mem_append_right _ List.mem_cons_self
  have separator : isSeparator d = true := by
    obtain ⟨feed, carriage⟩ := unended d boundary
    rcases separator_of_isLineBreak lexed boundary breaks with same | same | separator
    · exact absurd same feed
    · exact absurd same carriage
    · exact separator
  have cut : Str.pieces (d :: rest) = [] :: Str.pieces rest := by
    rw [Str.pieces.eq_3 d rest fun _ same => absurd same (unended d boundary).2, if_pos breaks]
  have begun : ∀ e ∈ Str.lit "data:" ++ ((if spaced then [32] else []) ++ start),
      Str.isLineBreak e = false := forall_data (by decide) rfl plain
  have pieces := Str.pieces_append begun cut
  rw [List.append_nil, List.append_assoc, List.append_assoc] at pieces
  rw [EventLine.text, pieces, List.cons_append, List.foldlM_cons, sseLine_data, lstrip_spaced,
    ← List.append_assoc]
  exact poisoned_raises (by simp) (poisoned_of_inside (lstrip_not_outside lexed separator))

end Separators

section Streams

variable {frames : List EventFrame}

/-- The characters that the data lines of a text without separators hold are no boundaries. -/
theorem plain_data {frame : EventFrame}
    (unbroken : ∀ json object, frame.message = some (json, object) →
      ∀ c ∈ json, isSeparator c = false) :
    ∀ value ∈ dataOf frame.message, ∀ c ∈ value, Str.isLineBreak c = false := by
  intro value listed c member
  cases message : frame.message with
  | none =>
    rw [message] at listed
    cases listed
  | some message' =>
    obtain ⟨json, object⟩ := message'
    rw [message] at listed
    obtain ⟨decoded, loaded, -⟩ := Option.bind_eq_some_iff.mp (frame.decodes json object message)
    obtain ⟨inside, feed, carriage⟩ := mem_textLines listed member
    rw [Bool.eq_false_iff]
    intro breaks
    rcases separator_of_isLineBreak (strictLex_line loaded listed) member breaks with
      same | same | separator
    · exact feed same
    · exact carriage same
    · rw [unbroken json object message c inside] at separator
      cases separator

theorem foldlM_frames (unbroken : Unbroken frames) (inert : Inert frames)
    (payloads : List (Dict Str Object)) :
    (frames.flatMap EventFrame.pieces ++ [[]]).foldlM sseLine ⟨[], payloads⟩ =
      .ok ⟨[], payloads ++ streamObjects frames⟩ := by
  induction frames generalizing payloads with
  | nil => simp [streamObjects, sseLine_idle]
  | cons frame frames ih =>
    obtain ⟨first, later⟩ := List.forall_mem_cons.mp unbroken
    obtain ⟨first_inert, later_inert⟩ := List.forall_mem_cons.mp inert
    have others : ∀ text ending, (EventLine.other text, ending) ∈ frame.lines →
        ∀ piece ∈ Str.pieces text, inertPiece piece = true :=
      fun text ending listed => (frame.others _ listed text rfl).pieces
        (first_inert text ending listed)
    rw [List.flatMap_cons, List.append_assoc, List.foldlM_append,
      foldlM_frame (plain_data first) others]
    refine (ih later later_inert _).trans ?_
    cases message : frame.message <;> simp [streamObjects, message]

/-- The objects come back, in their order. -/
theorem parseSse_streamText (unbroken : Unbroken frames) (inert : Inert frames) :
    parseSse (streamText frames) = .ok (streamObjects frames) := by
  rw [parseSse, lines_streamText, foldlM_frames unbroken inert []]
  rfl

/-- A separator in a text makes the reader raise. -/
theorem parseSse_broken (broken : ¬ Unbroken frames) :
    ∃ error, parseSse (streamText frames) = .error error := by
  unfold Unbroken at broken
  push Not at broken
  obtain ⟨frame, listed, json, object, message, c, member, separates⟩ := broken
  have separator : isSeparator c = true := by simpa using separates
  obtain ⟨decoded, loaded, -⟩ := Option.bind_eq_some_iff.mp (frame.decodes json object message)
  have unended : c ≠ 10 ∧ c ≠ 13 := by
    simp only [isSeparator, Bool.or_eq_true, beq_iff_eq] at separator
    omega
  obtain ⟨value, value_listed, inside⟩ := exists_textLine member unended
  have carried : value ∈ frame.lines.filterMap (·.1.value) := by
    rw [frame.carries, message]
    exact value_listed
  obtain ⟨⟨line, ending⟩, line_listed, holds⟩ := List.mem_filterMap.mp carried
  cases line with
  | other text => cases holds
  | data spaced value' =>
    cases holds
    obtain ⟨before, after, frames_split⟩ := List.append_of_mem listed
    obtain ⟨before', after', lines_split⟩ := List.append_of_mem line_listed
    have whole : frames.flatMap EventFrame.pieces ++ [[]] =
        (before.flatMap EventFrame.pieces ++
          before'.flatMap fun line => Str.pieces line.1.text) ++
        (Str.pieces (EventLine.data spaced value).text ++
          (((after'.flatMap fun line => Str.pieces line.1.text) ++ [[]] ++
            after.flatMap EventFrame.pieces) ++ [[]])) := by
      rw [frames_split]
      simp only [List.flatMap_append, List.flatMap_cons, EventFrame.pieces, lines_split,
        List.append_assoc]
    rw [parseSse, lines_streamText, whole, List.foldlM_append]
    have raises := broken_raises spaced (strictLex_line loaded value_listed)
      (fun c inside => (mem_textLines value_listed inside).2) inside separator
    cases reached : (before.flatMap EventFrame.pieces ++
        before'.flatMap fun line => Str.pieces line.1.text).foldlM sseLine {} with
    | error error => exact ⟨error, rfl⟩
    | ok s =>
      refine ⟨.protocol "MCP SSE data is not valid JSON", ?_⟩
      change Except.map _ (List.foldlM sseLine s _) = _
      rw [raises]
      rfl

/-- A response that carries the stream. -/
structure Carries (response : HttpResponse) (frames : List EventFrame) : Prop where
  status : response.statusCode ≠ 202 ∧ response.statusCode ≠ 204
  content : response.content ≠ []
  stream : isEventStream response.contentType = true
  text : response.text = streamText frames

/-- The reader returns the objects of the frames in their order, and the client the first one with
the identifier of its request. -/
structure Decodes (frames : List EventFrame) : Prop where
  parsed : parseSse (streamText frames) = .ok (streamObjects frames)
  response : ∀ response expectedId object, Carries response frames →
    (streamObjects frames).find? (hasId expectedId) = some object →
      decodeResponse response expectedId = .ok object

theorem decodes_of_parsed (parsed : parseSse (streamText frames) = .ok (streamObjects frames)) :
    Decodes frames where
  parsed := parsed
  response := by
    intro response expectedId object carries found
    obtain ⟨accepted, empty⟩ := carries.status
    have answered : ¬ (response.statusCode = 202 ∨ response.statusCode = 204 ∨
        response.content = []) := by
      rintro (same | same | same)
      · exact accepted same
      · exact empty same
      · exact carries.content same
    rw [decodeResponse, if_neg answered, if_pos carries.stream, carries.text, parsed]
    dsimp only
    rw [found]

/-- Streams without separators in their objects come back, wherever other lines stand; one with a
separator does not. -/
theorem event_stream_decodes (frames : List EventFrame) :
    (Decodes frames → Unbroken frames) ∧ (Unbroken frames → Inert frames → Decodes frames) := by
  refine ⟨fun decodes => ?_, fun unbroken inert => ?_⟩
  · by_contra broken
    obtain ⟨error, raised⟩ := parseSse_broken broken
    rw [decodes.parsed] at raised
    cases raised
  · exact decodes_of_parsed (parseSse_streamText unbroken inert)

end Streams

section Messages

def objectOf (json : Str) : Option (Dict Str Object) :=
  match Object.loads json with
  | some (.dict object) => some object
  | _ => none

theorem loads_of_objectOf {json : Str} {object : Dict Str Object}
    (given : objectOf json = some object) : Object.loads json = some (.dict object) := by
  unfold objectOf at given
  split at given
  · next loaded =>
    rw [loaded]
    exact congrArg (some ∘ Object.dict) (Option.some.inj given)
  · cases given

/-- The frame that a server writes for a message. -/
def messageFrame (json : Str) (readable : (objectOf json).isSome = true) : EventFrame where
  lines := (.other (.lit "event: message"), .feed) ::
    (textLines json).map fun line => (.data true line, .feed)
  ending := .feed
  message := some (json, (objectOf json).get readable)
  others := by
    intro line listed text same
    rcases List.mem_cons.mp listed with rfl | listed
    · cases same
      exact ⟨by decide, "event:", List.mem_cons_self, by decide⟩
    · obtain ⟨value, -, rfl⟩ := List.mem_map.mp listed
      cases same
  carries := by
    rw [List.filterMap_cons_none rfl, List.filterMap_map]
    exact List.filterMap_some
  decodes := by
    rintro json object same
    cases same
    exact loads_of_objectOf (Option.some_get readable).symm

theorem inert_messageFrame (json : Str) (readable : (objectOf json).isSome = true) :
    Inert [messageFrame json readable] := by
  intro frame listed text ending line piece member
  rw [List.mem_singleton.mp listed] at line
  rcases List.mem_cons.mp line with same | data
  · cases same
    have whole : Str.pieces (Str.lit "event: message") = [Str.lit "event: message"] :=
      Str.pieces_unbroken (by decide)
    rw [whole] at member
    cases member
  · obtain ⟨value, -, same⟩ := List.mem_map.mp data
    cases same

/-- A result with a plain text. -/
def plainResult : Str := .lit "\x7b\"id\":1,\"result\":\"a b\"\x7d"

/-- The same with a line separator for the space, which JSON allows. -/
def separatedResult : Str :=
  Str.lit "\x7b\"id\":1,\"result\":\"a" ++ 0x2028 :: Str.lit "b\"\x7d"

theorem event_stream_decodes_plainResult :
    Decodes [messageFrame plainResult (by decide +kernel)] := by
  refine (event_stream_decodes _).2 ?_ (inert_messageFrame _ _)
  intro frame listed json object message
  rw [List.mem_singleton.mp listed] at message
  cases message
  decide

theorem separatedResult_not_decodes :
    ¬ Decodes [messageFrame separatedResult (by decide +kernel)] := by
  intro decodes
  have broken : ¬ Unbroken [messageFrame separatedResult (by decide +kernel)] := by
    intro unbroken
    have separator := unbroken _ (List.mem_singleton_self _) separatedResult _ rfl 0x2028
      (List.mem_append_right _ List.mem_cons_self)
    cases separator
  obtain ⟨error, raised⟩ := parseSse_broken broken
  rw [decodes.parsed] at raised
  cases raised

end Messages

end HeyeeAgent.Mcp
