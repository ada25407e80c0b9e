import HeyeeAgent.StreamChat.Encoding

/-! # The event stream as the chat page reads it

`consumeStream` decodes the chunks of the response, cuts the text at blank lines and hands each part
to `handleStreamEvent`, which takes a name and JSON data out of its lines. The decoder and the JSON
parser are the browser's. What the page does with an event afterwards is left out.
-/

namespace HeyeeAgent.Frontend.ChatPage

open Python JsonEncoder Streaming StreamChat

/-- White space and line terminators of JavaScript. -/
def jsIsSpace (c : ℕ) : Bool :=
  (9 ≤ c && c ≤ 13) || c == 32 || c == 0xa0 || c == 0x1680 || (0x2000 ≤ c && c ≤ 0x200a) ||
    c == 0x2028 || c == 0x2029 || c == 0x202f || c == 0x205f || c == 0x3000 || c == 0xfeff

/-- `text.trim()` -/
def trim (text : Str) : Str := ((text.dropWhile jsIsSpace).reverse.dropWhile jsIsSpace).reverse

/-- `text.split("\n")` and `text.split("\n\n")`: the pieces before the last, and the last. -/
def split (separator : Str) (nonempty : separator ≠ []) (text : Str) : List Str × Str :=
  (separated separator nonempty).peel text

section TextDecoder

/-- The outputs of `decode(value, { stream: true })` on the chunks. -/
def decodeAll {State : Type} (decode : State → Utf8.Bytes → Str × State) :
    State → List Utf8.Bytes → List Str × State
  | state, [] => ([], state)
  | state, value :: values =>
    let decoded := decode state value
    let later := decodeAll decode decoded.2 values
    (decoded.1 :: later.1, later.2)

/-- `new TextDecoder("utf-8")`. It may take a byte order mark off the front of a stream. -/
structure TextDecoder where
  State : Type
  start : State
  decode : State → Utf8.Bytes → Str × State
  /-- `decode()` -/
  finish : State → Str
  /-- Whole characters are given out when their last byte has arrived. -/
  incremental : ∀ {text values}, text.head? ≠ some 0xfeff →
    Utf8.encode text = some values.flatten →
    (decodeAll decode start values).1.flatten = text ∧
      finish (decodeAll decode start values).2 = []

theorem decodeAll_peel (waiting : Utf8.Bytes) (values : List Utf8.Bytes) :
    let decoded := decodeAll (fun waiting value => Utf8.decoder.peel (waiting ++ value)) waiting values
    (decoded.1.flatten, decoded.2) = Utf8.decoder.feed waiting values := by
  induction values generalizing waiting with
  | nil => rfl
  | cons value values ih =>
    have later := Prod.mk.inj (ih (Utf8.decoder.peel (waiting ++ value)).2)
    simp only [decodeAll, Peeler.feed, List.flatten_cons, later.1, later.2]

/-- A decoder that keeps the bytes of an incomplete character. -/
def utf8Decoder : TextDecoder where
  State := Utf8.Bytes
  start := []
  decode waiting value := Utf8.decoder.peel (waiting ++ value)
  finish waiting := if waiting = [] then [] else [0xfffd]
  incremental {text values} _ encoded := by
    have bytes : text.flatMap Utf8.encodeCode = values.flatten := by
      unfold Utf8.encode at encoded
      split_ifs at encoded
      exact Option.some.inj encoded
    have read := decodeAll_peel [] values
    rw [Peeler.feed_eq_peel Peeler.next_nil, List.nil_append, ← bytes,
      Utf8.peel_flatMap_encodeCode] at read
    obtain ⟨outputs, waiting⟩ := Prod.mk.inj read
    exact ⟨outputs, if_pos waiting⟩

end TextDecoder

section Page

variable (parse : Str → Option Json)

/-- The locals of `handleStreamEvent`. -/
structure EventLines where
  eventName : Str
  dataLines : List Str

def EventLines.add (read : EventLines) (line : Str) : EventLines :=
  let read := if (Str.lit "event:").isPrefixOf line then
    { read with eventName := trim (line.drop 6) } else read
  if (Str.lit "data:").isPrefixOf line then
    { read with dataLines := read.dataLines ++ [trim (line.drop 5)] } else read

/-- The name and the data that `handleStreamEvent` acts on; none where it returns before. -/
def handleStreamEvent (eventText : Str) : Option (Str × Json) :=
  let lines := split [10] (List.cons_ne_nil 10 []) eventText
  let read := (lines.1 ++ [lines.2]).foldl EventLines.add ⟨Str.lit "message", []⟩
  if read.dataLines = [] then none
  else (parse ([10].intercalate read.dataLines)).map fun data => (read.eventName, data)

/-- A blank line. -/
def eventEnd : Str := [10, 10]

theorem eventEnd_ne_nil : eventEnd ≠ [] := List.cons_ne_nil 10 [10]

variable (decoder : TextDecoder)

/-- The loop of `consumeStream`: the handled events, the decoder and the buffer. -/
def consumeChunks : decoder.State → Str → List Utf8.Bytes → List (Str × Json) × decoder.State × Str
  | state, buffer, [] => ([], state, buffer)
  | state, buffer, value :: values =>
    let decoded := decoder.decode state value
    let events := split eventEnd eventEnd_ne_nil (buffer ++ decoded.1)
    let later := consumeChunks decoded.2 events.2 values
    (events.1.filterMap (handleStreamEvent parse) ++ later.1, later.2)

def consumeStream (values : List Utf8.Bytes) : List (Str × Json) :=
  let (handled, state, buffer) := consumeChunks parse decoder decoder.start [] values
  let buffer := buffer ++ decoder.finish state
  handled ++ if trim buffer ≠ [] then (handleStreamEvent parse buffer).toList else []

variable {parse decoder}

/-- The chunks are decoded one by one, and their texts are cut as they come. -/
theorem consumeChunks_eq (parse : Str → Option Json) (state : decoder.State) (buffer : Str)
    (values : List Utf8.Bytes) :
    let decoded := decodeAll decoder.decode state values
    let events := (separated eventEnd eventEnd_ne_nil).feed buffer decoded.1
    consumeChunks parse decoder state buffer values =
      (events.1.filterMap (handleStreamEvent parse), decoded.2, events.2) := by
  induction values generalizing state buffer with
  | nil => rfl
  | cons value values ih =>
    simp only [consumeChunks, decodeAll, Peeler.feed, split, ih, List.filterMap_append]

/-- A text of complete events is handled event by event, wherever its bytes are cut. -/
theorem consumeStream_of_complete {ι : Type*} {items : List ι} {code content : ι → Str}
    {values : List Utf8.Bytes}
    (complete : ∀ i ∈ items, untilSeparator eventEnd (code i) = some (content i, []))
    (unmarked : (items.flatMap code).head? ≠ some 0xfeff)
    (encoded : Utf8.encode (items.flatMap code) = some values.flatten) :
    consumeStream parse decoder values =
      (items.map content).filterMap (handleStreamEvent parse) := by
  obtain ⟨text, finished⟩ := decoder.incremental unmarked encoded
  have consumed := consumeChunks_eq parse decoder.start [] values
  simp only [Peeler.feed_eq_peel Peeler.next_nil, List.nil_append, text,
    Peeler.peel_flatMap (p := separated eventEnd eventEnd_ne_nil) complete] at consumed
  rw [consumeStream, consumed]
  simp only [finished, List.append_nil, trim, List.dropWhile_nil, List.reverse_nil, ne_eq,
    not_true_eq_false, if_false]

end Page

section Frames

variable {parse : Str → Option Json} {repr : FloatRepr}

theorem trim_blank (text : Str) : trim (32 :: text) = trim text := by
  rw [trim, List.dropWhile_cons_of_pos (by decide : jsIsSpace 32 = true), trim]

/-- Nothing is trimmed off a text that begins and ends with other characters. -/
theorem trim_between {first last : ℕ} (inside : Str) (shown : jsIsSpace first = false)
    (shown' : jsIsSpace last = false) :
    trim ([first] ++ inside ++ [last]) = [first] ++ inside ++ [last] := by
  have front : ([first] ++ inside ++ [last]).dropWhile jsIsSpace = [first] ++ inside ++ [last] := by
    rw [List.append_assoc, List.singleton_append, List.dropWhile_cons_of_neg (by simp [shown])]
  have back : ([first] ++ inside ++ [last]).reverse.dropWhile jsIsSpace =
      ([first] ++ inside ++ [last]).reverse := by
    rw [List.reverse_append, List.reverse_singleton, List.singleton_append,
      List.dropWhile_cons_of_neg (by simp [shown'])]
  rw [trim, front, back, List.reverse_reverse]

theorem trim_body (event : Event) : trim (32 :: event.body repr) = event.body repr := by
  obtain ⟨inside, body⟩ := event.body_eq repr
  rw [trim_blank, body]
  exact trim_between inside (by decide) (by decide)

theorem newline_not_mem_nameLine {event : Event} (oneLine : 10 ∉ event.name) :
    10 ∉ Str.lit "event: " ++ event.name := fun member =>
  (List.mem_append.mp member).elim (by decide) oneLine

theorem newline_not_mem_dataLine (event : Event) : 10 ∉ Str.lit "data: " ++ event.body repr :=
  fun member => (List.mem_append.mp member).elim (by decide) (event.newline_not_mem_body repr)

/-- The frame of an event is its content and a blank line. -/
theorem untilSeparator_frame {event : Event} (oneLine : 10 ∉ event.name) :
    untilSeparator eventEnd (event.frame repr) = some (event.content repr, []) := by
  have lines : event.frame repr = (Str.lit "event: " ++ event.name) ++
      (10 :: (Str.lit "data: " ++ event.body repr ++ eventEnd)) := by
    simp only [Event.frame, Event.content, List.append_assoc]
    rfl
  -- the line break of the first line is followed by the second line
  have between : ¬ eventEnd.isPrefixOf (10 :: (Str.lit "data: " ++ event.body repr ++ eventEnd)) =
      true := by
    simp [eventEnd, Str.lit]
  have ending := untilSeparator_here eventEnd_ne_nil []
  rw [lines, eventEnd, untilSeparator_skip (newline_not_mem_nameLine oneLine), ← eventEnd,
    untilSeparator, if_neg between, eventEnd, untilSeparator_skip (newline_not_mem_dataLine event),
    ← eventEnd]
  rw [List.append_nil] at ending
  rw [ending]
  simp only [Option.map_some, Event.content, List.append_assoc, List.append_nil]
  rfl

theorem split_content {event : Event} (oneLine : 10 ∉ event.name) :
    split [10] (List.cons_ne_nil 10 []) (event.content repr) =
      ([Str.lit "event: " ++ event.name], Str.lit "data: " ++ event.body repr) := by
  have lines : event.content repr = (Str.lit "event: " ++ event.name) ++
      ([10] ++ (Str.lit "data: " ++ event.body repr)) := by
    simp only [Event.content, List.append_assoc]
    rfl
  let newline := separated [10] (List.cons_ne_nil 10 [])
  have cut : newline.next (event.content repr) =
      some (Str.lit "event: " ++ event.name, Str.lit "data: " ++ event.body repr) := by
    rw [next_separated, lines, untilSeparator_skip (newline_not_mem_nameLine oneLine),
      untilSeparator_here (List.cons_ne_nil 10 []), Option.map_some, List.append_nil]
  have rest : newline.next (Str.lit "data: " ++ event.body repr) = none :=
    untilSeparator_of_not_mem (newline_not_mem_dataLine event)
  rw [split, Peeler.peel_of_some cut, Peeler.peel_of_none rest]

/-- The page reads the trimmed name and the data off a frame. -/
theorem handleStreamEvent_content {event : Event} (oneLine : 10 ∉ event.name)
    (inverts : parse (event.body repr) = some (.obj event.data)) :
    handleStreamEvent parse (event.content repr) = some (trim event.name, .obj event.data) := by
  have nameLine : EventLines.add ⟨Str.lit "message", []⟩ (Str.lit "event: " ++ event.name) =
      ⟨trim (32 :: event.name), []⟩ := rfl
  have dataLine : EventLines.add ⟨trim event.name, []⟩ (Str.lit "data: " ++ event.body repr) =
      ⟨trim event.name, [trim (32 :: event.body repr)]⟩ := rfl
  simp only [handleStreamEvent, split_content oneLine, List.cons_append, List.nil_append,
    List.foldl_cons, List.foldl_nil, nameLine, trim_blank event.name, dataLine, trim_body]
  rw [if_neg (List.cons_ne_nil _ _), List.intercalate_singleton, inverts, Option.map_some]

/-- Every event arrives once and in order, wherever the bytes are cut, if its name neither breaks the
line nor has white space at its ends. -/
theorem consumeStream_encoded (repr : FloatRepr) (decoder : TextDecoder) (parse : Str → Option Json)
    {events : List Event} {frames values : List Utf8.Bytes}
    (oneLine : ∀ event ∈ events, 10 ∉ event.name)
    (trimmed : ∀ event ∈ events, trim event.name = event.name)
    (inverts : ∀ event ∈ events, parse (event.body repr) = some (.obj event.data))
    (sent : events.mapM (Event.encode repr) = some frames)
    (arrived : values.flatten = frames.flatten) :
    consumeStream parse decoder values = events.map fun event => (event.name, .obj event.data) := by
  have encoded := Event.encode_flatMap_frame repr sent
  rw [← arrived] at encoded
  have unmarked : (events.flatMap (Event.frame repr)).head? ≠ some 0xfeff := by
    cases events with
    | nil => exact Option.some_ne_none _ |>.symm
    | cons event events => simp [Event.frame, Event.content, Str.lit]
  rw [consumeStream_of_complete
    (fun event member => untilSeparator_frame (oneLine event member)) unmarked encoded,
    List.filterMap_map]
  clear sent arrived encoded unmarked
  induction events with
  | nil => rfl
  | cons event events ih =>
    obtain ⟨oneLine, oneLines⟩ := List.forall_mem_cons.mp oneLine
    obtain ⟨trimmed, trimmeds⟩ := List.forall_mem_cons.mp trimmed
    obtain ⟨inverts, inverse⟩ := List.forall_mem_cons.mp inverts
    have first := handleStreamEvent_content oneLine inverts
    rw [trimmed] at first
    rw [List.filterMap_cons, Function.comp_apply, first, List.map_cons, ih oneLines trimmeds inverse]

end Frames

section Sample

/-- Writes no numbers; the sample data has none. -/
def noFloats : FloatRepr := ⟨fun _ => [], fun _ _ member => absurd member List.not_mem_nil⟩

def deltaEvent : Event :=
  ⟨Str.lit "message", [("type", .text "response"), ("delta", .str [0x597d])]⟩

def doneEvent : Event := ⟨Str.lit "done", [("taskId", .text "t")]⟩

/-- A name that ends in a blank. -/
def blankEvent : Event := { doneEvent with name := Str.lit "done " }

def sampleParse (text : Str) : Option Json :=
  if text = deltaEvent.body noFloats then some (.obj deltaEvent.data)
  else if text = doneEvent.body noFloats then some (.obj doneEvent.data)
  else none

def sampleBytes (event : Event) : Utf8.Bytes := (event.frame noFloats).flatMap Utf8.encodeCode

/-- The first cut is inside the character of the answer, the second inside the blank line. -/
def sampleValues : List Utf8.Bytes :=
  [(sampleBytes deltaEvent).take 50, ((sampleBytes deltaEvent).drop 50).take 5,
    (sampleBytes deltaEvent).drop 55 ++ sampleBytes doneEvent]

theorem sampleValues_read : consumeStream sampleParse utf8Decoder sampleValues =
    [(Str.lit "message", .obj deltaEvent.data), (Str.lit "done", .obj doneEvent.data)] :=
  consumeStream_encoded noFloats utf8Decoder sampleParse (by decide) (by decide)
    (List.forall_mem_cons.mpr ⟨rfl, List.forall_mem_singleton.mpr rfl⟩)
    (rfl : [deltaEvent, doneEvent].mapM (Event.encode noFloats) =
      some [sampleBytes deltaEvent, sampleBytes doneEvent])
    (by decide)

/-- The blank at the end of a name is lost. -/
theorem blankEvent_renamed : 10 ∉ blankEvent.name ∧
    sampleParse (blankEvent.body noFloats) = some (.obj blankEvent.data) ∧
    [blankEvent].mapM (Event.encode noFloats) = some [sampleBytes blankEvent] ∧
    consumeStream sampleParse utf8Decoder [sampleBytes blankEvent] ≠
      [(blankEvent.name, .obj blankEvent.data)] := by
  refine ⟨by decide, rfl, rfl, fun same => ?_⟩
  have names := congrArg (List.map Prod.fst) same
  revert names
  decide

end Sample

end HeyeeAgent.Frontend.ChatPage
