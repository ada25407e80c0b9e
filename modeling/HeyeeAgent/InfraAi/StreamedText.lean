import HeyeeAgent.InfraAi.ChatStream
import HeyeeAgent.Python.JsonLexing

/-! # The text that the clients deliver

A piece of the answer is the content of one line. The OpenAI style client passes each piece on as
it is, and the Ollama client without the white space at its ends.
-/

namespace HeyeeAgent.InfraAi

open Python Python.JsonDecoder

variable {repr : Value → Str} {reasoningEnabled : Bool} {line piece payload : Str}

/-- The piece of the answer that a line of Ollama carries. -/
def ollamaPiece (line : Str) : Option Str :=
  match loads line with
  | some (.obj data) =>
    match Value.get data "message" with
    | .obj message =>
      match Value.get message "content" with
      | .str piece => if truth (Value.get data "done") then none else some piece
      | _ => none
    | _ => none
  | _ => none

/-- The last line of Ollama, which carries no text. -/
def ollamaEnd (line : Str) : Bool :=
  match loads line with
  | some (.obj data) =>
    truth (Value.get data "done") && match Value.get data "message" with
      | .obj message =>
        match Value.get message "content" with
        | .null | .str [] => true
        | _ => false
      | _ => true
  | _ => false

/-- The piece of the answer that a line of an OpenAI style stream carries. -/
def deltaPiece (line : Str) : Option Str :=
  match loads (ssePayload line) with
  | some (.obj data) =>
    match Value.get data "choices" with
    | .arr (.obj choice0 :: _) =>
      match containerField choice0 "delta" "content", Value.get choice0 "finish_reason" with
      | .str piece, .null => some piece
      | _, _ => none
    | _ => none
  | _ => none

/-- Lines that are read while nobody cancels the stream. -/
def uncancelled (lines : List Str) : List (Str × Bool) := lines.map fun line => (line, false)

theorem contents_append (calls more : List CallbackCall) :
    contents (calls ++ more) = contents calls ++ contents more :=
  List.filterMap_append

/-- `[DONE]` is no JSON. -/
theorem loads_of_isDone (done : isDone payload = true) : loads payload = none := by
  rw [Option.eq_none_iff_forall_not_mem]
  intro value loaded
  obtain ⟨lexed, -⟩ := loads_reads loaded
  unfold isDone at done
  have spelled := of_decide_eq_true done
  rcases payload with _ | ⟨bracket, _ | ⟨d, payload⟩⟩
  · cases spelled
  · have short : 1 = 6 := congrArg List.length spelled
    cases short
  · have second := (List.cons.inj (List.cons.inj spelled).2).1
    have letter : d = 100 ∨ d = 68 := by
      change (if 65 ≤ d ∧ d ≤ 90 then d + 32 else d) = 100 at second
      split_ifs at second <;> omega
    have first := (List.cons.inj spelled).1
    have opening : bracket = 91 := by
      change (if 65 ≤ bracket ∧ bracket ≤ 90 then bracket + 32 else bracket) = 91 at first
      split_ifs at first <;> omega
    subst opening
    rcases letter with rfl | rfl <;> cases lexed

section Pieces

theorem parse_deltaPiece (carries : deltaPiece line = some piece) :
    ∃ event, parseSseLine repr reasoningEnabled line = some event ∧
      event.content = nonempty piece ∧ event.completed = false := by
  unfold deltaPiece at carries
  split at carries <;> try cases carries
  next data loaded =>
  split at carries <;> try cases carries
  next choice0 choices chosen =>
  split at carries <;> cases carries
  next open_ field =>
  have some_text : Str.strip line ≠ [] := by
    intro blank
    unfold ssePayload at loaded
    rw [blank] at loaded
    cases loaded
  have going : isDone (ssePayload line) = false := by
    rw [Bool.eq_false_iff]
    intro done
    rw [loads_of_isDone done] at loaded
    cases loaded
  unfold parseSseLine
  rw [if_neg some_text, going, loaded]
  dsimp only
  rw [if_neg (by decide), chosen]
  refine ⟨_, rfl, ?_, ?_⟩
  · dsimp only
    unfold extractStreamText
    rw [field]
    rfl
  · dsimp only
    rw [open_]

theorem ollamaPiece_some (carries : ollamaPiece line = some piece) :
    ∃ data message, loads line = some (.obj data) ∧ Value.get data "message" = .obj message ∧
      Value.get message "content" = .str piece ∧ truth (Value.get data "done") = false := by
  unfold ollamaPiece at carries
  split at carries <;> try cases carries
  next data loaded =>
  split at carries <;> try cases carries
  next message inner =>
  split at carries <;> try cases carries
  next content =>
  split_ifs at carries with done
  cases carries
  exact ⟨data, message, loaded, inner, content, Bool.eq_false_iff.mpr done⟩

theorem ollamaEnd_true (finished : ollamaEnd line = true) :
    ∃ data, loads line = some (.obj data) ∧ truth (Value.get data "done") = true ∧
      ∀ message, Value.get data "message" = .obj message →
        Value.get message "content" = .null ∨ Value.get message "content" = .str [] := by
  unfold ollamaEnd at finished
  split at finished <;> try cases finished
  next data loaded =>
  obtain ⟨done, quiet⟩ := Bool.and_eq_true_iff.mp finished
  refine ⟨data, loaded, done, fun message inner => ?_⟩
  rw [inner] at quiet
  dsimp only at quiet
  split at quiet
  · next absent => exact .inl absent
  · next empty => exact .inr empty
  · cases quiet

/-- A line of Ollama passes on the content of its message, stripped. -/
theorem contents_ollamaLine {data message : List (Str × Value)}
    (loaded : loads line = some (.obj data)) (inner : Value.get data "message" = .obj message) :
    contents (ollamaLine repr reasoningEnabled line).1 =
      (optionalText repr (Value.get message "content")).toList := by
  unfold ollamaLine
  rw [loaded]
  dsimp only
  rw [inner]
  dsimp only
  rw [contents_append]
  have thought : contents (if reasoningEnabled = true then
      ((optionalText repr (Value.get message "thinking")).map CallbackCall.onThinking).toList
      else []) = [] := by
    split_ifs
    · cases optionalText repr (Value.get message "thinking") <;> rfl
    · rfl
  rw [thought]
  cases optionalText repr (Value.get message "content") <;> rfl

theorem done_ollamaLine {data : List (Str × Value)} (loaded : loads line = some (.obj data)) :
    (ollamaLine repr reasoningEnabled line).2 = truth (Value.get data "done") := by
  unfold ollamaLine
  rw [loaded]

theorem contents_ollamaEnd (finished : ollamaEnd line = true) :
    contents (ollamaLine repr reasoningEnabled line).1 = [] := by
  obtain ⟨data, loaded, -, content⟩ := ollamaEnd_true finished
  cases inner : Value.get data "message" with
  | obj message =>
    rw [contents_ollamaLine loaded inner]
    rcases content message inner with absent | empty
    · rw [absent]
      rfl
    · rw [empty]
      rfl
  | _ =>
    unfold ollamaLine
    rw [loaded]
    dsimp only
    rw [inner]
    rfl

end Pieces

section Streams

variable {ending : ResponseEnd} {lines : List Str} {pieces : List Str}

/-- Each piece is one call, except an empty one. -/
theorem contents_deltas {last : Str} (carry : List.Forall₂ (deltaPiece · = some ·) lines pieces)
    (finished : isDone (ssePayload last) = true) :
    (contents (readLines repr reasoningEnabled ending (uncancelled (lines ++ [last])))).flatten =
      pieces.flatten := by
  induction carry with
  | nil =>
    have some_text : Str.strip last ≠ [] := by
      intro blank
      unfold ssePayload at finished
      rw [blank] at finished
      cases finished
    change (contents (readLines repr reasoningEnabled ending [(last, false)])).flatten = []
    unfold readLines parseSseLine
    rw [if_neg (by decide), if_neg some_text, if_pos finished]
    rfl
  | cons carries _ ih =>
    obtain ⟨event, parsed, content, going⟩ := parse_deltaPiece  carries
    rename_i line piece lines pieces _
    change (contents (readLines repr reasoningEnabled ending
      ((line, false) :: uncancelled (lines ++ [last])))).flatten = piece ++ pieces.flatten
    unfold readLines
    rw [if_neg (by decide), parsed]
    dsimp only
    rw [going, if_neg (by decide), contents_append, List.flatten_append, ih]
    have own : (contents event.calls).flatten = piece := by
      unfold StreamEvent.calls
      rw [contents_append, content]
      have thought : contents (event.reasoning.map CallbackCall.onThinking).toList = [] := by
        cases event.reasoning <;> rfl
      rw [thought]
      unfold nonempty
      split_ifs with empty
      · exact empty.symm
      · simp [contents]
    rw [own]

/-- Each piece is stripped, and is one call unless it is blank. -/
theorem contents_ollama {last : Str} (carry : List.Forall₂ (ollamaPiece · = some ·) lines pieces)
    (finished : ollamaEnd last = true) :
    (contents (readOllamaLines repr reasoningEnabled ending
      (uncancelled (lines ++ [last])))).flatten = (pieces.map Str.strip).flatten := by
  induction carry with
  | nil =>
    obtain ⟨data, loaded, completed, -⟩ := ollamaEnd_true finished
    change (contents (readOllamaLines repr reasoningEnabled ending [(last, false)])).flatten = []
    unfold readOllamaLines
    rw [if_neg (by decide)]
    dsimp only
    rw [done_ollamaLine loaded, if_pos completed, contents_append, contents_ollamaEnd finished]
    rfl
  | cons carries _ ih =>
    rename_i line piece lines pieces _
    obtain ⟨data, message, loaded, inner, content, going⟩ := ollamaPiece_some carries
    change (contents (readOllamaLines repr reasoningEnabled ending
      ((line, false) :: uncancelled (lines ++ [last])))).flatten =
        Str.strip piece ++ (pieces.map Str.strip).flatten
    unfold readOllamaLines
    rw [if_neg (by decide)]
    dsimp only
    rw [done_ollamaLine loaded, going, if_neg (by decide), contents_append, List.flatten_append,
      ih, contents_ollamaLine loaded inner, content]
    change (nonempty (Str.strip piece)).toList.flatten ++ _ = _
    unfold nonempty
    split_ifs with empty
    · rw [empty]
      rfl
    · simp

theorem length_flatten_strip (pieces : List Str) :
    (pieces.map Str.strip).flatten.length ≤ pieces.flatten.length := by
  induction pieces with
  | nil => exact Nat.le_refl 0
  | cons piece pieces ih =>
    have first := Str.length_strip piece
    simp only [List.map_cons, List.flatten_cons, List.length_append]
    omega

/-- Stripping leaves the whole text as it is only if it leaves every piece as it is: it takes
nothing away that another piece could give back. -/
theorem flatten_strip : (pieces.map Str.strip).flatten = pieces.flatten ↔
    ∀ piece ∈ pieces, Str.strip piece = piece := by
  constructor
  · intro same
    induction pieces with
    | nil => exact nofun
    | cons piece pieces ih =>
      simp only [List.map_cons, List.flatten_cons] at same
      have lengths := congrArg List.length same
      have first := Str.length_strip piece
      have others := length_flatten_strip pieces
      simp only [List.length_append] at lengths
      obtain ⟨own, rest⟩ := List.append_inj same (by omega)
      intro other member
      rcases List.mem_cons.mp member with rfl | member
      · exact own
      · exact ih rest other member
  · intro each
    rw [List.map_congr_left each, List.map_id']

/-- For the same pieces the OpenAI style client delivers their text, and the Ollama client does so
exactly if no piece has white space at an end. -/
theorem streamed_text {deltas : List Str} {last lastDelta : Str} {ending' : ResponseEnd}
    (carry : List.Forall₂ (ollamaPiece · = some ·) lines pieces) (finished : ollamaEnd last = true)
    (carry' : List.Forall₂ (deltaPiece · = some ·) deltas pieces)
    (finished' : isDone (ssePayload lastDelta) = true) :
    (contents (runStream repr reasoningEnabled
        ⟨uncancelled (deltas ++ [lastDelta]), ending'⟩)).flatten = pieces.flatten ∧
      ((contents (runOllamaStream repr reasoningEnabled
        ⟨uncancelled (lines ++ [last]), ending⟩)).flatten = pieces.flatten ↔
          ∀ piece ∈ pieces, Str.strip piece = piece) := by
  refine ⟨contents_deltas carry' finished', ?_⟩
  unfold runOllamaStream
  rw [contents_ollama carry finished]
  exact flatten_strip

end Streams

/-- The lines of Ollama for the pieces `Hello` and ` world`. -/
def helloLines : List Str :=
  [.lit "\x7b\"message\":\x7b\"content\":\"Hello\"\x7d,\"done\":false\x7d",
    .lit "\x7b\"message\":\x7b\"content\":\" world\"\x7d,\"done\":false\x7d"]

def helloEnd : Str := .lit "\x7b\"message\":\x7b\"content\":\"\"\x7d,\"done\":true\x7d"

/-- The same pieces in an OpenAI style stream. -/
def helloDeltas : List Str :=
  [.lit "data: \x7b\"choices\":[\x7b\"delta\":\x7b\"content\":\"Hello\"\x7d\x7d]\x7d",
    .lit "data: \x7b\"choices\":[\x7b\"delta\":\x7b\"content\":\" world\"\x7d\x7d]\x7d"]

theorem hello_streamed_text :
    let pieces := [Str.lit "Hello", Str.lit " world"]
    (contents (runStream (fun _ => []) false
        ⟨uncancelled (helloDeltas ++ [.lit "data: [DONE]"]), .closed false⟩)).flatten =
          pieces.flatten ∧
      ((contents (runOllamaStream (fun _ => []) false
        ⟨uncancelled (helloLines ++ [helloEnd]), .closed false⟩)).flatten = pieces.flatten ↔
          ∀ piece ∈ pieces, Str.strip piece = piece) :=
  streamed_text (.cons (by decide +kernel) (.cons (by decide +kernel) .nil)) (by decide +kernel)
    (.cons (by decide +kernel) (.cons (by decide +kernel) .nil)) (by decide +kernel)

/-- The space before the second word is lost, where the other client keeps it. -/
theorem hello_loses_space :
    helloLines.map ollamaPiece = [some (.lit "Hello"), some (.lit " world")] ∧
    helloDeltas.map deltaPiece = [some (.lit "Hello"), some (.lit " world")] ∧
    (contents (runOllamaStream (fun _ => []) false
        ⟨uncancelled (helloLines ++ [helloEnd]), .closed false⟩)).flatten =
      Str.lit "Helloworld" ∧
    (contents (runStream (fun _ => []) false
        ⟨uncancelled (helloDeltas ++ [.lit "data: [DONE]"]), .closed false⟩)).flatten =
      Str.lit "Hello world" := by
  decide +kernel

end HeyeeAgent.InfraAi
