import HeyeeAgent.Python.Collections
import HeyeeAgent.Python.StrMethods
import HeyeeAgent.Replacement.PlaceholderRuns

/-! # Prompt templates

`PromptTemplateLoader.render_text` replaces the slots one after the other, each in the text that has
the values of the slots before it, takes away every placeholder that is left and tidies the white
space.
-/

namespace HeyeeAgent.Rag.PromptTemplates

open Python Placeholders

/-- `[A-Za-z0-9_]` -/
def isNameChar (c : ℕ) : Bool :=
  (65 ≤ c && c ≤ 90) || (97 ≤ c && c ≤ 122) || (48 ≤ c && c ≤ 57) || c == 95

/-- `{name}` -/
def marks : Marks ℕ where
  opening := 123
  closing := 125
  isWord := isNameChar
  opening_word := by decide
  closing_word := by decide
  opening_ne_closing := by decide

/-- The length of the word, if the text starts with it -/
def wordLength (word text : Str) : ℕ := if word <+: text then word.length else 0

/-- `text.replace(old, new)` of a word that is not empty -/
def replace (old new text : Str) : Str := sub id (wordLength old) new text

/-- What `\{[A-Za-z0-9_]+\}` matches at the start of a text -/
def slotLength : Str → ℕ
  | [] => 0
  | c :: rest =>
    let name := rest.takeWhile isNameChar
    if c = 123 ∧ name ≠ [] ∧ (rest.drop name.length).head? = some 125 then name.length + 2 else 0

/-- What `\n{3,}` matches at the start of a text -/
def feedsLength (text : Str) : ℕ :=
  let feeds := (text.takeWhile (· == 10)).length
  if 3 ≤ feeds then feeds else 0

def cleanupPrompt (prompt : Str) : Str := Str.strip (sub id feedsLength (Str.lit "\n\n") prompt)

def renderText (template : Str) (slots : Dict Str Str) : Str :=
  let rendered := slots.foldl (fun rendered slot =>
    replace (.lit "\x7b" ++ slot.1 ++ .lit "\x7d") slot.2 rendered) template
  cleanupPrompt (sub id slotLength [] rendered)

/-- Slots with names of letters, digits and underscores -/
structure Slots where
  entries : Dict Str Str
  names : ∀ slot ∈ entries, marks.IsName slot.1
  distinct : entries.keys.Nodup

section Scanner

theorem finds_one {key : Str} (named : marks.IsName key) :
    Finds marks (wordLength (.lit "\x7b" ++ key ++ .lit "\x7d")) fun name => name == key where
  at_slot := by
    intro name rest _ same
    obtain rfl := eq_of_beq same
    rw [wordLength, if_pos]
    · simp [Str.lit]
    · exact ⟨rest, by simp [Str.lit, marks]⟩
  slot_of := by
    intro text found
    rw [wordLength] at found
    split_ifs at found with start
    · obtain ⟨rest, rfl⟩ := start
      exact ⟨key, rest, named, beq_self_eq_true key, by simp [Str.lit, marks]⟩
    · exact absurd rfl found

theorem takeWhile_name {name rest : Str} (named : marks.IsName name) :
    (name ++ 125 :: rest).takeWhile isNameChar = name := by
  have words : ∀ c ∈ name, isNameChar c = true := named.2
  rw [List.takeWhile_append_of_pos words, List.takeWhile_cons_of_neg (by decide), List.append_nil]

theorem finds_any : Finds marks slotLength fun _ => true where
  at_slot := by
    intro name rest named _
    rw [slotLength, show marks.closing = 125 from rfl, takeWhile_name named, if_pos]
    exact ⟨rfl, named.1, by rw [List.drop_left' rfl]; rfl⟩
  slot_of := by
    intro text found
    cases text with
    | nil => exact absurd rfl found
    | cons c rest =>
      rw [slotLength] at found
      split_ifs at found with slot
      · obtain ⟨rfl, nonempty, closes⟩ := slot
        obtain ⟨after, behind⟩ := List.head?_eq_some_iff.mp closes
        refine ⟨rest.takeWhile isNameChar, after,
          ⟨nonempty, fun c member => List.mem_takeWhile_imp member⟩, rfl, ?_⟩
        have name := List.prefix_iff_eq_take.mp (List.takeWhile_prefix isNameChar (l := rest))
        have split := List.take_append_drop (rest.takeWhile isNameChar).length rest
        rw [← name, behind] at split
        exact congrArg (123 :: ·) split.symm
      · exact absurd rfl found

def scanner : Scanner marks where
  one key := wordLength (.lit "\x7b" ++ key ++ .lit "\x7d")
  any := slotLength
  finds_one := finds_one
  finds_any := finds_any

theorem renderText_eq (template : Str) (slots : Dict Str Str) :
    renderText template slots = cleanupPrompt (run scanner id slots template) := rfl

end Scanner

section Marked

/-- A text whose characters are told to come from the template or from a slot -/
def marked (fromSlot : Bool) (text : Str) : List (ℕ × Bool) := text.map fun c => (c, fromSlot)

def markedSlots (slots : Dict Str Str) : List (Str × List (ℕ × Bool)) :=
  slots.map fun slot => (slot.1, marked true slot.2)

/-- The texts that the replacements and the last deletion match, with where they come from -/
def touchedBy (template : Str) (slots : Dict Str Str) : List (List (ℕ × Bool)) :=
  touched scanner Prod.fst (markedSlots slots) (marked false template)

@[simp] theorem fst_marked (fromSlot : Bool) (text : Str) :
    (marked fromSlot text).map Prod.fst = text := by
  rw [marked, List.map_map]
  exact List.map_id' text

theorem mapSlots_markedSlots (slots : Dict Str Str) :
    mapSlots Prod.fst (markedSlots slots) = slots := by
  rw [mapSlots, markedSlots, List.map_map]
  refine (List.map_congr_left fun slot _ => ?_).trans (List.map_id slots)
  exact Prod.ext rfl (fst_marked true slot.2)

/-- Without the marks it is the run of `render_text`. -/
theorem run_marked (template : Str) (slots : Dict Str Str) :
    (run scanner Prod.fst (markedSlots slots) (marked false template)).map Prod.fst =
      run scanner id slots template := by
  have same := run_map scanner Prod.fst id (markedSlots slots) (marked false template)
  rw [mapSlots_markedSlots, fst_marked] at same
  exact same.symm

theorem simultaneous_marked (template : Str) (slots : Dict Str Str) :
    (simultaneous marks Prod.fst (markedSlots slots) (marked false template)).map Prod.fst =
      simultaneous marks id slots template := by
  have same := simultaneous_map marks Prod.fst id (markedSlots slots) (marked false template)
  rw [mapSlots_markedSlots, fst_marked] at same
  exact same.symm

theorem overlaps_marked (template : Str) (slots : Dict Str Str) :
    Overlaps marks Prod.fst (markedSlots slots) (marked false template) ↔
      Overlaps marks id slots template := by
  have same := overlaps_map marks Prod.fst id (markedSlots slots) (marked false template)
  rw [mapSlots_markedSlots, fst_marked] at same
  exact same.symm

theorem opens_map (letters : List (ℕ × Bool)) :
    opens marks id (letters.map Prod.fst) = opens marks Prod.fst letters := List.countP_map

end Marked

section Cleanup

theorem feeds_of_match (text : Str) : ∀ c ∈ text.take (feedsLength (text.map id)), c = 10 := by
  intro c member
  have start := List.takeWhile_prefix (· == 10) (l := text)
  rw [List.map_id, feedsLength] at member
  split_ifs at member
  · rw [← List.prefix_iff_eq_take.mp start] at member
    have feed := List.mem_takeWhile_imp member
    exact eq_of_beq feed
  · cases member

/-- Tidying the white space loses no brace. -/
theorem opens_cleanupPrompt (prompt : Str) :
    opens marks id (cleanupPrompt prompt) = opens marks id prompt := by
  have stripped (text : Str) : opens marks id text.strip = opens marks id text := by
    rw [opens, opens, List.countP_eq_length_filter, List.countP_eq_length_filter]
    refine congrArg List.length (Str.filter_strip (fun c space => decide_eq_false fun brace => ?_) text)
    rw [show c = 123 from brace] at space
    cases space
  rw [cleanupPrompt, stripped]
  refine countP_sub rfl (fun text c member => ?_) prompt
  rw [feeds_of_match text c member]
  rfl

end Cleanup

/-- The slots are replaced at once, in whatever order they come: every placeholder of the template
gives way to its value or to nothing, and no character of a value is replaced or taken away. -/
structure RendersAtOnce (template : Str) (slots : Slots) : Prop where
  result : ∀ order : Dict Str Str, order.Perm slots.entries → renderText template order =
    cleanupPrompt (simultaneous marks id slots.entries template)
  untouched : ∀ order : Dict Str Str, order.Perm slots.entries →
    ∀ piece ∈ touchedBy template order, ∀ c ∈ piece, c.2 = false
  order : ∀ order : Dict Str Str, order.Perm slots.entries →
    renderText template order = renderText template slots.entries

section Orders

variable {template : Str} {slots order : Dict Str Str}

/-- In a dictionary the order of the entries does not tell what is found. -/
theorem lookup_iff (distinct : slots.keys.Nodup) {key value : Str} :
    slots.lookup key = some value ↔ (key, value) ∈ slots := by
  induction slots with
  | nil => simp
  | cons slot slots ih =>
    obtain ⟨first, rest⟩ := List.nodup_cons.mp distinct
    rw [List.lookup_cons, List.mem_cons]
    by_cases same : key = slot.1
    · subst same
      have absent : (slot.1, value) ∉ slots := fun member =>
        first (List.mem_map.mpr ⟨(slot.1, value), member, rfl⟩)
      simp [Prod.ext_iff, absent, eq_comm]
    · have other : (key == slot.1) = false := beq_false_of_ne same
      simp only [other, ih rest, Prod.ext_iff, same, false_and, false_or]

theorem lookup_perm (perm : order.Perm slots) (distinct : slots.keys.Nodup) (key : Str) :
    order.lookup key = slots.lookup key := by
  have distinct' : order.keys.Nodup := (perm.map Prod.fst).nodup_iff.mpr distinct
  refine Option.ext fun value => ?_
  rw [lookup_iff distinct', lookup_iff distinct]
  exact perm.mem_iff

theorem simultaneous_perm (perm : order.Perm slots) (distinct : slots.keys.Nodup) :
    simultaneous marks id order template = simultaneous marks id slots template := by
  simp only [simultaneous, lookup_perm perm distinct]

theorem overlaps_perm (perm : order.Perm slots) (distinct : slots.keys.Nodup) :
    Overlaps marks id order template ↔ Overlaps marks id slots template := by
  simp only [Overlaps, filled, lookup_perm perm distinct]

end Orders

section Rendering

variable {template : Str} {slots : Slots}

theorem rendersAtOnce_of_apart (apart : ¬ Overlaps marks id slots.entries template) :
    RendersAtOnce template slots := by
  have rendered (order : Dict Str Str) (perm : order.Perm slots.entries) :
      renderText template order = cleanupPrompt (simultaneous marks id slots.entries template) := by
    rw [renderText_eq, run_eq_simultaneous scanner (fun slot member => slots.names slot
      (perm.mem_iff.mp member)) ((overlaps_perm perm slots.distinct).not.mpr apart),
      simultaneous_perm perm slots.distinct]
  refine ⟨rendered, fun order perm piece member c inside => ?_, fun order perm =>
    (rendered order perm).trans (rendered _ (List.Perm.refl _)).symm⟩
  have apart' : ¬ Overlaps marks Prod.fst (markedSlots order) (marked false template) := by
    rw [overlaps_marked, overlaps_perm perm slots.distinct]
    exact apart
  have named : ∀ slot ∈ markedSlots order, marks.IsName slot.1 := by
    intro slot member
    obtain ⟨entry, listed, rfl⟩ := List.mem_map.mp member
    exact slots.names entry (perm.mem_iff.mp listed)
  have pieces := (replaceEach_text scanner named (proper_scan marks Prod.fst _) apart').2
  rw [text_scan] at pieces
  obtain ⟨o, name, last, listed, rfl⟩ := pieces piece member
  -- A placeholder of the template has the characters of the template.
  have letters : c ∈ text (scan marks Prod.fst (marked false template)) :=
    List.mem_flatMap.mpr ⟨_, listed, inside⟩
  rw [text_scan] at letters
  obtain ⟨code, -, rfl⟩ := List.mem_map.mp letters
  rfl

theorem apart_of_rendersAtOnce (atOnce : RendersAtOnce template slots) :
    ¬ Overlaps marks id slots.entries template := by
  -- The empty values come last, so that a value that is not empty keeps the template's letters apart.
  let given : Dict Str Str := slots.entries.filter fun slot => slot.2 != []
  let blank : Dict Str Str := slots.entries.filter fun slot => !(slot.2 != [])
  have perm : (given ++ blank).Perm slots.entries := List.filter_append_perm _ _
  have both : markedSlots given ++ markedSlots blank = markedSlots (given ++ blank) :=
    List.map_append.symm
  have kept : opens marks Prod.fst (simultaneous marks Prod.fst
      (markedSlots given ++ markedSlots blank) (marked false template)) ≤
      opens marks Prod.fst (run scanner Prod.fst
        (markedSlots given ++ markedSlots blank) (marked false template)) := by
    rw [both, ← opens_map, simultaneous_marked, ← opens_map, run_marked,
      ← opens_cleanupPrompt (run scanner id _ template), ← renderText_eq, atOnce.result _ perm,
      opens_cleanupPrompt, simultaneous_perm perm slots.distinct]
  have apart := not_overlaps_of_run scanner (fun c => c.2 = false) ?_ ?_ ?_ ?_ kept
  · rwa [both, overlaps_marked, overlaps_perm perm slots.distinct] at apart
  · intro slot member
    rw [both] at member
    obtain ⟨entry, listed, rfl⟩ := List.mem_map.mp member
    exact slots.names entry (perm.mem_iff.mp listed)
  · intro slot member
    obtain ⟨entry, listed, rfl⟩ := List.mem_map.mp member
    refine ⟨fun empty => ?_, fun c inside plain => ?_⟩
    · have nonempty := (List.mem_filter.mp listed).2
      rw [List.map_eq_nil_iff.mp empty] at nonempty
      cases nonempty
    · obtain ⟨code, -, rfl⟩ := List.mem_map.mp inside
      cases plain
  · intro slot member
    obtain ⟨entry, listed, rfl⟩ := List.mem_map.mp member
    have empty : entry.2 = [] := by simpa using (List.mem_filter.mp listed).2
    exact List.map_eq_nil_iff.mpr empty
  · rw [both]
    exact atOnce.untouched _ perm

/-- `render_text` replaces the slots at once if and only if the values, put in their places, form no
placeholder with what is around them. -/
theorem rendersAtOnce_iff :
    RendersAtOnce template slots ↔ ¬ Overlaps marks id slots.entries template :=
  ⟨apart_of_rendersAtOnce, rendersAtOnce_of_apart⟩

/-- A question that holds the name of the slot behind it -/
def injectedSlots : Slots where
  entries := [(.lit "question", .lit "\x7bcandidates\x7d"), (.lit "candidates", .lit "X")]
  names := by decide +kernel
  distinct := by decide +kernel

theorem injectedSlots_not_rendersAtOnce :
    ¬ RendersAtOnce (.lit "\x7bquestion\x7d: \x7bcandidates\x7d") injectedSlots := by
  intro atOnce
  have rendered : renderText (.lit "\x7bquestion\x7d: \x7bcandidates\x7d") injectedSlots.entries =
      .lit "X: X" := by decide +kernel
  have same := rendered.symm.trans (atOnce.result _ (List.Perm.refl _))
  revert same
  decide +kernel

end Rendering

end HeyeeAgent.Rag.PromptTemplates
