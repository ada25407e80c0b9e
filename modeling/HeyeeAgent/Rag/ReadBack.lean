import HeyeeAgent.Python.JsonSlices
import HeyeeAgent.Rag.LlmResponseCleaner

/-! # Replies of the classifier, read back

A model answers with an array, or with an object that has one under `results`, alone or in a code
fence. The array is cut out between the first opening and the last closing bracket of the reply, so
brackets in the other members take it away; and in a fence the lines of the reply are joined again,
so a line boundary in a string of the array does.
-/

namespace HeyeeAgent.Rag

open Python JsonDecoder

section Replies

/-- A member of an object: its key from the opening quote on, and its value, with the white space
around them. -/
structure Member where
  beforeKey : Str
  body : Str
  afterKey : Str
  beforeValue : Str
  valueText : Str
  afterValue : Str
  key : Str
  value : Object
  blank : ∀ c ∈ beforeKey ++ afterKey ++ beforeValue ++ afterValue, isBlank c = true
  named : scanString body = some (key, [])
  loaded : Object.loads valueText = some value
  bare : valueText.strip = valueText

def Member.text (member : Member) : Str :=
  member.beforeKey ++ quote :: (member.body ++ member.afterKey ++
    colon :: (member.beforeValue ++ member.valueText ++ member.afterValue))

/-- The text of an array -/
structure ArrayReply where
  text : Str
  items : List Object
  loaded : Object.loads text = some (.list items)
  bare : text.strip = text

/-- The text of an object with an array under `results`; of members with this key the last counts. -/
structure ObjectReply where
  before : List Member
  results : Member
  after : List Member
  items : List Object
  named : results.key = Str.lit "results"
  array : results.value = .list items
  last : ∀ member ∈ after, member.key ≠ Str.lit "results"

def ObjectReply.text (reply : ObjectReply) : Str :=
  openBrace :: (Str.join [comma] ((reply.before ++ reply.results :: reply.after).map Member.text) ++
    [closeBrace])

inductive Reply where
  | array (reply : ArrayReply)
  | object (reply : ObjectReply)

namespace Reply

def text : Reply → Str
  | .array reply => reply.text
  | .object reply => reply.text

def items : Reply → List Object
  | .array reply => reply.items
  | .object reply => reply.items

/-- The text of the array -/
def arrayText : Reply → Str
  | .array reply => reply.text
  | .object reply => reply.results.valueText

/-- No member before the results has an opening bracket in its text, and none behind them has a
closing one. -/
def Clear : Reply → Prop
  | .array _ => True
  | .object reply => (∀ member ∈ reply.before, openBracket ∉ member.text) ∧
    ∀ member ∈ reply.after, closeBracket ∉ member.text

end Reply

/-- How a reply stands in the answer of the model. -/
inductive Wrapping where
  | plain
  /-- In a code fence, with what its first line says behind the fence -/
  | fenced (info : Str) (unbroken : ∀ c ∈ info, Str.isLineBreak c = false)

namespace Wrapping

def wrap (text : Str) : Wrapping → Str
  | .plain => text
  | .fenced info _ => fence ++ info ++ 10 :: (text ++ 10 :: fence)

/-- The text without its fence, as `_strip_code_fence` leaves it. -/
def shown (text : Str) : Wrapping → Str
  | .plain => text
  | .fenced _ _ => text.relined

/-- In a fence no string of the array has a line boundary. -/
def Unbroken (text : Str) : Wrapping → Prop
  | .plain => True
  | .fenced _ _ => ∀ c ∈ text, isSeparator c = false

end Wrapping

/-- The objects of the array are read back. -/
def ReadBack (reply : Reply) (wrapping : Wrapping) : Prop :=
  parseJsonArray (wrapping.wrap reply.text) = some (reply.items.filterMap dictOf)

end Replies

section Fence

variable {text inner : Str} {first last : ℕ} {wrapping : Wrapping}

/-- A character that begins or ends an array or object -/
def isEnd (c : ℕ) : Bool := c == openBracket || c == closeBracket || c == openBrace || c == closeBrace

theorem isEnd_cases (end_ : isEnd first = true) :
    isSpaceCode first = false ∧ Str.isLineBreak first = false ∧ first ≠ 13 ∧ first ≠ 96 := by
  unfold isEnd at end_
  simp only [Bool.or_eq_true, beq_iff_eq] at end_
  rcases end_ with ((rfl | rfl) | rfl) | rfl <;> decide

theorem strip_ends (begins : isEnd first = true) (ends : isEnd last = true) (inner : Str) :
    Str.strip (first :: (inner ++ [last])) = first :: (inner ++ [last]) := by
  apply Str.strip_eq_self
  · rintro c ⟨⟩
    exact (isEnd_cases begins).1
  · intro c found
    rw [← List.cons_append, List.getLast?_concat] at found
    cases found
    exact (isEnd_cases ends).1

theorem relined_ends (begins : isEnd first = true) (ends : isEnd last = true) (inner : Str) :
    Str.relined (first :: (inner ++ [last])) = first :: (Str.relined inner ++ [last]) := by
  rw [Str.relined_cons (isEnd_cases begins).2.1, Str.relined_append_cons (isEnd_cases ends).2.1]
  rfl

theorem unbroken_fence (info : Str) (unbroken : ∀ c ∈ info, Str.isLineBreak c = false) :
    ∀ c ∈ fence ++ info, Str.isLineBreak c = false := by
  have plain : ∀ c ∈ fence, Str.isLineBreak c = false := by decide
  exact fun c member => (List.mem_append.mp member).elim (plain c) (unbroken c)

/-- The lines of a reply in a fence -/
theorem splitlines_fenced {info : Str} (unbroken : ∀ c ∈ info, Str.isLineBreak c = false)
    (alone : ∀ c ∈ text.getLast?, c ≠ 13) :
    Str.splitlines (fence ++ info ++ 10 :: (text ++ 10 :: fence)) =
      (fence ++ info) :: (Str.pieces text ++ [fence]) := by
  have first_alone : ∀ c ∈ (fence ++ info).getLast?, c ≠ 13 := by
    rintro c found rfl
    have plain := unbroken_fence info unbroken 13 (List.mem_of_getLast? found)
    cases plain
  have cut : Str.pieces (fence ++ info ++ 10 :: (text ++ 10 :: fence)) =
      (fence ++ info) :: (Str.pieces text ++ [fence]) := by
    have closing : Str.pieces fence = [fence] := by decide
    rw [Str.pieces_feed first_alone, Str.pieces_feed alone,
      Str.pieces_unbroken (unbroken_fence info unbroken), closing]
    rfl
  have shown : ((fence ++ info) :: (Str.pieces text ++ [fence])).getLast? = some fence := by
    rw [← List.cons_append, List.getLast?_concat]
  rw [Str.splitlines, cut, shown]
  exact if_neg (by decide)

theorem stripFence_fenced {info : Str} (unbroken : ∀ c ∈ info, Str.isLineBreak c = false)
    (alone : ∀ c ∈ text.getLast?, c ≠ 13) :
    stripCodeFence (fence ++ info ++ 10 :: (text ++ 10 :: fence)) = text.relined.strip := by
  have opens (rest : Str) : fence.isPrefixOf (fence ++ rest) = true :=
    List.isPrefixOf_iff_prefix.mpr (List.prefix_append _ _)
  have fenced : fence.isPrefixOf (fence ++ info ++ 10 :: (text ++ 10 :: fence)) = true := by
    rw [List.append_assoc]
    exact opens _
  have closes : (Str.pieces text ++ [fence]).getLast?.any (fun line => line.strip = fence) = true := by
    rw [List.getLast?_concat, Option.any_some]
    decide
  rw [stripCodeFence, stripFence, if_pos fenced, splitlines_fenced unbroken alone]
  dsimp only
  rw [List.head?_cons, Option.any_some, opens info, if_pos rfl, List.drop_one, List.tail_cons, closes,
    if_pos rfl, List.dropLast_concat, Str.join_pieces]

/-- The fence is taken away, and the lines between its first and its last one are joined. -/
theorem stripCodeFence_wrap (begins : isEnd first = true) (ends : isEnd last = true) (inner : Str)
    (wrapping : Wrapping) :
    stripCodeFence (wrapping.wrap (first :: (inner ++ [last]))).strip =
      wrapping.shown (first :: (inner ++ [last])) := by
  cases wrapping with
  | plain =>
    have unfenced : ¬ fence.isPrefixOf (first :: (inner ++ [last])) = true := by
      intro opens
      obtain ⟨rest, same⟩ := List.isPrefixOf_iff_prefix.mp opens
      exact (isEnd_cases begins).2.2.2 (List.cons.inj same).1.symm
    rw [Wrapping.wrap, Wrapping.shown, strip_ends begins ends, stripCodeFence, stripFence,
      if_neg unfenced]
  | fenced info unbroken =>
    have bare : (Wrapping.wrap (first :: (inner ++ [last])) (.fenced info unbroken)).strip =
        Wrapping.wrap (first :: (inner ++ [last])) (.fenced info unbroken) := by
      apply Str.strip_eq_self
      · rintro c ⟨⟩
        rfl
      · intro c found
        have whole : Wrapping.wrap (first :: (inner ++ [last])) (.fenced info unbroken) =
            (fence ++ info ++ 10 :: (first :: (inner ++ [last]) ++ [10, 96, 96])) ++ [96] := by
          simp [Wrapping.wrap, fence, Str.lit]
        rw [whole, List.getLast?_concat] at found
        cases found
        rfl
    have alone : ∀ c ∈ (first :: (inner ++ [last])).getLast?, c ≠ 13 := by
      intro c found
      rw [← List.cons_append, List.getLast?_concat] at found
      cases found
      exact (isEnd_cases ends).2.2.1
    rw [bare, Wrapping.wrap, stripFence_fenced unbroken alone, Wrapping.shown,
      relined_ends begins ends, strip_ends begins ends]

end Fence

/-- The text of an array, as it is handled -/
theorem array_of_loads {text : Str} {items : List Object}
    (loaded : Object.loads text = some (.list items)) (bare : text.strip = text) :
    ∃ inner, text = openBracket :: (inner ++ [closeBracket]) ∧ Balanced inner := by
  obtain ⟨v, loaded, made⟩ := Option.bind_eq_some_iff.mp loaded
  cases v with
  | arr values => exact array_text loaded bare
  | null | bool | str => cases made
  | number text =>
    change Object.ofNumber text = _ at made
    unfold Object.ofNumber at made
    dsimp only at made
    split_ifs at made <;> cases made
  | obj fields =>
    obtain ⟨entries, -, same⟩ := Option.map_eq_some_iff.mp made
    cases same

section Objects

variable {member : Member} {c : ℕ}

theorem blank_parts (member : Member) :
    (∀ c ∈ member.beforeKey, isBlank c = true) ∧ (∀ c ∈ member.afterKey, isBlank c = true) ∧
      (∀ c ∈ member.beforeValue, isBlank c = true) ∧
        ∀ c ∈ member.afterValue, isBlank c = true := by
  have blank := member.blank
  simp only [List.mem_append] at blank
  exact ⟨fun c inside => blank c (.inl (.inl (.inl inside))),
    fun c inside => blank c (.inl (.inl (.inr inside))),
    fun c inside => blank c (.inl (.inr inside)), fun c inside => blank c (.inr inside)⟩

theorem balanced_value (member : Member) : Balanced member.valueText := by
  obtain ⟨v, loaded, -⟩ := Option.bind_eq_some_iff.mp member.loaded
  exact loads_balanced loaded

theorem balanced_member (member : Member) : Balanced member.text := by
  obtain ⟨beforeKey, afterKey, beforeValue, afterValue⟩ := blank_parts member
  obtain ⟨inner, split, key, -⟩ := scanString_balanced member.named
  have value := ((balanced_value member).blanks_append beforeValue).append_blanks afterValue
  have whole := ((key.append_blanks afterKey).mark (.inr rfl) value).blanks_append beforeKey
  have same : member.text = member.beforeKey ++ ((quote :: (inner ++ [quote]) ++ member.afterKey) ++
      colon :: (member.beforeValue ++ member.valueText ++ member.afterValue)) := by
    rw [Member.text, split]
    simp
  rwa [same]

theorem join_split (before after : List Str) (text : Str) :
    Str.join [comma] (before ++ text :: after) =
      before.flatMap (· ++ [comma]) ++ (text ++ after.flatMap (comma :: ·)) := by
  induction before with
  | nil =>
    rw [List.nil_append, List.flatMap_nil, List.nil_append]
    induction after generalizing text with
    | nil => simp [Str.join, List.intercalate]
    | cons next after ih =>
      rw [Str.join, List.intercalate_cons_of_ne_nil (List.cons_ne_nil _ _), ← Str.join, ih,
        List.flatMap_cons]
      simp
  | cons first before ih =>
    rw [List.cons_append, Str.join, List.intercalate_cons_of_ne_nil (by simp), ← Str.join, ih,
      List.flatMap_cons]
    simp

/-- The members before another one lead to it. -/
theorem track_members (members : List Member) :
    track (.outside, 0) ((members.map Member.text).flatMap (· ++ [comma])) = some (.outside, 0) := by
  induction members with
  | nil => rfl
  | cons member members ih =>
    rw [List.map_cons, List.flatMap_cons, track_append, track_mark (balanced_member member) (.inl rfl)]
    exact ih

theorem mem_members (other : c ≠ comma) (members : List Member) :
    c ∈ (members.map Member.text).flatMap (· ++ [comma]) ↔ ∃ member ∈ members, c ∈ member.text := by
  simp [List.mem_flatMap, other]

theorem mem_members_behind (other : c ≠ comma) (members : List Member) :
    c ∈ (members.map Member.text).flatMap (comma :: ·) ↔ ∃ member ∈ members, c ∈ member.text := by
  simp [List.mem_flatMap, other]

theorem bracket_not_blank {run : Str} (blank : ∀ c ∈ run, isBlank c = true)
    (bracket : isEnd c = true) : c ∉ run := by
  intro inside
  have space := isSpaceCode_of_isBlank (blank c inside)
  rw [(isEnd_cases bracket).1] at space
  cases space

/-- What stands before the array of an object, and behind it -/
theorem exists_objectText (reply : ObjectReply) : ∃ lead k gap inner tail,
    reply.text = objectText lead k gap inner tail ∧ Leads lead k gap ∧ Balanced inner ∧
      Str.isLineBreak k = false ∧
      reply.results.valueText = openBracket :: (inner ++ [closeBracket]) ∧
      ((Reply.object reply).Clear ↔ openBracket ∉ lead ∧ closeBracket ∉ tail) := by
  obtain ⟨beforeKey, afterKey, beforeValue, afterValue⟩ := blank_parts reply.results
  have loaded := reply.results.loaded
  rw [reply.array] at loaded
  obtain ⟨inner, value, balanced⟩ := array_of_loads loaded reply.results.bare
  have named := reply.results.named
  rw [reply.named] at named
  obtain ⟨k, later, body, unclosed, first⟩ := scanString_first named
  obtain ⟨inside, split, -, brackets⟩ := scanString_balanced named
  obtain ⟨rest, rfl⟩ : ∃ rest, inside = k :: rest := by
    cases inside with
    | nil =>
      rw [body] at split
      exact absurd (List.cons.inj split).1 unclosed
    | cons d rest =>
      rw [body] at split
      exact ⟨rest, by rw [(List.cons.inj split).1]⟩
  have unopened : openBracket ∉ k :: rest := fun member => absurd (brackets member) (by decide)
  have plain_key : Str.isLineBreak k = false ∧ ∀ depth, markStep .closed depth k = none := by
    rcases first with rfl | rfl <;> exact ⟨rfl, fun depth => rfl⟩
  refine ⟨(reply.before.map Member.text).flatMap (· ++ [comma]) ++ reply.results.beforeKey, k,
    rest ++ quote :: (reply.results.afterKey ++ colon :: reply.results.beforeValue), inner,
    reply.results.afterValue ++ ((reply.after.map Member.text).flatMap (comma :: ·) ++ [closeBrace]),
    ?_, ⟨?_, plain_key.2, ?_⟩, balanced, plain_key.1, value, ?_⟩
  · rw [ObjectReply.text, List.map_append, List.map_cons, join_split, objectText, Member.text, split,
      value]
    simp
  · rw [track_append, track_members]
    exact track_blanks beforeKey (.inl rfl) 0
  · simp only [List.mem_cons, List.mem_append, not_or] at unopened ⊢
    exact ⟨unopened.1, unopened.2, by decide, bracket_not_blank afterKey rfl, by decide,
      bracket_not_blank beforeValue rfl⟩
  · have opening := mem_members (c := openBracket) (by decide) reply.before
    have closing := mem_members_behind (c := closeBracket) (by decide) reply.after
    have clear_before := bracket_not_blank (c := openBracket) beforeKey rfl
    have clear_after := bracket_not_blank (c := closeBracket) afterValue rfl
    rw [Reply.Clear, List.mem_append, List.mem_append, List.mem_append, opening, closing]
    simp [clear_before, clear_after]

end Objects

section Recovery

variable {reply : Reply} {wrapping : Wrapping} {cut text : Str}

/-- The array is read back exactly from these: no bracket of another member lies beyond its own, and in
a fence its strings have no line boundary. -/
def Recoverable (reply : Reply) (wrapping : Wrapping) : Prop :=
  reply.Clear ∧ wrapping.Unbroken reply.arrayText

/-- The shown array gives what it gives as it was, or nothing. -/
theorem loads_shown {items : List Object} (loaded : Object.loads text = some (.list items))
    (wrapping : Wrapping) :
    wrapping.Unbroken text ∧ Object.loads (wrapping.shown text) = some (.list items) ∨
      ¬ wrapping.Unbroken text ∧ Object.loads (wrapping.shown text) = none := by
  cases wrapping with
  | plain => exact .inl ⟨trivial, loaded⟩
  | fenced info unbroken =>
    obtain ⟨v, loaded, made⟩ := Option.bind_eq_some_iff.mp loaded
    by_cases plain : ∀ c ∈ text, isSeparator c = false
    · refine .inl ⟨plain, ?_⟩
      rw [Object.loads, Wrapping.shown, loads_relined loaded plain]
      exact made
    · refine .inr ⟨plain, ?_⟩
      have lost : loads (Str.relined text) = none := by
        rw [Option.eq_none_iff_forall_ne_some]
        exact fun v' loaded' => plain (separators_of_loads loaded loaded')
      rw [Object.loads, Wrapping.shown, lost]
      rfl

/-- What is cut out decides what is read. -/
theorem readBack_of_cut {first last : ℕ} {inner : Str} (begins : isEnd first = true)
    (ends : isEnd last = true) (whole : reply.text = first :: (inner ++ [last]))
    (found : Str.between openBracket closeBracket (wrapping.shown reply.text) = some cut) :
    (Object.loads cut = some (.list reply.items) → ReadBack reply wrapping) ∧
      (Object.loads cut = none → ¬ ReadBack reply wrapping) := by
  have cleaned : stripCodeFence (wrapping.wrap reply.text).strip = wrapping.shown reply.text := by
    rw [whole]
    exact stripCodeFence_wrap begins ends inner wrapping
  unfold ReadBack parseJsonArray
  rw [cleaned]
  dsimp only
  rw [found]
  dsimp only
  constructor
  · intro loaded
    rw [loaded]
  · intro lost
    rw [lost]
    exact (Option.some_ne_none _).symm

/-- Joining its lines keeps the parts of an object apart. -/
theorem shown_objectText {k : ℕ} (plain : Str.isLineBreak k = false) (lead gap inner tail : Str)
    (wrapping : Wrapping) : wrapping.shown (objectText lead k gap inner tail) =
      objectText (wrapping.shown lead) k (wrapping.shown gap) (wrapping.shown inner)
        (wrapping.shown tail) := by
  cases wrapping with
  | plain => rfl
  | fenced info unbroken =>
    simp only [Wrapping.shown, objectText]
    rw [Str.relined_cons (by decide), Str.relined_append_cons (by decide), Str.relined_cons plain,
      Str.relined_append_cons (by decide), Str.relined_append_cons (by decide)]

theorem mem_shown {c : ℕ} (plain : Str.isLineBreak c = false) (wrapping : Wrapping) (text : Str) :
    c ∈ wrapping.shown text ↔ c ∈ text := by
  cases wrapping with
  | plain => rfl
  | fenced info unbroken => exact Str.mem_relined plain text

theorem leads_shown {lead gap : Str} {k : ℕ} (leads : Leads lead k gap) (wrapping : Wrapping) :
    Leads (wrapping.shown lead) k (wrapping.shown gap) := by
  have unopened := leads.unopened
  rw [List.mem_cons, not_or] at unopened
  refine ⟨?_, leads.key, ?_⟩
  · cases wrapping with
    | plain => exact leads.tracked
    | fenced info unbroken => exact track_relined leads.tracked
  · rw [List.mem_cons, not_or, mem_shown (by decide)]
    exact unopened

theorem balanced_shown (balanced : Balanced text) (wrapping : Wrapping) :
    Balanced (wrapping.shown text) := by
  cases wrapping with
  | plain => exact balanced
  | fenced info unbroken => exact balanced_relined balanced

theorem shown_array (inner : Str) (wrapping : Wrapping) :
    wrapping.shown (openBracket :: (inner ++ [closeBracket])) =
      openBracket :: (wrapping.shown inner ++ [closeBracket]) := by
  cases wrapping with
  | plain => rfl
  | fenced info unbroken => exact relined_ends rfl rfl inner

theorem readBack_array (reply : ArrayReply) (wrapping : Wrapping) :
    ReadBack (.array reply) wrapping ↔ Recoverable (.array reply) wrapping := by
  obtain ⟨inner, whole, -⟩ := array_of_loads reply.loaded reply.bare
  have found : Str.between openBracket closeBracket (wrapping.shown reply.text) =
      some (wrapping.shown reply.text) := by
    rw [whole, shown_array]
    exact Str.between_append List.not_mem_nil List.not_mem_nil _
  obtain ⟨given, lost⟩ := readBack_of_cut rfl rfl (show Reply.text (.array reply) = _ from whole) found
  rcases loads_shown reply.loaded wrapping with ⟨unbroken, loaded⟩ | ⟨broken, unloaded⟩
  · exact iff_of_true (given loaded) ⟨trivial, unbroken⟩
  · exact iff_of_false (lost unloaded) fun recoverable => broken recoverable.2

theorem readBack_object (reply : ObjectReply) (wrapping : Wrapping) :
    ReadBack (.object reply) wrapping ↔ Recoverable (.object reply) wrapping := by
  obtain ⟨lead, k, gap, inner, tail, whole, leads, balanced, plain, value, clear⟩ :=
    exists_objectText reply
  have shown : wrapping.shown (Reply.text (.object reply)) =
      objectText (wrapping.shown lead) k (wrapping.shown gap) (wrapping.shown inner)
        (wrapping.shown tail) := by
    rw [← shown_objectText plain, ← whole]
    rfl
  have ends : ∃ inner, Reply.text (.object reply) = openBrace :: (inner ++ [closeBrace]) := ⟨_, rfl⟩
  obtain ⟨middle, ends⟩ := ends
  have loaded := reply.results.loaded
  rw [reply.array] at loaded
  by_cases lone : openBracket ∉ lead ∧ closeBracket ∉ tail
  · have found : Str.between openBracket closeBracket (wrapping.shown (Reply.text (.object reply))) =
        some (wrapping.shown reply.results.valueText) := by
      rw [shown, value, shown_array]
      exact between_objectText (leads_shown leads wrapping) (mt (mem_shown rfl wrapping lead).mp lone.1)
        (mt (mem_shown rfl wrapping tail).mp lone.2)
    obtain ⟨given, lost⟩ := readBack_of_cut rfl rfl ends found
    rcases loads_shown loaded wrapping with ⟨unbroken, reads⟩ | ⟨broken, unloaded⟩
    · exact iff_of_true (given reads) ⟨clear.mpr lone, unbroken⟩
    · exact iff_of_false (lost unloaded) fun recoverable => broken recoverable.2
  · have other : openBracket ∈ wrapping.shown lead ∨ closeBracket ∈ wrapping.shown tail := by
      rw [mem_shown rfl, mem_shown rfl]
      by_contra neither
      rw [not_or] at neither
      exact lone neither
    obtain ⟨cut, found, unloaded⟩ := loads_objectText (leads_shown leads wrapping)
      (balanced_shown balanced wrapping) other
    rw [← shown] at found
    have lost : Object.loads cut = none := by
      rw [Object.loads, unloaded]
      rfl
    exact iff_of_false ((readBack_of_cut rfl rfl ends found).2 lost) fun recoverable =>
      lone (clear.mp recoverable.1)

theorem readBack_iff (reply : Reply) (wrapping : Wrapping) :
    ReadBack reply wrapping ↔ Recoverable reply wrapping := by
  cases reply with
  | array reply => exact readBack_array reply wrapping
  | object reply => exact readBack_object reply wrapping

theorem loads_string {body key : Str} (named : scanString body = some (key, [])) :
    Object.loads (quote :: body) = some (.str key) := by
  have solid : skipBlanks (quote :: body) = quote :: body := rfl
  have read : loads (quote :: body) = some (.str key) := by
    unfold loads
    rw [if_neg (by simp), solid, value_quote, named]
    rfl
  rw [Object.loads, read]
  rfl

/-- A note before the results, with a bracket -/
def noteMember : Member where
  beforeKey := []
  body := Str.lit "note\""
  afterKey := []
  beforeValue := Str.lit " "
  valueText := Str.lit "\"see [1]\""
  afterValue := []
  key := Str.lit "note"
  value := .str (Str.lit "see [1]")
  blank := by decide
  named := by decide
  loaded := loads_string (by decide)
  bare := by decide

def resultsMember : Member where
  beforeKey := Str.lit " "
  body := Str.lit "results\""
  afterKey := []
  beforeValue := Str.lit " "
  valueText := Str.lit "[]"
  afterValue := []
  key := Str.lit "results"
  value := .list []
  blank := by decide
  named := by decide
  loaded := rfl
  bare := by decide

def notedReply : ObjectReply where
  before := [noteMember]
  results := resultsMember
  after := []
  items := []
  named := rfl
  array := rfl
  last := fun _ member => absurd member List.not_mem_nil

theorem notedReply_not_readBack : ¬ ReadBack (.object notedReply) .plain := by
  intro read
  have lost : (parseJsonArray (Wrapping.wrap notedReply.text .plain)).isNone = true := by
    decide +kernel
  have whole : Reply.text (.object notedReply) = notedReply.text := rfl
  rw [ReadBack, whole] at read
  rw [read] at lost
  cases lost

end Recovery

end HeyeeAgent.Rag
