import Mathlib.Data.List.Infix
import Mathlib.Data.List.Lemmas

/-! # Replacing a word that may stand in its replacement

One scan from the left replaces every occurrence of a source by a target, but copies a target that
begins where a source was found. Each letter has its piece of the result, so what is copied can be
told from what is inserted.
-/

namespace GuardedReplacement

variable {α : Type*} {source target text rest word u v : List α} {c : α}

/-- The pieces of letters that are copied -/
def singles (text : List α) : List (List α) := text.map fun c => [c]

@[simp] theorem length_singles (text : List α) : (singles text).length = text.length :=
  List.length_map _

@[simp] theorem singles_append (u v : List α) : singles (u ++ v) = singles u ++ singles v :=
  List.map_append

@[simp] theorem flatten_singles (text : List α) : (singles text).flatten = text := by
  rw [singles, ← List.flatMap_def, List.flatMap_singleton']

theorem ne_nil_of_starts (source_ne : source ≠ []) (starts : source <+: target) : target ≠ [] := by
  rintro rfl
  exact source_ne (List.prefix_nil.mp starts)

variable [DecidableEq α]

/-- The pieces of the letters, with the numbers of letters that are still to be copied and skipped. -/
def piecesFrom (source target : List α) : ℕ → ℕ → List α → List (List α)
  | _, _, [] => []
  | copied + 1, skipped, c :: rest => [c] :: piecesFrom source target copied skipped rest
  | 0, skipped + 1, _ :: rest => [] :: piecesFrom source target 0 skipped rest
  | 0, 0, c :: rest =>
    if source <+: c :: rest then
      if target <+: c :: rest then [c] :: piecesFrom source target (target.length - 1) 0 rest
      else target :: piecesFrom source target 0 (source.length - 1) rest
    else [c] :: piecesFrom source target 0 0 rest

def pieces (source target text : List α) : List (List α) := piecesFrom source target 0 0 text

/-- The text after the replacement -/
def result (source target text : List α) : List α := (pieces source target text).flatten

/-- The text is left as it is. -/
def Stable (source target text : List α) : Prop := pieces source target text = singles text

section Scan

theorem pieces_nil : pieces source target [] = [] := rfl

theorem piecesFrom_copied (copied skipped : ℕ) (c : α) (rest : List α) :
    piecesFrom source target (copied + 1) skipped (c :: rest) =
      [c] :: piecesFrom source target copied skipped rest := rfl

theorem piecesFrom_skipped (skipped : ℕ) (c : α) (rest : List α) :
    piecesFrom source target 0 (skipped + 1) (c :: rest) =
      [] :: piecesFrom source target 0 skipped rest := rfl

theorem pieces_cons (c : α) (rest : List α) : pieces source target (c :: rest) =
    if source <+: c :: rest then
      if target <+: c :: rest then [c] :: piecesFrom source target (target.length - 1) 0 rest
      else target :: piecesFrom source target 0 (source.length - 1) rest
    else [c] :: pieces source target rest := rfl

theorem pieces_plain (missed : ¬ source <+: c :: rest) :
    pieces source target (c :: rest) = [c] :: pieces source target rest := by
  rw [pieces_cons, if_neg missed]

theorem piecesFrom_copy (u rest : List α) : piecesFrom source target u.length 0 (u ++ rest) =
    singles u ++ pieces source target rest := by
  induction u with
  | nil => rfl
  | cons c u ih =>
    rw [List.length_cons, List.cons_append, piecesFrom_copied, ih]
    rfl

theorem piecesFrom_skip (u rest : List α) : piecesFrom source target 0 u.length (u ++ rest) =
    List.replicate u.length [] ++ pieces source target rest := by
  induction u with
  | nil => rfl
  | cons c u ih =>
    rw [List.length_cons, List.cons_append, piecesFrom_skipped, ih]
    rfl

/-- A target at a source is copied. -/
theorem pieces_target (present : target ≠ []) (found : source <+: target ++ rest) :
    pieces source target (target ++ rest) = singles target ++ pieces source target rest := by
  obtain ⟨c, target', rfl⟩ := List.exists_cons_of_ne_nil present
  rw [List.cons_append] at found ⊢
  have guarded : c :: target' <+: c :: (target' ++ rest) := ⟨rest, rfl⟩
  rw [pieces_cons, if_pos found, if_pos guarded, List.length_cons, Nat.add_sub_cancel,
    piecesFrom_copy]
  rfl

/-- Another source is replaced. -/
theorem pieces_source (present : source ≠ []) (unguarded : ¬ target <+: source ++ rest) :
    pieces source target (source ++ rest) =
      (target :: List.replicate (source.length - 1) []) ++ pieces source target rest := by
  obtain ⟨c, source', rfl⟩ := List.exists_cons_of_ne_nil present
  rw [List.cons_append] at unguarded ⊢
  have found : c :: source' <+: c :: (source' ++ rest) := ⟨rest, rfl⟩
  rw [pieces_cons, if_pos found, if_neg unguarded, List.length_cons, Nat.add_sub_cancel,
    piecesFrom_skip]
  rfl

/-- The scan of a text, turn by turn -/
@[elab_as_elim]
theorem scan_induction (source_ne : source ≠ []) (target_ne : target ≠ [])
    {motive : List α → Prop} (nil : motive [])
    (plain : ∀ c rest, ¬ source <+: c :: rest → motive rest → motive (c :: rest))
    (copied : ∀ rest, source <+: target ++ rest → motive rest → motive (target ++ rest))
    (replaced : ∀ rest, ¬ target <+: source ++ rest → motive rest → motive (source ++ rest))
    (text : List α) : motive text := by
  induction length : text.length using Nat.strong_induction_on generalizing text with
  | _ n ih =>
    cases text with
    | nil => exact nil
    | cons c rest =>
      by_cases found : source <+: c :: rest
      · by_cases guarded : target <+: c :: rest
        · obtain ⟨later, same⟩ := guarded
          rw [← same] at found length ⊢
          refine copied later found (ih later.length ?_ later rfl)
          have positive := List.length_pos_iff.mpr target_ne
          rw [List.length_append] at length
          omega
        · obtain ⟨later, same⟩ := found
          rw [← same] at guarded length ⊢
          refine replaced later guarded (ih later.length ?_ later rfl)
          have positive := List.length_pos_iff.mpr source_ne
          rw [List.length_append] at length
          omega
      · exact plain c rest found (ih rest.length (by rw [← length]; exact Nat.lt_succ_self _) rest rfl)

end Scan

section Result

theorem result_plain (missed : ¬ source <+: c :: rest) :
    result source target (c :: rest) = c :: result source target rest := by
  rw [result, pieces_plain missed]
  rfl

theorem result_target (present : target ≠ []) (found : source <+: target ++ rest) :
    result source target (target ++ rest) = target ++ result source target rest := by
  rw [result, pieces_target present found, List.flatten_append, flatten_singles, ← result]

theorem result_source (present : source ≠ []) (unguarded : ¬ target <+: source ++ rest) :
    result source target (source ++ rest) = target ++ result source target rest := by
  rw [result, pieces_source present unguarded, List.flatten_append, List.flatten_cons,
    List.flatten_replicate_nil, List.append_nil, ← result]

variable (source_ne : source ≠ []) (target_ne : target ≠ [])
include source_ne target_ne

theorem length_pieces (text : List α) :
    (pieces source target text).length = text.length := by
  induction text using scan_induction source_ne target_ne with
  | nil => rfl
  | plain c rest missed ih => rw [pieces_plain missed, List.length_cons, ih, List.length_cons]
  | copied rest found ih =>
    rw [pieces_target target_ne found, List.length_append, length_singles, ih, List.length_append]
  | replaced rest unguarded ih =>
    have positive := List.length_pos_iff.mpr source_ne
    rw [pieces_source source_ne unguarded, List.length_append, ih, List.length_append,
      List.length_cons, List.length_replicate, Nat.sub_add_cancel positive]

end Result

section Foreign

/-- No letter of the source and the target is one of the text. -/
def Foreign (source target text : List α) : Prop := ∀ c ∈ text, c ∉ source ∧ c ∉ target

omit [DecidableEq α] in
theorem prefix_of_foreign (other : c ∉ word) (found : word <+: u ++ c :: v) : word <+: u := by
  have whole : u ++ [c] <+: u ++ c :: v := ⟨v, by rw [List.append_assoc, List.singleton_append]⟩
  rcases Nat.lt_or_ge u.length word.length with longer | fits
  · have inside := List.prefix_of_prefix_length_le whole found
      (by rw [List.length_append]; exact longer)
    exact absurd (inside.subset (List.mem_append_right u (List.mem_singleton_self c))) other
  · exact List.prefix_of_prefix_length_le found (List.prefix_append u _) fits

variable (source_ne : source ≠ []) (target_ne : target ≠ [])
include source_ne target_ne

/-- A foreign letter cuts the scan in two. -/
theorem pieces_cut (other : c ∉ source ∧ c ∉ target) (u v : List α) :
    pieces source target (u ++ c :: v) =
      pieces source target u ++ [c] :: pieces source target v := by
  induction u using scan_induction source_ne target_ne with
  | nil =>
    refine pieces_plain fun found => source_ne ?_
    exact List.prefix_nil.mp (@prefix_of_foreign α source [] v c other.1 found)
  | plain c' rest missed ih =>
    have still : ¬ source <+: c' :: (rest ++ c :: v) := fun found =>
      missed (prefix_of_foreign other.1 found)
    rw [List.cons_append, pieces_plain still, pieces_plain missed, ih, List.cons_append]
  | copied rest found ih =>
    have still : source <+: target ++ (rest ++ c :: v) := by
      rw [← List.append_assoc]
      exact found.trans (List.prefix_append _ _)
    rw [List.append_assoc, pieces_target target_ne still, pieces_target target_ne found, ih,
      List.append_assoc]
  | replaced rest unguarded ih =>
    have still : ¬ target <+: source ++ (rest ++ c :: v) := fun found => by
      rw [← List.append_assoc] at found
      exact unguarded (prefix_of_foreign other.2 found)
    rw [List.append_assoc, pieces_source source_ne still, pieces_source source_ne unguarded, ih,
      List.append_assoc]

/-- Foreign letters are copied, and what stands around them is scanned apart. -/
theorem pieces_around (foreign : Foreign source target word) (present : word ≠ [])
    (u v : List α) : pieces source target (u ++ word ++ v) =
      pieces source target u ++ singles word ++ pieces source target v := by
  induction word generalizing u with
  | nil => exact absurd rfl present
  | cons c word ih =>
    obtain ⟨first, later⟩ := List.forall_mem_cons.mp foreign
    rw [List.append_assoc, List.cons_append, pieces_cut source_ne target_ne first]
    rcases eq_or_ne word [] with rfl | more
    · rw [List.nil_append, List.append_assoc]
      rfl
    · have rest := ih later more []
      rw [List.nil_append, pieces_nil, List.nil_append] at rest
      rw [rest, List.append_assoc]
      rfl

theorem stable_of_foreign (foreign : Foreign source target text) : Stable source target text := by
  rcases eq_or_ne text [] with rfl | present
  · rfl
  have around := pieces_around source_ne target_ne foreign present [] []
  rwa [List.append_nil, List.nil_append, pieces_nil, List.nil_append, List.append_nil] at around

theorem stable_around_iff (foreign : Foreign source target word) (present : word ≠ []) :
    Stable source target (u ++ word ++ v) ↔ Stable source target u ∧ Stable source target v := by
  rw [Stable, pieces_around source_ne target_ne foreign present, singles_append, singles_append]
  constructor
  · intro same
    have lengths : (pieces source target u ++ singles word).length =
        (singles u ++ singles word).length := by
      rw [List.length_append, List.length_append, length_pieces source_ne target_ne,
        length_singles u]
    obtain ⟨left, right⟩ := List.append_inj same lengths
    exact ⟨List.append_cancel_right left, right⟩
  · rintro ⟨left, right⟩
    rw [left, right]

end Foreign

section Idempotence

variable (source_ne : source ≠ []) (starts : source <+: target)
include source_ne starts

/-- Targets that begin with their source do not change where a source is found first. -/
theorem take_result (text : List α) :
    (result source target text).take source.length = text.take source.length := by
  have target_ne : target ≠ [] := ne_nil_of_starts source_ne starts
  have target_take (rest : List α) : (target ++ rest).take source.length = source := by
    rw [← List.prefix_iff_eq_take.mp (starts.trans (List.prefix_append target rest))]
  induction text using scan_induction source_ne target_ne with
  | nil => rfl
  | plain c rest missed ih =>
    obtain ⟨n, length⟩ := Nat.exists_eq_succ_of_ne_zero (mt List.length_eq_zero_iff.mp source_ne)
    rw [length] at ih
    rw [result_plain missed, length, List.take_succ_cons, List.take_succ_cons]
    have shorter := congrArg (List.take n) ih
    rw [List.take_take, List.take_take, Nat.min_eq_left n.le_succ] at shorter
    rw [shorter]
  | copied rest found ih => rw [result_target target_ne found, target_take, target_take]
  | replaced rest unguarded ih =>
    rw [result_source source_ne unguarded, target_take, List.take_left]

/-- A second scan copies everything. -/
theorem stable_result (text : List α) : Stable source target (result source target text) := by
  have target_ne : target ≠ [] := ne_nil_of_starts source_ne starts
  have again (rest : List α) (stable : Stable source target (result source target rest)) :
      Stable source target (target ++ result source target rest) := by
    rw [Stable, pieces_target target_ne (starts.trans (List.prefix_append _ _)), stable,
      singles_append]
  induction text using scan_induction source_ne target_ne with
  | nil => rfl
  | plain c rest missed ih =>
    have still : ¬ source <+: c :: result source target rest := by
      intro found
      apply missed
      rw [← result_plain missed] at found
      rw [List.prefix_iff_eq_take] at found ⊢
      rw [← take_result source_ne starts (c :: rest)]
      exact found
    rw [Stable, result_plain missed, pieces_plain still, ih]
    rfl
  | copied rest found ih =>
    rw [result_target target_ne found]
    exact again rest ih
  | replaced rest unguarded ih =>
    rw [result_source source_ne unguarded]
    exact again rest ih

end Idempotence

section Apart

variable {source' target' : List α} (source_ne : source ≠ []) (target_ne : target ≠ [])

omit [DecidableEq α] in
theorem result_of_stable [DecidableEq α] (stable : Stable source target text) :
    result source target text = text := by
  rw [result, stable, flatten_singles]

include source_ne target_ne

/-- Another replacement leaves a text stable that shares no letter with it. -/
theorem Stable.result_of_foreign (source_ne' : source' ≠ []) (target_ne' : target' ≠ [])
    (foreign_source : Foreign source target source') (foreign_target : Foreign source target target')
    (u : List α) (stable : Stable source target (u ++ text)) :
    Stable source target (u ++ result source' target' text) := by
  induction text using scan_induction source_ne' target_ne' generalizing u with
  | nil => exact stable
  | plain c rest missed ih =>
    rw [result_plain missed]
    have moved := ih (u ++ [c])
    rw [List.append_assoc, List.append_assoc] at moved
    exact moved stable
  | copied rest found ih =>
    rw [result_target target_ne' found]
    have moved := ih (u ++ target')
    rw [List.append_assoc, List.append_assoc] at moved
    exact moved stable
  | replaced rest unguarded ih =>
    rw [← List.append_assoc, stable_around_iff source_ne target_ne foreign_source source_ne'] at stable
    rw [result_source source_ne' unguarded, ← List.append_assoc,
      stable_around_iff source_ne target_ne foreign_target target_ne']
    exact ⟨stable.1, ih [] stable.2⟩

omit source_ne target_ne [DecidableEq α] in
theorem eq_nil_of_starts {block : List α} (present : block ≠ []) (apart : ∀ c ∈ word, c ∉ block)
    (found : word <+: block ++ rest) : word = [] := by
  rcases eq_or_ne word [] with empty | visible
  · exact empty
  obtain ⟨c, word', rfl⟩ := List.exists_cons_of_ne_nil visible
  obtain ⟨c', block', rfl⟩ := List.exists_cons_of_ne_nil present
  have same := (List.cons_prefix_cons.mp found).1
  exact absurd (same ▸ List.mem_cons_self) (apart c List.mem_cons_self)

omit source_ne target_ne [DecidableEq α] in
theorem suffix_of_apart {block : List α} (apart : ∀ c ∈ word, c ∉ block)
    (found : word <:+ block ++ rest) : word <:+ rest := by
  obtain ⟨before, same⟩ := found
  rcases List.append_eq_append_iff.mp same with ⟨shared, inside, outside⟩ | ⟨shared, -, outside⟩
  · cases shared with
    | nil => exact ⟨[], outside⟩
    | cons c shared =>
      refine absurd ?_ (apart c (outside ▸ List.mem_cons_self))
      rw [inside]
      exact List.mem_append_right _ List.mem_cons_self
  · exact ⟨shared, outside.symm⟩

/-- A start of the result without letters of the target was there before. -/
theorem prefix_of_prefix_result (apart : ∀ c ∈ word, c ∉ target)
    (found : word <+: result source target text) : word <+: text := by
  induction text using scan_induction source_ne target_ne generalizing word with
  | nil => exact found
  | plain c rest missed ih =>
    rw [result_plain missed] at found
    rcases List.prefix_cons_iff.mp found with rfl | ⟨word', rfl, later⟩
    · exact List.nil_prefix
    · exact List.cons_prefix_cons.mpr ⟨rfl, ih (List.forall_mem_cons.mp apart).2 later⟩
  | copied rest guarded ih =>
    rw [result_target target_ne guarded] at found
    rw [eq_nil_of_starts target_ne apart found]
    exact List.nil_prefix
  | replaced rest unguarded ih =>
    rw [result_source source_ne unguarded] at found
    rw [eq_nil_of_starts target_ne apart found]
    exact List.nil_prefix

/-- A result without letters of the target is the text. -/
theorem result_eq_self (apart : ∀ c ∈ result source target text, c ∉ target) :
    result source target text = text := by
  have clash {rest : List α} (apart : ∀ c ∈ target ++ rest, c ∉ target) : False := by
    obtain ⟨c, target', rfl⟩ := List.exists_cons_of_ne_nil target_ne
    exact apart c List.mem_cons_self List.mem_cons_self
  induction text using scan_induction source_ne target_ne with
  | nil => rfl
  | plain c rest missed ih =>
    rw [result_plain missed] at apart ⊢
    rw [ih (List.forall_mem_cons.mp apart).2]
  | copied rest guarded ih =>
    rw [result_target target_ne guarded] at apart
    exact (clash apart).elim
  | replaced rest unguarded ih =>
    rw [result_source source_ne unguarded] at apart
    exact (clash apart).elim

/-- An end of the result without letters of the target was there before. -/
theorem suffix_of_suffix_result (apart : ∀ c ∈ word, c ∉ target)
    (found : word <:+ result source target text) : word <:+ text := by
  induction text using scan_induction source_ne target_ne with
  | nil => exact found
  | plain c rest missed ih =>
    rw [result_plain missed] at found
    rcases List.suffix_cons_iff.mp found with rfl | later
    · rw [result_eq_self source_ne target_ne (List.forall_mem_cons.mp apart).2]
    · exact (ih later).trans (List.suffix_cons c rest)
  | copied rest guarded ih =>
    rw [result_target target_ne guarded] at found
    exact (ih (suffix_of_apart apart found)).trans (List.suffix_append _ _)
  | replaced rest unguarded ih =>
    rw [result_source source_ne unguarded] at found
    exact (ih (suffix_of_apart apart found)).trans (List.suffix_append _ _)

end Apart

section Clear

variable {before after : List α}

/-- Where the source stands in the text so that it overlaps the middle, it stands inside. -/
def Clear (source before middle after : List α) : Prop :=
  ∀ o, source <+: (before ++ middle ++ after).drop o → o < before.length + middle.length →
    before.length < o + source.length →
      before.length ≤ o ∧ o + source.length ≤ before.length + middle.length

/-- A copied target can hide the start of the next one, so that the source in what is left of that
one is replaced. -/
def Reexpands (source target : List α) : Prop :=
  ∃ first border rest, target = first ++ border ∧ target = border ++ rest ∧ border ≠ [] ∧
    source <:+: rest ∧
      ∀ o < first.length, source <+: (first ++ target).drop o → o + source.length ≤ first.length

/-- The letters of the middle are copied by the scan. -/
def CopiedBy (source target before middle after : List α) : Prop :=
  ∃ left right, left.length = before.length ∧
    pieces source target (before ++ middle ++ after) = left ++ singles middle ++ right

/-- A text that is too short for the target but has a source is changed. -/
theorem not_stable_of_short (source_ne : source ≠ []) (found : source <:+: text)
    (short : text.length < target.length) : ¬ Stable source target text := by
  intro stable
  induction text with
  | nil => exact source_ne (List.infix_nil.mp found)
  | cons c rest ih =>
    by_cases here : source <+: c :: rest
    · obtain ⟨later, same⟩ := here
      have unguarded : ¬ target <+: source ++ later := fun guarded => by
        have fits := guarded.length_le
        rw [same] at fits
        omega
      rw [Stable, ← same, pieces_source source_ne unguarded, same] at stable
      have head := (List.cons.inj stable).1
      rw [head] at short
      simp at short
    · have later := (List.infix_cons_iff.mp found).resolve_left here
      rw [Stable, pieces_plain here] at stable
      exact ih later (Nat.lt_of_succ_lt short) (List.cons.inj stable).2

/-- Where the source does not begin in the start of a text, that start is copied. -/
theorem pieces_of_missed (missed : ∀ w, w ≠ [] → w <:+ u → ¬ source <+: w ++ v) :
    pieces source target (u ++ v) = singles u ++ pieces source target v := by
  induction u with
  | nil => rfl
  | cons c u ih =>
    have first := missed (c :: u) (List.cons_ne_nil c u) List.suffix_rfl
    rw [List.cons_append] at first
    rw [List.cons_append, pieces_plain first,
      ih fun w present suffix => missed w present (suffix.trans (List.suffix_cons c u))]
    rfl

omit [DecidableEq α] in
theorem Clear.of_append {middle : List α} (clear : Clear source (u ++ before) middle after) :
    Clear source before middle after := by
  intro o found inside across
  have there : source <+: (u ++ before ++ middle ++ after).drop (u.length + o) := by
    rwa [List.append_assoc, List.append_assoc, List.drop_length_add_append, ← List.append_assoc]
  rw [Clear, List.length_append] at clear
  have bounds := clear (u.length + o) there (by omega) (by omega)
  omega

omit [DecidableEq α] in
/-- At the end of the text the source can only overlap from the left. -/
theorem clear_of_last {middle : List α}
    (left : ∀ o < before.length, source <+: (before ++ middle).drop o →
      o + source.length ≤ before.length) : Clear source before middle [] := by
  intro o found inside across
  rw [List.append_nil] at found
  have fits := found.length_le
  rw [List.length_drop, List.length_append] at fits
  refine ⟨?_, by omega⟩
  by_contra before_middle
  have := left o (not_le.mp before_middle) found
  omega

/-- What is scanned apart in front of the text changes nothing about the middle. -/
theorem CopiedBy.append {middle block : List α} {scanned : List (List α)}
    (copied : CopiedBy source target before middle after) (count : scanned.length = block.length)
    (apart : pieces source target (block ++ (before ++ middle ++ after)) =
      scanned ++ pieces source target (before ++ middle ++ after)) :
    CopiedBy source target (block ++ before) middle after := by
  obtain ⟨left, right, length, same⟩ := copied
  refine ⟨scanned ++ left, right, by rw [List.length_append, count, length, List.length_append], ?_⟩
  rw [same] at apart
  rw [List.append_assoc block, List.append_assoc block, apart]
  simp only [List.append_assoc]

section Copying

variable (source_ne : source ≠ []) (starts : source <+: target)
include source_ne starts

omit source_ne in
/-- Behind a copied target that overlaps the next one, no source is left of that one. -/
theorem copiedBy_of_overlap (calm : ¬ Reexpands source target)
    (clear : Clear source before target after) (guarded : target <+: before ++ target ++ after)
    (short : before.length < target.length) : CopiedBy source target before target after := by
  rw [List.append_assoc] at guarded
  obtain ⟨border, first⟩ := List.prefix_of_prefix_length_le (List.prefix_append before _) guarded
    short.le
  have border_ne : border ≠ [] := by
    rintro rfl
    rw [← first, List.append_nil] at short
    exact lt_irrefl _ short
  have again : border <+: target := by
    nth_rewrite 1 [← first] at guarded
    refine List.prefix_of_prefix_length_le ((List.prefix_append_right_inj before).mp guarded)
      (List.prefix_append target after) ?_
    rw [← first, List.length_append]
    omega
  obtain ⟨rest, second⟩ := again
  have target_ne : target ≠ [] := fun empty => by
    rw [empty] at short
    exact Nat.not_lt_zero _ short
  have whole : before ++ target ++ after = target ++ (rest ++ after) := by
    calc before ++ target ++ after = before ++ (border ++ rest) ++ after := by rw [second]
      _ = (before ++ border) ++ (rest ++ after) := by simp only [List.append_assoc]
      _ = target ++ (rest ++ after) := by rw [first]
  have missed : ∀ w, w ≠ [] → w <:+ rest → ¬ source <+: w ++ after := by
    rintro w present ⟨x, rfl⟩ found
    have lengths := congrArg List.length second
    rw [List.length_append, List.length_append] at lengths
    have positive := List.length_pos_iff.mpr present
    rcases Nat.lt_or_ge w.length source.length with crosses | fits
    · have place : (before ++ target ++ after).drop (before.length + (border.length + x.length)) =
          w ++ after := by
        rw [← second, List.append_assoc, List.drop_length_add_append, List.append_assoc,
          List.drop_length_add_append, List.append_assoc, List.drop_left]
      have bounds := clear _ (place ▸ found) (by omega) (by omega)
      omega
    · refine calm ⟨before, border, x ++ w, first.symm, second.symm, border_ne, ?_, ?_⟩
      · exact (List.prefix_of_prefix_length_le found (List.prefix_append w after) fits).isInfix.trans
          (List.suffix_append x w).isInfix
      · intro o less found
        have there : source <+: (before ++ target ++ after).drop o := by
          rw [List.drop_append_of_le_length (by rw [List.length_append]; omega)]
          exact found.trans (List.prefix_append _ _)
        by_contra across
        have bounds := clear o there (by omega) (not_le.mp across)
        omega
  refine ⟨singles before, pieces source target after, length_singles before, ?_⟩
  rw [whole, pieces_target target_ne (starts.trans (List.prefix_append _ _)),
    pieces_of_missed missed, ← List.append_assoc, ← singles_append, ← singles_append]
  nth_rewrite 1 [← first]
  rw [List.append_assoc, second]

/-- A target that no source overlaps from outside is copied. -/
theorem copiedBy_of_clear (calm : ¬ Reexpands source target)
    (clear : Clear source before target after) : CopiedBy source target before target after := by
  have target_ne : target ≠ [] := ne_nil_of_starts source_ne starts
  induction length : before.length using Nat.strong_induction_on generalizing before with
  | _ n ih =>
    cases before with
    | nil =>
      refine ⟨[], pieces source target after, rfl, ?_⟩
      exact pieces_target target_ne (starts.trans (List.prefix_append _ _))
    | cons c before =>
      by_cases found : source <+: c :: before ++ target ++ after
      · have fits : source.length ≤ (c :: before).length := by
          by_contra longer
          have positive := List.length_pos_iff.mpr target_ne
          have bounds := clear 0 found (by omega) (by omega)
          exact absurd bounds.1 (Nat.not_succ_le_zero _)
        by_cases guarded : target <+: c :: before ++ target ++ after
        · rcases Nat.lt_or_ge (c :: before).length target.length with short | within
          · exact copiedBy_of_overlap starts calm clear guarded short
          · rw [List.append_assoc] at guarded
            obtain ⟨later, same⟩ := List.prefix_of_prefix_length_le guarded
              (List.prefix_append (c :: before) _) within
            rw [← same] at clear length ⊢
            have positive := List.length_pos_iff.mpr target_ne
            rw [List.length_append] at length
            refine (ih later.length (by omega) clear.of_append rfl).append
              (length_singles target) ?_
            exact pieces_target target_ne (starts.trans (List.prefix_append _ _))
        · rw [List.append_assoc] at found
          obtain ⟨later, same⟩ := List.prefix_of_prefix_length_le found
            (List.prefix_append (c :: before) _) fits
          rw [← same] at clear length guarded ⊢
          have positive := List.length_pos_iff.mpr source_ne
          rw [List.length_append] at length
          have block : (target :: List.replicate (source.length - 1) []).length = source.length := by
            rw [List.length_cons, List.length_replicate, Nat.sub_add_cancel positive]
          rw [List.append_assoc source, List.append_assoc source] at guarded
          exact (ih later.length (by omega) clear.of_append rfl).append block
            (pieces_source source_ne guarded)
      · have shorter : before.length < n := by rw [← length]; exact Nat.lt_succ_self _
        have rest := ih before.length shorter (@Clear.of_append α source [c] before _ target clear) rfl
        exact @CopiedBy.append α _ _ _ _ _ _ [c] [[c]] rest rfl (pieces_plain found)

end Copying

/-- The start of a target is needed: else the target itself is expanded. -/
theorem not_copiedBy_self (source_ne : source ≠ []) (found : source <:+: target)
    (other : ¬ source <+: target) : ¬ CopiedBy source target [] target [] := by
  rintro ⟨left, right, count, same⟩
  obtain rfl := List.length_eq_zero_iff.mp count
  have target_ne : target ≠ [] := fun empty => source_ne (List.infix_nil.mp (empty ▸ found))
  rw [List.nil_append, List.append_nil, List.nil_append] at same
  have lengths := congrArg List.length same
  rw [length_pieces source_ne target_ne, List.length_append, length_singles] at lengths
  have stable : Stable source target target := by
    rw [Stable, same, List.length_eq_zero_iff.mp (by omega : right.length = 0), List.append_nil]
  obtain ⟨c, target', split⟩ := List.exists_cons_of_ne_nil target_ne
  have later : source <:+: target' :=
    (List.infix_cons_iff.mp (split ▸ found)).resolve_left fun here => other (split ▸ here)
  have missed : ¬ source <+: c :: target' := fun here => other (split ▸ here)
  have short : target'.length < target.length := by
    rw [split]
    exact Nat.lt_succ_self _
  have whole : pieces source target (c :: target') = singles (c :: target') := by
    rw [← split]
    exact stable
  rw [pieces_plain missed] at whole
  exact not_stable_of_short source_ne later short (List.cons.inj whole).2

/-- A target that can be hidden by another one is expanded. -/
theorem exists_not_copiedBy (source_ne : source ≠ []) (starts : source <+: target)
    (reexpands : Reexpands source target) :
    ∃ before, before <+: target ∧ Clear source before target [] ∧
      ¬ CopiedBy source target before target [] := by
  obtain ⟨before, border, rest, first, second, border_ne, found, left⟩ := reexpands
  have target_ne : target ≠ [] := ne_nil_of_starts source_ne starts
  refine ⟨before, ⟨border, first.symm⟩, clear_of_last left, ?_⟩
  rintro ⟨front, back, count, same⟩
  have whole : before ++ target ++ [] = target ++ rest := by
    calc before ++ target ++ [] = before ++ (border ++ rest) := by rw [List.append_nil, second]
      _ = target ++ rest := by rw [← List.append_assoc, first]
  have lengths := congrArg List.length same
  rw [length_pieces source_ne target_ne, List.append_nil, List.length_append, List.length_append,
    List.length_append, length_singles, count] at lengths
  obtain rfl := List.length_eq_zero_iff.mp (by omega : back.length = 0)
  rw [whole, pieces_target target_ne (starts.trans (List.prefix_append _ _)), List.append_nil] at same
  have stable : Stable source target rest := by
    have split : singles target = singles before ++ singles border := by
      rw [← singles_append, ← first]
    rw [split, List.append_assoc] at same
    obtain ⟨-, rest_same⟩ := List.append_inj same (by rw [length_singles, count])
    have again : singles target = singles border ++ singles rest := by
      rw [← singles_append, ← second]
    rw [← split, again] at rest_same
    exact (List.append_inj rest_same rfl).2
  refine not_stable_of_short source_ne found ?_ stable
  have positive := List.length_pos_iff.mpr border_ne
  rw [second, List.length_append]
  omega

omit [DecidableEq α] in
/-- A target whose letters are distinct hides no other one. -/
theorem not_reexpands_of_nodup (source_ne : source ≠ []) (distinct : target.Nodup) :
    ¬ Reexpands source target := by
  rintro ⟨first, border, rest, split, again, border_ne, found, -⟩
  obtain ⟨c, border, rfl⟩ := List.exists_cons_of_ne_nil border_ne
  cases first with
  | nil =>
    rw [again, List.nil_append, List.append_right_eq_self] at split
    exact source_ne (List.infix_nil.mp (split ▸ found))
  | cons c' first =>
    rw [again] at split
    have same := (List.cons.inj split).1
    rw [again, split, List.cons_append] at distinct
    refine (List.nodup_cons.mp distinct).1 ?_
    rw [← same]
    exact List.mem_append_right _ List.mem_cons_self

/-- A replacement with other letters keeps the middle clear. -/
theorem Clear.result {source' target' middle : List α} (source_ne : source' ≠ [])
    (target_ne : target' ≠ []) (apart : ∀ c ∈ source, c ∉ target')
    (clear : Clear source before middle after) :
    Clear source (result source' target' before) middle (result source' target' after) := by
  -- what follows a block was there before
  have back {block word : List α} (apart : ∀ c ∈ word, c ∉ target')
      (found : word <+: block ++ GuardedReplacement.result source' target' after) :
      word <+: block ++ after := by
    rcases Nat.le_total word.length block.length with fits | longer
    · exact (List.prefix_of_prefix_length_le found (List.prefix_append _ _) fits).trans
        (List.prefix_append _ _)
    · obtain ⟨word', rfl⟩ := List.prefix_of_prefix_length_le (List.prefix_append _ _) found longer
      rw [List.prefix_append_right_inj] at found ⊢
      exact prefix_of_prefix_result source_ne target_ne
        (fun c member => apart c (List.mem_append_right _ member)) found
  intro o found inside across
  by_cases left : (GuardedReplacement.result source' target' before).length ≤ o
  · refine ⟨left, ?_⟩
    obtain ⟨k, rfl⟩ := Nat.exists_eq_add_of_le left
    rw [List.append_assoc, List.drop_length_add_append,
      List.drop_append_of_le_length (by omega)] at found
    have there := back apart found
    rw [← List.drop_append_of_le_length (by omega)] at there
    have bounds := clear (before.length + k)
      (by rwa [List.append_assoc, List.drop_length_add_append]) (by omega) (by omega)
    omega
  · rw [List.append_assoc, List.drop_append_of_le_length (by omega)] at found
    set start := (GuardedReplacement.result source' target' before).drop o with start_eq
    have start_length : start.length =
      (GuardedReplacement.result source' target' before).length - o := List.length_drop
    obtain ⟨rest, split⟩ := List.prefix_of_prefix_length_le (List.prefix_append start _) found
      (by omega)
    have apart_start : ∀ c ∈ start, c ∉ target' := fun c member =>
      apart c (split ▸ List.mem_append_left _ member)
    have apart_rest : ∀ c ∈ rest, c ∉ target' := fun c member =>
      apart c (split ▸ List.mem_append_right _ member)
    obtain ⟨x, before_eq⟩ := suffix_of_suffix_result source_ne target_ne apart_start
      (List.drop_suffix o _)
    rw [← split, List.prefix_append_right_inj] at found
    have there : source <+: (before ++ middle ++ after).drop x.length := by
      rw [← before_eq, List.append_assoc, List.append_assoc, List.drop_left, ← split,
        List.prefix_append_right_inj]
      exact back apart_rest found
    have lengths := congrArg List.length before_eq
    have split_length := congrArg List.length split
    rw [List.length_append] at lengths split_length
    have bounds := clear x.length there (by omega) (by omega)
    omega

end Clear

end GuardedReplacement
