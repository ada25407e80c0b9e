import HeyeeAgent.Python.Text

/-! # Python's `html.escape` -/

namespace Python.Html

/-- What `html.escape` writes for a character -/
def escapeChar : ℕ → Str
  | 38 => .lit "&amp;"
  | 60 => .lit "&lt;"
  | 62 => .lit "&gt;"
  | 34 => .lit "&quot;"
  | 39 => .lit "&#x27;"
  | c => [c]

/-- `html.escape(text, quote=True)` -/
def escape (text : Str) : Str := text.flatMap escapeChar

theorem quote_not_mem_escapeChar (c : ℕ) : 34 ∉ escapeChar c := by
  unfold escapeChar
  split
  · decide
  · decide
  · decide
  · decide
  · decide
  · rename_i quote _
    intro member
    exact quote (List.mem_singleton.mp member).symm

theorem quote_not_mem_escape (text : Str) : 34 ∉ escape text := by
  intro member
  obtain ⟨c, -, written⟩ := List.mem_flatMap.mp member
  exact quote_not_mem_escapeChar c written

/-- The first character is read back from what is written. -/
theorem escapeChar_cancel {c d : ℕ} {rest rest' : Str}
    (same : escapeChar c ++ rest = escapeChar d ++ rest') : c = d ∧ rest = rest' := by
  unfold escapeChar at same
  split at same <;> split at same <;>
    simp [Str.lit] at same ⊢ <;> grind

theorem escapeChar_ne_nil (c : ℕ) : escapeChar c ≠ [] := by
  unfold escapeChar
  split <;> exact List.cons_ne_nil _ _

theorem escape_injective : Function.Injective escape := by
  intro text text' same
  induction text generalizing text' with
  | nil =>
    cases text' with
    | nil => rfl
    | cons d text' =>
      rw [escape, escape, List.flatMap_nil, List.flatMap_cons, eq_comm, List.append_eq_nil_iff] at same
      exact absurd same.1 (escapeChar_ne_nil d)
  | cons c text ih =>
    cases text' with
    | nil =>
      rw [escape, escape, List.flatMap_nil, List.flatMap_cons, List.append_eq_nil_iff] at same
      exact absurd same.1 (escapeChar_ne_nil c)
    | cons d text' =>
      rw [escape, escape, List.flatMap_cons, List.flatMap_cons] at same
      obtain ⟨rfl, rest⟩ := escapeChar_cancel same
      rw [ih rest]

end Python.Html
