import HeyeeAgent.Machine.Run

/-! # What holds until something else does

A property that a run keeps up to the first state of a second one, which need not come. The rule
carries an invariant that may use that the second property has not come yet.
-/

namespace Machine

variable {σ ε : Type*} {step : σ → ε → Option σ}

/-- `P` holds in every state of the run before the first one in which `Q` does. -/
def Until (step : σ → ε → Option σ) (P Q : σ → Prop) : σ → List ε → Prop
  | s, [] => Q s ∨ P s
  | s, e :: es => Q s ∨ P s ∧ ∀ t, step s e = some t → Until step P Q t es

theorem Until.head {P Q : σ → Prop} {s : σ} {es : List ε} (holds : Until step P Q s es) :
    Q s ∨ P s := by
  cases es with
  | nil => exact holds
  | cons e es => exact holds.imp_right And.left

/-- While `Q` has not come, a step that meets the condition keeps the invariant. -/
theorem until_of_along {I P Q : σ → Prop} {C : σ → ε → Prop}
    (preserved : ∀ s e t, I s → ¬ Q s → C s e → step s e = some t → I t)
    (holds : ∀ s, I s → ¬ Q s → P s) {s : σ} {es : List ε} (initial : I s)
    (along : Along step C s es) : Until step P Q s es := by
  induction es generalizing s with
  | nil =>
    by_cases come : Q s
    · exact .inl come
    · exact .inr (holds s initial come)
  | cons e es ih =>
    by_cases come : Q s
    · exact .inl come
    · refine .inr ⟨holds s initial come, fun t taken => ?_⟩
      obtain ⟨met, rest⟩ := along t taken
      exact ih (preserved s e t initial come met taken) rest

theorem Along.append_right {C : σ → ε → Prop} {s middle : σ} {first rest : List ε}
    (along : Along step C s (first ++ rest)) (run : runFrom step s first = some middle) :
    Along step C middle rest := by
  induction first generalizing s with
  | nil =>
    cases run
    exact along
  | cons e first ih =>
    obtain ⟨t, taken, later⟩ := runFrom_cons_some.mp run
    exact ih (along t taken).2 later

/-- Labels that leave the condition meet it up to an enabled one that breaks it. -/
theorem exists_broken_step {C : σ → ε → Prop} {s : σ} {es : List ε}
    (broken : ¬ Along step C s es) :
    ∃ first e rest middle t, es = first ++ e :: rest ∧ runFrom step s first = some middle ∧
      ¬ C middle e ∧ step middle e = some t := by
  induction es generalizing s with
  | nil => exact absurd trivial broken
  | cons e es ih =>
    simp only [Along, not_forall] at broken
    obtain ⟨t, taken, unmet⟩ := broken
    by_cases met : C s e
    · obtain ⟨first, f, rest, middle, u, rfl, run, fails, next⟩ :=
        ih fun along => unmet ⟨met, along⟩
      exact ⟨e :: first, f, rest, middle, u, rfl, runFrom_cons_some.mpr ⟨t, taken, run⟩, fails, next⟩
    · exact ⟨[], e, es, s, t, rfl, rfl, met, taken⟩

end Machine
