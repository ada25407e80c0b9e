import Mathlib.Data.List.Basic
import Mathlib.Data.Option.Basic

/-! # Finite labeled runs of a partial step function

Every choice of the environment is part of the label, so one step is a function that fails when
the label is not enabled. A property of whole runs is derived from one step: an invariant from
its preservation, and the exact condition under which a property survives from the step where it
is lost. Runs compose and project along simulations. Nothing here fixes a state or a label type.
-/

namespace Machine

variable {σ ε σ' ε' : Type*}

/-- The state after a list of labels, if every one of them is enabled in turn. -/
def runFrom (step : σ → ε → Option σ) : σ → List ε → Option σ
  | s, [] => some s
  | s, e :: es => (step s e).bind fun t => runFrom step t es

@[simp] theorem runFrom_nil (step : σ → ε → Option σ) (s : σ) : runFrom step s [] = some s := rfl

theorem runFrom_cons (step : σ → ε → Option σ) (s : σ) (e : ε) (es : List ε) :
    runFrom step s (e :: es) = (step s e).bind fun t => runFrom step t es := rfl

/-- Runs compose at their shared endpoint. -/
theorem runFrom_append (step : σ → ε → Option σ) (s : σ) (first second : List ε) :
    runFrom step s (first ++ second) =
      (runFrom step s first).bind fun middle => runFrom step middle second := by
  induction first generalizing s with
  | nil => rfl
  | cons e es ih => simp only [List.cons_append, runFrom_cons, ih, Option.bind_assoc]

theorem runFrom_cons_some {step : σ → ε → Option σ} {s t : σ} {e : ε} {es : List ε} :
    runFrom step s (e :: es) = some t ↔
      ∃ middle, step s e = some middle ∧ runFrom step middle es = some t := by
  simp only [runFrom_cons, Option.bind_eq_some_iff]

theorem runFrom_append_some {step : σ → ε → Option σ} {s t : σ} {first second : List ε} :
    runFrom step s (first ++ second) = some t ↔
      ∃ middle, runFrom step s first = some middle ∧ runFrom step middle second = some t := by
  simp only [runFrom_append, Option.bind_eq_some_iff]

/-- The states that some run from `s` ends in. -/
def Reachable (step : σ → ε → Option σ) (s t : σ) : Prop := ∃ es, runFrom step s es = some t

theorem Reachable.refl (step : σ → ε → Option σ) (s : σ) : Reachable step s s := ⟨[], rfl⟩

theorem Reachable.next {step : σ → ε → Option σ} {s t u : σ} {e : ε}
    (reached : Reachable step s t) (taken : step t e = some u) : Reachable step s u := by
  obtain ⟨es, run⟩ := reached
  exact ⟨es ++ [e], runFrom_append_some.mpr ⟨t, run, runFrom_cons_some.mpr ⟨u, taken, rfl⟩⟩⟩

theorem Reachable.trans {step : σ → ε → Option σ} {s t u : σ}
    (first : Reachable step s t) (second : Reachable step t u) : Reachable step s u := by
  obtain ⟨es, run⟩ := first
  obtain ⟨fs, rest⟩ := second
  exact ⟨es ++ fs, runFrom_append_some.mpr ⟨t, run, rest⟩⟩

/-- What every step preserves holds at the end of every run. -/
theorem invariant_runFrom {step : σ → ε → Option σ} {I : σ → Prop}
    (preserved : ∀ s e t, I s → step s e = some t → I t)
    {s t : σ} {es : List ε} (initial : I s) (run : runFrom step s es = some t) : I t := by
  induction es generalizing s with
  | nil => cases run; exact initial
  | cons e es ih =>
    obtain ⟨middle, taken, rest⟩ := runFrom_cons_some.mp run
    exact ih (preserved s e middle initial taken) rest

theorem invariant_reachable {step : σ → ε → Option σ} {I : σ → Prop}
    (preserved : ∀ s e t, I s → step s e = some t → I t)
    {s t : σ} (initial : I s) (reached : Reachable step s t) : I t := by
  obtain ⟨es, run⟩ := reached
  exact invariant_runFrom preserved initial run

/-- What every step keeps of the events so far and the state holds at the end of every run. -/
theorem history_runFrom {step : σ → ε → Option σ} {H : List ε → σ → Prop}
    (extends_ : ∀ past s e t, H past s → step s e = some t → H (past ++ [e]) t)
    {s t : σ} {past es : List ε} (initial : H past s) (run : runFrom step s es = some t) :
    H (past ++ es) t := by
  induction es generalizing s past with
  | nil =>
    cases run
    rwa [List.append_nil]
  | cons e es ih =>
    obtain ⟨middle, taken, rest⟩ := runFrom_cons_some.mp run
    rw [List.append_cons]
    exact ih (extends_ past s e middle initial taken) rest

/-- A relation that each step respects, and that composes, holds between the ends of a run. -/
theorem relation_runFrom {step : σ → ε → Option σ} {R : σ → σ → Prop}
    (refl : ∀ s, R s s) (trans : ∀ s t u, R s t → R t u → R s u)
    (taken : ∀ s e t, step s e = some t → R s t)
    {s t : σ} {es : List ε} (run : runFrom step s es = some t) : R s t := by
  induction es generalizing s with
  | nil => cases run; exact refl _
  | cons e es ih =>
    obtain ⟨middle, first, rest⟩ := runFrom_cons_some.mp run
    exact trans s middle t (taken s e middle first) (ih rest)

/-- The property holds in the first state and in every later state of the run. -/
def Always (step : σ → ε → Option σ) (P : σ → Prop) : σ → List ε → Prop
  | s, [] => P s
  | s, e :: es => P s ∧ ∀ t, step s e = some t → Always step P t es

/-- Every step the run takes meets the condition, read in the state before the step. -/
def Along (step : σ → ε → Option σ) (C : σ → ε → Prop) : σ → List ε → Prop
  | _, [] => True
  | s, e :: es => ∀ t, step s e = some t → C s e ∧ Along step C t es

instance Along.decidable (step : σ → ε → Option σ) (C : σ → ε → Prop)
    [∀ s e, Decidable (C s e)] : ∀ s es, Decidable (Along step C s es)
  | _, [] => isTrue trivial
  | s, e :: es =>
    match taken : step s e with
    | none => isTrue (by simp [Along, taken])
    | some t =>
      have := Along.decidable step C t es
      decidable_of_iff (C s e ∧ Along step C t es) (by simp [Along, taken])

theorem along_cons {step : σ → ε → Option σ} {C : σ → ε → Prop} {s t : σ} {e : ε} {es : List ε}
    (taken : step s e = some t) : Along step C s (e :: es) ↔ C s e ∧ Along step C t es := by
  simp [Along, taken]

theorem along_of_forall {step : σ → ε → Option σ} {C : σ → ε → Prop} {s : σ} {es : List ε}
    (met : ∀ e ∈ es, ∀ s, C s e) : Along step C s es := by
  induction es generalizing s with
  | nil => trivial
  | cons e es ih =>
    intro t taken
    exact ⟨met e List.mem_cons_self s, ih fun f member => met f (List.mem_cons_of_mem e member)⟩

theorem Along.and {step : σ → ε → Option σ} {C D : σ → ε → Prop} {s : σ} {es : List ε}
    (first : Along step C s es) (second : Along step D s es) :
    Along step (fun s e => C s e ∧ D s e) s es := by
  induction es generalizing s with
  | nil => trivial
  | cons e es ih =>
    intro t taken
    obtain ⟨met, first⟩ := first t taken
    obtain ⟨met', second⟩ := second t taken
    exact ⟨⟨met, met'⟩, ih first second⟩

/-- A step within a run along a condition meets it. -/
theorem Along.met {step : σ → ε → Option σ} {C : σ → ε → Prop} {s middle next : σ} {e : ε}
    {first rest : List ε} (along : Along step C s (first ++ e :: rest))
    (run : runFrom step s first = some middle) (taken : step middle e = some next) : C middle e := by
  induction first generalizing s with
  | nil =>
    cases run
    exact (along next taken).1
  | cons f first ih =>
    obtain ⟨t, step_taken, run⟩ := runFrom_cons_some.mp run
    exact ih (along t step_taken).2 run

/-- A run along a condition begins along it. -/
theorem Along.left {step : σ → ε → Option σ} {C : σ → ε → Prop} {s : σ} {first rest : List ε}
    (along : Along step C s (first ++ rest)) : Along step C s first := by
  induction first generalizing s with
  | nil => trivial
  | cons e first ih =>
    intro t taken
    obtain ⟨met, along⟩ := along t taken
    exact ⟨met, ih along⟩

/-- A run that leaves the condition meets it up to the step that breaks it. -/
theorem exists_break {step : σ → ε → Option σ} {C : σ → ε → Prop} {s t : σ} {es : List ε}
    (run : runFrom step s es = some t) (broken : ¬ Along step C s es) :
    ∃ first e rest middle next, es = first ++ e :: rest ∧ runFrom step s first = some middle ∧
      Along step C s first ∧ ¬ C middle e ∧ step middle e = some next ∧
      runFrom step next rest = some t := by
  induction es generalizing s with
  | nil => exact absurd trivial broken
  | cons e es ih =>
    obtain ⟨u, taken, rest⟩ := runFrom_cons_some.mp run
    by_cases met : C s e
    · rw [along_cons taken] at broken
      obtain ⟨first, f, fs, middle, next, rfl, run', along, fails, taken', rest'⟩ :=
        ih rest fun along => broken ⟨met, along⟩
      exact ⟨e :: first, f, fs, middle, next, rfl, runFrom_cons_some.mpr ⟨u, taken, run'⟩,
        (along_cons taken).mpr ⟨met, along⟩, fails, taken', rest'⟩
    · exact ⟨[], e, es, s, u, rfl, rfl, trivial, met, taken, rest⟩

/-- An invariant that is preserved by the steps meeting a condition holds at the end of a run along
it. -/
theorem invariant_along {step : σ → ε → Option σ} {I : σ → Prop} {C : σ → ε → Prop}
    (preserved : ∀ s e t, I s → C s e → step s e = some t → I t)
    {s t : σ} {es : List ε} (initial : I s) (along : Along step C s es)
    (run : runFrom step s es = some t) : I t := by
  induction es generalizing s with
  | nil => cases run; exact initial
  | cons e es ih =>
    obtain ⟨middle, taken, rest⟩ := runFrom_cons_some.mp run
    obtain ⟨met, along⟩ := along middle taken
    exact ih (preserved s e middle initial met taken) along rest

/-- While an invariant holds, one condition on the steps gives another. -/
theorem along_of_along {step : σ → ε → Option σ} {I : σ → Prop} {C D : σ → ε → Prop}
    (preserved : ∀ s e t, I s → C s e → step s e = some t → D s e ∧ I t)
    {s : σ} {es : List ε} (initial : I s) (along : Along step C s es) : Along step D s es := by
  induction es generalizing s with
  | nil => trivial
  | cons e es ih =>
    intro t taken
    obtain ⟨met, rest⟩ := along t taken
    obtain ⟨given, kept⟩ := preserved s e t initial met taken
    exact ⟨given, ih kept rest⟩

theorem Always.head {step : σ → ε → Option σ} {P : σ → Prop} {s : σ} {es : List ε}
    (always : Always step P s es) : P s := by
  cases es with
  | nil => exact always
  | cons e es => exact always.1

theorem Always.last {step : σ → ε → Option σ} {P : σ → Prop} {s t : σ} {es : List ε}
    (always : Always step P s es) (run : runFrom step s es = some t) : P t := by
  induction es generalizing s with
  | nil => cases run; exact always
  | cons e es ih =>
    obtain ⟨middle, taken, rest⟩ := runFrom_cons_some.mp run
    exact ih (always.2 middle taken) rest

theorem Always.mono {step : σ → ε → Option σ} {P Q : σ → Prop} (implies : ∀ s, P s → Q s)
    {s : σ} {es : List ε} (always : Always step P s es) : Always step Q s es := by
  induction es generalizing s with
  | nil => exact implies s always
  | cons e es ih => exact ⟨implies s always.1, fun t taken => ih (always.2 t taken)⟩

/-- An invariant holds throughout every run. -/
theorem always_of_preserved {step : σ → ε → Option σ} {I : σ → Prop}
    (preserved : ∀ s e t, I s → step s e = some t → I t)
    {s : σ} (initial : I s) (es : List ε) : Always step I s es := by
  induction es generalizing s with
  | nil => exact initial
  | cons e es ih => exact ⟨initial, fun t taken => ih (preserved s e t initial taken)⟩

/-- An invariant that is preserved by the steps meeting a condition holds along their runs. -/
theorem always_of_along {step : σ → ε → Option σ} {I : σ → Prop} {C : σ → ε → Prop}
    (preserved : ∀ s e t, I s → C s e → step s e = some t → I t)
    {s : σ} {es : List ε} (initial : I s) (along : Along step C s es) :
    Always step I s es := by
  induction es generalizing s with
  | nil => exact initial
  | cons e es ih =>
    refine ⟨initial, fun t taken => ?_⟩
    obtain ⟨met, rest⟩ := along t taken
    exact ih (preserved s e t initial met taken) rest

/-- If, while the property still holds, a step keeps it exactly when the step meets the condition,
then a run keeps it throughout exactly when all its steps meet the condition. The side invariant
holds as long as the property does. -/
theorem always_iff_along_while {step : σ → ε → Option σ} {I P : σ → Prop} {C : σ → ε → Prop}
    (preserved : ∀ s e t, I s → P s → step s e = some t → I t)
    (exact_step : ∀ s e t, I s → P s → step s e = some t → (P t ↔ C s e))
    {s : σ} {es : List ε} (initial : I s) (holds : P s) :
    Always step P s es ↔ Along step C s es := by
  induction es generalizing s with
  | nil => exact iff_of_true holds trivial
  | cons e es ih =>
    constructor
    · intro always t taken
      have kept := (always.2 t taken).head
      exact ⟨(exact_step s e t initial holds taken).mp kept,
        (ih (preserved s e t initial holds taken) kept).mp (always.2 t taken)⟩
    · intro along
      refine ⟨holds, fun t taken => ?_⟩
      obtain ⟨met, rest⟩ := along t taken
      have kept := (exact_step s e t initial holds taken).mpr met
      exact (ih (preserved s e t initial holds taken) kept).mpr rest

/-- The same with a side invariant of every run. -/
theorem always_iff_along {step : σ → ε → Option σ} {I P : σ → Prop} {C : σ → ε → Prop}
    (preserved : ∀ s e t, I s → step s e = some t → I t)
    (exact_step : ∀ s e t, I s → P s → step s e = some t → (P t ↔ C s e))
    {s : σ} {es : List ε} (initial : I s) (holds : P s) :
    Always step P s es ↔ Along step C s es :=
  always_iff_along_while (fun s e t invariant _ => preserved s e t invariant) exact_step initial
    holds

/-- One event comes before another in a list of events. -/
def Precedes {α : Type*} (es : List α) (e f : α) : Prop :=
  ∃ first rest, es = first ++ f :: rest ∧ e ∈ first

theorem Precedes.mem {α : Type*} {es : List α} {e f : α} (precedes : Precedes es e f) : e ∈ es := by
  obtain ⟨first, rest, rfl, member⟩ := precedes
  exact List.mem_append_left _ member

theorem precedes_append_singleton {α : Type*} {es : List α} {e f g : α} :
    Precedes (es ++ [f]) e g ↔ Precedes es e g ∨ f = g ∧ e ∈ es := by
  constructor
  · rintro ⟨first, rest, same, member⟩
    rcases List.eq_nil_or_concat rest with rfl | ⟨rest, last, rfl⟩
    · obtain ⟨rfl, last⟩ := List.append_inj' same rfl
      exact .inr ⟨(List.cons.inj last).1, member⟩
    · rw [List.concat_eq_append, ← List.cons_append, ← List.append_assoc] at same
      exact .inl ⟨first, rest, (List.append_inj' same rfl).1, member⟩
  · rintro (⟨first, rest, rfl, member⟩ | ⟨rfl, member⟩)
    · exact ⟨first, rest ++ [f], by simp, member⟩
    · exact ⟨es, [], rfl, member⟩

theorem not_precedes_nil {α : Type*} {e f : α} : ¬ Precedes [] e f := by
  rintro ⟨first, rest, same, -⟩
  simp at same

end Machine
