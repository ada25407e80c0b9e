import HeyeeAgent.Machine.Run
import Mathlib.Logic.Function.Basic

/-! # Machines that run side by side

A label says which machine takes a step, and the machines share nothing. A run of all of them is
then one run of each, with the labels of that machine in their order: how the runs are interleaved
does not matter.
-/

namespace Machine

variable {ι σ ε : Type*} [DecidableEq ι] {step : ι → σ → ε → Option σ} {s t : ι → σ}
  {es : List (ι × ε)} {i j : ι} {e : ε}

/-- One step of one machine; the others stay as they are. -/
def together (step : ι → σ → ε → Option σ) (s : ι → σ) (e : ι × ε) : Option (ι → σ) :=
  (step e.1 (s e.1) e.2).map (Function.update s e.1)

/-- The labels of one machine, in their order -/
def eventsOf (i : ι) (es : List (ι × ε)) : List ε :=
  es.filterMap fun e => if e.1 = i then some e.2 else none

@[simp] theorem eventsOf_nil (i : ι) : eventsOf i ([] : List (ι × ε)) = [] := rfl

@[simp] theorem eventsOf_cons_self (i : ι) (e : ε) (es : List (ι × ε)) :
    eventsOf i ((i, e) :: es) = e :: eventsOf i es :=
  List.filterMap_cons_some (if_pos rfl)

theorem eventsOf_cons_of_ne (other : j ≠ i) (e : ε) (es : List (ι × ε)) :
    eventsOf i ((j, e) :: es) = eventsOf i es :=
  List.filterMap_cons_none (if_neg other)

@[simp] theorem eventsOf_map_pair (i : ι) (es : List ε) : eventsOf i (es.map (Prod.mk i)) = es := by
  induction es with
  | nil => rfl
  | cons e es ih => rw [List.map_cons, eventsOf_cons_self, ih]

theorem eventsOf_map_of_ne (other : j ≠ i) (es : List ε) : eventsOf i (es.map (Prod.mk j)) = [] := by
  induction es with
  | nil => rfl
  | cons e es ih => rw [List.map_cons, eventsOf_cons_of_ne other, ih]

/-- A run of all the machines is a run of each. -/
theorem runFrom_together :
    runFrom (together step) s es = some t ↔
      ∀ i, runFrom (step i) (s i) (eventsOf i es) = some (t i) := by
  induction es generalizing s with
  | nil =>
    simp only [runFrom_nil, eventsOf_nil, Option.some.injEq]
    exact funext_iff
  | cons e es ih =>
    obtain ⟨j, e⟩ := e
    rw [runFrom_cons_some]
    constructor
    · rintro ⟨middle, taken, rest⟩ i
      obtain ⟨next, moved, rfl⟩ := Option.map_eq_some_iff.mp taken
      have own := ih.mp rest i
      by_cases other : j = i
      · subst other
        rw [Function.update_self] at own
        rw [eventsOf_cons_self]
        exact runFrom_cons_some.mpr ⟨next, moved, own⟩
      · rw [Function.update_of_ne (Ne.symm other)] at own
        rw [eventsOf_cons_of_ne other]
        exact own
    · intro each
      have own := each j
      rw [eventsOf_cons_self] at own
      obtain ⟨next, moved, rest⟩ := runFrom_cons_some.mp own
      refine ⟨Function.update s j next, Option.map_eq_some_iff.mpr ⟨next, moved, rfl⟩, ih.mpr ?_⟩
      intro i
      by_cases other : j = i
      · subst other
        rw [Function.update_self]
        exact rest
      · rw [Function.update_of_ne (Ne.symm other), ← eventsOf_cons_of_ne other e es]
        exact each i

/-- One machine runs while the others wait. -/
theorem runFrom_together_map {events : List ε} {u : σ}
    (run : runFrom (step i) (s i) events = some u) :
    runFrom (together step) s (events.map (Prod.mk i)) = some (Function.update s i u) := by
  rw [runFrom_together]
  intro j
  by_cases other : i = j
  · subst other
    rw [eventsOf_map_pair, Function.update_self, run]
  · rw [eventsOf_map_of_ne other, Function.update_of_ne (Ne.symm other), runFrom_nil]

end Machine
