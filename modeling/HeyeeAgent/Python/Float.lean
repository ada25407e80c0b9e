import Mathlib.Data.Rat.Defs
import Mathlib.Algebra.Order.Ring.Rat
import Mathlib.Order.WithBot

/-! # Python's floats

A float is kept as the number it stands for; the two zeros compare equal and are not told apart. A
comparison with `nan` is false, so `<=` is no order of all floats.
-/

namespace Python

inductive PyFloat where
  | finite (value : ℚ)
  | infinity (negative : Bool)
  | nan
deriving DecidableEq

namespace PyFloat

/-- `<=` -/
def le : PyFloat → PyFloat → Bool
  | .nan, _ | _, .nan => false
  | .infinity true, _ | _, .infinity false => true
  | .finite a, .finite b => a ≤ b
  | _, _ => false

/-- The place of a number among all of them; `nan` has none. -/
def rank : PyFloat → WithBot (WithTop ℚ)
  | .finite value => ((value : WithTop ℚ) : WithBot (WithTop ℚ))
  | .infinity false => ((⊤ : WithTop ℚ) : WithBot (WithTop ℚ))
  | .infinity true | .nan => ⊥

theorem le_iff_rank {a b : PyFloat} (number : a ≠ .nan) (other : b ≠ .nan) :
    PyFloat.le a b = true ↔ a.rank ≤ b.rank := by
  cases a with
  | nan => exact absurd rfl number
  | infinity negative =>
    cases b with
    | nan => exact absurd rfl other
    | infinity negative' => cases negative <;> cases negative' <;> simp [PyFloat.le, rank]
    | finite value => cases negative <;> simp [PyFloat.le, rank]
  | finite value =>
    cases b with
    | nan => exact absurd rfl other
    | infinity negative => cases negative <;> simp [PyFloat.le, rank]
    | finite value' => simp [PyFloat.le, rank]

end PyFloat

end Python
