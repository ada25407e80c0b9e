import HeyeeAgent.Python.Object

/-! # Arithmetic of Python's floats

Differences and quotients are rounded to the nearest float. A division by zero raises, so it is left
to the caller that the divisor is not zero.
-/

namespace Python.PyFloat

/-- `<` -/
def lt (a b : PyFloat) : Bool := PyFloat.le a b && !PyFloat.le b a

/-- `-` -/
def sub : PyFloat → PyFloat → PyFloat
  | .finite a, .finite b => ofRat (a - b)
  | .infinity negative, .infinity negative' =>
    if negative = negative' then .nan else .infinity negative
  | .infinity negative, .finite _ => .infinity negative
  | .finite _, .infinity negative => .infinity (!negative)
  | .nan, _ | _, .nan => .nan

/-- `/`, by what is not zero -/
def div : PyFloat → PyFloat → PyFloat
  | .finite a, .finite b => ofRat (a / b)
  | .infinity negative, .finite b => .infinity (negative != decide (b < 0))
  | .finite _, .infinity _ => .finite 0
  | .infinity _, .infinity _ => .nan
  | .nan, _ | _, .nan => .nan

theorem lt_iff_rank {a b : PyFloat} (number : a ≠ .nan) (other : b ≠ .nan) :
    lt a b = true ↔ a.rank < b.rank := by
  rw [lt, Bool.and_eq_true, Bool.not_eq_true', Bool.eq_false_iff, ne_eq, le_iff_rank number other,
    le_iff_rank other number, lt_iff_le_not_ge]

end Python.PyFloat
