import Mathlib.Algebra.Order.Floor.Ring
import Mathlib.Data.Rat.Floor
/-!
# Python's numbers

A finite `float` is the rational number it stands for, and arithmetic does
not round. A stored `float`, which may be infinite or not a number, is a
`PyFloat`; it is compared, and taken part in arithmetic with, as it is.
-/

namespace ChutesApi

namespace Python

/-- A `float`. -/
inductive PyFloat
  | finite (q : ℚ)
  | inf
  | negInf
  | nan
  deriving DecidableEq

namespace PyFloat

/-- `x < q`. -/
def lt : PyFloat → ℚ → Bool
  | finite x, q => x < q
  | inf, _ => false
  | negInf, _ => true
  | nan, _ => false

/-- `bool(x)`. -/
def truthy : PyFloat → Bool
  | finite x => x ≠ 0
  | _ => true

/-- `x * q`. -/
def scale : PyFloat → ℚ → PyFloat
  | finite x, q => finite (x * q)
  | inf, q => if 0 < q then inf else if q < 0 then negInf else nan
  | negInf, q => if 0 < q then negInf else if q < 0 then inf else nan
  | nan, _ => nan

/-- `q - x`. -/
def subFrom (q : ℚ) : PyFloat → PyFloat
  | finite x => finite (q - x)
  | inf => negInf
  | negInf => inf
  | nan => nan

/-- `max(x, q)`, the second only where it is greater. -/
def max (x : PyFloat) (q : ℚ) : PyFloat := if x.lt q then finite q else x

theorem max_finite (x q : ℚ) : (finite x).max q = finite (Max.max x q) := by
  rcases lt_or_ge x q with h | h
  · rw [max, lt, if_pos (decide_eq_true h), max_eq_right h.le]
  · rw [max, lt, if_neg (by simpa using h), max_eq_left h]

end PyFloat

/-- `round(q, digits)`, which rounds halves to even. -/
def round (q : ℚ) (digits : ℕ) : ℚ :=
  let scaled := q * 10 ^ digits
  let rest := scaled - ⌊scaled⌋
  let near : ℤ :=
    if rest < 1 / 2 then ⌊scaled⌋
    else if 1 / 2 < rest then ⌊scaled⌋ + 1
    else if ⌊scaled⌋ % 2 = 0 then ⌊scaled⌋ else ⌊scaled⌋ + 1
  near / 10 ^ digits

/-- `round` of a `float`, which leaves those that are not finite. -/
def PyFloat.round : PyFloat → ℕ → PyFloat
  | finite x, digits => finite (Python.round x digits)
  | x, _ => x

example : round (2 / 3) 3 = 667 / 1000 ∧ round (1 / 2) 0 = 0 ∧ round (-3 / 2) 0 = -2 := by
  decide +kernel

end Python

end ChutesApi
