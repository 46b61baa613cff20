import DecisionCompiler.Number.Basic
import Mathlib.Algebra.Order.Field.Rat
import Mathlib.Tactic.Positivity

/-!
Finite numbers as points of the rational line.

A finite number is a whole number of units of `2 ^ -1074`, so it has an exact rational value. The
order of the numbers is the order of their values (`toRat_lt_toRat_iff`), and two numbers are the
same point exactly when their values are equal (`toRat_eq_toRat_iff`): zero and negative zero are.
-/

namespace DecisionCompiler.Number.Finite

/-- The exact value. -/
def toRat (x : Finite) : ℚ :=
  (x.scaled : ℚ) / 2 ^ 1074

theorem toRat_lt_toRat_iff {x y : Finite} : x.toRat < y.toRat ↔ x < y := by
  have unit : (0 : ℚ) < 2 ^ 1074 := by positivity
  rw [toRat, toRat, div_lt_div_iff_of_pos_right unit, Int.cast_lt]
  exact Iff.rfl

theorem toRat_eq_toRat_iff {x y : Finite} : x.toRat = y.toRat ↔ x.Same y := by
  have unit : (2 : ℚ) ^ 1074 ≠ 0 := by positivity
  rw [toRat, toRat, div_left_inj' unit, Int.cast_inj]
  exact Iff.rfl

end DecisionCompiler.Number.Finite
