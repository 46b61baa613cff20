import DecisionCompiler.Template
import DecisionCompiler.Proofs.Number.Rational
import Mathlib.Data.List.Perm.Basic

/-!
What the expression of a template selects.

A condition holds or does not hold of the values of the operands, and an expression comes down to
the literal or the call of the first branch whose condition holds. When at most one condition holds,
what is chosen depends on which one it is and not on where it stands (`chosen_conditional_of_mem`).
-/

namespace DecisionCompiler

/-- The values of the operands, by their names. -/
structure Operands where
  number : String → ℚ
  truth : String → Bool

/-- The comparison of a number with a constant. Every number lies between the two infinite
constants, and no comparison with what is not a number holds. -/
def Comparator.HoldsOf (c : Comparator) (x : ℚ) : Number → Prop
  | .nan => False
  | .infinite negative => c.isUpper = negative
  | .finite y => c.Holds x y.toRat

instance (c : Comparator) (x y : ℚ) : Decidable (c.Holds x y) :=
  match c with
  | .greater => inferInstanceAs (Decidable (y < x))
  | .greaterOrEqual => inferInstanceAs (Decidable (y ≤ x))
  | .less => inferInstanceAs (Decidable (x < y))
  | .lessOrEqual => inferInstanceAs (Decidable (x ≤ y))

instance (c : Comparator) (x : ℚ) (y : Number) : Decidable (c.HoldsOf x y) :=
  match y with
  | .nan => inferInstanceAs (Decidable False)
  | .infinite _ => inferInstanceAs (Decidable (_ = _))
  | .finite _ => inferInstanceAs (Decidable (c.Holds _ _))

/-- The condition holds of the operands. -/
def Condition.Holds (values : Operands) : Condition → Prop
  | truthy operand => values.truth operand = true
  | compare comparator operand constant => comparator.HoldsOf (values.number operand) constant
  | both left right => left.Holds values ∧ right.Holds values

/-- Conditions are evaluated. -/
def Condition.decideHolds (values : Operands) : (c : Condition) → Decidable (c.Holds values)
  | truthy _ => inferInstanceAs (Decidable (_ = _))
  | compare .. => inferInstanceAs (Decidable (Comparator.HoldsOf _ _ _))
  | both left right =>
    have := left.decideHolds values
    have := right.decideHolds values
    inferInstanceAs (Decidable (_ ∧ _))

instance (values : Operands) (c : Condition) : Decidable (c.Holds values) :=
  c.decideHolds values

/-- Of items of which at most one has a property, those that have it are the same. -/
theorem eq_of_countP_le_one {α : Type} {p : α → Bool} {items : List α} {a b : α}
    (single : items.countP p ≤ 1) (memA : a ∈ items) (memB : b ∈ items) (ha : p a = true)
    (hb : p b = true) : a = b := by
  have memA := List.mem_filter.mpr ⟨memA, ha⟩
  have memB := List.mem_filter.mpr ⟨memB, hb⟩
  rw [List.countP_eq_length_filter] at single
  generalize items.filter p = kept at *
  match kept with
  | [] => exact nomatch memA
  | [only] => rw [List.mem_singleton.mp memA, List.mem_singleton.mp memB]
  | _ :: _ :: _ => simp at single

namespace Expr

mutual

/-- The literal or the call that an expression comes down to. -/
def chosen (values : Operands) : Expr → Expr
  | literal text => literal text
  | call function operands => call function operands
  | conditional branches fallback =>
    (chosenBranch values branches).getD (chosen values fallback)

/-- What the first branch whose condition holds comes down to, if there is one. -/
def chosenBranch (values : Operands) : List (Condition × Expr) → Option Expr
  | [] => none
  | (condition, expr) :: branches =>
    if condition.Holds values then some (chosen values expr) else chosenBranch values branches

end

section Order

variable {values : Operands} {branches others : List (Condition × Expr)} {fallback : Expr}

theorem chosenBranch_eq_find? :
    chosenBranch values branches =
      (branches.find? fun branch => branch.1.Holds values).map fun branch =>
        chosen values branch.2 := by
  induction branches with
  | nil => simp [chosenBranch]
  | cons branch branches ih =>
    rw [chosenBranch, List.find?_cons]
    by_cases holds : branch.1.Holds values
    · simp [holds]
    · simp [holds, ih]

/-- If no condition holds, the fallback is chosen. -/
theorem chosen_conditional_of_none (none : ∀ branch ∈ branches, ¬branch.1.Holds values) :
    (conditional branches fallback).chosen values = fallback.chosen values := by
  have found : (branches.find? fun branch => branch.1.Holds values) = Option.none := by
    simpa [List.find?_eq_none] using none
  simp [chosen, chosenBranch_eq_find?, found]

/-- Of branches of which at most one holds, the one that does is chosen, wherever it stands. -/
theorem chosen_conditional_of_mem {branch : Condition × Expr} (mem : branch ∈ branches)
    (holds : branch.1.Holds values)
    (single : (branches.countP fun branch => branch.1.Holds values) ≤ 1) :
    (conditional branches fallback).chosen values = branch.2.chosen values := by
  rw [chosen, chosenBranch_eq_find?]
  cases found : branches.find? fun branch => branch.1.Holds values with
  | none => exact absurd holds (by simpa using List.find?_eq_none.mp found branch mem)
  | some other =>
    have holdsOther := List.find?_some found
    have same : other = branch :=
      eq_of_countP_le_one single (List.mem_of_find?_eq_some found) mem holdsOther (by simpa)
    simp [same]

end Order

end Expr

end DecisionCompiler
