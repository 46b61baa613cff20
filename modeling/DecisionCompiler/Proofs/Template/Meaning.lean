import DecisionCompiler.Proofs.Template.Legible
import DecisionCompiler.Proofs.Template.Selection

/-!
What the text of a condition means.

Whoever evaluates a template has only its text: a function is known by its name, an operand by the
point before it, a constant by its digits. `Condition.Asserts` gives such a text its meaning without
looking at the condition that it was written from, and `Condition.asserts_render_iff` shows that it
is the meaning of this condition. For comparisons this comes down to the names of the functions
(`Comparator.calls_name_iff`).
-/

namespace DecisionCompiler

/-! ### Functions -/

/-- What the functions that compare hold of, by their names. -/
def Calls (function : String) (x y : ℚ) : Prop :=
  match function with
  | "greater_than" => x > y
  | "greater_than_or_equals" => x ≥ y
  | "less_than" => x < y
  | "less_than_or_equals" => x ≤ y
  | _ => False

namespace Comparator

variable {function : String} {x y : ℚ}

/-- A comparator is called by the function that holds of the same numbers. -/
theorem calls_name_iff (c : Comparator) (x y : ℚ) : Calls c.name x y ↔ c.Holds x y := by
  cases c <;> exact Iff.rfl

/-- No other function compares. -/
theorem exists_name_of_calls (calls : Calls function x y) :
    ∃ c : Comparator, function = c.name ∧ c.Holds x y := by
  unfold Calls at calls
  split at calls
  · exact ⟨greater, rfl, calls⟩
  · exact ⟨greaterOrEqual, rfl, calls⟩
  · exact ⟨less, rfl, calls⟩
  · exact ⟨lessOrEqual, rfl, calls⟩
  · exact calls.elim

end Comparator

/-! ### Conditions -/

namespace Condition

/-- The text asserts something that is true of the operands. -/
inductive Asserts (values : Operands) : List Char → Prop where
  /-- An operand alone asserts that it is true. -/
  | truthy {operand : String} (named : Word operand.toList)
      (holds : values.truth operand = true) : Asserts values ('.' :: operand.toList)
  /-- A function in front of an operand and a constant compares the one with the other. -/
  | compare {function operand : String} (named : Word operand.toList) (constant : Number.Finite)
      (calls : Calls function (values.number operand) constant.toRat) :
      Asserts values (function.toList ++ [' ', '.'] ++ operand.toList ++ [' '] ++ constant.plain)
  /-- Two conditions behind `and` are both true. -/
  | both {left right : List Char} (onLeft : Asserts values left) (onRight : Asserts values right) :
      Asserts values ("(and (".toList ++ left ++ ") (".toList ++ right ++ "))".toList)

variable {values : Operands} {condition : Condition} {text : List Char}

/-- The text of a condition that holds asserts something true. -/
theorem Legible.asserts (legible : condition.Legible) (holds : condition.Holds values) :
    Asserts values condition.render := by
  induction legible with
  | truthy named => exact .truthy named holds
  | compare comparator named value =>
    have asserts := Asserts.compare named value ((comparator.calls_name_iff _ _).mpr holds)
    simpa [render, operandText, Number.plain] using asserts
  | both _ _ left right =>
    obtain ⟨onLeft, onRight⟩ := holds
    have asserts := Asserts.both (left onLeft) (right onRight)
    simpa [render] using asserts

/-- A text that asserts something true is that of a condition that holds. -/
theorem Asserts.exists_condition (asserts : Asserts values text) :
    ∃ condition : Condition, condition.Legible ∧ condition.Holds values ∧
      text = condition.render := by
  induction asserts with
  | truthy named holds => exact ⟨_, .truthy named, holds, rfl⟩
  | compare named constant calls =>
    obtain ⟨comparator, rfl, holds⟩ := Comparator.exists_name_of_calls calls
    refine ⟨_, .compare comparator named constant, holds, ?_⟩
    simp [render, operandText, Number.plain]
  | both _ _ left right =>
    obtain ⟨onLeft, legibleLeft, holdsLeft, rfl⟩ := left
    obtain ⟨onRight, legibleRight, holdsRight, rfl⟩ := right
    refine ⟨_, .both legibleLeft legibleRight, ⟨holdsLeft, holdsRight⟩, ?_⟩
    simp [render]

/-- **The text of a condition asserts what the condition means.** -/
theorem asserts_render_iff (legible : condition.Legible) :
    Asserts values condition.render ↔ condition.Holds values := by
  constructor
  · intro asserts
    obtain ⟨other, legible', holds, same⟩ := asserts.exists_condition
    rw [render_inj legible legible' same]
    exact holds
  · exact legible.asserts

end Condition

end DecisionCompiler
