import DecisionCompiler.Comparator
import DecisionCompiler.Json.Quoted
import DecisionCompiler.Number.Layout

/-!
Templates: the compiled form of a rule.

A template binds an output field to an expression, which is a literal text, a call, or a chain of
conditions with a fallback. Its text is a JSON object with the expression in the place of the value;
actions stand in double braces, operands carry a leading point.
-/

namespace DecisionCompiler

/-- A condition on operands. -/
inductive Condition where
  /-- The operand is true. -/
  | truthy (operand : String)
  | compare (comparator : Comparator) (operand : String) (value : Number)
  | both (left right : Condition)

/-- What a template puts in the place of a value. -/
inductive Expr where
  | literal (text : String)
  | call (function : String) (operands : List String)
  /-- The expression of the first condition that holds, or the fallback if none does. -/
  | conditional (branches : List (Condition × Expr)) (fallback : Expr)

/-- An output field and its expression. -/
structure Template where
  key : String
  body : Expr

/-- An operand as a template refers to it. -/
def operandText (operand : String) : List Char :=
  '.' :: operand.toList

/-- The text of a condition. -/
def Condition.render : Condition → List Char
  | truthy operand => operandText operand
  | compare comparator operand value =>
    comparator.name.toList ++ ' ' :: operandText operand ++ ' ' :: Number.plain value
  | both left right =>
    ['(', 'a', 'n', 'd', ' ', '('] ++ left.render ++ [')', ' ', '('] ++ right.render ++ [')', ')']

/-- A text in double braces. -/
def action (text : List Char) : List Char :=
  '{' :: '{' :: (text ++ ['}', '}'])

namespace Expr

/-- What opens the first branch of a chain. -/
def firstBranch : List Char :=
  ['i', 'f', ' ']

/-- What opens a branch behind the first one. -/
def laterBranch : List Char :=
  ['e', 'l', 's', 'e', ' ', 'i', 'f', ' ']

mutual

/-- The text of an expression. -/
def render : Expr → List Char
  | literal text => text.toList
  | call function operands =>
    action (function.toList ++ operands.flatMap fun operand => ' ' :: operandText operand)
  | conditional branches fallback =>
    renderBranches firstBranch branches ++ action ['e', 'l', 's', 'e'] ++ render fallback
      ++ action ['e', 'n', 'd']

/-- The text of branches, the first of them opened as given. -/
def renderBranches (opening : List Char) : List (Condition × Expr) → List Char
  | [] => []
  | (condition, expr) :: branches =>
    action (opening ++ condition.render) ++ render expr ++ renderBranches laterBranch branches

end

end Expr

/-- The text of a template. -/
def Template.render (template : Template) : List Char :=
  '{' :: (Json.quoted template.key ++ ':' :: template.body.render ++ ['}'])

end DecisionCompiler
