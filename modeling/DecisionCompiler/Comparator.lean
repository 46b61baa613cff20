import DecisionCompiler.Number.Basic
import DecisionCompiler.Text.Split

/-!
Comparisons of an operand with a number.

A comparator has two spellings: a symbol, which leads the condition labels of a threshold, and the
name of the function that a template calls. `Comparator.Holds` says what a comparator means.
-/

namespace DecisionCompiler

/-- A comparison with a number. -/
inductive Comparator where
  | greater
  | greaterOrEqual
  | less
  | lessOrEqual
deriving DecidableEq

namespace Comparator

/-- The function that compares inside a template. -/
def name : Comparator → String
  | greater => "greater_than"
  | greaterOrEqual => "greater_than_or_equals"
  | less => "less_than"
  | lessOrEqual => "less_than_or_equals"

/-- The symbol that leads a label. -/
def symbol : Comparator → String
  | greater => ">"
  | greaterOrEqual => ">="
  | less => "<"
  | lessOrEqual => "<="

/-- The comparator that holds where this one does not. -/
def complement : Comparator → Comparator
  | greater => lessOrEqual
  | greaterOrEqual => less
  | less => greaterOrEqual
  | lessOrEqual => greater

/-- The comparator selects the upper part of the line. -/
def isUpper : Comparator → Bool
  | greater | greaterOrEqual => true
  | less | lessOrEqual => false

/-- All comparators, one whose symbol begins with the symbol of another one before that one. -/
def all : List Comparator :=
  [greaterOrEqual, lessOrEqual, greater, less]

/-- The comparator with the given symbol. -/
def ofSymbol? (symbol : String) : Option Comparator :=
  all.find? fun comparator => comparator.symbol = symbol

/-- Splits a leading symbol off, the longest that fits. -/
def split? (text : List Char) : Option (Comparator × List Char) :=
  all.findSome? fun comparator =>
    (Text.dropPrefix? comparator.symbol.toList text).map fun rest => (comparator, rest)

/-- The comparison of two points of an order. -/
def Holds {α : Type} [LT α] [LE α] (c : Comparator) (x y : α) : Prop :=
  match c with
  | greater => y < x
  | greaterOrEqual => y ≤ x
  | less => x < y
  | lessOrEqual => x ≤ y

instance (c : Comparator) (x y : Number.Finite) : Decidable (c.Holds x y) := by
  cases c <;> unfold Holds <;> infer_instance

theorem complement_complement (c : Comparator) : c.complement.complement = c := by
  cases c <;> rfl

theorem isUpper_complement (c : Comparator) : c.complement.isUpper = !c.isUpper := by
  cases c <;> rfl

end Comparator

end DecisionCompiler
