import DecisionCompiler.Interval.Partition
import DecisionCompiler.Rule.Spec
import DecisionCompiler.Template
import DecisionCompiler.Threshold
import DecisionCompiler.ValueType

/-!
The expressions that rules compile to.

A range lookup becomes one branch for each interval that has an upper endpoint, in ascending order,
with the interval above them as the fallback. A threshold lookup and a truth lookup have one branch
each; a truth value without a literal gives null.
-/

namespace DecisionCompiler

/-- A value as it stands in the template of a field of the given type: a string field puts quotes
around the displayed value, any other field leaves it as it is. -/
def ValueType.literal (type : ValueType) (value : Value) : String :=
  match type with
  | .string => "\"" ++ value.display ++ "\""
  | _ => value.display

/-- The operand lies above a lower endpoint. -/
def Endpoint.testAbove (operand : String) (e : Endpoint) : Condition :=
  .compare (if e.closed then .greaterOrEqual else .greater) operand (.finite e.value)

/-- The operand lies below an upper endpoint. -/
def Endpoint.testBelow (operand : String) (e : Endpoint) : Condition :=
  .compare (if e.closed then .lessOrEqual else .less) operand (.finite e.value)

/-- The operand falls into an interval that has an upper endpoint. -/
def Cell.test (operand : String) (cell : Cell) : Condition :=
  match cell.interval.lower with
  | none => cell.upper.testBelow operand
  | some lower => .both (lower.testAbove operand) (cell.upper.testBelow operand)

namespace Expr

/-- The literal of a value. -/
def ofValue (type : ValueType) (value : Value) : Expr :=
  literal (type.literal value)

/-- The literal filed under a label, or the given error if there is none. -/
def ofLabel (type : ValueType) (literals : Payload) (missing : CompileError) (label : String) :
    Except CompileError Expr :=
  match literals.get? label with
  | some value => .ok (ofValue type value)
  | none => .error missing

/-- The chain of conditions that selects by the intervals of a partition. -/
def ofPartition (operand : String) (select : Interval → Except CompileError Expr)
    (partition : Partition) : Except CompileError Expr := do
  let branches ← partition.cells.mapM fun cell => do
    let expr ← select cell.interval
    return (cell.test operand, expr)
  let fallback ← select partition.top
  return conditional branches fallback

/-- The expression of a range lookup. -/
def ofRange (type : ValueType) (operand : String) (literals : Payload) :
    Except CompileError Expr := do
  let partition ← Partition.ofLabels literals.labels
  let select (i : Interval) : Except CompileError Expr :=
    ofLabel type literals (.invalidInterval i.label .valueless) i.label
  ofPartition operand select partition

/-- The expression of a lookup by truth. -/
def ofBool (type : ValueType) (operand : String) (onTrue onFalse : Option Value) : Expr :=
  conditional [(.truthy operand, ofValue type (onTrue.getD .null))]
    (ofValue type (onFalse.getD .null))

/-- The expression of a threshold lookup. -/
def ofThreshold (type : ValueType) (operand : String) (literals : Payload) :
    Except CompileError Expr := do
  let threshold ← Threshold.ofLabels literals.labels
  let select (half : HalfLine) : Except CompileError Expr :=
    ofLabel type literals (.invalidThreshold (.valueless half.label)) half.label
  let onUpper ← select threshold.upper
  let onLower ← select threshold.lower
  let test : Condition :=
    .compare threshold.upper.comparator operand (.finite threshold.upper.pivot)
  return conditional [(test, onUpper)] onLower

/-- The expression of a rule; a rule of an unknown kind has none. -/
def ofSpec (type : ValueType) : RuleSpec → Except CompileError (Option Expr)
  | .range operand literals => (ofRange type operand literals).map some
  | .bool operand onTrue onFalse => .ok (some (ofBool type operand onTrue onFalse))
  | .threshold operand literals => (ofThreshold type operand literals).map some
  | .call function operands => .ok (some (call function operands))
  | .unknown _ => .ok none

end Expr

end DecisionCompiler
