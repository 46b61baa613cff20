import DecisionCompiler.Interval.Basic
import DecisionCompiler.Number.Layout
import DecisionCompiler.Number.Numeral
import DecisionCompiler.Text.Split
import DecisionCompiler.CompileError

/-!
Labels of intervals.

A label is a lower and an upper bound with `...` between them. A bound is a numeral with a bracket
on its outer side, square if the endpoint belongs to the interval and round if it does not; a round
bracket alone is no bound. The first `...` separates, so a numeral may end in a point only on the
right.
-/

namespace DecisionCompiler.Interval

/-- What stands between the bounds. -/
def separator : List Char :=
  ['.', '.', '.']

/-- Reads the numeral of a bound. -/
def readNumeral (text : List Char) : Except IntervalDefect Number.Finite :=
  match Number.read? text with
  | none => .error (.notNumeric (String.ofList text))
  | some (.finite x) => .ok x
  | some _ => .error .notFinite

/-- Reads the endpoint of a numeral. -/
def readEndpoint (closed : Bool) (text : List Char) : Except IntervalDefect (Option Endpoint) :=
  (readNumeral text).map fun value => some ⟨value, closed⟩

/-- Reads what stands before the separator. -/
def readLower : List Char → Except IntervalDefect (Option Endpoint)
  | ['('] => .ok none
  | '(' :: numeral => readEndpoint false numeral
  | '[' :: numeral => readEndpoint true numeral
  | _ => .error .unopened

/-- Reads what stands behind the separator. -/
def readUpper (text : List Char) : Except IntervalDefect (Option Endpoint) :=
  match text.reverse with
  | [')'] => .ok none
  | ')' :: numeral => readEndpoint false numeral.reverse
  | ']' :: numeral => readEndpoint true numeral.reverse
  | _ => .error .unclosed

/-- Reads both bounds of a label. -/
def readBounds (text : List Char) : Except IntervalDefect (Option Endpoint × Option Endpoint) :=
  match Text.splitOnce? separator text with
  | none => .error .unseparated
  | some (before, behind) => do
    let lower ← readLower before
    let upper ← readUpper behind
    return (lower, upper)

/-- The interval of a label. -/
def ofLabel (label : String) : Except CompileError Interval :=
  match readBounds label.toList with
  | .error defect => .error (.invalidInterval label defect)
  | .ok (lower, upper) =>
    let interval : Interval := ⟨label, lower, upper⟩
    if interval.IsEmpty then .error (.invalidInterval label .empty) else .ok interval

/-- A lower bound as a label writes it. -/
def lowerText : Option Endpoint → List Char
  | none => ['(']
  | some e => (if e.closed then '[' else '(') :: e.value.plain

/-- An upper bound as a label writes it. -/
def upperText : Option Endpoint → List Char
  | none => [')']
  | some e => e.value.plain ++ [if e.closed then ']' else ')']

/-- The label that is written for two bounds. -/
def labelOf (lower upper : Option Endpoint) : String :=
  String.ofList (lowerText lower ++ separator ++ upperText upper)

end DecisionCompiler.Interval
