/-!
Why a decision cannot be compiled.

An error is a cause with the texts that it is about; what is reported to a user is written in one
place, `CompileError.message`, from the wording of the defects that labels can have.
-/

namespace DecisionCompiler

/-- What is wrong with an interval label. -/
inductive IntervalDefect where
  /-- The label has no `...` in it. -/
  | unseparated
  /-- The part before the separator opens with neither bracket. -/
  | unopened
  /-- The part behind the separator closes with neither bracket. -/
  | unclosed
  | notNumeric (text : String)
  | notFinite
  /-- No number lies between the bounds. -/
  | empty
  /-- The label is the only one. -/
  | alone
  /-- The interval is the whole line although there are other labels. -/
  | wholeLine
  /-- No literal is filed under the label. -/
  | valueless
deriving DecidableEq

/-- What is wrong with the condition labels of a threshold. -/
inductive ThresholdDefect where
  | count (found : Nat)
  | noComparator (label : String)
  | notNumeric (label : String)
  | notFinite (label : String)
  | differentPivots (first second : String)
  | notComplementary (first second : String)
  /-- No literal is filed under the label. -/
  | valueless (label : String)
deriving DecidableEq

/-- The shape that the payload of a rule must have. -/
inductive PayloadShape where
  | mapping
  | functionName
deriving DecidableEq

/-- Why a decision cannot be compiled. -/
inductive CompileError where
  /-- A lookup has no operand. -/
  | missingOperand (field : String)
  /-- A payload has another shape than its rule needs. -/
  | wrongPayload (field : String) (expected : PayloadShape) (found : String)
  | invalidInterval (label : String) (defect : IntervalDefect)
  /-- The intervals leave a part of the line out. -/
  | nonExhaustiveIntervals
  /-- The intervals meet some point more than once. -/
  | overlappingIntervals
  | invalidThreshold (defect : ThresholdDefect)
  /-- A source reference does not name an output of a decision. -/
  | unrecognizedSource (reference : String)
  /-- A rule is of no known kind. -/
  | unsupportedRule (kind : String)
deriving DecidableEq

/-- A defect of an interval label in words. -/
def IntervalDefect.message (label : String) : IntervalDefect → String
  | unseparated => s!"'{label}': missing '...' separator"
  | unopened => s!"'{label}': lower bound must start with '(' or '['"
  | unclosed => s!"'{label}': upper bound must end with ')' or ']'"
  | notNumeric text => s!"'{label}': '{text}' is not a number"
  | notFinite => s!"'{label}': bounds must be finite"
  | empty => s!"'{label}': interval contains no values"
  | alone => s!"a single interval '{label}' cannot cover the real line"
  | wholeLine => s!"'{label}': an unbounded interval cannot share the line with others"
  | valueless => s!"no value for '{label}'"

/-- A defect of threshold conditions in words. -/
def ThresholdDefect.message : ThresholdDefect → String
  | count found => s!"expected exactly 2 conditions, found {found}"
  | noComparator label => s!"'{label}' does not start with one of >, >=, <, <="
  | notNumeric label => s!"'{label}' has no numeric threshold"
  | notFinite label => s!"'{label}' has a non-finite threshold"
  | differentPivots first second => s!"'{first}' and '{second}' use different thresholds"
  | notComplementary first second => s!"'{first}' and '{second}' are not complementary"
  | valueless label => s!"no value for '{label}'"

/-- A shape of payloads in words. -/
def PayloadShape.description : PayloadShape → String
  | mapping => "a mapping"
  | functionName => "a function name"

/-- An error in words. -/
def CompileError.message : CompileError → String
  | missingOperand field => s!"invalid args for field '{field}'"
  | wrongPayload field expected found =>
    s!"invalid rule for field '{field}': expected {expected.description}, found {found}"
  | invalidInterval label defect => s!"invalid interval: {defect.message label}"
  | nonExhaustiveIntervals => "non-exhaustive intervals"
  | overlappingIntervals => "overlapping intervals"
  | invalidThreshold defect => s!"invalid threshold map: {defect.message}"
  | unrecognizedSource reference => s!"unrecognized source component in '{reference}'"
  | unsupportedRule kind => s!"unsupported rule type '{kind}'"

end DecisionCompiler
