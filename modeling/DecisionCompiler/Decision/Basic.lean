import DecisionCompiler.Compiler

/-!
Compiled decisions.

A decision has a name and two forms. Input fields are supplied directly or linked to the output of
another decision; output fields carry the expression that computes them.
-/

namespace DecisionCompiler

/-- What describes a field of either form. -/
structure FieldInfo where
  key : String := ""
  title : String := ""
  description : String := ""
  unit : String := ""
  type : ValueType := default
deriving DecidableEq

/-- The output of another decision that an input field takes its value from. -/
structure ChainLink where
  /-- The decision that produces the value. -/
  decision : String := ""
  /-- The output field of that decision. -/
  source : String := ""
  /-- The input field that takes the value. -/
  destination : String := ""
deriving DecidableEq

/-- An input field. -/
structure InputField extends FieldInfo where
  link : Option ChainLink
deriving DecidableEq

/-- An output field. -/
structure OutputField extends FieldInfo where
  rule : Expression
deriving DecidableEq

/-- A compiled decision. -/
structure Decision where
  name : String := ""
  inputs : List InputField := []
  outputs : List OutputField := []
deriving DecidableEq

namespace Decision

/-- The first input field with a key. -/
def input? (key : String) (decision : Decision) : Option InputField :=
  decision.inputs.find? fun field => field.key = key

/-- The first output field with a key. -/
def output? (key : String) (decision : Decision) : Option OutputField :=
  decision.outputs.find? fun field => field.key = key

/-- The links of the input fields in order. -/
def links (decision : Decision) : List ChainLink :=
  decision.inputs.filterMap fun field => field.link

end Decision

end DecisionCompiler
