import DecisionCompiler.Rule.Request
import DecisionCompiler.ValueType

/-!
Batches of decisions as they are submitted.

Whatever a request does not state is empty. An input field may name the output of another decision
as its source; an output field has a rule. Requests are also built step by step, each step adding
what it names behind what is there.
-/

namespace DecisionCompiler

/-- A field of a form as it is submitted. -/
structure FieldRequest where
  key : String := ""
  title : String := ""
  description : String := ""
  unit : String := ""
  type : ValueType := default
  /-- The dotted reference to the output that an input field takes its value from. -/
  source : String := ""
  /-- How an output field gets its value. -/
  rule : RuleRequest := {}

instance : Inhabited FieldRequest := ⟨{}⟩

/-- A decision as it is submitted. -/
structure DecisionRequest where
  name : String := ""
  inputs : List FieldRequest := []
  outputs : List FieldRequest := []

instance : Inhabited DecisionRequest := ⟨{}⟩

/-- Decisions that are submitted together. -/
structure Batch where
  decisions : List DecisionRequest := []

instance : Inhabited Batch := ⟨{}⟩

namespace FieldRequest

/-- An input field that is supplied directly. -/
def input (key : String) (type : ValueType) : FieldRequest :=
  { key, type }

/-- An output field with its rule. -/
def output (key : String) (type : ValueType) (rule : RuleRequest) : FieldRequest :=
  { key, type, rule }

/-- The field with a source. -/
def withSource (reference : String) (field : FieldRequest) : FieldRequest :=
  { field with source := reference }

/-- The field with a title. -/
def withTitle (title : String) (field : FieldRequest) : FieldRequest :=
  { field with title }

/-- The field with a unit. -/
def withUnit (unit : String) (field : FieldRequest) : FieldRequest :=
  { field with unit }

end FieldRequest

namespace DecisionRequest

/-- A decision without fields. -/
def named (name : String) : DecisionRequest :=
  { name }

/-- The decision with one more input field. -/
def addInput (decision : DecisionRequest) (field : FieldRequest) : DecisionRequest :=
  { decision with inputs := decision.inputs ++ [field] }

/-- The decision with one more output field. -/
def addOutput (decision : DecisionRequest) (field : FieldRequest) : DecisionRequest :=
  { decision with outputs := decision.outputs ++ [field] }

end DecisionRequest

end DecisionCompiler
