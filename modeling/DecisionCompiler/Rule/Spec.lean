import DecisionCompiler.Rule.Request
import DecisionCompiler.CompileError

/-!
Rules in the form that their kind requires.

`RuleSpec.ofRequest` settles the shape of a rule: a lookup is asked for its operand first and for a
mapping second, a call for the name of its function. What the labels of a mapping say is not looked
at here.
-/

namespace DecisionCompiler

/-- The literals of a lookup, filed under their labels. -/
structure Payload where
  entries : List (String × Value)
  ascending : Entries.Ascending entries

namespace Payload

/-- The payload of any entries; the last one of a label counts. -/
def ofEntries (entries : List (String × Value)) : Payload :=
  ⟨Entries.ofList entries, Entries.ascending_ofList entries⟩

/-- The labels in ascending order. -/
def labels (payload : Payload) : List String :=
  payload.entries.map Prod.fst

/-- The literal of a label, if the label is present. -/
def get? (payload : Payload) (label : String) : Option Value :=
  Entries.get? label payload.entries

end Payload

/-- A rule in the form that its kind requires. -/
inductive RuleSpec where
  /-- Selects a literal by the interval that the operand falls into. -/
  | range (operand : String) (literals : Payload)
  /-- Selects a literal by the truth of the operand. -/
  | bool (operand : String) (onTrue onFalse : Option Value)
  /-- Selects a literal by one comparison of the operand. -/
  | threshold (operand : String) (literals : Payload)
  /-- Calls a function. -/
  | call (function : String) (operands : List String)
  | unknown (kind : String)

namespace RuleSpec

/-- The kind of a rule. -/
def kind : RuleSpec → RuleKind
  | range .. => .intervalMap
  | bool .. => .boolMap
  | threshold .. => .thresholdMap
  | call .. => .func
  | unknown kind => .unknown kind

/-- The operand of a lookup is its first argument, which must not be empty. -/
def operandOf (field : String) (request : RuleRequest) : Except CompileError String :=
  match request.args with
  | operand :: _ => if operand = "" then .error (.missingOperand field) else .ok operand
  | [] => .error (.missingOperand field)

/-- The mapping that a lookup has as its payload. -/
def mappingOf (field : String) (request : RuleRequest) : Except CompileError Payload :=
  match request.payload.entries? with
  | some entries => .ok (.ofEntries entries)
  | none => .error (.wrongPayload field .mapping request.payload.kind)

/-- The function that a call has as its payload. -/
def functionOf (field : String) (request : RuleRequest) : Except CompileError String :=
  match request.payload.text? with
  | some function => .ok function
  | none => .error (.wrongPayload field .functionName request.payload.kind)

/-- The form of the rule that an output field declares. -/
def ofRequest (field : String) (request : RuleRequest) : Except CompileError RuleSpec :=
  match RuleKind.ofName request.kind with
  | .intervalMap => do
    let operand ← operandOf field request
    let literals ← mappingOf field request
    return range operand literals
  | .boolMap => do
    let operand ← operandOf field request
    let literals ← mappingOf field request
    return bool operand (literals.get? "true") (literals.get? "false")
  | .thresholdMap => do
    let operand ← operandOf field request
    let literals ← mappingOf field request
    return threshold operand literals
  | .func => do
    let function ← functionOf field request
    return call function request.args
  | .unknown kind => return unknown kind

end RuleSpec

end DecisionCompiler
