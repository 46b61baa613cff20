import DecisionCompiler.Request.Basic

/-!
Requests as documents.

Written, a request states every field in a fixed order. Read, a field may be missing and the members
may stand in any order, among others that are passed over.
-/

namespace DecisionCompiler

open Json.Decoder

/-! ### Writing -/

/-- The document of a rule. -/
def RuleRequest.toJson (rule : RuleRequest) : Json :=
  .object
    [("type", .string rule.kind), ("args", .array (rule.args.map .string)),
     ("rule", rule.payload.toJson)]

/-- The document of a field. -/
def FieldRequest.toJson (field : FieldRequest) : Json :=
  .object
    [("key", .string field.key), ("title", .string field.title),
     ("description", .string field.description), ("unit", .string field.unit),
     ("type", field.type.toJson), ("value", .string field.source), ("rule", field.rule.toJson)]

/-- The document of a decision. -/
def DecisionRequest.toJson (decision : DecisionRequest) : Json :=
  .object
    [("name", .string decision.name),
     ("input_form", .array (decision.inputs.map FieldRequest.toJson)),
     ("output_form", .array (decision.outputs.map FieldRequest.toJson))]

/-- The document of a batch. -/
def Batch.toJson (batch : Batch) : Json :=
  .object [("decisions", .array (batch.decisions.map DecisionRequest.toJson))]

/-! ### Reading -/

/-- Reads a rule. -/
def RuleRequest.decoder : Json.Decoder RuleRequest :=
  record
    [.optional "type" string fun rule kind => { rule with kind },
     .optional "args" (list string) fun rule args => { rule with args },
     .optional "rule" Value.decoder fun rule payload => { rule with payload }]
    {}

/-- Reads a field. -/
def FieldRequest.decoder : Json.Decoder FieldRequest :=
  record
    [.optional "key" string fun field key => { field with key },
     .optional "title" string fun field title => { field with title },
     .optional "description" string fun field description => { field with description },
     .optional "unit" string fun field unit => { field with unit },
     .optional "type" ValueType.decoder fun field type => { field with type },
     .optional "value" string fun field source => { field with source },
     .optional "rule" RuleRequest.decoder fun field rule => { field with rule }]
    {}

/-- Reads a decision. -/
def DecisionRequest.decoder : Json.Decoder DecisionRequest :=
  record
    [.optional "name" string fun decision name => { decision with name },
     .optional "input_form" (list FieldRequest.decoder)
       fun decision inputs => { decision with inputs },
     .optional "output_form" (list FieldRequest.decoder)
       fun decision outputs => { decision with outputs }]
    {}

/-- Reads a batch. -/
def Batch.decoder : Json.Decoder Batch :=
  record
    [.optional "decisions" (list DecisionRequest.decoder)
       fun batch decisions => { batch with decisions }]
    {}

end DecisionCompiler
