import DecisionCompiler.Decision.Basic

/-!
Decisions as documents.

What describes a field stands beside its link or its expression in one object. An input field
without a link leaves the member out; read, null counts as none. All other members have to be there.
-/

namespace DecisionCompiler

open Json.Decoder

/-! ### Writing -/

/-- The members that describe a field. -/
def FieldInfo.toMembers (field : FieldInfo) : List (String × Json) :=
  [("key", .string field.key), ("title", .string field.title),
   ("description", .string field.description), ("unit", .string field.unit),
   ("type", field.type.toJson)]

/-- The document of a link. -/
def ChainLink.toJson (link : ChainLink) : Json :=
  .object
    [("decision_name", .string link.decision), ("source_key", .string link.source),
     ("destination_key", .string link.destination)]

/-- The document of an input field. -/
def InputField.toJson (field : InputField) : Json :=
  .object
    (field.toFieldInfo.toMembers
      ++ (field.link.map fun link => ("chain_link", link.toJson)).toList)

/-- The document of an output field. -/
def OutputField.toJson (field : OutputField) : Json :=
  .object (field.toFieldInfo.toMembers ++ [("rule", .string field.rule.text)])

/-- The document of a decision. -/
def Decision.toJson (decision : Decision) : Json :=
  .object
    [("name", .string decision.name),
     ("input_form", .array (decision.inputs.map InputField.toJson)),
     ("output_form", .array (decision.outputs.map OutputField.toJson))]

/-! ### Reading -/

/-- Reads what describes a field. -/
def FieldInfo.decoder : Json.Decoder FieldInfo :=
  record
    [.mandatory "key" string fun field key => { field with key },
     .mandatory "title" string fun field title => { field with title },
     .mandatory "description" string fun field description => { field with description },
     .mandatory "unit" string fun field unit => { field with unit },
     .mandatory "type" ValueType.decoder fun field type => { field with type }]
    {}

/-- Reads a link. -/
def ChainLink.decoder : Json.Decoder ChainLink :=
  record
    [.mandatory "decision_name" string fun link decision => { link with decision },
     .mandatory "source_key" string fun link source => { link with source },
     .mandatory "destination_key" string fun link destination => { link with destination }]
    {}

/-- Reads an input field. -/
def InputField.decoder : Json.Decoder InputField := fun draft => do
  let (link, others) ←
    interleaved [.optional "chain_link" (optional ChainLink.decoder) fun _ link => link] none draft
  let info ← FieldInfo.decoder others
  return { info with link }

/-- Reads an output field. -/
def OutputField.decoder : Json.Decoder OutputField := fun draft => do
  let (rule, others) ←
    interleaved [.mandatory "rule" string fun _ text => Expression.mk text] ⟨""⟩ draft
  let info ← FieldInfo.decoder others
  return { info with rule }

/-- Reads a decision. -/
def Decision.decoder : Json.Decoder Decision :=
  record
    [.mandatory "name" string fun decision name => { decision with name },
     .mandatory "input_form" (list InputField.decoder)
       fun decision inputs => { decision with inputs },
     .mandatory "output_form" (list OutputField.decoder)
       fun decision outputs => { decision with outputs }]
    {}

end DecisionCompiler
