import DecisionCompiler.Decision.Assembly
import DecisionCompiler.Proofs.Rule.Outcomes

/-!
What assembly does not look at.

Every field is submitted with a source and a rule, but an input field makes no use of its rule, nor
an output field of its source. Of its rule an output field uses what the kind of the rule asks for:
a lookup its first argument alone, a lookup by truth two entries alone, and a rule of an unknown
kind nothing at all. Requests that agree in everything that is used are assembled to the same
decision, or are refused with the same error (`assemble_eq_of_agrees`).
-/

namespace DecisionCompiler

/-- Payloads of lookups by truth: the same one, or mappings with the same literals for the two truth
values. -/
inductive Value.AgreesByTruth : Value → Value → Prop where
  | same (payload : Value) : AgreesByTruth payload payload
  | mappings {entries others : List (String × Value)}
    (onTrue : (Payload.ofEntries entries).get? "true" = (Payload.ofEntries others).get? "true")
    (onFalse : (Payload.ofEntries entries).get? "false" = (Payload.ofEntries others).get? "false") :
    AgreesByTruth (object entries) (object others)

/-- Two rules agree in what their kind asks for. -/
inductive RuleRequest.Agrees (rule other : RuleRequest) : Prop where
  | byNumber (lookup : RuleKind.ofName rule.kind ∈ [.intervalMap, .thresholdMap])
    (kind : rule.kind = other.kind) (operand : rule.args.head? = other.args.head?)
    (payload : rule.payload = other.payload)
  | byTruth (lookup : RuleKind.ofName rule.kind = .boolMap) (kind : rule.kind = other.kind)
    (operand : rule.args.head? = other.args.head?)
    (payload : rule.payload.AgreesByTruth other.payload)
  | call (call : RuleKind.ofName rule.kind = .func) (same : rule = other)
  | unknown {name : String} (unknown : RuleKind.ofName rule.kind = .unknown name)
    (kind : rule.kind = other.kind)

/-- Two input fields are the same but for their rules. -/
def FieldRequest.AgreesAsInput (field other : FieldRequest) : Prop :=
  ∃ rule, other = { field with rule }

/-- Two output fields are the same but for their sources and what their rules make no use of. -/
def FieldRequest.AgreesAsOutput (field other : FieldRequest) : Prop :=
  ∃ source rule, other = { field with source, rule } ∧ field.rule.Agrees rule

/-- Two requests agree in everything that assembly looks at. -/
structure DecisionRequest.Agrees (request other : DecisionRequest) : Prop where
  name : request.name = other.name
  inputs : List.Forall₂ FieldRequest.AgreesAsInput request.inputs other.inputs
  outputs : List.Forall₂ FieldRequest.AgreesAsOutput request.outputs other.outputs

/-! ### Rules -/

namespace RuleSpec

variable {rule other : RuleRequest}

/-- The operand is read off the first argument. -/
theorem operandOf_congr (field : String) (operand : rule.args.head? = other.args.head?) :
    operandOf field rule = operandOf field other := by
  simp only [operandOf_eq, RuleRequest.operand?, operand]

theorem mappingOf_congr (field : String) (payload : rule.payload = other.payload) :
    mappingOf field rule = mappingOf field other := by
  simp only [mappingOf, payload]

/-- Of its mapping a lookup by truth keeps the literals of the two truth values. -/
theorem bool_congr (field operand : String)
    (payload : rule.payload.AgreesByTruth other.payload) :
    (mappingOf field rule >>= fun literals =>
        .ok (bool operand (literals.get? "true") (literals.get? "false"))) =
      mappingOf field other >>= fun literals =>
        .ok (bool operand (literals.get? "true") (literals.get? "false")) := by
  unfold mappingOf
  generalize rule.payload = value, other.payload = value' at payload
  cases payload with
  | same => rfl
  | mappings onTrue onFalse => simp only [Value.entries?, Outcome.ok_bind, onTrue, onFalse]

/-- Rules that agree have the same form, or are refused alike. -/
theorem ofRequest_congr (field : String) (agree : rule.Agrees other) :
    ofRequest field rule = ofRequest field other := by
  cases agree with
  | byNumber lookup kind operand payload =>
    unfold ofRequest
    rw [← kind, operandOf_congr field operand, mappingOf_congr field payload]
    simp only [List.mem_cons, List.not_mem_nil, or_false] at lookup
    rcases lookup with lookup | lookup <;> rw [lookup]
  | byTruth lookup kind operand payload =>
    unfold ofRequest
    rw [← kind, lookup, operandOf_congr field operand]
    cases operandOf field other with
    | error e => rfl
    | ok operand => exact bool_congr field operand payload
  | call _ same => rw [same]
  | unknown unknown kind =>
    unfold ofRequest
    rw [← kind, unknown]

end RuleSpec

namespace Compiler

variable {compiler : Compiler} {field other : FieldRequest}

/-! ### Fields -/

theorem assembleInput_congr (agree : field.AgreesAsInput other) :
    assembleInput field = assembleInput other := by
  obtain ⟨rule, rfl⟩ := agree
  rfl

theorem assembleOutput_congr (agree : field.AgreesAsOutput other) :
    compiler.assembleOutput field = compiler.assembleOutput other := by
  obtain ⟨source, rule, rfl, agree⟩ := agree
  have compiled : compiler.compileRule field.key field.type field.rule =
      compiler.compileRule field.key field.type rule := by
    rw [compileRule, RuleSpec.ofRequest_congr field.key agree, compileRule]
  unfold assembleOutput
  rw [compiled]
  rfl

/-! ### Decisions -/

/-- **Assembly depends on nothing else.** Requests that are the same but for the rules of input
fields, the sources of output fields and what the rules of output fields make no use of are
assembled to the same decision, or are refused with the same error. -/
theorem assemble_eq_of_agrees (compiler : Compiler) {request other : DecisionRequest}
    (agree : request.Agrees other) : compiler.assemble request = compiler.assemble other := by
  have inputs : request.inputs.mapM assembleInput = other.inputs.mapM assembleInput :=
    Outcome.mapM_congr (agree.inputs.imp fun _ _ => assembleInput_congr)
  have outputs : request.outputs.mapM compiler.assembleOutput =
      other.outputs.mapM compiler.assembleOutput :=
    Outcome.mapM_congr (agree.outputs.imp fun _ _ => assembleOutput_congr)
  rw [assemble, assemble, agree.name, inputs, outputs]

/-- Two requests that differ in everything that assembly does not look at; with one compiler both
are assembled, with the other one both are refused. -/
theorem assemble_eq_of_agrees_unused :
    let halves : List (String × Value) := [("<0", .string "debit"), (">=0", .string "credit")]
    let standing (spare : List String) : RuleRequest :=
      { kind := "ThresholdMap", args := "balance" :: spare, payload := .object halves }
    let member (entries : List (String × Value)) (spare : List String) : RuleRequest :=
      { kind := "BoolMap", args := "member" :: spare, payload := .object entries }
    let request : DecisionRequest :=
      ⟨"account", [.input "balance" .number],
        [.output "standing" .string (standing []),
          .output "open" .bool (member [("true", .bool true)] []),
          .output "score" .number { kind := "Matrix" }]⟩
    let other : DecisionRequest :=
      ⟨"account", [{ FieldRequest.input "balance" .number with rule := standing [] }],
        [.withSource "nowhere" (.output "standing" .string (standing ["spare"])),
          .output "open" .bool (member [("maybe", .null), ("true", .bool true)] ["", "spare"]),
          .output "score" .number { kind := "Matrix", args := ["x"], payload := .bool true }]⟩
    ((assemble {} request).toOption.isSome = true ∧ assemble {} request = assemble {} other) ∧
      (assemble { rejectUnknownRules := true } request).toOption.isSome = false ∧
        assemble { rejectUnknownRules := true } request =
          assemble { rejectUnknownRules := true } other := by
  intro halves standing member request other
  have agree : request.Agrees other := by
    refine ⟨rfl, .cons ⟨_, rfl⟩ .nil, .cons ⟨_, _, rfl, .byNumber ?_ rfl rfl rfl⟩
      (.cons ⟨_, _, rfl, .byTruth rfl rfl rfl (.mappings rfl rfl)⟩
        (.cons ⟨_, _, rfl, .unknown rfl rfl⟩ .nil))⟩
    decide
  exact ⟨⟨by decide +kernel, assemble_eq_of_agrees {} agree⟩, by decide +kernel,
    assemble_eq_of_agrees { rejectUnknownRules := true } agree⟩

end Compiler

end DecisionCompiler
