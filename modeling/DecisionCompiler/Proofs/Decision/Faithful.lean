import DecisionCompiler.Proofs.Decision.Reference
import DecisionCompiler.Decision.Assembly
import DecisionCompiler.Proofs.Outcome

/-!
What a request is assembled to.

A decision answers a request when it repeats the name of the request and what describes its fields,
in order and number, with the link that the source of an input names and with the expression that
the rule of an output compiles to. A request is assembled to the one decision that answers it
(`Compiler.assemble_eq_ok_iff`); it has one exactly if all of its sources name something and all of
its rules compile. Otherwise the first failure is reported, input fields coming before output fields
(`Compiler.assemble_eq_error_iff`).
-/

namespace DecisionCompiler

/-! ### Answers -/

/-- What describes a field is what was requested. -/
structure FieldInfo.Repeats (field : FieldRequest) (info : FieldInfo) : Prop where
  key : info.key = field.key
  title : info.title = field.title
  description : info.description = field.description
  unit : info.unit = field.unit
  type : info.type = field.type

/-- The link leads from the output that the source names to the field itself. -/
structure ChainLink.Links (field : FieldRequest) (link : ChainLink) : Prop where
  destination : link.destination = field.key
  source : link.reference = field.source
  isPart : IsPart link.decision ∧ IsPart link.source

/-- The input field is the one that was requested. -/
structure InputField.Answers (field : FieldRequest) (input : InputField) : Prop where
  info : input.toFieldInfo.Repeats field
  linked : input.link.isSome ↔ field.source ≠ ""
  link : ∀ link, input.link = some link → link.Links field

/-- The output field is the one that was requested. -/
structure OutputField.Answers (compiler : Compiler) (field : FieldRequest) (output : OutputField) :
    Prop where
  info : output.toFieldInfo.Repeats field
  rule : compiler.compileRule field.key field.type field.rule = .ok output.rule

/-- The decision is the one that was requested, field by field. -/
structure Decision.Answers (compiler : Compiler) (request : DecisionRequest) (decision : Decision) :
    Prop where
  name : decision.name = request.name
  inputs : List.Forall₂ InputField.Answers request.inputs decision.inputs
  outputs : List.Forall₂ (OutputField.Answers compiler) request.outputs decision.outputs

/-- The link that the source of a field names, if the source is not empty. -/
def FieldRequest.resolve (field : FieldRequest) : Except CompileError (Option ChainLink) :=
  ChainLink.ofReference field.key field.source

/-- The expression that the rule of a field compiles to. -/
def Compiler.compileField (compiler : Compiler) (field : FieldRequest) :
    Except CompileError Expression :=
  compiler.compileRule field.key field.type field.rule

theorem FieldInfo.repeats_iff {field : FieldRequest} {info : FieldInfo} :
    info.Repeats field ↔ info = field.info := by
  constructor
  · rintro ⟨key, title, description, unit, type⟩
    cases info
    simp_all [FieldRequest.info]
  · rintro rfl
    exact ⟨rfl, rfl, rfl, rfl, rfl⟩

namespace Compiler

variable {compiler : Compiler} {field : FieldRequest} {request : DecisionRequest}
  {decision : Decision} {input : InputField} {output : OutputField} {e : CompileError}

/-! ### Fields -/

theorem assembleInput_eq_map (field : FieldRequest) :
    assembleInput field = field.resolve.map fun link => { field.info with link } := by
  unfold assembleInput FieldRequest.resolve
  cases ChainLink.ofReference field.key field.source <;> rfl

theorem assembleOutput_eq_map (compiler : Compiler) (field : FieldRequest) :
    compiler.assembleOutput field =
      (compiler.compileField field).map fun rule => { field.info with rule } := by
  unfold assembleOutput compileField
  cases compiler.compileRule field.key field.type field.rule <;> rfl

theorem resolve_eq_ok_iff {link : Option ChainLink} :
    field.resolve = .ok link ↔
      (link.isSome ↔ field.source ≠ "") ∧ ∀ found, link = some found → found.Links field := by
  unfold FieldRequest.resolve
  cases link with
  | none => simp [ChainLink.ofReference_eq_ok_none_iff]
  | some link =>
    rw [ChainLink.ofReference_eq_ok_some_iff]
    constructor
    · rintro ⟨destination, source, isPart⟩
      refine ⟨iff_of_true rfl (source ▸ link.reference_ne_empty), ?_⟩
      rintro _ ⟨⟩
      exact ⟨destination, source, isPart⟩
    · rintro ⟨_, links⟩
      obtain ⟨destination, source, isPart⟩ := links link rfl
      exact ⟨destination, source, isPart⟩

theorem assembleInput_eq_ok_iff : assembleInput field = .ok input ↔ input.Answers field := by
  rw [assembleInput_eq_map, Outcome.map_eq_ok_iff]
  constructor
  · rintro ⟨link, resolved, rfl⟩
    obtain ⟨linked, links⟩ := resolve_eq_ok_iff.mp resolved
    exact ⟨FieldInfo.repeats_iff.mpr rfl, linked, links⟩
  · rintro ⟨info, linked, links⟩
    refine ⟨input.link, resolve_eq_ok_iff.mpr ⟨linked, links⟩, ?_⟩
    rw [← FieldInfo.repeats_iff.mp info]

theorem assembleOutput_eq_ok_iff :
    compiler.assembleOutput field = .ok output ↔ output.Answers compiler field := by
  rw [assembleOutput_eq_map, Outcome.map_eq_ok_iff]
  constructor
  · rintro ⟨rule, compiled, rfl⟩
    exact ⟨FieldInfo.repeats_iff.mpr rfl, compiled⟩
  · rintro ⟨info, compiled⟩
    refine ⟨output.rule, compiled, ?_⟩
    rw [← FieldInfo.repeats_iff.mp info]

/-! ### Decisions -/

/-- The decision that answers a request is what the request is assembled to. -/
theorem assemble_eq_ok_iff :
    compiler.assemble request = .ok decision ↔ decision.Answers compiler request := by
  simp only [assemble, Outcome.bind_eq_ok_iff, Outcome.mapM_eq_ok_iff, Outcome.pure_eq_ok,
    assembleInput_eq_ok_iff, assembleOutput_eq_ok_iff, Except.ok.injEq]
  constructor
  · rintro ⟨inputs, answeredInputs, outputs, answeredOutputs, rfl⟩
    exact ⟨rfl, answeredInputs, answeredOutputs⟩
  · rintro ⟨name, inputs, outputs⟩
    exact ⟨_, inputs, _, outputs, by rw [← name]⟩

theorem exists_inputs_iff {form : List FieldRequest} :
    (∃ inputs, form.mapM assembleInput = .ok inputs) ↔
      ∀ field ∈ form, ∃ link, field.resolve = .ok link := by
  rw [funext assembleInput_eq_map, Outcome.exists_mapM_map_iff]

theorem exists_outputs_iff {form : List FieldRequest} :
    (∃ outputs, form.mapM compiler.assembleOutput = .ok outputs) ↔
      ∀ field ∈ form, ∃ rule, compiler.compileField field = .ok rule := by
  rw [funext compiler.assembleOutput_eq_map, Outcome.exists_mapM_map_iff]

/-- A request is assembled exactly if every source names something and every rule compiles. -/
theorem exists_assemble_iff :
    (∃ decision, compiler.assemble request = .ok decision) ↔
      (∀ field ∈ request.inputs, ∃ link, field.resolve = .ok link) ∧
        ∀ field ∈ request.outputs, ∃ rule, compiler.compileField field = .ok rule := by
  rw [← exists_inputs_iff, ← exists_outputs_iff]
  simp only [assemble, Outcome.bind_eq_ok_iff, Outcome.pure_eq_ok, Except.ok.injEq]
  constructor
  · rintro ⟨_, inputs, resolved, outputs, compiled, _⟩
    exact ⟨⟨inputs, resolved⟩, outputs, compiled⟩
  · rintro ⟨⟨inputs, resolved⟩, outputs, compiled⟩
    exact ⟨_, inputs, resolved, outputs, compiled, rfl⟩

/-- A request fails as the first of its sources that names nothing, or, if they all name something,
as the first of its rules that does not compile. -/
theorem assemble_eq_error_iff :
    compiler.assemble request = .error e ↔
      (∃ n, Outcome.FailsAt FieldRequest.resolve request.inputs n e) ∨
        (∀ field ∈ request.inputs, ∃ link, field.resolve = .ok link) ∧
          ∃ n, Outcome.FailsAt compiler.compileField request.outputs n e := by
  have inputs_iff : request.inputs.mapM assembleInput = .error e ↔
      ∃ n, Outcome.FailsAt FieldRequest.resolve request.inputs n e := by
    rw [funext assembleInput_eq_map, Outcome.mapM_map_eq_error_iff]
  have outputs_iff : request.outputs.mapM compiler.assembleOutput = .error e ↔
      ∃ n, Outcome.FailsAt compiler.compileField request.outputs n e := by
    rw [funext compiler.assembleOutput_eq_map, Outcome.mapM_map_eq_error_iff]
  rw [← inputs_iff, ← outputs_iff, ← exists_inputs_iff]
  simp only [assemble, Outcome.bind_eq_error_iff, Outcome.pure_eq_ok, reduceCtorEq, and_false,
    exists_false, or_false, exists_and_right]

/-! ### Batches -/

/-- **Assembly is faithful to the request.** A request is assembled exactly if all sources of its
input fields name something and all rules of its output fields compile, and then to the decision
that answers it field by field. Otherwise the error is that of the first field that fails, input
fields coming before output fields. A batch is assembled to the decisions of its requests in order,
or fails as the first request that does. -/
theorem assemble_faithful (compiler : Compiler) :
    (∀ request : DecisionRequest,
      ((∃ decision, compiler.assemble request = .ok decision) ↔
        (∀ field ∈ request.inputs, ∃ link, field.resolve = .ok link) ∧
          ∀ field ∈ request.outputs, ∃ rule, compiler.compileField field = .ok rule) ∧
      (∀ decision, compiler.assemble request = .ok decision ↔
        decision.Answers compiler request) ∧
      ∀ e, compiler.assemble request = .error e ↔
        (∃ n, Outcome.FailsAt FieldRequest.resolve request.inputs n e) ∨
          (∀ field ∈ request.inputs, ∃ link, field.resolve = .ok link) ∧
            ∃ n, Outcome.FailsAt compiler.compileField request.outputs n e) ∧
      ∀ batch : Batch,
        (∀ decisions, compiler.assembleBatch batch = .ok decisions ↔
          List.Forall₂ (fun request decision => compiler.assemble request = .ok decision)
            batch.decisions decisions) ∧
        ∀ e, compiler.assembleBatch batch = .error e ↔
          ∃ n, Outcome.FailsAt compiler.assemble batch.decisions n e :=
  ⟨fun _ => ⟨exists_assemble_iff, fun _ => assemble_eq_ok_iff, fun _ => assemble_eq_error_iff⟩,
    fun _ => ⟨fun _ => Outcome.mapM_eq_ok_iff, fun _ => Outcome.mapM_eq_error_iff_failsAt⟩⟩

/-- One input is linked and one is not. A source that names nothing is reported before a rule that
does not compile, although the rule belongs to the first field of its form. -/
theorem assemble_faithful_linked :
    let age : FieldRequest := .input "age" .number
    let income : FieldRequest := .withSource "Decision.tax.total" (.input "income" .number)
    let lost : FieldRequest := .withSource "tax.total" (.input "income" .number)
    let risk : FieldRequest := .output "risk" .number { kind := "Func", payload := .string "rate" }
    let broken : FieldRequest := .output "risk" .number { kind := "Func" }
    let rate : Expression := ⟨"\x7b\"risk\":\x7b\x7brate\x7d\x7d\x7d"⟩
    let decision : Decision :=
      { name := "loan"
        inputs := [{ key := "age", type := .number, link := none },
          { key := "income", type := .number, link := some ⟨"tax", "total", "income"⟩ }]
        outputs := [{ key := "risk", type := .number, rule := rate }] }
    decision.Answers {} ⟨"loan", [age, income], [risk]⟩ ∧
      assemble {} ⟨"loan", [age, lost], [broken]⟩ = .error (.unrecognizedSource "tax.total") := by
  intro age income lost risk broken rate decision
  obtain ⟨requests, _⟩ := assemble_faithful {}
  constructor
  · obtain ⟨_, answers, _⟩ := requests ⟨"loan", [age, income], [risk]⟩
    exact (answers decision).mp (by decide +kernel)
  · obtain ⟨_, _, fails⟩ := requests ⟨"loan", [age, lost], [broken]⟩
    refine (fails _).mpr (.inl ⟨1, fun field mem => ?_, lost, rfl, by decide +kernel⟩)
    obtain rfl := List.mem_singleton.mp mem
    exact ⟨none, rfl⟩

end Compiler

end DecisionCompiler
