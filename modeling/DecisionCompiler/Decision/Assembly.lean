import DecisionCompiler.Decision.Reference
import DecisionCompiler.Request.Basic

/-!
Assembling decisions from requests.

All input fields are resolved before the first output field is compiled, each form in order, and the
first failure is reported. Assembly stores nothing.
-/

namespace DecisionCompiler

/-- What describes a requested field. -/
def FieldRequest.info (field : FieldRequest) : FieldInfo :=
  { key := field.key, title := field.title, description := field.description, unit := field.unit,
    type := field.type }

namespace Compiler

/-- The input field of a request. -/
def assembleInput (field : FieldRequest) : Except CompileError InputField := do
  let link ← ChainLink.ofReference field.key field.source
  return { field.info with link }

/-- The output field of a request. -/
def assembleOutput (compiler : Compiler) (field : FieldRequest) :
    Except CompileError OutputField := do
  let rule ← compiler.compileRule field.key field.type field.rule
  return { field.info with rule }

/-- The decision of a request. -/
def assemble (compiler : Compiler) (request : DecisionRequest) : Except CompileError Decision := do
  let inputs ← request.inputs.mapM assembleInput
  let outputs ← request.outputs.mapM compiler.assembleOutput
  return ⟨request.name, inputs, outputs⟩

/-- The decisions of a batch. -/
def assembleBatch (compiler : Compiler) (batch : Batch) : Except CompileError (List Decision) :=
  batch.decisions.mapM compiler.assemble

end Compiler

end DecisionCompiler
