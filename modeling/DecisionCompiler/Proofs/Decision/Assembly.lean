import DecisionCompiler.Decision.Assembly
import DecisionCompiler.Proofs.Outcome

/-!
The order in which a batch is assembled.

A `Site` is a field of a batch that assembly looks at, and the sites of a batch stand in the order
in which it does: decision after decision, and of each decision the input fields before the output
fields. A batch that fails does so at the first of its sites that fails, with the error of that site
(`Compiler.assembleBatch_eq_error_iff`).
-/

namespace DecisionCompiler

/-- A field of a request, with the form that it belongs to. -/
inductive Site where
  | input (field : FieldRequest)
  | output (field : FieldRequest)

/-- The fields of a decision in the order in which they are assembled. -/
def DecisionRequest.sites (request : DecisionRequest) : List Site :=
  request.inputs.map .input ++ request.outputs.map .output

/-- The fields of a batch in the order in which they are assembled. -/
def Batch.sites (batch : Batch) : List Site :=
  batch.decisions.flatMap DecisionRequest.sites

namespace Compiler

/-- Whether a field is assembled, apart from what it is assembled to. -/
def visit (compiler : Compiler) : Site → Except CompileError Unit
  | .input field => (assembleInput field).map fun _ => ()
  | .output field => (compiler.assembleOutput field).map fun _ => ()

variable {compiler : Compiler} {batch : Batch} {e : CompileError}

/-- A form fails as the visits of its fields do. -/
theorem form_alike {α : Type} (compiler : Compiler) (site : FieldRequest → Site)
    {assembled : FieldRequest → Except CompileError α}
    (visits : ∀ field, compiler.visit (site field) = (assembled field).map fun _ => ())
    (form : List FieldRequest) :
    Outcome.Alike Eq (fun _ _ => True) (form.mapM assembled)
      ((form.map site).mapM compiler.visit) := by
  have each (field field' : FieldRequest) (same : field = field') :
      Outcome.Alike Eq (fun _ _ => True) (assembled field)
        ((compiler.visit ∘ site) field') := by
    rw [← same, Function.comp_apply, visits]
    exact Outcome.alike_map _ _
  rw [List.mapM_map]
  exact (Outcome.Alike.mapM (List.forall₂_same.mpr fun _ _ => rfl) each).imp fun _ _ _ => trivial

/-- A decision fails as the visits of its fields do. -/
theorem assemble_alike (compiler : Compiler) (request : DecisionRequest) :
    Outcome.Alike Eq (fun _ _ => True) (compiler.assemble request)
      (request.sites.mapM compiler.visit) := by
  unfold assemble DecisionRequest.sites
  rw [List.mapM_append]
  have inputs := compiler.form_alike .input (fun _ => rfl) request.inputs
  have outputs := compiler.form_alike .output (fun _ => rfl) request.outputs
  exact inputs.bind fun _ _ _ => outputs.bind fun _ _ _ => .ok trivial

/-- A batch fails as the visits of its fields do. -/
theorem assembleBatch_alike (compiler : Compiler) (batch : Batch) :
    Outcome.Alike Eq (fun _ _ => True) (compiler.assembleBatch batch)
      (batch.sites.mapM compiler.visit) := by
  unfold assembleBatch Batch.sites
  induction batch.decisions with
  | nil => exact .ok trivial
  | cons request requests ih =>
    rw [List.flatMap_cons, List.mapM_cons, List.mapM_append]
    exact (compiler.assemble_alike request).bind fun _ _ _ => ih.bind fun _ _ _ => .ok trivial

/-- **A batch fails at its first field that does.** -/
theorem assembleBatch_eq_error_iff :
    compiler.assembleBatch batch = .error e ↔
      ∃ n, Outcome.FailsAt compiler.visit batch.sites n e :=
  (compiler.assembleBatch_alike batch).eq_error_iff.trans Outcome.mapM_eq_error_iff_failsAt

end Compiler

end DecisionCompiler
