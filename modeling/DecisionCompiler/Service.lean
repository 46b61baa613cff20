import DecisionCompiler.Decision.Assembly
import DecisionCompiler.Repository

/-!
The service: compiling batches into a repository.

The decisions of a batch are taken in order; each one is inserted as soon as it is assembled. The
first failure ends the batch. What was inserted before stays, and nothing behind it is looked at.
-/

namespace DecisionCompiler

/-- Why a batch fails. -/
inductive ServiceError where
  /-- A decision cannot be compiled. -/
  | compile (error : CompileError)
  /-- A compiled decision cannot be kept. -/
  | persistence (error : RepositoryError)
deriving DecidableEq

namespace ServiceError

/-- The failure is due to what was submitted. -/
def isClientError : ServiceError → Bool
  | compile _ => true
  | persistence _ => false

/-- A failure in the words of its cause. -/
def message : ServiceError → String
  | compile error => error.message
  | persistence error => error.message

end ServiceError

/-- A compiler and the repository that it works for. -/
structure Service (σ : Type) where
  compiler : Compiler
  repository : Repository σ

namespace Service

variable {σ : Type}

/-- Compiles decisions one after the other into a repository in the given state. -/
def compileAll (service : Service σ) (state : σ) :
    List DecisionRequest → σ × Except ServiceError Unit
  | [] => (state, .ok ())
  | request :: requests =>
    match service.compiler.assemble request with
    | .error e => (state, .error (.compile e))
    | .ok decision =>
      match service.repository.insert state decision with
      | (state, .error e) => (state, .error (.persistence e))
      | (state, .ok ()) => service.compileAll state requests

/-- Compiles a batch. -/
def compileBatch (service : Service σ) (state : σ) (batch : Batch) :
    σ × Except ServiceError Unit :=
  service.compileAll state batch.decisions

/-- The decisions of a batch, without keeping any. -/
def dryRun (service : Service σ) (batch : Batch) : Except ServiceError (List Decision) :=
  (service.compiler.assembleBatch batch).mapError .compile

end Service

end DecisionCompiler
