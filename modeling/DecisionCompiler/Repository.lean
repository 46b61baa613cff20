import DecisionCompiler.Decision.Basic

/-!
Repositories: where compiled decisions are kept.

A repository is the name of its kind and a step that inserts one decision into a state. The step is
a function of the state and the decision, and says in its result whether the decision was kept; what
inserting a name for the second time means is up to the repository. What a failure says beyond its
kind is a text that the repository chooses: the words of the system, of a library, or its own.
-/

namespace DecisionCompiler

/-- An error of the system: the name of its kind, and what the system says about it. -/
structure SystemError where
  kind : String
  text : String
deriving DecidableEq

namespace SystemError

/-- There is no file of that name. -/
def notFound : SystemError :=
  ⟨"NotFound", "No such file or directory (os error 2)"⟩

/-- The name is too long for the file system. -/
def nameTooLong : SystemError :=
  ⟨"InvalidFilename", "File name too long (os error 36)"⟩

end SystemError

/-- Why a repository fails. -/
inductive RepositoryError where
  | io (error : SystemError)
  /-- A decision cannot be written as a document or read from one. -/
  | serialization (text : String)
  /-- The name cannot name a document. -/
  | invalidName (name : String)
  /-- A remote store refused the document. -/
  | api (text : String)
  /-- The repository lacks a setting. -/
  | config (text : String)
  | other (text : String)
deriving DecidableEq

/-- A repository error in words. -/
def RepositoryError.message : RepositoryError → String
  | io error => s!"I/O error: {error.text}"
  | serialization text => s!"Serialization error: {text}"
  | invalidName name => s!"Invalid decision name: '{name}'"
  | api text => text
  | config text => s!"Configuration error: {text}"
  | other text => s!"Repository error: {text}"

/-- A repository with states of the given type. -/
structure Repository (σ : Type) where
  /-- The kind of repository. -/
  backend : String
  /-- Inserts a decision. -/
  insert : σ → Decision → σ × Except RepositoryError Unit

end DecisionCompiler
