import DecisionCompiler.Decision.Document
import DecisionCompiler.Json.Printer
import DecisionCompiler.Repository
import DecisionCompiler.Store.Path

/-!
A directory of documents.

Each decision is one file, named for the decision, with the decision's document in it; inserting a
name again replaces the file. The directory is created by the first insertion. A name that could
lead out of the directory, or that is no name at all, is refused before anything is created; a name
that is too long for the file system is refused when the directory is there.
-/

namespace DecisionCompiler

/-- What a file system can hold. -/
structure FileSystem where
  /-- The most bytes that the name of a file may have, if there is a limit. -/
  nameLimit : Option Nat
deriving DecidableEq

namespace FileSystem

/-- A file system that takes every name. -/
def unlimited : FileSystem :=
  ⟨none⟩

/-- The limit of the file systems in common use. -/
def common : FileSystem :=
  ⟨some 255⟩

instance : Inhabited FileSystem := ⟨common⟩

/-- The file system can hold a file of that name. -/
def Fits (fileSystem : FileSystem) (file : String) : Prop :=
  ∀ limit ∈ fileSystem.nameLimit, file.utf8ByteSize ≤ limit

instance (fileSystem : FileSystem) (file : String) : Decidable (fileSystem.Fits file) := by
  unfold Fits
  infer_instance

/-- Without a limit every name fits. -/
theorem fits_unlimited (file : String) : unlimited.Fits file := by
  simp [Fits, unlimited]

end FileSystem

/-- A directory of documents: files with their contents, in ascending order of their names, once the
directory exists. -/
structure Directory where
  files? : Option (List (String × String)) := none
deriving DecidableEq

namespace Directory

instance : Inhabited Directory := ⟨{}⟩

/-- The name can be the name of a document. -/
def ValidName (name : String) : Prop :=
  name ≠ "" ∧ name ≠ "." ∧ '/' ∉ name.toList ∧ '\\' ∉ name.toList ∧ '\x00' ∉ name.toList
    ∧ Text.splitOnce? ['.', '.'] name.toList = none

instance (name : String) : Decidable (ValidName name) := by
  unfold ValidName
  infer_instance

/-- The file of a document. -/
def fileName (name : String) : String :=
  name ++ ".json"

/-- The file of the document of a name, if the name is valid. -/
def fileOf (name : String) : Except RepositoryError String :=
  if ValidName name then .ok (fileName name) else .error (.invalidName name)

/-- The path of the document of a name. -/
def documentPath (root : Path) (name : String) : Except RepositoryError Path :=
  (fileOf name).map root.child

/-- The files of a directory. -/
def files (directory : Directory) : List (String × String) :=
  directory.files?.getD []

/-- The content of a file. -/
def read? (directory : Directory) (file : String) : Option String :=
  Entries.get? file directory.files

/-- The directory exists afterwards, with the files that it has. -/
def create (directory : Directory) : Directory :=
  ⟨some directory.files⟩

/-- Writes a file; the directory exists afterwards. -/
def write (directory : Directory) (file content : String) : Directory :=
  ⟨some (Entries.insert file content directory.files)⟩

/-- What is written is read from its file and from no other. -/
theorem read?_write (directory : Directory) (file content other : String) :
    (directory.write file content).read? other =
      if other = file then some content else directory.read? other :=
  Entries.get?_insert other file content directory.files

/-- The content of a file, or why there is none. Names are measured only where the directory
exists. -/
def read (directory : Directory) (fileSystem : FileSystem) (file : String) :
    Except RepositoryError String :=
  if directory.files?.isSome ∧ ¬fileSystem.Fits file then .error (.io .nameTooLong)
  else
    match directory.read? file with
    | none => .error (.io .notFound)
    | some content => .ok content

/-- Creates the directory and writes a file if its name fits. -/
def store (directory : Directory) (fileSystem : FileSystem) (file content : String) :
    Directory × Except RepositoryError Unit :=
  if fileSystem.Fits file then (directory.write file content, .ok ())
  else (directory.create, .error (.io .nameTooLong))

/-- The decision kept under a name. -/
def load (wording : Json.Wording) (directory : Directory) (fileSystem : FileSystem)
    (name : String) : Except RepositoryError Decision := do
  let file ← fileOf name
  let content ← directory.read fileSystem file
  (Json.decodeText Decision.decoder content).mapError fun why =>
    .serialization (wording content why)

/-- The kind of repository that a directory is. -/
def backend : String := "filesystem"

/-- The repository over a directory. -/
def repository (fileSystem : FileSystem) : Repository Directory where
  backend := backend
  insert directory decision :=
    match fileOf decision.name with
    | .error e => (directory, .error e)
    | .ok file => directory.store fileSystem file decision.toJson.pretty

end Directory

end DecisionCompiler
