import DecisionCompiler.Store.Directory
import DecisionCompiler.Store.Memory
import DecisionCompiler.Store.Remote

/-!
Which repository to open.

Settings name a source and, for each source that needs one, a place. A place that the source does
not need is kept but not looked at; one that it needs and does not have keeps the repository from
being opened.
-/

namespace DecisionCompiler

/-- A kind of repository. -/
inductive RepositorySource where
  | filesystem
  | api
  | memory
deriving DecidableEq

namespace RepositorySource

/-- The name of a source. -/
def name : RepositorySource → String
  | filesystem => "filesystem"
  | api => "api"
  | memory => "memory"

/-- The source with the given name. -/
def ofName? (name : String) : Option RepositorySource :=
  [filesystem, api, memory].find? fun source => source.name = name

/-- Reads the name of a source. -/
def nameDecoder : Json.Decoder RepositorySource := fun draft => do
  let name ← Json.Decoder.string draft
  match ofName? name with
  | some source => return source
  | none => throw .mismatch

/-- Reads a source: its name, or an object that has the name as its only member, with null for the
content that a source does not have. What begins like neither is refused before it is read, and so
is a second member before its name. -/
def decoder : Json.Decoder RepositorySource
  | .string s => nameDecoder (.string s)
  | .object ((name, content) :: more) gap => do
    let source ← nameDecoder (.string name)
    match content with
    | .null => pure ()
    | content => Json.Decoder.refuse content
    if !more.isEmpty || (gap.map Json.Break.announced).getD false then throw .excess
    Json.Problem.raise (gap.map Json.Break.problem)
    return source
  | .object [] (some gap) => .error gap.problem
  | .stuck none fault => .error (.unreadable fault)
  | .stuck (some leading) fault =>
    .error (if leading = '"' ∨ leading = '{' then .unreadable fault else .excess)
  | _ => .error .excess

end RepositorySource

/-- What a repository lacks to be opened. -/
structure MissingSetting where
  backend : String
  setting : String
deriving DecidableEq

/-- A missing setting in words. -/
def MissingSetting.message (missing : MissingSetting) : String :=
  s!"{missing.backend} source requires {missing.setting} to be set"

/-- Which repository to open. -/
structure RepositorySettings where
  source : RepositorySource := .filesystem
  basePath : Option String := none
  apiUrl : Option String := none
deriving DecidableEq

/-- A repository that is open: where it keeps decisions. -/
inductive Backend where
  | directory (root : Path)
  | remote (store : RemoteStore)
  | memory

/-- The kind of an open repository. -/
def Backend.name : Backend → String
  | directory _ => Directory.backend
  | remote _ => RemoteStore.backend
  | memory => MemoryStore.backend

namespace RepositorySettings

/-- Where documents are kept if nothing else is said. -/
def defaultPath : String := "decisions"

/-- The repository of a directory. -/
def directory (path : String) : RepositorySettings :=
  { source := .filesystem, basePath := some path }

/-- The repository of a remote store. -/
def remote (url : String) : RepositorySettings :=
  { source := .api, apiUrl := some url }

/-- The repository in memory. -/
def inMemory : RepositorySettings :=
  { source := .memory }

/-- Without any settings documents are kept in the default directory. -/
instance : Inhabited RepositorySettings := ⟨directory defaultPath⟩

/-- The repository that the settings ask for, open. -/
def backend (settings : RepositorySettings) : Except MissingSetting Backend :=
  match settings.source with
  | .filesystem =>
    match settings.basePath with
    | some path => .ok (.directory (.ofText path))
    | none => .error ⟨"FileSystem", "base_path"⟩
  | .api =>
    match settings.apiUrl with
    | some url => .ok (.remote (.ofUrl url))
    | none => .error ⟨"Api", "api_url"⟩
  | .memory => .ok .memory

/-- What keeps the repository from being opened, if anything does. -/
def missing? (settings : RepositorySettings) : Option MissingSetting :=
  match settings.backend with
  | .ok _ => none
  | .error missing => some missing

/-- The settings as a document, which leaves a place out that is not set. -/
def toJson (settings : RepositorySettings) : Json :=
  let place (name : String) (value : Option String) : List (String × Json) :=
    (value.map fun s => (name, Json.string s)).toList
  .object
    (("source", .string settings.source.name)
      :: (place "base_path" settings.basePath ++ place "api_url" settings.apiUrl))

/-- Reads settings. -/
def decoder : Json.Decoder RepositorySettings :=
  Json.Decoder.record
    [.optional "source" RepositorySource.decoder fun settings source => { settings with source },
     .optional "base_path" (Json.Decoder.optional Json.Decoder.string)
       fun settings basePath => { settings with basePath },
     .optional "api_url" (Json.Decoder.optional Json.Decoder.string)
       fun settings apiUrl => { settings with apiUrl }]
    {}

end RepositorySettings

end DecisionCompiler
