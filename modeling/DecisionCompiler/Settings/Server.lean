import DecisionCompiler.Settings.Repository

/-!
The settings of a server.

Every setting has a default. The repository of a server is one of three variants, told apart by the
member `type`; only what the variant needs is looked at.
-/

namespace DecisionCompiler

open Json.Decoder

/-- Where a server keeps decisions. -/
inductive StoreChoice where
  | directory (path : String)
  | remote (url : String)
  | memory
deriving DecidableEq

namespace StoreChoice

/-- A server that says nothing else keeps documents in the default directory. -/
instance : Inhabited StoreChoice := ⟨directory RepositorySettings.defaultPath⟩

/-- The choice as settings of a repository. -/
def settings : StoreChoice → RepositorySettings
  | directory path => .directory path
  | remote url => .remote url
  | memory => .inMemory

/-- The choice as a document. -/
def toJson : StoreChoice → Json
  | directory path => .object [("type", .string "filesystem"), ("path", .string path)]
  | remote url => .object [("type", .string "api"), ("base_url", .string url)]
  | memory => .object [("type", .string "memory")]

/-- Reads what a variant needs from members that were read in full before. -/
def contentDecoder : RepositorySource → Json.Decoder StoreChoice
  | .filesystem =>
    record [.optional "path" string fun _ path => directory path] default
  | .api =>
    record [.mandatory "base_url" string fun _ url => remote url] default
  | .memory => fun draft => do
    let (_, behind) ← members [] draft
    Json.Problem.raise behind
    return memory

/-- The variant and the draft of its content: an object that has the name of the variant among its
members, or an array that has it as its first element. -/
def variant : Json.Decoder (RepositorySource × Json.Draft)
  | .array (name :: items) fault => do
    let source ← RepositorySource.nameDecoder name
    let _ ← jsonItems items
    Json.Problem.raise (fault.map .unreadable)
    return (source, .array items none)
  | .array [] fault => do
    Json.Problem.raise (fault.map .unreadable)
    throw .mismatch
  | draft =>
    interleaved [.mandatory "type" RepositorySource.nameDecoder fun _ source => source] .memory
      draft

/-- Reads a choice. Nothing is left to be read when the content of the variant is looked at, so
whatever is wrong with it is its shape. -/
def decoder : Json.Decoder StoreChoice := fun draft => do
  let (source, content) ← variant draft
  (contentDecoder source content).mapError fun _ => .mismatch

end StoreChoice

/-- The settings of a server. -/
structure ServerSettings where
  host : String := "127.0.0.1"
  port : Nat := 8080
  repository : StoreChoice := default
  logLevel : String := "info"
  compiler : Compiler := {}
deriving DecidableEq

namespace ServerSettings

/-- Ports are below this number. -/
def portBound : Nat := 65536

/-- The address that the server listens at. -/
def address (settings : ServerSettings) : String :=
  s!"{settings.host}:{settings.port}"

/-- The settings as a document. -/
def toJson (settings : ServerSettings) : Json :=
  .object
    [("host", .string settings.host), ("port", .number (.integer settings.port)),
     ("repository", settings.repository.toJson), ("log_level", .string settings.logLevel),
     ("compiler",
       .object [("reject_unknown_rules", .bool settings.compiler.rejectUnknownRules)])]

/-- Reads settings. -/
def decoder : Json.Decoder ServerSettings :=
  record
    [.optional "host" string fun settings host => { settings with host },
     .optional "port" (natBelow portBound) fun settings port => { settings with port },
     .optional "repository" StoreChoice.decoder
       fun settings repository => { settings with repository },
     .optional "log_level" string fun settings logLevel => { settings with logLevel },
     .optional "compiler" Compiler.decoder fun settings compiler => { settings with compiler }]
    {}

end ServerSettings

end DecisionCompiler
