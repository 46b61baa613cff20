import DecisionCompiler.Json.Decoder
import DecisionCompiler.Settings.Assignments
import DecisionCompiler.Settings.Server
import DecisionCompiler.Settings.Toml

/-!
Loading the settings of a server.

Three layers are read, of which later ones win: one settings file, in one of two formats, then the
environment, to which a file of assignments adds the variables that it lacks. A settings file that
is there must be well formed; that the settings have the right shape is asked only of all layers
together.
-/

namespace DecisionCompiler

/-- Why settings cannot be loaded. -/
inductive LoadError where
  /-- The settings file is not well formed. -/
  | unreadable
  /-- The settings do not have the right shape. -/
  | misshapen
deriving DecidableEq

/-- A load error in words. -/
def LoadError.message : LoadError → String
  | unreadable => "Failed to read config"
  | misshapen => "Failed to deserialize config"

namespace ServerSettings

/-! ### Shape -/

/-- The options of the compiler among settings: a table, or a list of the options in order. -/
def compilerOf? : Setting → Option Compiler
  | .table entries =>
    match Entries.get? "reject_unknown_rules" entries with
    | none => some {}
    | some s => s.asBool?.map Compiler.mk
  | .list [] => some {}
  | .list (s :: _) => s.asBool?.map Compiler.mk
  | _ => none

/-- The port among settings. -/
def portOf? (s : Setting) : Option Nat :=
  s.asNat?.filter (· < portBound)

/-- The repository among settings. Its variant and what belongs to it are not converted: they have
to be what they are asked for. -/
def choiceOf? (s : Setting) : Option StoreChoice :=
  (s.toJson.decode StoreChoice.decoder).toOption

/-- A field of the settings, or its default if it is not set. -/
def field? {α : Type} (settings : Setting) (name : String) (read : Setting → Option α)
    (default : α) : Option α :=
  match settings.get? name with
  | none => some default
  | some s => read s

/-- The settings of a server among settings. -/
def ofSetting? (settings : Setting) : Option ServerSettings := do
  let base : ServerSettings := {}
  let host ← field? settings "host" Setting.asText? base.host
  let port ← field? settings "port" portOf? base.port
  let repository ← field? settings "repository" choiceOf? base.repository
  let logLevel ← field? settings "log_level" Setting.asText? base.logLevel
  let compiler ← field? settings "compiler" compilerOf? base.compiler
  return { host, port, repository, logLevel, compiler }

/-! ### Layers -/

/-- The settings file without the ending that tells its format. -/
def fileName : String := "config/server"

/-- The settings of a file of JSON, which must be an object. -/
def ofJsonText? (text : String) : Option Setting :=
  match Json.parse text with
  | .ok (.object members) => some (Setting.ofJson (.object members))
  | _ => none

/-- The formats of settings files by their endings. -/
def formats : List (String × (String → Option Setting)) :=
  [(".toml", Toml.parse?), (".json", ofJsonText?)]

/-- The layer of the settings file. A file that has the name without an ending hides the others, as
its format cannot be told. -/
def fileLayer (files : List (String × String)) : Except LoadError Setting.Layer :=
  if (files.lookup fileName).isSome then .ok []
  else
    let found := formats.findSome? fun (ending, read) =>
      (files.lookup (fileName ++ ending)).map read
    match found with
    | none => .ok []
    | some none => .error .unreadable
    | some (some settings) => .ok settings.entries

/-- The environment with the file of assignments, if there is one. -/
def withAssignments (environment : Environment) (files : List (String × String)) : Environment :=
  match files.lookup ".env" with
  | none => environment
  | some text => Assignments.read environment text

/-- Loads the settings from the environment and the files of the working directory. -/
def load (environment : Environment) (files : List (String × String)) :
    Except LoadError ServerSettings := do
  let file ← fileLayer files
  let settings := Setting.ofLayers [file, (withAssignments environment files).layer]
  match ofSetting? settings with
  | some settings => return settings
  | none => throw .misshapen

end ServerSettings

end DecisionCompiler
