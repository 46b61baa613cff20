import DecisionCompiler.Settings.Tree
import DecisionCompiler.Text.Split

/-!
The environment as a layer of settings.

An environment holds variables with their values. Variables whose names begin with the mark of the
server are settings: what is left of the name, in lower case, is the key, with a point for every
double underscore. Of two variables whose names differ only in their case the one that was set later
counts.
-/

namespace DecisionCompiler

/-- Variables with their values, in the order in which they were set. -/
structure Environment where
  entries : List (String × String) := []

namespace Environment

/-- The environment of a list of variables, set in the order of their names; the last value of a
name counts. -/
def ofList (entries : List (String × String)) : Environment :=
  ⟨Entries.ofList entries⟩

/-- The value of a variable; a variable without one has the empty text. -/
def valueOf (environment : Environment) (name : String) : String :=
  (Entries.get? name environment.entries).getD ""

/-- Adds a variable unless it has a value. -/
def addNew (environment : Environment) (name value : String) : Environment :=
  if (Entries.get? name environment.entries).isSome then environment
  else ⟨environment.entries ++ [(name, value)]⟩

/-- What the names of all settings begin with, in lower case. -/
def mark : List Char :=
  ['d', 'a', 'n', 'g', '_']

/-- The text with a point in the place of every double underscore. -/
def withPoints : List Char → List Char
  | '_' :: '_' :: rest => '.' :: withPoints rest
  | c :: rest => c :: withPoints rest
  | [] => []

/-- The key of a variable that is a setting. -/
def keyOf? (name : String) : Option String :=
  (Text.dropPrefix? mark (name.toList.map Text.foldChar)).map fun rest =>
    String.ofList (withPoints rest)

/-- The settings among the variables. -/
def layer (environment : Environment) : Setting.Layer :=
  environment.entries.filterMap fun (name, value) =>
    (keyOf? name).map fun key => (key, Setting.ofText value)

end Environment

end DecisionCompiler
