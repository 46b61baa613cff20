import DecisionCompiler.Text.Split

/-!
Absolute paths.

A path is the list of the names that lead from the top to a directory or file. Reading a text
settles empty names, the name of the directory itself and the name of its parent, so that two texts
of one path read alike; the parent of the top is the top.
-/

namespace DecisionCompiler

/-- An absolute path: names from the top down. -/
structure Path where
  names : List String
deriving DecidableEq

namespace Path

/-- Follows one name; `reached` holds the names so far, the last one first. -/
def step (reached : List String) (name : String) : List String :=
  if name = "" ∨ name = "." then reached
  else if name = ".." then reached.tail
  else name :: reached

/-- The path that a text describes. -/
def ofText (text : String) : Path :=
  ⟨(((Text.splitAll '/' text.toList).map String.ofList).foldl step []).reverse⟩

/-- The text of a path. -/
def text (path : Path) : String :=
  match path.names with
  | [] => "/"
  | names => String.join (names.map ("/" ++ ·))

/-- The path of what is directly inside a directory. -/
def child (path : Path) (name : String) : Path :=
  ⟨path.names ++ [name]⟩

end Path

end DecisionCompiler
