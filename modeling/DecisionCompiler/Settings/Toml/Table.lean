import DecisionCompiler.Settings.Tree

/-!
Tables under construction.

A key is assigned once and a table is opened once. What may still be added to a table depends on how
it came to be: a table that is only the way to another one may be opened later, a table that a key
with points leads through takes further such keys, and a table of a header takes neither. Of an
array of tables only the last one is under construction.
-/

namespace DecisionCompiler.Toml

/-- How a table came to be. -/
inductive Origin where
  /-- By the name of a table inside it. -/
  | implied
  /-- By a header of its own. -/
  | header
  /-- By a key with points. -/
  | dotted
deriving DecidableEq

/-- A value, a table under construction, or an array of tables: those that are complete, the last
one first, and the one under construction. -/
inductive Node where
  | value (s : Setting)
  | table (origin : Origin) (entries : List (String × Node))
  | tables (complete : List Setting) (entries : List (String × Node))

namespace Node

instance : Inhabited Node := ⟨table .header []⟩

mutual

/-- The setting of a node. -/
def toSetting : Node → Setting
  | value s => s
  | table _ entries => .table (settingsOf entries)
  | tables complete entries => .list (complete.reverse ++ [.table (settingsOf entries)])

/-- The settings of entries. -/
def settingsOf : List (String × Node) → List (String × Setting)
  | [] => []
  | (name, node) :: entries => (name, toSetting node) :: settingsOf entries

end

/-- Changes the entries of the table that a node has under construction. -/
def change (f : Origin → List (String × Node) → Option (List (String × Node))) :
    Node → Option Node
  | value _ => none
  | table origin entries => (f origin entries).map (table origin)
  | tables complete entries => (f .header entries).map (tables complete)

/-- Changes the entries of the table that the path of a header leads to; missing tables on the way
are implied. -/
def changeAt (path : List String)
    (f : Origin → List (String × Node) → Option (List (String × Node))) (node : Node) :
    Option Node :=
  match path with
  | [] => node.change f
  | name :: path =>
    node.change fun _ entries =>
      let child := (Entries.get? name entries).getD (table .implied [])
      (child.changeAt path f).map fun child => Entries.insert name child entries

/-- Opens the table of a header, which may only have been implied so far. -/
def openTable (path : List String) (root : Node) : Option Node :=
  root.changeAt path.dropLast fun _ entries =>
    let name := path.getLastD ""
    match Entries.get? name entries with
    | none => some (Entries.insert name (table .header []) entries)
    | some (table .implied inner) => some (Entries.insert name (table .header inner) entries)
    | some _ => none

/-- Opens a further table of an array, which may be its first. -/
def openItem (path : List String) (root : Node) : Option Node :=
  root.changeAt path.dropLast fun _ entries =>
    let name := path.getLastD ""
    match Entries.get? name entries with
    | none => some (Entries.insert name (tables [] []) entries)
    | some (tables complete inner) =>
      let complete := .table (settingsOf inner) :: complete
      some (Entries.insert name (tables complete []) entries)
    | some _ => none

/-- Puts a value under a name that is not taken yet. -/
def put (name : String) (s : Setting) (entries : List (String × Node)) :
    Option (List (String × Node)) :=
  match Entries.get? name entries with
  | none => some (Entries.insert name (value s) entries)
  | some _ => none

/-- Assigns a value to a key inside the entries of a table. The tables that the key leads through
may not have a header of their own, and the last one has to come from a key with points. -/
def assign (key : List String) (s : Setting) (entries : List (String × Node)) :
    Option (List (String × Node)) :=
  match key with
  | [] => none
  | [name] => put name s entries
  | name :: key =>
    let child? : Option Node :=
      match Entries.get? name entries with
      | none => some (table .dotted [])
      | some (table .header _) => none
      | some child => some child
    child?.bind fun child =>
      let child? := child.change fun origin entries =>
        if key.length = 1 ∧ origin ≠ .dotted then none else assign key s entries
      child?.map fun child => Entries.insert name child entries

end Node

end DecisionCompiler.Toml
