import DecisionCompiler.Settings.Toml.Moment
import DecisionCompiler.Settings.Toml.Numeral
import DecisionCompiler.Settings.Toml.Table
import DecisionCompiler.Settings.Toml.Text

/-!
Reading TOML files of settings.

A file is a sequence of lines: `key = value`, or a header that names the table the following keys
belong to, in square brackets, or in two pairs of them where it is a further table of an array. Keys
are bare or quoted names with points between them. Values are strings, numbers, truth values, dates
and times, arrays and inline tables; a date or time counts as its text. It is one of the two formats
in which a server's settings file is read.
-/

namespace DecisionCompiler.Toml

/-- Arrays and inline tables may be nested this deep, and a key may have this many names. -/
def maxDepth : Nat := 79

/-! ### Keys -/

/-- The character may stand in a bare name. -/
def isBareChar (c : Char) : Bool :=
  c.isAlphanum || c == '_' || c == '-'

/-- Reads one name of a key. -/
def readName : List Char → Option (String × List Char)
  | '"' :: rest => readBasic [] rest
  | '\'' :: rest => readLiteral rest
  | text =>
    let name := text.takeWhile isBareChar
    if name.isEmpty then none else some (String.ofList name, text.dropWhile isBareChar)

/-- Reads a key of at most the given number of names, and the blanks behind it. -/
def readNames : Nat → List Char → Option (List String × List Char)
  | 0, _ => none
  | names + 1, text => do
    let (name, rest) ← readName (skipBlanks text)
    match skipBlanks rest with
    | '.' :: rest =>
      let (path, rest) ← readNames names rest
      return (name :: path, rest)
    | rest => return ([name], rest)

/-- Reads a key, and the blanks behind it. -/
def readKey (text : List Char) : Option (List String × List Char) :=
  readNames maxDepth text

/-! ### Values -/

/-- The character may stand in a word. -/
def isWordChar (c : Char) : Bool :=
  c.isAlphanum || c ∈ ['+', '-', '.', '_']

/-- Reads a value that is a word. -/
def readWord (text : List Char) : Option (Setting × List Char) :=
  let word := text.takeWhile isWordChar
  let value? : Option Setting :=
    if word = ['t', 'r', 'u', 'e'] then some (.bool true)
    else if word = ['f', 'a', 'l', 's', 'e'] then some (.bool false)
    else number? word
  value?.map fun value => (value, text.dropWhile isWordChar)

/-- Reads a value that is no container. -/
def readScalar (text : List Char) : Option (Setting × List Char) :=
  match readString text with
  | some (s, rest) => some (.text s, rest)
  | none =>
    match Moment.read? text with
    | some (moment, rest) => some (.text (String.ofList moment.text), rest)
    | none => readWord text

/-- Reads the items of an array up to its closing bracket, behind at most the given number of items
and those already met, the last one first. `value` reads one item. -/
def readItems (value : List Char → Option (Setting × List Char)) :
    Nat → List Setting → List Char → Option (List Setting × List Char)
  | 0, _, _ => none
  | items + 1, met, text =>
    match skipLines text.length text with
    | ']' :: rest => some (met.reverse, rest)
    | text =>
      match value text with
      | none => none
      | some (item, rest) =>
        match skipLines rest.length rest with
        | ',' :: rest => readItems value items (item :: met) rest
        | ']' :: rest => some ((item :: met).reverse, rest)
        | _ => none

/-- Reads the entries of an inline table up to its closing bracket, at most the given number of
them, into those already met. `value` reads one value. -/
def readEntries (value : List Char → Option (Setting × List Char)) :
    Nat → List (String × Node) → List Char → Option (List (String × Node) × List Char)
  | 0, _, _ => none
  | entries + 1, met, text =>
    match readKey text with
    | some (key, '=' :: rest) =>
      match value (skipBlanks rest) with
      | none => none
      | some (s, rest) =>
        match Node.assign key s met, skipBlanks rest with
        | some met, ',' :: rest => readEntries value entries met rest
        | some met, '}' :: rest => some (met, rest)
        | _, _ => none
    | _ => none

/-- Reads a value with room for the given depth of containers. No container has more elements than
the text has characters. -/
def readValue : Nat → List Char → Option (Setting × List Char)
  | 0, text => readScalar text
  | depth + 1, text =>
    match text with
    | '[' :: rest =>
      (readItems (readValue depth) text.length [] rest).map fun (items, rest) => (.list items, rest)
    | '{' :: rest =>
      match skipBlanks rest with
      | '}' :: rest => some (.table [], rest)
      | rest =>
        (readEntries (readValue depth) text.length [] rest).map fun (entries, rest) =>
          (.table (Node.settingsOf entries), rest)
    | text => readScalar text

/-! ### Files -/

/-- A file on the way: the path of the last header, and everything so far. -/
structure Progress where
  path : List String
  root : Node

/-- Reads one line that is neither blank nor a comment, up to what may end it. -/
def readEntry (progress : Progress) (text : List Char) : Option (Progress × List Char) :=
  match text with
  | '[' :: '[' :: rest => do
    let (path, rest) ← readKey rest
    match rest with
    | ']' :: ']' :: rest =>
      let root ← progress.root.openItem path
      return (⟨path, root⟩, rest)
    | _ => none
  | '[' :: rest => do
    let (path, rest) ← readKey rest
    match rest with
    | ']' :: rest =>
      let root ← progress.root.openTable path
      return (⟨path, root⟩, rest)
    | _ => none
  | text => do
    let (key, rest) ← readKey text
    match rest with
    | '=' :: rest =>
      let (value, rest) ← readValue maxDepth (skipBlanks rest)
      let root ← progress.root.changeAt progress.path fun _ => Node.assign key value
      return (⟨progress.path, root⟩, rest)
    | _ => none

/-- Reads lines to the end of the text, at most the given number of them. -/
def readLines : Nat → Progress → List Char → Option Progress
  | 0, progress, text => if text.isEmpty then some progress else none
  | lines + 1, progress, text =>
    match skipLines text.length text with
    | [] => some progress
    | text => do
      let (progress, rest) ← readEntry progress text
      let rest ← endLine? rest
      readLines lines progress rest

/-- The table that a text describes; a byte order mark before it does not count. -/
def parse? (text : String) : Option Setting :=
  let chars :=
    match text.toList with
    | '\uFEFF' :: rest => rest
    | chars => chars
  (readLines chars.length ⟨[], .table .header []⟩ chars).map fun progress =>
    progress.root.toSetting

end DecisionCompiler.Toml
