import DecisionCompiler.Settings.Environment
import DecisionCompiler.Text.Alphanumeric
import DecisionCompiler.Text.Blank

/-!
Files of assignments.

A file of assignments has lines of the form `name=value`, among blank lines and comments. Values may
stand in single quotes, which keep everything, or in double quotes, in which a backslash escapes; a
dollar sign puts in the value of another variable, whose name is a run of letters and digits of any
script or stands in braces. A quote that is open at the end of a line runs on into the next one.
Reading stops at the first line that is not well formed, and the assignments before it stand.
-/

namespace DecisionCompiler.Assignments

/-! ### Lines -/

/-- Where a line stands at a character, as far as it matters for where the line ends. -/
inductive Mode where
  | plain
  | blank
  | escaped
  | weak
  | weakEscaped
  | strong
  | strongEscaped
deriving DecidableEq

/-- The mode behind a character; none where a comment begins. -/
def Mode.next (mode : Mode) (c : Char) : Option Mode :=
  let outside : Mode :=
    if c = '\\' then escaped else if c = '"' then weak else if c = '\'' then strong else plain
  match mode with
  | blank => if c = '#' then none else some outside
  | plain => if Text.isBlank c ∧ c ≠ '\n' ∧ c ≠ '\r' then some blank else some outside
  | escaped => some plain
  | weak => some (if c = '\\' then weakEscaped else if c = '"' then plain else weak)
  | weakEscaped => some weak
  | strong => some (if c = '\\' then strongEscaped else if c = '\'' then plain else strong)
  | strongEscaped => some strong

/-- How a physical line leaves the logical line that it belongs to. -/
inductive LineEnd where
  /-- The logical line goes on. -/
  | runsOn (mode : Mode)
  | complete
  /-- A comment begins behind that many characters. -/
  | comment (length : Nat)
deriving DecidableEq

/-- Follows a physical line, its end included. -/
def LineEnd.of (mode : Mode) (length : Nat) : List Char → LineEnd
  | [] => if mode = .plain then complete else .runsOn mode
  | c :: rest =>
    match mode.next c with
    | none => comment length
    | some mode => LineEnd.of mode (length + 1) rest

/-- The physical lines of a text, each with its end. -/
def physicalLines (text : List Char) : List (List Char) :=
  ((Text.splitAll '\n' text).dropLast.map (· ++ ['\n']))
    ++ [(Text.splitAll '\n' text).getLastD []].filter (· ≠ [])

/-- A line without its end. -/
def dropLineEnd (line : List Char) : List Char :=
  match line.reverse with
  | '\n' :: '\r' :: rest => rest.reverse
  | '\n' :: rest => rest.reverse
  | _ => line

/-- The logical lines of physical ones, behind what is open of the current one. The last one is
missing if it is never completed, and then the file is not well formed at its end. -/
def logicalLines (mode : Mode) (opened : List Char) : List (List Char) → List (Option (List Char))
  | [] => if mode = .plain then [] else [none]
  | line :: lines =>
    let whole := opened ++ line
    if (whole.dropWhile Text.isBlank).head? = some '#' then logicalLines .plain [] lines
    else
      match LineEnd.of mode 0 line with
      | .runsOn mode => logicalLines mode whole lines
      | .complete => some (dropLineEnd whole) :: logicalLines .plain [] lines
      | .comment length => some (opened ++ line.take length) :: logicalLines .plain [] lines

/-! ### Values -/

/-- What a value has met at a character. -/
inductive Place where
  | bare
  | weak
  | strong
  | escaped (quoted : Bool)
  /-- Behind a dollar sign, with the name so far, the last character first. -/
  | dollar (quoted : Bool) (name : List Char)
  /-- Inside braces behind a dollar sign, with the name so far. -/
  | braces (quoted : Bool) (name : List Char)
  /-- Behind a blank that ends the value. -/
  | ended

/-- The place outside or inside double quotes. -/
def Place.unquoted (quoted : Bool) : Place :=
  if quoted then weak else bare

/-- The characters that a backslash keeps or stands for. -/
def unescape? (c : Char) : Option Char :=
  if c = 'n' then some '\n'
  else if c ∈ ['\\', '\'', '"', '$', ' '] then some c
  else none

/-- Reads a value behind the characters already met, the last one first. `lookup` gives the values
of variables. -/
def readValue (lookup : String → String) : Place → List Char → List Char → Option (List Char)
  | .bare, met, [] => some met.reverse
  | .ended, met, [] => some met.reverse
  | .escaped false, met, [] => some met.reverse
  | .dollar false name, met, [] =>
    some (met.reverse ++ (lookup (String.ofList name.reverse)).toList)
  | _, _, [] => none
  | .ended, met, c :: rest =>
    if c = ' ' ∨ c = '\t' then readValue lookup .ended met rest
    else if c = '#' then some met.reverse
    else none
  | .escaped quoted, met, c :: rest =>
    match unescape? c with
    | some c => readValue lookup (.unquoted quoted) (c :: met) rest
    | none => none
  | .strong, met, c :: rest =>
    if c = '\'' then readValue lookup .bare met rest else readValue lookup .strong (c :: met) rest
  | .dollar quoted name, met, c :: rest =>
    if Text.isAlphanumeric c then readValue lookup (.dollar quoted (c :: name)) met rest
    else if c = '{' ∧ name = [] then readValue lookup (.braces quoted []) met rest
    else
      let met := (lookup (String.ofList name.reverse)).toList.reverse ++ met
      if c = '$' then readValue lookup (.dollar quoted []) met rest
      else readValue lookup (.unquoted quoted) (c :: met) rest
  | .braces quoted name, met, c :: rest =>
    if c = '}' then
      readValue lookup (.unquoted quoted)
        ((lookup (String.ofList name.reverse)).toList.reverse ++ met) rest
    else readValue lookup (.braces quoted (c :: name)) met rest
  | .weak, met, c :: rest =>
    if c = '$' then readValue lookup (.dollar true []) met rest
    else if c = '"' then readValue lookup .bare met rest
    else if c = '\\' then readValue lookup (.escaped true) met rest
    else readValue lookup .weak (c :: met) rest
  | .bare, met, c :: rest =>
    if c = '$' then readValue lookup (.dollar false []) met rest
    else if c = '\'' then readValue lookup .strong met rest
    else if c = '"' then readValue lookup .weak met rest
    else if c = '\\' then readValue lookup (.escaped false) met rest
    else if c = ' ' ∨ c = '\t' then readValue lookup .ended met rest
    else readValue lookup .bare (c :: met) rest

/-! ### Assignments -/

/-- The character may stand in a name. -/
def isNameChar (c : Char) : Bool :=
  c.isAlphanum || c == '_' || c == '.'

/-- Splits a name off. -/
def readName? (text : List Char) : Option (String × List Char) :=
  match text with
  | c :: _ =>
    if c.isAlpha || c == '_' then
      some (String.ofList (text.takeWhile isNameChar), text.dropWhile isNameChar)
    else none
  | [] => none

/-- The text without the blanks before it. -/
def skipBlanks (text : List Char) : List Char :=
  text.dropWhile Text.isBlank

/-- Splits a name, the blanks and the sign behind it off. -/
def readTarget? (text : List Char) : Option (String × List Char) := do
  let (name, rest) ← readName? text
  match skipBlanks rest with
  | '=' :: rest => return (name, rest)
  | rest =>
    if name = "export" then
      let (name, rest) ← readName? rest
      match skipBlanks rest with
      | '=' :: rest => return (name, rest)
      | _ => none
    else none

/-- What a logical line says: nothing, an assignment, or nothing that is well formed. -/
def readLine (lookup : String → String) (line : List Char) : Option (Option (String × String)) :=
  match skipBlanks (Text.trimRight line) with
  | [] => some none
  | '#' :: _ => some none
  | text => do
    let (name, rest) ← readTarget? text
    match skipBlanks rest with
    | [] => return some (name, "")
    | '#' :: _ => return some (name, "")
    | rest =>
      let value ← readValue lookup .bare [] rest
      return some (name, String.ofList value)

/-- Reads logical lines into an environment. A variable that has a value keeps it, and the value is
also what its name stands for in later lines. -/
def readLines (environment : Environment) : List (Option (List Char)) → Environment
  | [] => environment
  | none :: _ => environment
  | some line :: lines =>
    match readLine environment.valueOf line with
    | none => environment
    | some none => readLines environment lines
    | some (some (name, value)) => readLines (environment.addNew name value) lines

/-- The environment with those of a file added, as far as the file is well formed. -/
def read (environment : Environment) (text : String) : Environment :=
  let chars :=
    match text.toList with
    | '\uFEFF' :: rest => rest
    | chars => chars
  readLines environment (logicalLines .plain [] (physicalLines chars))

end DecisionCompiler.Assignments
