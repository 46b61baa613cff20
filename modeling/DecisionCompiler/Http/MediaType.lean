import DecisionCompiler.Text.Split

/-!
Media types of request bodies.

A media type is a type and a subtype with a slash between them, and parameters behind semicolons.
The part of the subtype behind its last plus sign is its suffix. A type of which only the names
matter is still refused when its parameters are not well formed, and no character outside ASCII may
stand anywhere in it.
-/

namespace DecisionCompiler.Http

/-- The signs that names may hold beside letters and digits. -/
def tokenSigns : List Char :=
  ['!', '#', '$', '%', '&', '\'', '*', '+', '-', '.', '^', '_', '\x60', '|', '~']

/-- The character may stand in a name. -/
def isToken (c : Char) : Bool :=
  c.isAlphanum || c ∈ tokenSigns

/-- The character may stand in a quoted value. -/
def isQuotable (c : Char) : Bool :=
  31 < c.toNat && c.toNat < 127

/-- What follows a quoted value: blanks, and the next parameter or the end. -/
def afterQuoted? (text : List Char) : Option (List Char) :=
  match text.dropWhile (· = ' ') with
  | [] => some []
  | ';' :: rest => some rest
  | _ => none

/-- Takes a quoted value off behind its opening quote. The first character belongs to the value
whatever it is. -/
def dropQuoted? : List Char → Option (List Char)
  | [] => none
  | first :: rest =>
    if isQuotable first then
      match rest.dropWhile fun c => c != '"' && isQuotable c with
      | '"' :: rest => afterQuoted? rest
      | _ => none
    else none

/-- Takes a value that is not quoted off, which may be empty only at the end. -/
def dropBare? (text : List Char) : Option (List Char) :=
  match text.dropWhile isToken with
  | [] => some []
  | ';' :: rest => if (text.takeWhile isToken).isEmpty then none else some rest
  | _ => none

/-- Takes one parameter off. -/
def dropParameter? (text : List Char) : Option (List Char) :=
  if (text.takeWhile isToken).isEmpty then none
  else
    match text.dropWhile isToken with
    | '=' :: '"' :: rest => dropQuoted? rest
    | '=' :: rest => dropBare? rest
    | _ => none

/-- The text is a list of well-formed parameters. Each one takes at least a character, so the given
number of steps, the length of the text, is enough. -/
def isParameters : Nat → List Char → Bool
  | _, [] => true
  | 0, _ => false
  | steps + 1, ' ' :: rest => isParameters steps rest
  | steps + 1, text =>
    match dropParameter? text with
    | none => false
    | some rest => isParameters steps rest

/-- A media type without its parameters, in lower case. -/
structure MediaType where
  type : String
  subtype : String
  suffix : String
deriving DecidableEq

namespace MediaType

/-- The subtype and the suffix of a name; a plus sign that leads the name belongs to it. -/
def splitSuffix (name : List Char) : List Char × List Char :=
  let suffix := name.reverse.takeWhile (· ≠ '+')
  let before := (name.reverse.drop suffix.length).reverse.dropLast
  if before.isEmpty then (name, []) else (before, suffix.reverse)

/-- Reads a media type. -/
def ofString? (text : String) : Option MediaType :=
  let lower := text.toList.map Char.toLower
  let type := lower.takeWhile isToken
  match lower.dropWhile isToken with
  | '/' :: rest =>
    let name := rest.takeWhile isToken
    let parameters? : Option (List Char) :=
      match rest.dropWhile isToken with
      | [] => some []
      | ';' :: parameters => if name.isEmpty then none else some parameters
      | _ => none
    match parameters? with
    | none => none
    | some parameters =>
      if !type.isEmpty && isParameters parameters.length parameters then
        let (subtype, suffix) := splitSuffix name
        some ⟨String.ofList type, String.ofList subtype, String.ofList suffix⟩
      else none
  | _ => none

/-- The media type announces JSON. -/
def isJson (m : MediaType) : Bool :=
  m.type = "application" && (m.subtype = "json" || m.suffix = "json")

end MediaType

end DecisionCompiler.Http
