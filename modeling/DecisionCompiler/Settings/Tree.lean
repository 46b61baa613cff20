import DecisionCompiler.Json.Basic
import DecisionCompiler.Number.Layout
import DecisionCompiler.Number.Numeral
import DecisionCompiler.Text.Case

/-!
Settings as a tree that is built layer by layer.

A layer assigns values to keys. Names count without regard to case. A key may lead into what is
nested: names with points between them lead into tables, an index in square brackets leads into a
list. Assigning a table merges it entry by entry into what is there, assigning anything else
replaces it, so that of two layers the later one wins key by key. What a value counts as is decided
where it is asked for: settings from the environment are texts before they are anything else, and a
number or a truth value may be asked for as a text.
-/

namespace DecisionCompiler

/-- A setting: a value, or a table of settings. -/
inductive Setting where
  | null
  | bool (b : Bool)
  | integer (n : Int)
  | real (x : Number)
  | text (s : String)
  | list (items : List Setting)
  | table (entries : List (String × Setting))

namespace Setting

instance : Inhabited Setting := ⟨table []⟩

/-- The entries of a table; anything else has none. -/
def entries : Setting → List (String × Setting)
  | table entries => entries
  | _ => []

/-- The items of a list; anything else has none. -/
def items : Setting → List Setting
  | list items => items
  | _ => []

/-- The setting under a name. -/
def get? (name : String) (s : Setting) : Option Setting :=
  Entries.get? (Text.foldCase name) s.entries

/-! ### Assigning to names -/

/-- The table with one entry replaced; what is no table becomes one. -/
def replace (name : String) (value target : Setting) : Setting :=
  table (Entries.insert (Text.foldCase name) value target.entries)

mutual

/-- Assigns a value to a name of a table. -/
def assign (name : String) (value target : Setting) : Setting :=
  match value with
  | table entries => replace name (assignAll entries ((target.get? name).getD (table []))) target
  | value => replace name value target

/-- Assigns every entry of a list in turn. -/
def assignAll (values : List (String × Setting)) (target : Setting) : Setting :=
  match values with
  | [] => target
  | (name, value) :: values => assignAll values (assign name value target)

end

/-! ### Keys -/

/-- One step of a key. -/
inductive Step where
  /-- To the entry of a table. -/
  | entry (name : String)
  /-- To the item of a list; an index below zero counts from the end. -/
  | item (index : Int)
deriving DecidableEq

/-- The position in a list of the given length that an index means. There is none before the
beginning. -/
def position? (index : Int) (length : Nat) : Option Nat :=
  if 0 ≤ index then some index.toNat
  else if index.natAbs ≤ length then some (length - index.natAbs)
  else none

/-- Changes the item at an index; a list that is too short is filled up with nulls, and what is no
list becomes one. -/
def changeItem (index : Int) (f : Setting → Setting) (target : Setting) : Setting :=
  match position? index target.items.length with
  | none => target
  | some i =>
    let filled := target.items ++ List.replicate (i + 1 - target.items.length) null
    list (filled.modify i f)

/-- Assigns a value to what the steps of a key lead to. -/
def assignAt (steps : List Step) (value target : Setting) : Setting :=
  match steps with
  | [] => value
  | [.entry name] => assign name value target
  | .entry name :: steps =>
    replace name (assignAt steps value ((target.get? name).getD null)) target
  | .item index :: steps => changeItem index (assignAt steps value) target

/-- The character may stand in a name that is part of a key. -/
def isNameChar (c : Char) : Bool :=
  c.isAlphanum || c == '_' || c == '-' || c == ' '

/-- Reads the name that a text begins with. -/
def readName? (text : List Char) : Option (String × List Char) :=
  let name := text.takeWhile isNameChar
  if name.isEmpty then none else some (String.ofList name, text.dropWhile isNameChar)

/-- Reads an index of 64 bits, with blanks around it, and the bracket behind it. -/
def readIndex? (text : List Char) : Option (Int × List Char) :=
  let skipBlanks (text : List Char) := text.dropWhile fun c => c == ' ' || c == '\t'
  let (negative, rest) : Bool × List Char :=
    match skipBlanks text with
    | '-' :: rest => (true, rest)
    | rest => (false, rest)
  let (digits, rest) := Number.splitDigits rest
  let index := Number.signedValue negative digits
  match skipBlanks rest with
  | ']' :: rest =>
    if !digits.isEmpty && -2 ^ 63 ≤ index && index < 2 ^ 63 then some (index, rest) else none
  | _ => none

/-- Reads the steps behind the first name of a key, at most the given number of them. -/
def readSteps? : Nat → List Char → Option (List Step)
  | _, [] => some []
  | 0, _ => none
  | steps + 1, '.' :: rest => do
    let (name, rest) ← readName? rest
    let further ← readSteps? steps rest
    return .entry name :: further
  | steps + 1, '[' :: rest => do
    let (index, rest) ← readIndex? rest
    let further ← readSteps? steps rest
    return .item index :: further
  | _, _ => none

/-- The steps of a key. A key that does not read as steps from its beginning to its end is one
name. -/
def stepsOf (key : String) : List Step :=
  let steps? : Option (List Step) := do
    let (name, rest) ← readName? key.toList
    let further ← readSteps? rest.length rest
    return .entry name :: further
  steps?.getD [.entry key]

/-- Assigns a value to a key. -/
def assignKey (key : String) (value target : Setting) : Setting :=
  assignAt (stepsOf key) value target

/-! ### Layers -/

/-- Keys and their values. -/
abbrev Layer := List (String × Setting)

/-- The settings of layers, of which later ones win. -/
def ofLayers (layers : List Layer) : Setting :=
  layers.flatten.foldl (fun target entry => assignKey entry.1 entry.2 target) (table [])

/-! ### Settings and documents -/

mutual

/-- The setting that a document states. Integers have 64 bits with a sign; larger ones become
binary64. -/
def ofJson : Json → Setting
  | .null => null
  | .bool b => bool b
  | .number (.integer n) => if n < 2 ^ 63 then integer n else real (.ofInt n)
  | .number (.real x) => real (.finite x)
  | .string s => text s
  | .array items => list (ofItems items)
  | .object members => table (Entries.ofList (ofMembers members))

/-- The settings of items. -/
def ofItems : List Json → List Setting
  | [] => []
  | item :: items => ofJson item :: ofItems items

/-- The settings of members. -/
def ofMembers : List (String × Json) → List (String × Setting)
  | [] => []
  | (name, json) :: members => (name, ofJson json) :: ofMembers members

end

mutual

/-- The document of a setting. -/
def toJson : Setting → Json
  | null => .null
  | bool b => .bool b
  | integer n => .number (.integer n)
  | real x => .ofNumber x
  | text s => .string s
  | list items => .array (toItems items)
  | table entries => .object (toMembers entries)

/-- The documents of items. -/
def toItems : List Setting → List Json
  | [] => []
  | item :: items => toJson item :: toItems items

/-- The documents of entries. -/
def toMembers : List (String × Setting) → List (String × Json)
  | [] => []
  | (key, value) :: entries => (key, toJson value) :: toMembers entries

end

/-! ### What a value counts as -/

/-- The whole number that a text states, with an optional sign. -/
def wholeNumber? (text : String) : Option Int :=
  let (negative, digits) := Number.splitSign text.toList
  if !digits.isEmpty && digits.all Char.isDigit then
    some (Number.signedValue negative digits)
  else none

/-- The value that a text from the environment states: a truth value in any case, an integer of 64
bits, a number, or else the text itself. -/
def ofText (s : String) : Setting :=
  match s.toLower with
  | "true" => bool true
  | "false" => bool false
  | _ =>
    match (wholeNumber? s).filter fun n => -2 ^ 63 ≤ n ∧ n < 2 ^ 63, Number.ofString? s with
    | some n, _ => integer n
    | none, some x => real x
    | none, none => text s

/-- The truth value that a word stands for. -/
def truthOf? (word : String) : Option Bool :=
  match word.toLower with
  | "true" | "on" | "yes" => some true
  | "false" | "off" | "no" => some false
  | _ => none

/-- A number rounded to a whole one, halves away from zero; what is not positive counts as zero,
and there is nothing above `2 ^ 64 - 1`. -/
def roundToNat : Number → Nat
  | .nan => 0
  | .infinite negative => if negative then 0 else 2 ^ 64 - 1
  | .finite x =>
    if x.negative then 0
    else min ((2 * x.units + 2 ^ 1074) / (2 * 2 ^ 1074)) (2 ^ 64 - 1)

/-- The setting as a text. -/
def asText? : Setting → Option String
  | bool b => some (if b then "true" else "false")
  | integer n => some (toString n)
  | real x => some (Number.plainText x)
  | text s => some s
  | _ => none

/-- The setting as a number that is not negative. -/
def asNat? : Setting → Option Nat
  | bool b => some (if b then 1 else 0)
  | integer n => if 0 ≤ n then some n.toNat else none
  | real x => some (roundToNat x)
  | text s =>
    match truthOf? s with
    | some b => some (if b then 1 else 0)
    | none => if s.startsWith "-" then none else (wholeNumber? s).map Int.toNat
  | _ => none

/-- The setting as a truth value. -/
def asBool? : Setting → Option Bool
  | bool b => some b
  | integer n => some (n ≠ 0)
  | real x => some (x ≠ .finite (.zero false) ∧ x ≠ .finite (.zero true))
  | text s =>
    match s with
    | "1" => some true
    | "0" => some false
    | s => truthOf? s
  | _ => none

end Setting

end DecisionCompiler
