import DecisionCompiler.Json.Decoder
import DecisionCompiler.Json.Printer

/-!
Literal values of rule payloads.

Values are JSON documents with one kind of number and with objects whose entries are filed in
ascending key order. A value has two written forms: the text of a document, in which numbers show
their fraction and strings their quotes, and the form in which it is shown inside a template, where
a string stands raw and numbers are plain at every depth.
-/

namespace DecisionCompiler

/-- A literal value. -/
inductive Value where
  | null
  | bool (b : Bool)
  | number (x : Number)
  | string (s : String)
  | array (items : List Value)
  | object (entries : List (String × Value))

namespace Value

instance : Inhabited Value := ⟨null⟩

/-- The shape of a value, as error messages name it. -/
def kind : Value → String
  | null => "null"
  | bool _ => "bool"
  | number _ => "number"
  | string _ => "string"
  | array _ => "array"
  | object _ => "object"

/-- The entries of an object. -/
def entries? : Value → Option (List (String × Value))
  | object entries => some entries
  | _ => none

/-- The text of a string. -/
def text? : Value → Option String
  | string s => some s
  | _ => none

/-! ### Values and documents -/

mutual

/-- The value of a document: numbers become binary64 and members are filed under their names. -/
def ofJson : Json → Value
  | .null => null
  | .bool b => bool b
  | .number n => number n.toNumber
  | .string s => string s
  | .array items => array (ofItems items)
  | .object members => object (Entries.ofList (ofMembers members))

/-- The values of items. -/
def ofItems : List Json → List Value
  | [] => []
  | item :: items => ofJson item :: ofItems items

/-- The values of members. -/
def ofMembers : List (String × Json) → List (String × Value)
  | [] => []
  | (name, json) :: members => (name, ofJson json) :: ofMembers members

end

mutual

/-- The document of a value; numbers that are not finite become null. -/
def toJson : Value → Json
  | null => .null
  | bool b => .bool b
  | number x => .ofNumber x
  | string s => .string s
  | array items => .array (toItems items)
  | object entries => .object (toMembers entries)

/-- The documents of items. -/
def toItems : List Value → List Json
  | [] => []
  | item :: items => toJson item :: toItems items

/-- The documents of entries. -/
def toMembers : List (String × Value) → List (String × Json)
  | [] => []
  | (key, value) :: entries => (key, toJson value) :: toMembers entries

end

/-- Any document read in full, as a value. -/
def decoder : Json.Decoder Value := fun draft =>
  (Json.Decoder.json draft).map ofJson

/-! ### Written forms -/

/-- The value as it is shown inside a template. -/
def display : Value → String
  | string s => s
  | value => String.ofList (value.toJson.print .plain 0)

/-- The value as the text of a document. -/
def text (value : Value) : String :=
  value.toJson.compact

end Value

end DecisionCompiler
