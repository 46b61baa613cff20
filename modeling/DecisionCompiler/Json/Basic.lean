import DecisionCompiler.Number.Layout
import DecisionCompiler.Entries

/-!
JSON documents.

A document keeps what its text says and nothing else: members stay in written order, a repeated name
stays repeated, and a number remembers whether it was written as an integer. What a repeated name
means is decided where a document is decoded.
-/

namespace DecisionCompiler

/-- A number in a document. An integer is one written without fraction and exponent that fits 64
bits, signed or unsigned; every other number is rounded to binary64, negative zero included. -/
inductive Json.Numeral where
  | integer (n : Int)
  | real (x : Number.Finite)
deriving DecidableEq

/-- A JSON document. -/
inductive Json where
  | null
  | bool (b : Bool)
  | number (n : Json.Numeral)
  | string (s : String)
  | array (items : List Json)
  | object (members : List (String × Json))

namespace Json

instance : Inhabited Json := ⟨null⟩

/-- The binary64 number of a numeral. -/
def Numeral.toNumber : Numeral → Number
  | integer n => .ofInt n
  | real x => .finite x

/-- A number as a document holds it; a number that is not finite has no JSON form and is `null`. -/
def ofNumber : Number → Json
  | .finite x => number (.real x)
  | _ => null

mutual

/-- The document with the members of every object filed under their names: ascending, the last of
a repeated name kept. -/
def filed : Json → Json
  | array items => array (filedItems items)
  | object members => object (Entries.ofList (filedMembers members))
  | json => json

/-- Files the objects inside each item. -/
def filedItems : List Json → List Json
  | [] => []
  | item :: items => filed item :: filedItems items

/-- Files the objects inside each member. -/
def filedMembers : List (String × Json) → List (String × Json)
  | [] => []
  | (name, json) :: members => (name, filed json) :: filedMembers members

end

/-- The member of an object with the given name; the last one counts. -/
def member? (name : String) : Json → Option Json
  | object members => members.reverse.lookup name
  | _ => none

end Json

end DecisionCompiler
