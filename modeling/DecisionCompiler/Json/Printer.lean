import DecisionCompiler.Json.Quoted

/-!
Printing documents.

A style says which blanks stand before an item and a closing bracket at a given depth, what
separates a name from its value, and how a number is written. Three styles are in use: `compact`
and `pretty` for documents that are kept or sent, and `plain` for values inside templates, where a
number is written as it is written alone.
-/

namespace DecisionCompiler.Json

/-- The layout of a printed document. -/
structure Style where
  /-- The blanks before an item, or before the closing bracket, at a depth. -/
  gap : Nat → List Char
  /-- What stands between a name and its value. -/
  colon : List Char
  /-- The text of a number that is not an integer. -/
  real : Number.Finite → List Char

/-- The text of an integer. -/
def integerText (n : Int) : List Char :=
  Number.signText (n < 0) ++ Number.digitsOf n.natAbs

/-- No blanks at all. -/
def Style.compact : Style :=
  ⟨fun _ => [], [':'], Number.Finite.document⟩

/-- Every item on a line of its own, two blanks deeper than its container. -/
def Style.pretty : Style :=
  ⟨fun depth => '\n' :: List.replicate (2 * depth) ' ', [':', ' '], Number.Finite.document⟩

/-- No blanks, and numbers in their plain form. -/
def Style.plain : Style :=
  ⟨fun _ => [], [':'], Number.Finite.plain⟩

mutual

/-- The text of a document whose container stands at the given depth. -/
def print (style : Style) (depth : Nat) : Json → List Char
  | null => ['n', 'u', 'l', 'l']
  | bool true => ['t', 'r', 'u', 'e']
  | bool false => ['f', 'a', 'l', 's', 'e']
  | number (.integer n) => integerText n
  | number (.real x) => style.real x
  | string s => quoted s
  | array [] => ['[', ']']
  | array (item :: items) =>
    '[' :: (style.gap (depth + 1) ++ print style (depth + 1) item
      ++ printItems style (depth + 1) items ++ style.gap depth ++ [']'])
  | object [] => ['{', '}']
  | object ((name, json) :: members) =>
    '{' :: (style.gap (depth + 1) ++ quoted name ++ style.colon ++ print style (depth + 1) json
      ++ printMembers style (depth + 1) members ++ style.gap depth ++ ['}'])

/-- The items behind the first one, each with the comma before it. -/
def printItems (style : Style) (depth : Nat) : List Json → List Char
  | [] => []
  | item :: items =>
    ',' :: (style.gap depth ++ print style depth item ++ printItems style depth items)

/-- The members behind the first one, each with the comma before it. -/
def printMembers (style : Style) (depth : Nat) : List (String × Json) → List Char
  | [] => []
  | (name, json) :: members =>
    ',' :: (style.gap depth ++ quoted name ++ style.colon ++ print style depth json
      ++ printMembers style depth members)

end

/-- The text of a document without blanks. -/
def compact (json : Json) : String :=
  String.ofList (json.print .compact 0)

/-- The text of a document with one item on a line. -/
def pretty (json : Json) : String :=
  String.ofList (json.print .pretty 0)

end DecisionCompiler.Json
