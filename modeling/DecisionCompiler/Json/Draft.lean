import DecisionCompiler.Json.Passing

/-!
Documents read as far as their text allows.

A text is decoded while it is read, so the first problem from the left decides what is reported: a
value of the wrong shape counts even if the text breaks off behind it. A *draft* is what a text
yields up to that point: a document with a `stuck` value where a value cannot be read, and with the
fault of a container whose text does not go on. A decoder that walks a draft from left to right
meets the problems of shape and the problems of the text in the order of the text.

A member whose value cannot be read does not end its object as long as the value can be passed over,
because a decoder that does not know the member never looks at the value. Where a value cannot be
read, the draft keeps the character that it begins with, because a decoder may refuse a value for
that character alone.
-/

namespace DecisionCompiler

/-- Where the members of an object break off. -/
structure Json.Break where
  fault : Json.Fault
  /-- A comma behind the last member says that there is a further one. -/
  announced : Bool
deriving DecidableEq

/-- A document as far as its text can be read. -/
inductive Json.Draft where
  | null
  | bool (b : Bool)
  | number (n : Json.Numeral)
  | string (s : String)
  | array (items : List Json.Draft) (fault : Option Json.Fault)
  | object (members : List (String × Json.Draft)) (gap : Option Json.Break)
  /-- A value that cannot be read, and the character that stands where it should begin. -/
  | stuck (leading : Option Char) (fault : Json.Fault)

namespace Json

/-- Containers may be nested this deep. -/
def maxDepth : Nat := 127

namespace Draft

mutual

/-- The draft of a document that is there as a whole. -/
def ofJson : Json → Draft
  | .null => null
  | .bool b => bool b
  | .number n => number n
  | .string s => string s
  | .array items => array (ofItems items) none
  | .object members => object (ofMembers members) none

/-- The drafts of items that are there as a whole. -/
def ofItems : List Json → List Draft
  | [] => []
  | item :: items => ofJson item :: ofItems items

/-- The drafts of members that are there as a whole. -/
def ofMembers : List (String × Json) → List (String × Draft)
  | [] => []
  | (name, json) :: members => (name, ofJson json) :: ofMembers members

end

/-- What reading one value yields: its draft, and the text behind it unless the text cannot be
followed any further. -/
structure Reading where
  draft : Draft
  rest : Option (List Char)

/-- The reading of a value that should stand at the beginning of a text and cannot be read. -/
def Reading.stuckAt (text : List Char) (fault : Fault) : Reading :=
  ⟨stuck text.head? fault, none⟩

/-- Reads a value that is no container. -/
def readScalar (text : List Char) : Reading :=
  let word (value : Draft) : Except Fault (List Char) → Reading
    | .ok rest => ⟨value, some rest⟩
    | .error fault => .stuckAt text fault
  match text with
  | [] => .stuckAt text .truncated
  | '"' :: rest =>
    match readString rest with
    | .ok (s, rest) => ⟨string s, some rest⟩
    | .error fault => .stuckAt text fault
  | 'n' :: rest => word null (expectWord ['u', 'l', 'l'] rest)
  | 't' :: rest => word (bool true) (expectWord ['r', 'u', 'e'] rest)
  | 'f' :: rest => word (bool false) (expectWord ['a', 'l', 's', 'e'] rest)
  | c :: rest =>
    if c = '-' ∨ c.isDigit then
      match readNumber (c :: rest) with
      | .ok (n, rest) => ⟨number n, some rest⟩
      | .error fault => .stuckAt text fault
    else .stuckAt text .malformed

/-- Reads the items of an array where an item must stand next, behind the items already met (the
last one first). `value` reads one item. -/
def readItems (value : List Char → Reading) : Nat → List Draft → List Char → Reading
  | 0, met, _ => ⟨array met.reverse (some .truncated), none⟩
  | steps + 1, met, text =>
    let reading := value (skipGap text)
    let met := reading.draft :: met
    match reading.rest with
    | none => ⟨array met.reverse none, none⟩
    | some rest =>
      match skipGap rest with
      | ',' :: rest => readItems value steps met rest
      | ']' :: rest => ⟨array met.reverse none, some rest⟩
      | rest => ⟨array met.reverse (some (.at rest)), none⟩

/-- Reads the members of an object where a name must stand next, behind the members already met
(the last one first). `value` reads one value. -/
def readMembers (value : List Char → Reading) :
    Nat → List (String × Draft) → List Char → Reading
  | 0, met, _ => ⟨object met.reverse (some ⟨.truncated, !met.isEmpty⟩), none⟩
  | steps + 1, met, text =>
    let brokenOff (fault : Fault) : Reading :=
      ⟨object met.reverse (some ⟨fault, !met.isEmpty⟩), none⟩
    match skipGap text with
    | '"' :: rest =>
      match readString rest with
      | .error fault => brokenOff fault
      | .ok (name, rest) =>
        match skipGap rest with
        | ':' :: rest =>
          let rest := skipGap rest
          let reading := value rest
          let met := (name, reading.draft) :: met
          let next : Except Fault (List Char) :=
            match reading.rest with
            | some rest => .ok rest
            | none => passValue rest
          match next with
          | .error fault => ⟨object met.reverse (some ⟨fault, false⟩), none⟩
          | .ok rest =>
            match skipGap rest with
            | ',' :: rest => readMembers value steps met rest
            | '}' :: rest => ⟨object met.reverse none, some rest⟩
            | rest => ⟨object met.reverse (some ⟨.at rest, false⟩), none⟩
        | rest =>
          let met := (name, stuck none (.at rest)) :: met
          ⟨object met.reverse (some ⟨.at rest, false⟩), none⟩
    | rest => brokenOff (.at rest)

/-- Reads a value that stands next, with room for the given depth of containers in it and for
containers of at most `size` elements. -/
def readValue (size : Nat) : Nat → List Char → Reading
  | 0, text =>
    match text with
    | '[' :: _ => .stuckAt text .malformed
    | '{' :: _ => .stuckAt text .malformed
    | _ => readScalar text
  | depth + 1, text =>
    match text with
    | '[' :: rest =>
      match skipGap rest with
      | ']' :: rest => ⟨array [] none, some rest⟩
      | [] => ⟨array [] (some .truncated), none⟩
      | rest => readItems (readValue size depth) size [] rest
    | '{' :: rest =>
      match skipGap rest with
      | '}' :: rest => ⟨object [] none, some rest⟩
      | rest => readMembers (readValue size depth) size [] rest
    | _ => readScalar text

/-- Reads the value that a text begins with. No container has more elements than the text has
characters. -/
def ofText (text : String) : Reading :=
  let chars := text.toList
  readValue chars.length maxDepth (skipGap chars)

end Draft

end Json

end DecisionCompiler
