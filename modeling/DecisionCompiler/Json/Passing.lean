import DecisionCompiler.Json.NumeralText

/-!
Passing over a value without reading it.

The values of unknown members are passed over: they have to be JSON in form, but neither the depth
of their nesting, nor the pairing of surrogates, nor the size of their numbers is looked at. The
walk keeps the open brackets in a list and takes one token at a time.
-/

namespace DecisionCompiler.Json

/-- The blanks that may stand between tokens. -/
def isGap (c : Char) : Bool :=
  c == ' ' || c == '\n' || c == '\t' || c == '\r'

/-- The text from its next token on. -/
def skipGap (text : List Char) : List Char :=
  text.dropWhile isGap

/-- The text behind a word that must stand next. -/
def expectWord : List Char → List Char → Except Fault (List Char)
  | [], text => .ok text
  | _ :: _, [] => .error .truncated
  | expected :: word, c :: text =>
    if c = expected then expectWord word text else .error .malformed

/-- A bracket that is open. -/
inductive Bracket where
  | square
  | curly
deriving DecidableEq

/-- What a walk over a value has to find next. -/
inductive Awaited where
  | value
  | name
  | afterValue
deriving DecidableEq

/-- Passes over a value that is no container. -/
def passScalar : List Char → Except Fault (List Char)
  | [] => .error .truncated
  | '"' :: rest => passString rest
  | 'n' :: rest => expectWord ['u', 'l', 'l'] rest
  | 't' :: rest => expectWord ['r', 'u', 'e'] rest
  | 'f' :: rest => expectWord ['a', 'l', 's', 'e'] rest
  | c :: rest =>
    if c = '-' ∨ c.isDigit then passNumber (c :: rest) else .error .malformed

/-- Passes over a name and its colon. -/
def passName (text : List Char) : Except Fault (List Char) :=
  match skipGap text with
  | '"' :: rest =>
    match passString rest with
    | .error fault => .error fault
    | .ok rest =>
      match skipGap rest with
      | ':' :: rest => .ok rest
      | rest => .error (.at rest)
  | rest => .error (.at rest)

/-- Walks on with the given brackets open, for at most the given number of tokens. -/
def walk : Nat → List Bracket → Awaited → List Char → Except Fault (List Char)
  | 0, _, _, _ => .error .truncated
  | steps + 1, opened, .value, text =>
    match skipGap text with
    | '[' :: rest =>
      match skipGap rest with
      | ']' :: rest => walk steps opened .afterValue rest
      | rest => walk steps (.square :: opened) .value rest
    | '{' :: rest =>
      match skipGap rest with
      | '}' :: rest => walk steps opened .afterValue rest
      | rest => walk steps (.curly :: opened) .name rest
    | rest =>
      match passScalar rest with
      | .error fault => .error fault
      | .ok rest => walk steps opened .afterValue rest
  | steps + 1, opened, .name, text =>
    match passName text with
    | .error fault => .error fault
    | .ok rest => walk steps opened .value rest
  | _ + 1, [], .afterValue, text => .ok text
  | steps + 1, bracket :: outer, .afterValue, text =>
    match bracket, skipGap text with
    | .square, ',' :: rest => walk steps (bracket :: outer) .value rest
    | .curly, ',' :: rest => walk steps (bracket :: outer) .name rest
    | .square, ']' :: rest => walk steps outer .afterValue rest
    | .curly, '}' :: rest => walk steps outer .afterValue rest
    | _, rest => .error (.at rest)

/-- Passes over the value that stands next. Every token takes a character, so a walk of as many
tokens as there are characters, and one more to stop, sees the whole text. -/
def passValue (text : List Char) : Except Fault (List Char) :=
  walk (text.length + 1) [] .value text

end DecisionCompiler.Json
