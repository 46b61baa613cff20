import DecisionCompiler.Json.Basic

/-!
Quoted strings of JSON texts.

Written, a string is escaped as little as the format allows: the quote, the backslash and the
control characters below `U+0020`, the common ones by their letter, the others by four lower case
hexadecimal digits. Read, a string is a run of *pieces* up to the closing quote, where a piece is a
character or one 16-bit unit given by its digits; units of a surrogate pair are joined afterwards.
Passing over a string asks only for its pieces, reading it also for the pairs to be complete.
-/

namespace DecisionCompiler.Json

/-! ### Writing -/

/-- The letter by which a character is escaped. -/
def escapeLetter? : Char → Option Char
  | '"' => some '"'
  | '\\' => some '\\'
  | '\x08' => some 'b'
  | '\t' => some 't'
  | '\n' => some 'n'
  | '\x0c' => some 'f'
  | '\r' => some 'r'
  | _ => none

/-- A hexadecimal digit in lower case. -/
def hexDigit (n : Nat) : Char :=
  Char.ofNat (if n < 10 then '0'.toNat + n else 'a'.toNat + (n - 10))

/-- A character as it stands inside quotes. -/
def escape (c : Char) : List Char :=
  match escapeLetter? c with
  | some letter => ['\\', letter]
  | none =>
    if c.toNat < 0x20 then ['\\', 'u', '0', '0', hexDigit (c.toNat / 16), hexDigit (c.toNat % 16)]
    else [c]

/-- A string in quotes. -/
def quoted (s : String) : List Char :=
  '"' :: (s.toList.flatMap escape ++ ['"'])

/-! ### Reading -/

/-- Why a text stops being JSON: it ends too early, or something else stands where it goes on. -/
inductive Fault where
  | truncated
  | malformed
deriving DecidableEq

/-- The fault of a text that does not go on as it must. -/
def Fault.at : List Char → Fault
  | [] => .truncated
  | _ => .malformed

/-- What stands between quotes: characters, and 16-bit units given by their digits. -/
inductive Piece where
  | plain (c : Char)
  | unit (n : Nat)
deriving DecidableEq

/-- The character that a letter behind a backslash stands for. -/
def unescapeLetter? : Char → Option Char
  | '"' => some '"'
  | '\\' => some '\\'
  | '/' => some '/'
  | 'b' => some '\x08'
  | 't' => some '\t'
  | 'n' => some '\n'
  | 'f' => some '\x0c'
  | 'r' => some '\r'
  | _ => none

/-- The value of a hexadecimal digit. -/
def hexValue? (c : Char) : Option Nat :=
  if '0' ≤ c ∧ c ≤ '9' then some (c.toNat - '0'.toNat)
  else if 'a' ≤ c ∧ c ≤ 'f' then some (c.toNat - 'a'.toNat + 10)
  else if 'A' ≤ c ∧ c ≤ 'F' then some (c.toNat - 'A'.toNat + 10)
  else none

/-- The 16-bit unit of four hexadecimal digits. -/
def unit? (a b c d : Char) : Option Nat := do
  let a ← hexValue? a
  let b ← hexValue? b
  let c ← hexValue? c
  let d ← hexValue? d
  return ((a * 16 + b) * 16 + c) * 16 + d

-- The zero of a sum is the numeral, whatever else is imported.
attribute [local instance (2000)] Zero.ofOfNat0

/-- How many bytes a text takes. -/
def byteCount (text : List Char) : Nat :=
  (text.map Char.utf8Size).sum

/-- The pieces of a string up to its closing quote, behind those already met, and what follows the
quote. Of the digits of a unit four bytes are taken at once, so a text that has fewer left ends too
early whatever they are. -/
def scanPieces (met : List Piece) : List Char → List Piece × Except Fault (List Char)
  | [] => (met.reverse, .error .truncated)
  | '"' :: rest => (met.reverse, .ok rest)
  | '\\' :: 'u' :: a :: b :: c :: d :: rest =>
    match unit? a b c d with
    | some n => scanPieces (.unit n :: met) rest
    | none => (met.reverse, .error .malformed)
  | '\\' :: 'u' :: few =>
    (met.reverse, .error (if byteCount few < 4 then .truncated else .malformed))
  | '\\' :: letter :: rest =>
    match unescapeLetter? letter with
    | some c => scanPieces (.plain c :: met) rest
    | none => (met.reverse, .error .malformed)
  | ['\\'] => (met.reverse, .error .truncated)
  | c :: rest =>
    if c.toNat < 0x20 then (met.reverse, .error .malformed) else scanPieces (.plain c :: met) rest

/-- The unit opens a surrogate pair. -/
def leads (n : Nat) : Bool :=
  0xD800 ≤ n && n < 0xDC00

/-- The unit closes a surrogate pair. -/
def trails (n : Nat) : Bool :=
  0xDC00 ≤ n && n < 0xE000

/-- The characters of a run of pieces. -/
inductive Joined where
  | whole (chars : List Char)
  /-- A unit of a pair stands without its other half. -/
  | unpaired
  /-- The run ends between the halves of a pair. -/
  | half
deriving DecidableEq

/-- Joins the halves of surrogate pairs, behind the characters already met. -/
def joinPieces (met : List Char) : List Piece → Joined
  | [] => .whole met.reverse
  | .plain c :: rest => joinPieces (c :: met) rest
  | .unit n :: rest =>
    if leads n then
      match rest with
      | [] => .half
      | .plain _ :: _ => .unpaired
      | .unit m :: rest =>
        if trails m then
          joinPieces (Char.ofNat (0x10000 + (n - 0xD800) * 0x400 + (m - 0xDC00)) :: met) rest
        else .unpaired
    else if trails n then .unpaired
    else joinPieces (Char.ofNat n :: met) rest

/-- Reads a string behind its opening quote. -/
def readString (text : List Char) : Except Fault (String × List Char) :=
  let (pieces, next) := scanPieces [] text
  match joinPieces [] pieces, next with
  | .unpaired, _ => .error .malformed
  | _, .error fault => .error fault
  | .whole chars, .ok rest => .ok (String.ofList chars, rest)
  | .half, .ok _ => .error .malformed

/-- Passes over a string behind its opening quote. -/
def passString (text : List Char) : Except Fault (List Char) :=
  (scanPieces [] text).2

end DecisionCompiler.Json
