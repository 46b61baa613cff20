import DecisionCompiler.Json.Quoted

/-!
Blanks, line ends and strings of TOML files.

A string stands in double quotes, in which a backslash escapes, or in single quotes, which keep
everything. Three quotes open a string of several lines; a line end right behind them does not
belong to it. Readers take a text and give back what they read with the text behind it.
-/

namespace DecisionCompiler.Toml

/-! ### Blanks and line ends -/

/-- The text without the blanks before it. -/
def skipBlanks (text : List Char) : List Char :=
  text.dropWhile fun c => c == ' ' || c == '\t'

/-- The character may stand in a comment. -/
def isCommentChar (c : Char) : Bool :=
  c == '\t' || (0x20 ≤ c.toNat && c.toNat != 0x7F)

/-- The text behind the line end that it begins with. -/
def lineEnd? : List Char → Option (List Char)
  | '\n' :: rest => some rest
  | '\r' :: '\n' :: rest => some rest
  | _ => none

/-- Takes the rest of a line off, which may hold a comment. -/
def endLine? (text : List Char) : Option (List Char) :=
  let rest :=
    match skipBlanks text with
    | '#' :: comment => comment.dropWhile isCommentChar
    | rest => rest
  if rest.isEmpty then some [] else lineEnd? rest

/-- Takes blanks, comments and line ends off, for at most the given number of lines. -/
def skipLines : Nat → List Char → List Char
  | 0, text => text
  | lines + 1, text =>
    match skipBlanks text with
    | [] => []
    | c :: rest =>
      if c = '#' ∨ c = '\n' ∨ c = '\r' then
        match endLine? (c :: rest) with
        | some rest => skipLines lines rest
        | none => c :: rest
      else c :: rest

/-! ### Escapes -/

/-- The value of hexadecimal digits. -/
def hexValue? (digits : List Char) : Option Nat :=
  digits.foldlM (fun n c => (Json.hexValue? c).map (16 * n + ·)) 0

/-- The character of a code point given by its digits; half of a pair is none. -/
def codePoint? (digits : List Char) : Option Char :=
  (hexValue? digits).bind fun n => if h : n.isValidChar then some (Char.ofNatAux n h) else none

/-- The character that a letter behind a backslash stands for. -/
def unescape? (c : Char) : Option Char :=
  if c = '/' then none else Json.unescapeLetter? c

/-! ### Strings on one line -/

/-- Reads a string behind its opening double quote and the characters already met, the last one
first. -/
def readBasic (met : List Char) : List Char → Option (String × List Char)
  | [] => none
  | '"' :: rest => some (String.ofList met.reverse, rest)
  | '\\' :: 'u' :: a :: b :: c :: d :: rest =>
    match codePoint? [a, b, c, d] with
    | some x => readBasic (x :: met) rest
    | none => none
  | '\\' :: 'U' :: a :: b :: c :: d :: e :: f :: g :: h :: rest =>
    match codePoint? [a, b, c, d, e, f, g, h] with
    | some x => readBasic (x :: met) rest
    | none => none
  | '\\' :: letter :: rest =>
    match unescape? letter with
    | some x => readBasic (x :: met) rest
    | none => none
  | c :: rest => if isCommentChar c ∧ c ≠ '\\' then readBasic (c :: met) rest else none

/-- Reads a string behind its opening single quote. -/
def readLiteral (text : List Char) : Option (String × List Char) :=
  let inside (c : Char) : Bool := c != '\'' && isCommentChar c
  match text.dropWhile inside with
  | '\'' :: rest => some (String.ofList (text.takeWhile inside), rest)
  | _ => none

/-! ### Strings of several lines -/

/-- The string and what follows it, where three quotes close it and `rest` stands behind them: of
more than three quotes the last three close, and at most two belong to the string. -/
def closeLines (quote : Char) (met rest : List Char) : String × List Char :=
  let extra := (rest.take 2).takeWhile (· == quote)
  (String.ofList (met.reverse ++ extra), rest.drop extra.length)

/-- Reads a string of several lines in double quotes, behind the characters already met. A backslash
at the end of a line leaves out everything blank up to the next character; `folded` says that this
is going on. -/
def readBasicLines (folded : Bool) (met : List Char) : List Char → Option (String × List Char)
  | [] => none
  | '"' :: '"' :: '"' :: rest => some (closeLines '"' met rest)
  | '\\' :: 'u' :: a :: b :: c :: d :: rest =>
    match codePoint? [a, b, c, d] with
    | some x => readBasicLines false (x :: met) rest
    | none => none
  | '\\' :: 'U' :: a :: b :: c :: d :: e :: f :: g :: h :: rest =>
    match codePoint? [a, b, c, d, e, f, g, h] with
    | some x => readBasicLines false (x :: met) rest
    | none => none
  | '\\' :: letter :: rest =>
    match unescape? letter with
    | some x => readBasicLines false (x :: met) rest
    | none =>
      if (lineEnd? (skipBlanks (letter :: rest))).isSome then
        readBasicLines true met (letter :: rest)
      else none
  | '\r' :: '\n' :: rest => readBasicLines folded (if folded then met else '\n' :: met) rest
  | c :: rest =>
    if folded && (c == ' ' || c == '\t' || c == '\n') then readBasicLines true met rest
    else if c = '\n' ∨ (isCommentChar c ∧ c ≠ '\\') then readBasicLines false (c :: met) rest
    else none

/-- Reads a string of several lines in single quotes, behind the characters already met. -/
def readLiteralLines (met : List Char) : List Char → Option (String × List Char)
  | [] => none
  | '\'' :: '\'' :: '\'' :: rest => some (closeLines '\'' met rest)
  | '\r' :: '\n' :: rest => readLiteralLines ('\n' :: met) rest
  | c :: rest => if c = '\n' ∨ isCommentChar c then readLiteralLines (c :: met) rest else none

/-- Reads the string that a text begins with. -/
def readString : List Char → Option (String × List Char)
  | '"' :: '"' :: '"' :: rest => readBasicLines false [] ((lineEnd? rest).getD rest)
  | '\'' :: '\'' :: '\'' :: rest => readLiteralLines [] ((lineEnd? rest).getD rest)
  | '"' :: rest => readBasic [] rest
  | '\'' :: rest => readLiteral rest
  | _ => none

end DecisionCompiler.Toml
