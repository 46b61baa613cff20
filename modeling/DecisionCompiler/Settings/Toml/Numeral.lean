import DecisionCompiler.Json.Quoted
import DecisionCompiler.Number.Numeral
import DecisionCompiler.Settings.Tree
import DecisionCompiler.Text.Split

/-!
Numbers of TOML files.

An integer has 64 bits and may be written in base ten, sixteen, eight or two; a number with a
fraction or an exponent is rounded to binary64. An underscore may stand between two digits. A number
beyond the largest one is refused, one below the least one is infinite.
-/

namespace DecisionCompiler.Toml

/-- The digits of a run in which an underscore may stand between two digits. -/
def digits? (isDigit : Char → Bool) (text : List Char) : Option (List Char) :=
  let groups := Text.splitAll '_' text
  if groups.all fun group => !group.isEmpty && group.all isDigit then some groups.flatten else none

/-- Digits without superfluous zeros. -/
def wholeDigits? (text : List Char) : Option (List Char) :=
  match digits? Char.isDigit text with
  | some ('0' :: _ :: _) => none
  | digits => digits

/-- An integer of 64 bits with a sign. -/
def integer? (n : Int) : Option Setting :=
  if -2 ^ 63 ≤ n ∧ n < 2 ^ 63 then some (.integer n) else none

/-- An integer in a base other than ten. -/
def based? (base : Nat) (text : List Char) : Option Setting := do
  let isDigit (c : Char) : Bool := ((Json.hexValue? c).map fun n => decide (n < base)).getD false
  let digits ← digits? isDigit text
  integer? (digits.foldl (fun n c => base * n + (Json.hexValue? c).getD 0) 0)

/-- A number with a fraction or an exponent. -/
def real? (negative : Bool) (text : List Char) : Option Setting := do
  let isMark (c : Char) : Bool := c == 'e' || c == 'E'
  let mantissa := text.takeWhile fun c => !isMark c
  let whole ← wholeDigits? (mantissa.takeWhile (· != '.'))
  let fraction ←
    match mantissa.dropWhile (· != '.') with
    | '.' :: fraction => (digits? Char.isDigit fraction).map ('.' :: ·)
    | _ => some []
  let exponent ←
    match text.dropWhile fun c => !isMark c with
    | _ :: exponent =>
      let (negative, digits) := Number.splitSign exponent
      (digits? Char.isDigit digits).map fun digits => 'e' :: (Number.signText negative ++ digits)
    | [] => some []
  match ← Number.read? (Number.signText negative ++ whole ++ fraction ++ exponent) with
  | .infinite false => none
  | x => return .real x

/-- The number that a word states. -/
def number? (word : List Char) : Option Setting :=
  match word with
  | '0' :: 'x' :: digits => based? 16 digits
  | '0' :: 'o' :: digits => based? 8 digits
  | '0' :: 'b' :: digits => based? 2 digits
  | word =>
    let (negative, rest) := Number.splitSign word
    if rest = ['i', 'n', 'f'] then some (.real (.infinite negative))
    else if rest = ['n', 'a', 'n'] then some (.real .nan)
    else
      match wholeDigits? rest with
      | some digits => integer? (Number.signedValue negative digits)
      | none => real? negative rest

end DecisionCompiler.Toml
