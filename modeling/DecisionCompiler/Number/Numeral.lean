import DecisionCompiler.Number.Rounding

/-!
Reading a number written in decimal.

A numeral is an optional sign and either digits with at most one point among or around them, with
an optional exponent behind, or one of the words `inf`, `infinity` and `nan` in any case. Nothing
else may stand in it: no blanks, no separators between digits, no other base. The number read is
the one nearest to the decimal; decimals beyond the finite numbers read as infinite.
-/

namespace DecisionCompiler.Number

/-- Splits a sign off; without one the numeral is positive. -/
def splitSign : List Char → Bool × List Char
  | '-' :: rest => (true, rest)
  | '+' :: rest => (false, rest)
  | rest => (false, rest)

/-- The value of a run of decimal digits. -/
def digitsValue (digits : List Char) : Nat :=
  digits.foldl (fun value c => 10 * value + (c.toNat - '0'.toNat)) 0

/-- The value of a run of decimal digits with a sign. -/
def signedValue (negative : Bool) (digits : List Char) : Int :=
  if negative then -(digitsValue digits : Int) else digitsValue digits

/-- Splits the longest run of decimal digits off. -/
def splitDigits (text : List Char) : List Char × List Char :=
  (text.takeWhile Char.isDigit, text.dropWhile Char.isDigit)

/-- Splits a point and the digits behind it off; without a point there are none. -/
def splitFraction : List Char → List Char × List Char
  | '.' :: rest => splitDigits rest
  | rest => ([], rest)

/-- The exponent that a text states as a whole: nothing for zero, or the mark `e` or `E` with an
optional sign and at least one digit. -/
def readExponent? : List Char → Option Int
  | [] => some 0
  | mark :: rest =>
    let (negative, digits) := splitSign rest
    if (mark == 'e' || mark == 'E') && !digits.isEmpty && digits.all Char.isDigit then
      some (signedValue negative digits)
    else none

/-- Digits with an optional point and an optional exponent. -/
def readDecimal? (negative : Bool) (text : List Char) : Option Number :=
  let (whole, rest) := splitDigits text
  let (fraction, rest) := splitFraction rest
  if whole.isEmpty && fraction.isEmpty then none
  else
    (readExponent? rest).map fun exponent =>
      ofDecimal negative (digitsValue (whole ++ fraction)) (exponent - fraction.length)

/-- The words for the values that are not finite, in any case. -/
def readWord? (negative : Bool) (text : List Char) : Option Number :=
  let word := String.ofList (text.map Char.toLower)
  if word = "inf" ∨ word = "infinity" then some (.infinite negative)
  else if word = "nan" then some .nan
  else none

/-- The number that a text states. -/
def read? (text : List Char) : Option Number :=
  let (negative, rest) := splitSign text
  (readDecimal? negative rest).or (readWord? negative rest)

/-- The number that a string states. -/
def ofString? (text : String) : Option Number :=
  read? text.toList

end DecisionCompiler.Number
