import DecisionCompiler.Number.Numeral
import DecisionCompiler.Number.Shortest

/-!
How numbers are written.

Two formats share the shortest digits. The *plain* form, used inside templates and labels, never
has an exponent and writes a whole number without a point. The *document* form, used in JSON texts,
always shows a fraction between `10 ^ -5` and `10 ^ 16` and an exponent with its sign outside that
range.
-/

namespace DecisionCompiler.Number

/-- The decimal digits of a natural number, most significant first. -/
def digitsOf (n : Nat) : List Char :=
  Nat.toDigits 10 n

/-- Positional notation: the point after, inside or before the digits. -/
def Decimal.positional (d : Decimal) : List Char :=
  let digits := digitsOf d.digits
  if 0 ≤ d.exponent then digits ++ List.replicate d.exponent.toNat '0'
  else
    let places := (-d.exponent).toNat
    if places < digits.length then
      digits.take (digits.length - places) ++ '.' :: digits.drop (digits.length - places)
    else '0' :: '.' :: (List.replicate (places - digits.length) '0' ++ digits)

/-- The power of ten of the leading digit. -/
def Decimal.magnitude (d : Decimal) : Int :=
  d.exponent + (digitsOf d.digits).length - 1

/-- One digit before the point and a signed power of ten behind. -/
def Decimal.scientific (d : Decimal) : List Char :=
  let power := 'e' :: (if d.magnitude < 0 then '-' else '+') :: digitsOf d.magnitude.natAbs
  match digitsOf d.digits with
  | lead :: [] => lead :: power
  | lead :: rest => lead :: '.' :: (rest ++ power)
  | [] => power

/-- The sign of a number as it is written; only a minus shows. -/
def signText (negative : Bool) : List Char :=
  if negative then ['-'] else []

/-- The plain form of a finite number. A tie between two shortest decimals goes up. -/
def Finite.plain (x : Finite) : List Char :=
  signText x.negative ++ (x.shortest .up).positional

/-- The plain form of any number. -/
def plain : Number → List Char
  | .nan => ['N', 'a', 'N']
  | .infinite negative => signText negative ++ ['i', 'n', 'f']
  | .finite x => x.plain

/-- The plain form as a string. -/
def plainText (x : Number) : String :=
  String.ofList x.plain

/-- The document form of a finite number. A tie between two shortest decimals goes to even. -/
def Finite.document (x : Finite) : List Char :=
  let d := x.shortest .toEven
  let body :=
    if d.digits = 0 then ['0', '.', '0']
    else if -5 ≤ d.magnitude ∧ d.magnitude < 16 then
      if 0 ≤ d.exponent then d.positional ++ ['.', '0'] else d.positional
    else d.scientific
  signText x.negative ++ body

/-! ### Examples of the two forms -/

example : (read? "0.1".toList).map plain = some "0.1".toList := by decide +kernel

example : (read? "1e21".toList).map plain = some "1000000000000000000000".toList := by
  decide +kernel

example : (read? "-0.0".toList).map plain = some "-0".toList := by decide +kernel

example : ((ofString? "1e15").bind finite?).map Finite.document =
    some "1000000000000000.0".toList := by decide +kernel

example : ((ofString? "1e16").bind finite?).map Finite.document =
    some "1e+16".toList := by decide +kernel

example : ((ofString? "0.00001").bind finite?).map Finite.document =
    some "0.00001".toList := by decide +kernel

example : ((ofString? "0.000001").bind finite?).map Finite.document =
    some "1e-6".toList := by decide +kernel

end DecisionCompiler.Number
