import DecisionCompiler.Json.Quoted
import DecisionCompiler.Number.Numeral

/-!
Numbers of JSON texts.

A number is an optional minus, a whole part without superfluous zeros, an optional fraction and an
optional exponent. Without fraction and exponent it is an integer as far as 64 bits reach; minus
zero is not one. A number too large for binary64 can be passed over but not read.
-/

namespace DecisionCompiler.Json

/-- A number as it is written. -/
structure WrittenNumber where
  negative : Bool
  whole : List Char
  fraction : Option (List Char)
  exponent : Option Int

/-- Reads at least one digit. -/
def readDigits (text : List Char) : Except Fault (List Char × List Char) :=
  let (digits, rest) := Number.splitDigits text
  if digits.isEmpty then .error (.at rest) else .ok (digits, rest)

/-- Reads the whole part: one zero, or digits that do not begin with one. -/
def readWhole (text : List Char) : Except Fault (List Char × List Char) :=
  match readDigits text with
  | .ok ('0' :: _ :: _, _) => .error .malformed
  | result => result

/-- Reads the fraction, if a point stands next. -/
def readFraction : List Char → Except Fault (Option (List Char) × List Char)
  | '.' :: rest => (readDigits rest).map fun (digits, rest) => (some digits, rest)
  | rest => .ok (none, rest)

/-- Reads the exponent, if its mark stands next. -/
def readExponent : List Char → Except Fault (Option Int × List Char)
  | [] => .ok (none, [])
  | mark :: rest =>
    if mark = 'e' ∨ mark = 'E' then
      let (negative, rest) := Number.splitSign rest
      (readDigits rest).map fun (digits, rest) =>
        (some (Number.signedValue negative digits), rest)
    else .ok (none, mark :: rest)

/-- Splits a number off. -/
def scanNumber (text : List Char) : Except Fault (WrittenNumber × List Char) := do
  let (negative, rest) : Bool × List Char :=
    match text with
    | '-' :: rest => (true, rest)
    | rest => (false, rest)
  let (whole, rest) ← readWhole rest
  let (fraction, rest) ← readFraction rest
  let (exponent, rest) ← readExponent rest
  return (⟨negative, whole, fraction, exponent⟩, rest)

/-- The integers that fit 64 bits, signed or unsigned. -/
def fitsInteger (n : Int) : Bool :=
  -2 ^ 63 ≤ n && n < 2 ^ 64

/-- The binary64 number of a written one, which is the one nearest to what is written. A reader may
be content with a number close by; that it reads digits exactly, so that a number that is written
comes back, is assumed of it here. -/
def WrittenNumber.toNumber (w : WrittenNumber) : Number :=
  let fraction := w.fraction.getD []
  .ofDecimal w.negative (Number.digitsValue (w.whole ++ fraction))
    (w.exponent.getD 0 - fraction.length)

/-- The numeral of a written number; there is none beyond the finite numbers. -/
def WrittenNumber.numeral? (w : WrittenNumber) : Option Numeral :=
  let n := Number.signedValue w.negative w.whole
  if w.fraction.isNone ∧ w.exponent.isNone ∧ fitsInteger n ∧ ¬(w.negative ∧ n = 0) then
    some (.integer n)
  else w.toNumber.finite?.map .real

/-- Reads a number. -/
def readNumber (text : List Char) : Except Fault (Numeral × List Char) :=
  match scanNumber text with
  | .error fault => .error fault
  | .ok (w, rest) =>
    match w.numeral? with
    | some n => .ok (n, rest)
    | none => .error .malformed

/-- Passes over a number. One that is cut short counts as malformed here, since what is passed over
is only checked for its form. -/
def passNumber (text : List Char) : Except Fault (List Char) :=
  match scanNumber text with
  | .error _ => .error .malformed
  | .ok (_, rest) => .ok rest

end DecisionCompiler.Json
