import DecisionCompiler.Number.Basic

/-!
Rounding an exact quotient to binary64, to nearest with ties to even.

`nearestRank num den` is the rank of the magnitude closest to `num / den` units of `2 ^ -1074`. A
quotient of at most 53 bits is rounded to a whole number of units, a longer one to 53 bits; in both
cases the rank is the rounded significand plus `2 ^ 52` for each bit dropped, and a significand that
rounds up to `2 ^ 53` lands on the first rank of the next run by itself. Quotients whose rank is
past the last magnitude become infinite.
-/

namespace DecisionCompiler.Number

/-- The whole number nearest to `num / den`; of two equally near ones the even one. -/
def divNearest (num den : Nat) : Nat :=
  let quotient := num / den
  let remainder := num % den
  if 2 * remainder < den then quotient
  else if den < 2 * remainder then quotient + 1
  else if quotient % 2 = 0 then quotient
  else quotient + 1

/-- The rank of the binary64 magnitude nearest to `num / den` units, counted on past the last
magnitude as if the exponents did not end. -/
def nearestRank (num den : Nat) : Nat :=
  let dropped := (num / den).log2 + 1 - 53
  dropped * 2 ^ 52 + divNearest num (den * 2 ^ dropped)

/-- The number nearest to `num / den` units of `2 ^ -1074`, with the given sign. -/
def ofUnits (negative : Bool) (num den : Nat) : Number :=
  if h : nearestRank num den < magnitudes then .finite ⟨negative, ⟨nearestRank num den, h⟩⟩
  else .infinite negative

/-- The number nearest to `digits * 10 ^ exponent`, with the given sign.

The two shortcuts only avoid large powers: digits that are not zero, times `10 ^ 400` or more, are
past every magnitude, and `2 ^ (digits.log2 + 1)`, which bounds the digits, over a power of ten that
is 400 places longer is nearer to zero than to anything else. -/
def ofDecimal (negative : Bool) (digits : Nat) (exponent : Int) : Number :=
  if digits = 0 then .finite (.zero negative)
  else if 400 ≤ exponent then .infinite negative
  else if exponent < -((digits.log2 : Int) + 400) then .finite (.zero negative)
  else ofUnits negative (digits * 10 ^ exponent.toNat * 2 ^ 1074) (10 ^ (-exponent).toNat)

/-- The number nearest to a whole number; zero is positive. -/
def ofInt (n : Int) : Number :=
  ofDecimal (n < 0) n.natAbs 0

end DecisionCompiler.Number
