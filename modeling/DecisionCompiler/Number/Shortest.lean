import DecisionCompiler.Number.Rounding

/-!
The shortest decimal that reads back as a given number.

Every grid of multiples of a power of ten is tried, from coarse to fine, until one of the two
points around the number reads back as the number; the coarsest such grid gives the fewest digits,
and of two points that both read back the nearer one is taken. How a tie between them goes is left
to the format that asks. The exact expansion of the number ends the search, so that what is selected
reads back whatever the search found.
-/

namespace DecisionCompiler.Number

/-- A decimal magnitude, `digits * 10 ^ exponent`. -/
structure Decimal where
  digits : Nat
  exponent : Int
deriving DecidableEq

/-- Which of two equally near decimals of the same length a format writes. -/
inductive Tie where
  | toEven
  | up
deriving DecidableEq

/-- The decimal reads back as the magnitude of the number. -/
def Finite.ReadsBack (x : Finite) (d : Decimal) : Prop :=
  ofDecimal x.negative d.digits d.exponent = .finite x

instance (x : Finite) (d : Decimal) : Decidable (x.ReadsBack d) :=
  inferInstanceAs (Decidable (_ = _))

/-- The magnitude with all its digits. -/
def Finite.expansion (x : Finite) : Decimal :=
  ⟨x.units * 5 ^ 1074, -1074⟩

/-- The magnitude over `10 ^ place` as a fraction. -/
def Finite.overPlace (x : Finite) (place : Int) : Nat × Nat :=
  (x.units * 10 ^ (-place).toNat, 2 ^ 1074 * 10 ^ place.toNat)

/-- Of the points below and above a fraction, the nearer one. -/
def Tie.nearer (tie : Tie) (num den : Nat) : Nat :=
  let below := num / den
  let past := 2 * (num % den)
  if past < den then below
  else if den < past then below + 1
  else
    match tie with
    | .up => below + 1
    | .toEven => if below % 2 = 0 then below else below + 1

/-- The point of the grid of `10 ^ place` to write for the number: the nearer of its two neighbours
if both read back, the one that does if only one does. Zero is no point to write. -/
def Finite.onGrid? (tie : Tie) (x : Finite) (place : Int) : Option Decimal :=
  let (num, den) := x.overPlace place
  let below : Decimal := ⟨num / den, place⟩
  let above : Decimal := ⟨num / den + 1, place⟩
  if below.digits ≠ 0 ∧ x.ReadsBack below then
    if x.ReadsBack above then some ⟨tie.nearer num den, place⟩ else some below
  else if x.ReadsBack above then some above
  else none

/-- Tries the given number of grids, each ten times as fine as the one before. -/
def Finite.searchFrom (tie : Tie) (x : Finite) : Nat → Int → Decimal
  | 0, _ => x.expansion
  | tries + 1, place => (x.onGrid? tie place).getD (x.searchFrom tie tries (place - 1))

/-- A place that no grid coarser than it can serve: the magnitude is below `10 ^ place`. -/
def Finite.topPlace (x : Finite) : Int :=
  ((x.units.log2 : Int) + 1 - 1074) * 30103 / 100000 + 1

/-- The shortest decimal that reads back as the number; zero is `0`. Seventeen digits always
suffice, and the first grid is at most three places too coarse. -/
def Finite.shortest (tie : Tie) (x : Finite) : Decimal :=
  if x.units = 0 then ⟨0, 0⟩ else x.searchFrom tie 24 x.topPlace

end DecisionCompiler.Number
