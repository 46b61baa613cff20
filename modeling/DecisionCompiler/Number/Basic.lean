/-!
Binary64 numbers as exact data.

A finite number is a sign and the *rank* of its magnitude: the magnitudes of binary64, listed in
ascending order, are numbered from zero, so that the rank is what the format stores below the sign
bit. Every magnitude is a whole number of units of `2 ^ -1074`, the least positive one, which makes
comparison a comparison of integers. Two finite numbers are equal as data exactly when they are
equal bit for bit; `Number.Finite.scaled` is the view under which zero and negative zero agree.
-/

-- Powers of whole numbers are those of the core library, whatever else is imported.
attribute [default_instance 20000, instance (2000)] instPowNat

namespace DecisionCompiler

/-- How many finite magnitudes binary64 has: 2047 exponents with `2 ^ 52` fractions each. -/
def Number.magnitudes : Nat := 2047 * 2 ^ 52

/-- A finite binary64 number: its sign and the rank of its magnitude. -/
structure Number.Finite where
  negative : Bool
  rank : Fin Number.magnitudes
deriving DecidableEq

/-- A binary64 number. All values that are not numbers count as one. -/
inductive Number where
  | nan
  | infinite (negative : Bool)
  | finite (x : Number.Finite)
deriving DecidableEq

namespace Number

/-- The magnitude of a rank in units of `2 ^ -1074`. Below `2 ^ 52` the ranks are the magnitudes
themselves; from there each run of `2 ^ 52` ranks doubles the step of the run before it. -/
def unitsOfRank (rank : Nat) : Nat :=
  if rank < 2 ^ 52 then rank else (2 ^ 52 + rank % 2 ^ 52) * 2 ^ (rank / 2 ^ 52 - 1)

namespace Finite

/-- Zero with the given sign. -/
def zero (negative : Bool) : Finite :=
  ⟨negative, ⟨0, by decide⟩⟩

instance : Inhabited Finite := ⟨zero false⟩

/-- The magnitude in units of `2 ^ -1074`. -/
def units (x : Finite) : Nat :=
  unitsOfRank x.rank

/-- The number in units of `2 ^ -1074`, sign included; both zeros are `0`. -/
def scaled (x : Finite) : Int :=
  if x.negative then -(x.units : Int) else x.units

/-- The order of the numbers, under which both zeros are alike. -/
instance : LT Finite := ⟨fun x y => x.scaled < y.scaled⟩

instance : LE Finite := ⟨fun x y => x.scaled ≤ y.scaled⟩

instance (x y : Finite) : Decidable (x < y) :=
  inferInstanceAs (Decidable (x.scaled < y.scaled))

instance (x y : Finite) : Decidable (x ≤ y) :=
  inferInstanceAs (Decidable (x.scaled ≤ y.scaled))

/-- Two numbers denote the same point of the line; zero and negative zero do. -/
def Same (x y : Finite) : Prop :=
  x.scaled = y.scaled

instance (x y : Finite) : Decidable (x.Same y) :=
  inferInstanceAs (Decidable (x.scaled = y.scaled))

end Finite

/-- The finite number, if it is one. -/
def finite? : Number → Option Finite
  | .finite x => some x
  | _ => none

end Number

end DecisionCompiler
