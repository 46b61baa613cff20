import DecisionCompiler.Proofs.Number.Layout
import DecisionCompiler.Proofs.Number.Rational

/-!
Whole numbers show no fraction.

The search for the shortest decimal of a number starts far above its digits and ends twenty-three
places further down. For a whole number it stops before it gets behind the point: either the grid of
the whole numbers is among those that are tried, and the number is a point of it
(`onGrid?_of_units`), or the last grid that is tried is still so fine that the next point past the
number is nearer to it than any other number (`onGrid?_of_fine`). So the shortest decimal has no
negative exponent (`exponent_shortest_of_whole`), and the plain form no point
(`point_not_mem_plain`).
-/

namespace DecisionCompiler.Number

/-- The number is a whole number. -/
def Finite.Whole (x : Finite) : Prop :=
  ∃ n : ℤ, x.toRat = n

theorem Finite.Whole.units {x : Finite} (whole : x.Whole) : ∃ k, x.units = k * 2 ^ 1074 := by
  obtain ⟨n, value⟩ := whole
  rw [Finite.toRat] at value
  generalize 1074 = e at value ⊢
  have unit : (2 : ℚ) ^ e ≠ 0 := by positivity
  rw [div_eq_iff unit] at value
  have scaled : x.scaled = n * 2 ^ e := by exact_mod_cast value
  refine ⟨n.natAbs, ?_⟩
  have magnitude : x.units = x.scaled.natAbs := by
    unfold Finite.scaled
    split <;> simp
  rw [magnitude, scaled, Int.natAbs_mul, Int.natAbs_pow]
  rfl

/-! ### The grids that are tried -/

section Search

variable {x : Finite} {tie : Tie} {d : Decimal} {place top : Int}

/-- A point of a grid is written with the place of the grid. -/
theorem exponent_of_onGrid? (taken : x.onGrid? tie place = some d) : d.exponent = place := by
  unfold Finite.onGrid? at taken
  generalize x.overPlace place = quotient at taken
  dsimp only at taken
  split at taken
  · split at taken
    · obtain rfl := Option.some.inj taken
      rfl
    · obtain rfl := Option.some.inj taken
      rfl
  · split at taken
    · obtain rfl := Option.some.inj taken
      rfl
    · exact nomatch taken

/-- A grid has a point to write if the one below the number is not zero and reads back, or the one
above reads back. -/
theorem isSome_onGrid? {num den : Nat} (quotient : x.overPlace place = (num, den))
    (back : num / den ≠ 0 ∧ x.ReadsBack ⟨num / den, place⟩ ∨ x.ReadsBack ⟨num / den + 1, place⟩) :
    (x.onGrid? tie place).isSome := by
  unfold Finite.onGrid?
  rw [quotient]
  dsimp only
  split
  · split <;> rfl
  · rename_i notBelow
    rw [if_pos (back.resolve_left notBelow)]
    rfl

/-- The search gets no further than the first grid that has a point to write. -/
theorem le_exponent_searchFrom {tries : Nat} (hit : (x.onGrid? tie place).isSome)
    (started : place ≤ top) (reached : top < place + tries) :
    place ≤ (x.searchFrom tie tries top).exponent := by
  induction tries generalizing top with
  | zero => omega
  | succ tries ih =>
    rw [Finite.searchFrom]
    cases taken : x.onGrid? tie top with
    | some d =>
      rw [Option.getD_some, exponent_of_onGrid? taken]
      exact started
    | none =>
      have passed : top ≠ place := by
        rintro rfl
        rw [taken] at hit
        cases hit
      exact ih (by omega) (by omega)

/-! ### Grids that serve -/

/-- A decimal without a fraction is read as a whole number of units. -/
theorem readsBack_of_nearestRank {digits power : Nat} (some : digits ≠ 0) (below : power < 400)
    (nearest : nearestRank (digits * 10 ^ power * 2 ^ 1074) 1 = x.rank) :
    x.ReadsBack ⟨digits, power⟩ := by
  have read := ofDecimal_eq_ofUnits x.negative some (by omega : (power : Int) < 400) (by omega)
  have den : (-(power : Int)).toNat = 0 := by omega
  rw [den, Nat.pow_zero, Int.toNat_natCast] at read
  rw [Finite.ReadsBack, read, ofUnits]
  have bounded : nearestRank (digits * 10 ^ power * 2 ^ 1074) 1 < magnitudes := by
    rw [nearest]
    exact x.rank.isLt
  rw [dif_pos bounded]
  congr 2
  exact Fin.ext nearest

/-- A grid of whole numbers counts the number in steps of its own. -/
theorem overPlace_natCast (x : Finite) (power : Nat) :
    x.overPlace power = (x.units, 2 ^ 1074 * 10 ^ power) := by
  have inverse : (-(power : Int)).toNat = 0 := by omega
  rw [Finite.overPlace, inverse, Nat.pow_zero, Nat.mul_one, Int.toNat_natCast]

/-- A whole number is a point of the grid of the whole numbers. -/
theorem onGrid?_of_units {k : Nat} (units : x.units = k * 2 ^ 1074) (some : k ≠ 0) :
    (x.onGrid? tie 0).isSome := by
  have positive := Nat.two_pow_pos 1074
  have point : x.units / (2 ^ 1074 * 10 ^ 0) = k := by
    generalize 2 ^ 1074 = unit at units positive ⊢
    rw [units, Nat.pow_zero, Nat.mul_one, Nat.mul_div_cancel _ positive]
  refine isSome_onGrid? (overPlace_natCast x 0) (.inl ?_)
  rw [point]
  refine ⟨some, readsBack_of_nearestRank some (by decide : 0 < 400) ?_⟩
  rw [Nat.pow_zero, Nat.mul_one, ← units]
  exact nearestRank_unitsOfRank x.rank

/-- Three powers of ten are less than ten powers of two. -/
theorem ten_pow_lt_two_pow {p n : Nat} (less : 10 * p < 3 * n) : 10 ^ p < 2 ^ n := by
  have cubes : (10 ^ p) ^ 3 < (2 ^ n) ^ 3 := by
    calc (10 ^ p) ^ 3 = 1000 ^ p := by rw [Nat.pow_right_comm]
      _ ≤ 1024 ^ p := Nat.pow_le_pow_left (by decide) p
      _ = 2 ^ (10 * p) := by rw [Nat.pow_mul]
      _ < 2 ^ (3 * n) := Nat.pow_lt_pow_right (by decide) less
      _ = (2 ^ n) ^ 3 := by rw [Nat.mul_comm, Nat.pow_mul]
  exact lt_of_pow_lt_pow_left₀ 3 (Nat.zero_le _) cubes

/-- A grid that is finer than half the step of the numbers around has a point for each of them. -/
theorem onGrid?_of_fine {power : Nat} (below : power < 400)
    (fine : 2 * (2 ^ 1074 * 10 ^ power) < 2 ^ ((x.rank : Nat) / 2 ^ 52 - 1)) :
    (x.onGrid? tie power).isSome := by
  refine isSome_onGrid? (overPlace_natCast x power) (.inr ?_)
  refine readsBack_of_nearestRank (Nat.succ_ne_zero _) below ?_
  have unitPositive := Nat.two_pow_pos 1074
  generalize 2 ^ 1074 = unit at fine unitPositive ⊢
  have positive : 0 < unit * 10 ^ power := Nat.mul_pos unitPositive (Nat.pow_pos (by decide))
  rw [Nat.mul_assoc, Nat.mul_comm (10 ^ power)]
  generalize unit * 10 ^ power = step at fine positive ⊢
  -- The point above is past the number, but not by more than one step of the grid.
  have past : x.units < (x.units / step + 1) * step := by
    rw [Nat.mul_comm]
    exact Nat.lt_mul_div_succ x.units positive
  have near : (x.units / step + 1) * step ≤ x.units + step := by
    rw [Nat.succ_mul]
    exact Nat.add_le_add_right (Nat.div_mul_le_self x.units step) step
  have within :
      2 * ((x.units / step + 1) * step - x.units) < 2 ^ ((x.rank : Nat) / 2 ^ 52 - 1) := by
    omega
  exact nearestRank_of_close (Nat.le_of_lt past) within

/-- The last grid that is tried for a number of many digits is fine enough. -/
theorem fine_of_topPlace {power : Nat} (some : x.units ≠ 0) (last : x.topPlace = power + 23) :
    power < 400 ∧ 2 * (2 ^ 1074 * 10 ^ power) < 2 ^ ((x.rank : Nat) / 2 ^ 52 - 1) := by
  rw [Finite.topPlace] at last
  have large : 2 ^ 52 ≤ (x.rank : Nat) := by
    by_contra small
    have units : x.units = x.rank := if_pos (Nat.not_le.mp small)
    have few : x.units.log2 < 52 := by
      rw [Nat.log2_lt some, units]
      exact Nat.not_le.mp small
    omega
  have bits : x.units.log2 = 52 + ((x.rank : Nat) / 2 ^ 52 - 1) :=
    log2_of_run large (Nat.le_refl _) (Nat.lt_add_of_pos_right (Nat.two_pow_pos _))
  have bounded : (x.rank : Nat) < 2047 * 2 ^ 52 := x.rank.isLt
  have runs : (x.rank : Nat) / 2 ^ 52 - 1 < 2046 := by omega
  rw [bits] at last
  generalize (x.rank : Nat) / 2 ^ 52 - 1 = run at last runs ⊢
  obtain ⟨left, split⟩ : ∃ left, run = 1 + 1074 + left := Nat.exists_eq_add_of_le (by omega)
  -- Three places are worth less than ten bits, and the places that have been passed are worth more
  -- than a significand and its half.
  have less : 10 * power < 3 * left := by omega
  refine ⟨by omega, ?_⟩
  rw [split]
  generalize 1074 = e
  calc 2 * (2 ^ e * 10 ^ power) < 2 * (2 ^ e * 2 ^ left) :=
        Nat.mul_lt_mul_of_pos_left (Nat.mul_lt_mul_of_pos_left (ten_pow_lt_two_pow less)
          (Nat.two_pow_pos e)) (by decide)
    _ = 2 ^ (1 + e + left) := by rw [Nat.pow_add, Nat.pow_add, Nat.pow_one, Nat.mul_assoc]

/-- **The shortest decimal of a whole number has no negative exponent.** -/
theorem exponent_shortest_of_whole (tie : Tie) (whole : x.Whole) :
    0 ≤ (x.shortest tie).exponent := by
  obtain ⟨k, units⟩ := whole.units
  unfold Finite.shortest
  split
  · exact Int.le_refl 0
  · rename_i some
    have nonzero : k ≠ 0 := by
      rintro rfl
      generalize 2 ^ 1074 = unit at units
      rw [Nat.zero_mul] at units
      exact some units
    have long : 1074 ≤ x.units.log2 := by
      rw [Nat.le_log2 some, units]
      exact Nat.le_mul_of_pos_left _ (Nat.pos_of_ne_zero nonzero)
    by_cases near : x.topPlace ≤ 23
    · refine le_exponent_searchFrom (onGrid?_of_units units nonzero) ?_ (by omega)
      rw [Finite.topPlace]
      omega
    · obtain ⟨power, last⟩ : ∃ power : Nat, x.topPlace = power + 23 :=
        ⟨(x.topPlace - 23).toNat, by omega⟩
      obtain ⟨below, fine⟩ := fine_of_topPlace some last
      have tried : power ≤ (x.searchFrom tie 24 x.topPlace).exponent :=
        le_exponent_searchFrom (onGrid?_of_fine below fine) (by omega) (by omega)
      exact Int.le_trans (Int.natCast_nonneg power) tried

/-- **The plain form of a whole number has no point.** -/
theorem point_not_mem_plain (whole : x.Whole) : '.' ∉ x.plain := by
  obtain ⟨before, behind, written, positions, _⟩ := positional_eq_pointed (x.shortest .up)
  have exponent := exponent_shortest_of_whole .up whole
  obtain rfl : behind = [] := List.eq_nil_of_length_eq_zero (by rw [positions.places]; omega)
  rw [Finite.plain, written]
  intro point
  rcases List.mem_append.mp point with sign | digit
  · exact point_not_mem_signText x.negative sign
  · exact point_not_mem_of_digital positions.digital (List.mem_append_left _ digit)

end Search

end DecisionCompiler.Number
