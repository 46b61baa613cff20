import DecisionCompiler.Number.Shortest

/-!
The shortest decimal of a number reads back as the number.

Rounding gives back what is exact: a whole number of units that is the magnitude of a rank, or less
than half a step past it, rounds to that rank (`nearestRank_of_close`), and neither a common factor
of a quotient (`nearestRank_mul`) nor zeros moved between the digits and the exponent of a decimal
(`ofDecimal_shift`) change what is read. The search for the shortest decimal only ever takes points
that read back, and it ends with the exact expansion, which does; so whatever the search finds, it
reads back (`shortest_readsBack`).
-/

namespace DecisionCompiler.Number

/-! ### Rounding -/

theorem divNearest_mul {num den k : Nat} (positive : 0 < k) :
    divNearest (num * k) (den * k) = divNearest num den := by
  have scale (a b : Nat) : a * k < b * k ↔ a < b := Nat.mul_lt_mul_right positive
  rw [divNearest, divNearest, Nat.mul_div_mul_right _ _ positive, Nat.mul_mod_mul_right,
    ← Nat.mul_assoc]
  simp only [scale]

/-- A common factor does not change what a quotient rounds to. -/
theorem nearestRank_mul {num den k : Nat} (positive : 0 < k) :
    nearestRank (num * k) (den * k) = nearestRank num den := by
  rw [nearestRank, nearestRank, Nat.mul_div_mul_right _ _ positive, Nat.mul_right_comm den k,
    divNearest_mul positive]

/-- A remainder of less than half the divisor is dropped. -/
theorem divNearest_of_lt {den quotient past : Nat} (close : 2 * past < den) :
    divNearest (quotient * den + past) den = quotient := by
  have less : past < den := by omega
  have positive : 0 < den := Nat.zero_lt_of_lt less
  have remainder : (quotient * den + past) % den = past := by
    rw [Nat.mul_add_mod_self_right, Nat.mod_eq_of_lt less]
  have whole : (quotient * den + past) / den = quotient := by
    rw [Nat.add_comm, Nat.add_mul_div_right _ _ positive, Nat.div_eq_of_lt less, Nat.zero_add]
  rw [divNearest, remainder, whole, if_pos close]

/-- From `2 ^ 52` on, the run of a rank says how many bits its magnitude has, and every whole number
of units before the next rank has as many. -/
theorem log2_of_run {rank q : Nat} (large : 2 ^ 52 ≤ rank) (above : unitsOfRank rank ≤ q)
    (below : q < unitsOfRank rank + 2 ^ (rank / 2 ^ 52 - 1)) :
    q.log2 = 52 + (rank / 2 ^ 52 - 1) := by
  rw [unitsOfRank, if_neg (Nat.not_lt.mpr large)] at above below
  have significand : 2 ^ 52 ≤ 2 ^ 52 + rank % 2 ^ 52 ∧ 2 ^ 52 + rank % 2 ^ 52 + 1 ≤ 2 ^ 53 := by
    omega
  generalize rank / 2 ^ 52 - 1 = run at above below ⊢
  generalize 2 ^ 52 + rank % 2 ^ 52 = s at above below significand
  rw [← Nat.succ_mul] at below
  have least : 2 ^ 52 * 2 ^ run ≤ q := Nat.le_trans (Nat.mul_le_mul_right _ significand.1) above
  have past : q < 2 ^ 53 * 2 ^ run :=
    Nat.lt_of_lt_of_le below (Nat.mul_le_mul_right _ significand.2)
  have nonzero : q ≠ 0 := by
    have : 0 < 2 ^ 52 * 2 ^ run := Nat.mul_pos (by decide) (Nat.two_pow_pos run)
    omega
  rw [Nat.log2_eq_iff nonzero, Nat.add_right_comm, Nat.pow_add, Nat.pow_add]
  exact ⟨least, past⟩

/-- A whole number of units rounds down to the rank whose magnitude it is past by less than half the
step to the next one. -/
theorem nearestRank_of_close {rank q : Nat} (above : unitsOfRank rank ≤ q)
    (close : 2 * (q - unitsOfRank rank) < 2 ^ (rank / 2 ^ 52 - 1)) : nearestRank q 1 = rank := by
  rw [nearestRank, Nat.div_one, Nat.one_mul]
  by_cases small : rank < 2 ^ 52
  · have run : rank / 2 ^ 52 - 1 = 0 := by omega
    rw [run, unitsOfRank, if_pos small] at close
    rw [unitsOfRank, if_pos small] at above
    obtain rfl : q = rank := by omega
    have short : q.log2 + 1 - 53 = 0 := by
      by_cases zero : q = 0
      · rw [zero]
        rfl
      · have := (Nat.log2_lt zero).mpr small
        omega
    have exact : divNearest (q * 1 + 0) 1 = q := divNearest_of_lt Nat.one_pos
    rw [Nat.add_zero, Nat.mul_one] at exact
    rw [short, Nat.pow_zero, exact, Nat.zero_mul, Nat.zero_add]
  · have large : 2 ^ 52 ≤ rank := Nat.not_lt.mp small
    rw [log2_of_run large above (by omega)]
    rw [unitsOfRank, if_neg small] at above close
    have split : rank = (rank / 2 ^ 52 - 1) * 2 ^ 52 + (2 ^ 52 + rank % 2 ^ 52) := by omega
    generalize rank / 2 ^ 52 - 1 = run at above close split ⊢
    generalize 2 ^ 52 + rank % 2 ^ 52 = s at above close split
    obtain ⟨past, rfl⟩ := Nat.exists_eq_add_of_le above
    rw [Nat.add_sub_cancel_left] at close
    rw [show 52 + run + 1 - 53 = run by omega, divNearest_of_lt (by omega)]
    exact split.symm

/-- The magnitude of a rank rounds to the rank. -/
theorem nearestRank_unitsOfRank (rank : Nat) : nearestRank (unitsOfRank rank) 1 = rank := by
  refine nearestRank_of_close (Nat.le_refl _) ?_
  rw [Nat.sub_self]
  exact Nat.two_pow_pos _

theorem unitsOfRank_eq_zero_iff {rank : Nat} : unitsOfRank rank = 0 ↔ rank = 0 := by
  rw [unitsOfRank]
  split
  · exact Iff.rfl
  · have positive : 0 < 2 ^ (rank / 2 ^ 52 - 1) := Nat.two_pow_pos _
    have : (2 ^ 52 + rank % 2 ^ 52) * 2 ^ (rank / 2 ^ 52 - 1) ≠ 0 :=
      Nat.mul_ne_zero (by omega) (Nat.ne_of_gt positive)
    omega

theorem Finite.eq_zero_of_units {x : Finite} (h : x.units = 0) : x = .zero x.negative := by
  obtain ⟨negative, rank, bounded⟩ := x
  obtain rfl : rank = 0 := unitsOfRank_eq_zero_iff.mp h
  rfl

theorem ofUnits_mul (negative : Bool) (num den : Nat) {k : Nat} (positive : 0 < k) :
    ofUnits negative (num * k) (den * k) = ofUnits negative num den := by
  simp only [ofUnits, nearestRank_mul positive]

/-- A quotient that is exact is read as the number with that many units. -/
theorem ofUnits_exact (x : Finite) {den : Nat} (positive : 0 < den) :
    ofUnits x.negative (x.units * den) den = .finite x := by
  have exact : nearestRank (x.units * den) den = x.rank := by
    rw [← Nat.one_mul den, ← Nat.mul_assoc, Nat.mul_one, nearestRank_mul positive]
    exact nearestRank_unitsOfRank x.rank
  have bounded : nearestRank (x.units * den) den < magnitudes := exact ▸ x.rank.isLt
  have same : (⟨nearestRank (x.units * den) den, bounded⟩ : Fin magnitudes) = x.rank :=
    Fin.ext exact
  rw [ofUnits, dif_pos bounded, same]

/-! ### Decimals -/

theorem ofDecimal_zero (negative : Bool) (exponent : Int) :
    ofDecimal negative 0 exponent = .finite (.zero negative) :=
  if_pos rfl

/-- What a decimal that is neither zero nor out of reach is read as. -/
theorem ofDecimal_eq_ofUnits (negative : Bool) {digits : Nat} {exponent : Int} (some : digits ≠ 0)
    (below : exponent < 400) (above : -((digits.log2 : Int) + 400) ≤ exponent) :
    ofDecimal negative digits exponent =
      ofUnits negative (digits * 10 ^ exponent.toNat * 2 ^ 1074) (10 ^ (-exponent).toNat) :=
  (if_neg some).trans ((if_neg (by omega)).trans (if_neg (by omega)))

/-- Zeros may be moved from the exponent of a decimal behind its digits. -/
theorem ofDecimal_shift (negative : Bool) (digits : Nat) {exponent : Int} (whole : 0 ≤ exponent)
    (below : exponent < 400) (places : Nat) :
    ofDecimal negative (digits * 10 ^ places) (exponent - places) =
      ofDecimal negative digits exponent := by
  rcases Nat.eq_zero_or_pos digits with rfl | positive
  · rw [Nat.zero_mul, ofDecimal_zero, ofDecimal_zero]
  · have power : 0 < 10 ^ places := Nat.pow_pos (by decide)
    have shifted : digits * 10 ^ places ≠ 0 := Nat.ne_of_gt (Nat.mul_pos positive power)
    have long : places ≤ (digits * 10 ^ places).log2 := by
      refine (Nat.le_log2 shifted).mpr ?_
      calc 2 ^ places ≤ 10 ^ places := Nat.pow_le_pow_left (by decide) places
        _ ≤ digits * 10 ^ places := Nat.le_mul_of_pos_left _ positive
    rw [ofDecimal_eq_ofUnits negative shifted (by omega) (by omega),
      ofDecimal_eq_ofUnits negative (Nat.ne_of_gt positive) below (by omega)]
    -- What the exponent lacks for the places becomes a common factor of the quotient.
    generalize 2 ^ 1074 = unit
    obtain ⟨e, rfl⟩ := Int.eq_ofNat_of_zero_le whole
    generalize lacking : (-((e : Int) - places)).toNat = lack
    have moved : places + ((e : Int) - places).toNat = e + lack := by omega
    have num : digits * 10 ^ places * 10 ^ ((e : Int) - places).toNat * unit =
        digits * 10 ^ e * unit * 10 ^ lack := by
      rw [Nat.mul_assoc digits, ← Nat.pow_add, moved, Nat.pow_add, ← Nat.mul_assoc,
        Nat.mul_right_comm]
    have den : (10 : Nat) ^ (-(e : Int)).toNat = 1 := by
      rw [show (-(e : Int)).toNat = 0 by omega, Nat.pow_zero]
    have factored := ofUnits_mul negative (digits * 10 ^ e * unit) 1
      (Nat.pow_pos (by decide) : 0 < 10 ^ lack)
    rw [Nat.one_mul] at factored
    rw [num, den, Int.toNat_natCast, factored]

/-! ### The search -/

section Search

variable {x : Finite} {tie : Tie} {d : Decimal}

/-- The exact expansion of a number reads back. -/
theorem expansion_readsBack (some : x.units ≠ 0) : x.ReadsBack x.expansion := by
  have unit (n : Nat) : x.units * 5 ^ n * 10 ^ 0 * 2 ^ n = x.units * 10 ^ n := by
    rw [Nat.pow_zero, Nat.mul_one, Nat.mul_assoc, ← Nat.mul_pow]
  have positive (n : Nat) : x.units * 5 ^ n ≠ 0 :=
    Nat.mul_ne_zero some (Nat.ne_of_gt (Nat.pow_pos (by decide)))
  have long (n : Nat) : n ≤ (x.units * 5 ^ n).log2 :=
    (Nat.le_log2 (positive n)).mpr
      (Nat.le_trans (Nat.pow_le_pow_left (by decide) n)
        (Nat.le_mul_of_pos_left _ (Nat.pos_of_ne_zero some)))
  have above : -(((x.units * 5 ^ 1074).log2 : Int) + 400) ≤ -1074 := by
    have := long 1074
    omega
  have read := ofDecimal_eq_ofUnits x.negative (positive 1074) (by decide) above
  have places : (-1074 : Int).toNat = 0 ∧ (-(-1074 : Int)).toNat = 1074 := ⟨rfl, rfl⟩
  rw [places.1, places.2, unit 1074] at read
  refine read.trans ?_
  generalize 1074 = n
  exact ofUnits_exact x (Nat.pow_pos (by decide))

theorem nearer_eq_or (tie : Tie) (num den : Nat) :
    tie.nearer num den = num / den ∨ tie.nearer num den = num / den + 1 := by
  unfold Tie.nearer
  dsimp only
  split
  · exact .inl rfl
  · split
    · exact .inr rfl
    · cases tie with
      | up => exact .inr rfl
      | toEven =>
        dsimp only
        split
        · exact .inl rfl
        · exact .inr rfl

/-- A point of a grid is only taken if it reads back. -/
theorem onGrid?_readsBack {place : Int} (taken : x.onGrid? tie place = some d) :
    x.ReadsBack d := by
  unfold Finite.onGrid? at taken
  generalize x.overPlace place = quotient at taken
  obtain ⟨num, den⟩ := quotient
  dsimp only at taken
  split at taken
  · rename_i below
    split at taken
    · rename_i above
      obtain rfl := Option.some.inj taken
      rcases nearer_eq_or tie num den with lower | upper
      · rw [lower]
        exact below.2
      · rw [upper]
        exact above
    · obtain rfl := Option.some.inj taken
      exact below.2
  · split at taken
    · rename_i above
      obtain rfl := Option.some.inj taken
      exact above
    · exact nomatch taken

theorem searchFrom_readsBack (some : x.units ≠ 0) (tries : Nat) (place : Int) :
    x.ReadsBack (x.searchFrom tie tries place) := by
  induction tries generalizing place with
  | zero => exact expansion_readsBack some
  | succ tries ih =>
    rw [Finite.searchFrom]
    cases taken : x.onGrid? tie place with
    | none => exact ih (place - 1)
    | some d => exact onGrid?_readsBack taken

/-- **The shortest decimal of a number reads back as the number.** -/
theorem shortest_readsBack (x : Finite) (tie : Tie) : x.ReadsBack (x.shortest tie) := by
  unfold Finite.shortest
  split
  · rename_i zero
    rw [Finite.ReadsBack, ofDecimal_zero, ← Finite.eq_zero_of_units zero]
  · rename_i some
    exact searchFrom_readsBack some 24 x.topPlace

theorem eq_zero_of_readsBack (back : x.ReadsBack d) (zero : d.digits = 0) :
    x = .zero x.negative := by
  rw [Finite.ReadsBack, zero, ofDecimal_zero] at back
  exact (Number.finite.inj back).symm

/-- The shortest decimal of zero is `0`, and that of another number has digits. -/
theorem shortest_eq_zero (zero : (x.shortest tie).digits = 0) : x.shortest tie = ⟨0, 0⟩ := by
  have same := eq_zero_of_readsBack (shortest_readsBack x tie) zero
  have units : x.units = 0 := by
    rw [same]
    exact unitsOfRank_eq_zero_iff.mpr rfl
  exact if_pos units

/-- A decimal that reads back as a finite number is within reach. -/
theorem exponent_lt_of_readsBack (back : x.ReadsBack d) (some : d.digits ≠ 0) :
    d.exponent < 400 := by
  rw [← Int.not_le]
  intro beyond
  have infinite : ofDecimal x.negative d.digits d.exponent = .infinite x.negative :=
    (if_neg some).trans (if_pos beyond)
  exact nomatch back.symm.trans infinite

end Search

end DecisionCompiler.Number
