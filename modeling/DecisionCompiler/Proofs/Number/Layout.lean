import DecisionCompiler.Number.Layout
import DecisionCompiler.Proofs.Number.Shortest

/-!
Numbers that are written in their plain form and read again.

The positional notation of a decimal is a run of digits with at most one point in it
(`positional_eq_pointed`); the digits on both sides of the point and the number of those behind it
are all that reading looks at. So a finite number in its plain form is read as it was, to the bit
(`read?_plain`), and different finite numbers have different plain forms (`plain_injective`).
-/

namespace DecisionCompiler.Number

/-! ### Runs of digits -/

/-- All characters of the text are decimal digits. -/
def Digital (text : List Char) : Prop :=
  ∀ c ∈ text, c.isDigit = true

theorem digital_append {first second : List Char} :
    Digital (first ++ second) ↔ Digital first ∧ Digital second :=
  List.forall_mem_append

theorem digital_replicate_zero (n : Nat) : Digital (List.replicate n '0') := by
  intro c mem
  rw [List.eq_of_mem_replicate mem]
  rfl

theorem digital_digitsOf (n : Nat) : Digital (digitsOf n) := fun _ mem =>
  Nat.isDigit_of_mem_toDigits (by decide) (by decide) mem

theorem digitsValue_digitsOf (n : Nat) : digitsValue (digitsOf n) = n :=
  Nat.ofDigitChars_ten_toDigits

theorem digitsValue_append (first second : List Char) :
    digitsValue (first ++ second) =
      digitsValue first * 10 ^ second.length + digitsValue second := by
  have joined : digitsValue (first ++ second) = Nat.ofDigitChars 10 second (digitsValue first) :=
    Nat.ofDigitChars_append 0
  rw [joined, Nat.ofDigitChars_eq_ofDigitChars_zero, Nat.mul_comm]
  rfl

theorem digitsValue_replicate_zero (n : Nat) : digitsValue (List.replicate n '0') = 0 :=
  Nat.ofDigitChars_replicate_zero

theorem head?_append {first : List Char} (some : first ≠ []) (second : List Char) :
    (first ++ second).head? = first.head? := by
  cases first with
  | nil => exact absurd rfl some
  | cons c first => rfl

/-- The digits of a number that is not zero begin with another digit than zero. -/
theorem head?_digitsOf {n : Nat} (some : n ≠ 0) : (digitsOf n).head? ≠ Option.some '0' := by
  induction n using Nat.strongRecOn with
  | ind n ih =>
    rw [digitsOf, Nat.toDigits_eq_if (by decide)]
    split
    · intro zero
      exact some (Nat.digitChar_eq_zero.mp (Option.some.inj zero))
    · rw [head?_append Nat.toDigits_ne_nil]
      exact ih (n / 10) (by omega) (by omega)

/-- Zeros behind the digits of a number that is not zero multiply it by powers of ten. -/
theorem digitsOf_mul_pow {n : Nat} (some : n ≠ 0) (places : Nat) :
    digitsOf (n * 10 ^ places) = digitsOf n ++ List.replicate places '0' := by
  induction places with
  | zero => rw [Nat.pow_zero, Nat.mul_one, List.replicate_zero, List.append_nil]
  | succ places ih =>
    have positive : 0 < n * 10 ^ places :=
      Nat.mul_pos (Nat.pos_of_ne_zero some) (Nat.pow_pos (by decide))
    have power : 10 * (n * 10 ^ places) + 0 = n * 10 ^ (places + 1) := by
      rw [Nat.add_zero, Nat.mul_comm, Nat.mul_assoc, ← Nat.pow_succ]
    have last := Nat.toDigits_append_toDigits (by decide : 1 < 10) positive (by decide : 0 < 10)
    rw [power, Nat.toDigits_zero] at last
    calc digitsOf (n * 10 ^ (places + 1)) = digitsOf (n * 10 ^ places) ++ ['0'] := last.symm
      _ = digitsOf n ++ List.replicate (places + 1) '0' := by
        rw [ih, List.append_assoc, List.replicate_succ']

theorem splitDigits_append {digits rest : List Char} (digital : Digital digits)
    (ended : ∀ c ∈ rest.head?, c.isDigit = false) :
    splitDigits (digits ++ rest) = (digits, rest) := by
  have none : rest.takeWhile Char.isDigit = [] ∧ rest.dropWhile Char.isDigit = rest := by
    cases rest with
    | nil => exact ⟨rfl, rfl⟩
    | cons c rest =>
      have other := ended c rfl
      simp [other]
  rw [splitDigits, List.takeWhile_append_of_pos digital, List.dropWhile_append_of_pos digital,
    none.1, none.2, List.append_nil]

theorem splitDigits_eq_self {digits : List Char} (digital : Digital digits) :
    splitDigits digits = (digits, []) := by
  have split : splitDigits (digits ++ []) = (digits, []) := splitDigits_append digital (by simp)
  rwa [List.append_nil] at split

/-! ### Positional notation -/

/-- Digits with a point between the two runs, unless the second one is empty. -/
def pointed (whole : List Char) : List Char → List Char
  | [] => whole
  | c :: fraction => whole ++ '.' :: c :: fraction

theorem pointed_of_ne_nil (whole : List Char) {fraction : List Char} (some : fraction ≠ []) :
    pointed whole fraction = whole ++ '.' :: fraction := by
  cases fraction with
  | nil => exact absurd rfl some
  | cons c fraction => rfl

/-- What a text of digits with a point says: its value as a whole number, and how many of its digits
stand behind the point. -/
structure Positions (whole fraction : List Char) (value places : Nat) : Prop where
  some : whole ≠ []
  digital : Digital (whole ++ fraction)
  value : digitsValue (whole ++ fraction) = value
  places : fraction.length = places

/-- Positional notation writes the digits of a decimal, with zeros where there are none. -/
theorem positional_eq_pointed (d : Decimal) : ∃ whole fraction,
    d.positional = pointed whole fraction ∧
      Positions whole fraction (d.digits * 10 ^ d.exponent.toNat) (-d.exponent).toNat ∧
        (whole = ['0'] ∨ (d.digits ≠ 0 → whole.head? ≠ some '0')) := by
  have digital := digital_digitsOf d.digits
  have nonempty : digitsOf d.digits ≠ [] := Nat.toDigits_ne_nil
  have value := digitsValue_digitsOf d.digits
  have leading : d.digits ≠ 0 → (digitsOf d.digits).head? ≠ some '0' := head?_digitsOf
  unfold Decimal.positional
  dsimp only
  generalize digitsOf d.digits = digits at digital nonempty value leading ⊢
  split
  · rename_i whole
    refine ⟨digits ++ List.replicate d.exponent.toNat '0', [], rfl, ⟨?_, ?_, ?_, ?_⟩,
      .inr fun some => ?_⟩
    · simp [nonempty]
    · rw [List.append_nil]
      exact digital_append.mpr ⟨digital, digital_replicate_zero _⟩
    · rw [List.append_nil, digitsValue_append, digitsValue_replicate_zero, value,
        List.length_replicate, Nat.add_zero]
    · rw [List.length_nil]
      omega
    · rw [head?_append nonempty]
      exact leading some
  · have noPower : d.exponent.toNat = 0 := by omega
    rw [noPower, Nat.pow_zero, Nat.mul_one]
    obtain ⟨behind, places⟩ : ∃ behind, (-d.exponent).toNat = behind + 1 :=
      Nat.exists_eq_add_one.mpr (by omega)
    rw [places]
    split
    · rename_i inside
      have whole : digits.take (digits.length - (behind + 1)) ≠ [] := by
        rw [← List.length_pos_iff, List.length_take]
        omega
      have fraction : digits.drop (digits.length - (behind + 1)) ≠ [] := by
        rw [← List.length_pos_iff, List.length_drop]
        omega
      refine ⟨_, _, (pointed_of_ne_nil _ fraction).symm, ⟨whole, ?_, ?_, ?_⟩, .inr fun some => ?_⟩
      · rwa [List.take_append_drop]
      · rw [List.take_append_drop, value]
      · rw [List.length_drop]
        omega
      · rw [← head?_append whole, List.take_append_drop]
        exact leading some
    · rename_i outside
      have fraction : List.replicate (behind + 1 - digits.length) '0' ++ digits ≠ [] := by
        simp [nonempty]
      refine ⟨['0'], _, (pointed_of_ne_nil ['0'] fraction).symm, ⟨?_, ?_, ?_, ?_⟩, .inl rfl⟩
      · exact List.cons_ne_nil _ _
      · refine digital_append.mpr ⟨digital_replicate_zero 1, ?_⟩
        exact digital_append.mpr ⟨digital_replicate_zero _, digital⟩
      · rw [digitsValue_append, digitsValue_append, digitsValue_replicate_zero, value]
        simp [digitsValue]
      · rw [List.length_append, List.length_replicate]
        omega

/-- Without a fraction, the shortest decimal of a number is written as the digits of its value. -/
theorem positional_shortest {x : Finite} {tie : Tie} (whole : 0 ≤ (x.shortest tie).exponent) :
    (x.shortest tie).positional =
      digitsOf ((x.shortest tie).digits * 10 ^ (x.shortest tie).exponent.toNat) := by
  by_cases zero : (x.shortest tie).digits = 0
  · rw [shortest_eq_zero zero]
    rfl
  · rw [digitsOf_mul_pow zero]
    exact if_pos whole

/-! ### Reading -/

section Reading

variable {whole fraction : List Char} {value places : Nat}

theorem Positions.exists_cons (positions : Positions whole fraction value places) :
    ∃ c rest, pointed whole fraction = c :: rest ∧ c.isDigit = true := by
  obtain ⟨c, rest, rfl⟩ := List.exists_cons_of_ne_nil positions.some
  refine ⟨c, pointed rest fraction, ?_, positions.digital c List.mem_cons_self⟩
  cases fraction <;> rfl

theorem splitSign_signText (negative : Bool) {c : Char} (digit : c.isDigit = true)
    (text : List Char) : splitSign (signText negative ++ c :: text) = (negative, c :: text) := by
  cases negative with
  | true => rfl
  | false =>
    have unsigned : c ≠ '-' ∧ c ≠ '+' := by
      constructor <;> (rintro rfl; exact absurd digit (by decide))
    simp [signText, splitSign, unsigned]

/-- Digits with a point are read as the decimal that they say. -/
theorem readDecimal?_pointed (positions : Positions whole fraction value places)
    (negative : Bool) :
    readDecimal? negative (pointed whole fraction) = some (ofDecimal negative value (-places)) := by
  obtain ⟨some, digital, rfl, rfl⟩ := positions
  obtain ⟨before, behind⟩ := digital_append.mp digital
  have nonempty : whole.isEmpty = false := by simp [some]
  cases fraction with
  | nil =>
    simp [pointed, readDecimal?, splitDigits_eq_self before, splitFraction, nonempty, readExponent?]
  | cons c fraction =>
    have split : splitDigits (whole ++ '.' :: c :: fraction) = (whole, '.' :: c :: fraction) :=
      splitDigits_append before (by simp)
    simp [pointed, readDecimal?, split, splitFraction, splitDigits_eq_self behind, nonempty,
      readExponent?]

/-- A decimal that reads back is still read as the number when the zeros that its exponent stands
for are written out. -/
theorem ofDecimal_of_readsBack {x : Finite} {d : Decimal} (back : x.ReadsBack d) :
    ofDecimal x.negative (d.digits * 10 ^ d.exponent.toNat) (-((-d.exponent).toNat : Int)) =
      .finite x := by
  by_cases zero : d.digits = 0
  · rw [zero, Nat.zero_mul, ofDecimal_zero, ← eq_zero_of_readsBack back zero]
  · by_cases whole : 0 ≤ d.exponent
    · have shift := ofDecimal_shift x.negative d.digits whole (exponent_lt_of_readsBack back zero)
        d.exponent.toNat
      rw [show d.exponent - d.exponent.toNat = 0 by omega] at shift
      rw [show (-d.exponent).toNat = 0 by omega]
      exact shift.trans back
    · rw [show d.exponent.toNat = 0 by omega, Nat.pow_zero, Nat.mul_one,
        show -((-d.exponent).toNat : Int) = d.exponent by omega]
      exact back

/-- **A finite number in its plain form is read as it was.** -/
theorem read?_plain (x : Finite) : read? x.plain = some (.finite x) := by
  obtain ⟨whole, fraction, written, positions, _⟩ := positional_eq_pointed (x.shortest .up)
  obtain ⟨c, rest, text, digit⟩ := positions.exists_cons
  have decimal := readDecimal?_pointed positions x.negative
  rw [ofDecimal_of_readsBack (shortest_readsBack x .up)] at decimal
  rw [Finite.plain, written, read?, text, splitSign_signText x.negative digit, ← text]
  simp only [decimal, Option.some_or]

/-- Different finite numbers have different plain forms. -/
theorem plain_injective : Function.Injective Finite.plain := by
  intro x y same
  have read := read?_plain x
  rw [same, read?_plain y] at read
  exact (Number.finite.inj (Option.some.inj read)).symm

theorem mem_pointed {c : Char} (mem : c ∈ pointed whole fraction) :
    c ∈ whole ++ fraction ∨ c = '.' := by
  cases fraction with
  | nil => exact .inl (List.mem_append_left _ mem)
  | cons first fraction =>
    rcases List.mem_append.mp mem with mem | mem
    · exact .inl (List.mem_append_left _ mem)
    · rcases List.mem_cons.mp mem with rfl | mem
      · exact .inr rfl
      · exact .inl (List.mem_append_right _ mem)

/-- The plain form of a finite number has no other characters than digits, a point and a minus. -/
theorem mem_plain {x : Finite} {c : Char} (mem : c ∈ x.plain) :
    c.isDigit = true ∨ c = '.' ∨ c = '-' := by
  obtain ⟨whole, fraction, written, positions, _⟩ := positional_eq_pointed (x.shortest .up)
  rw [Finite.plain, written] at mem
  rcases List.mem_append.mp mem with sign | mem
  · refine .inr (.inr ?_)
    cases negative : x.negative with
    | true => simpa [signText, negative] using sign
    | false => simp [signText, negative] at sign
  · rcases mem_pointed mem with digit | point
    · exact .inl (positions.digital c digit)
    · exact .inr (.inl point)

theorem point_not_mem_of_digital {digits : List Char} (digital : Digital digits) :
    '.' ∉ digits := by
  intro mem
  exact absurd (digital '.' mem) (by decide)

theorem point_not_mem_signText (negative : Bool) : '.' ∉ signText negative := by
  cases negative <;> decide

theorem not_suffix_of_digital (before : List Char) {digits : List Char} (digital : Digital digits)
    (some : digits ≠ []) : ¬['.'] <:+ before ++ digits := by
  rintro ⟨rest, same⟩
  rw [← List.dropLast_concat_getLast some, ← List.append_assoc] at same
  obtain ⟨_, last⟩ := List.append_inj' same rfl
  have mem := List.getLast_mem some
  rw [← (List.cons.inj last).1] at mem
  exact point_not_mem_of_digital digital mem

theorem count_point_pointed (digital : Digital (whole ++ fraction)) :
    (pointed whole fraction).count '.' ≤ 1 := by
  obtain ⟨before, behind⟩ := digital_append.mp digital
  have noneBefore := List.count_eq_zero.mpr (point_not_mem_of_digital before)
  have noneBehind := List.count_eq_zero.mpr (point_not_mem_of_digital behind)
  cases fraction with
  | nil => simp [pointed, noneBefore]
  | cons c fraction => simp [pointed, noneBefore, noneBehind]

/-- The plain form of a finite number has at most one point, and does not end in it. -/
theorem apart_plain (x : Finite) : ¬['.', '.'] <:+: x.plain ∧ ¬['.'] <:+ x.plain := by
  obtain ⟨whole, fraction, written, positions, _⟩ := positional_eq_pointed (x.shortest .up)
  have digital := digital_append.mp positions.digital
  rw [Finite.plain, written]
  constructor
  · intro twice
    have two := twice.sublist.count_le '.'
    have one := count_point_pointed positions.digital
    have unsigned := List.count_eq_zero.mpr (point_not_mem_signText x.negative)
    rw [List.count_append, unsigned, Nat.zero_add] at two
    exact absurd (Nat.le_trans two one) (by decide)
  · cases fraction with
    | nil => exact not_suffix_of_digital _ digital.1 positions.some
    | cons c fraction =>
      have ends := not_suffix_of_digital (signText x.negative ++ (whole ++ ['.'])) digital.2
        (List.cons_ne_nil c fraction)
      rwa [List.append_assoc, List.append_assoc] at ends

end Reading

end DecisionCompiler.Number
