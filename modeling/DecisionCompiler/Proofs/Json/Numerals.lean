import DecisionCompiler.Proofs.Json.Reading
import DecisionCompiler.Proofs.Number.Layout
import DecisionCompiler.Proofs.Outcome

/-!
Numbers of documents that are written and read again.

A number is read by its parts, a sign, a whole part, a fraction and an exponent, and in the text
that these parts make they are found again (`scanNumber_text`). The document form of a finite number
is such a text, whose parts say the shortest decimal of the number; it is read as the number it was
(`reads_real`), since it shows a fraction or an exponent and the decimal reads back. An integer that
fits 64 bits is written as its whole part alone, and stays an integer (`reads_integer`). The plain
form has no fraction behind a whole number, so such a number is read as an integer that is written
like it and is the same number, as long as it fits (`exists_plain_numeral`).

So a document is readable as soon as its integers fit and it is not nested too deep
(`Bounded.readable`).
-/

namespace DecisionCompiler.Json

open Number

/-! ### Parts of numbers -/

/-- The text of a fraction, point included. -/
def fractionText : Option (List Char) → List Char
  | none => []
  | some digits => '.' :: digits

/-- The text of an exponent, with its mark and its sign. -/
def exponentText : Option Int → List Char
  | none => []
  | some e => 'e' :: (if e < 0 then '-' else '+') :: digitsOf e.natAbs

namespace WrittenNumber

/-- The text that the parts of a number make. -/
def text (w : WrittenNumber) : List Char :=
  signText w.negative ++ (w.whole ++ (fractionText w.fraction ++ exponentText w.exponent))

/-- The parts are digits wherever digits have to be, and no zero leads other digits. -/
structure Proper (w : WrittenNumber) : Prop where
  whole : Digital w.whole
  some : w.whole ≠ []
  leading : w.whole.head? = Option.some '0' → w.whole = ['0']
  fraction : ∀ digits ∈ w.fraction, Digital digits ∧ digits ≠ []

end WrittenNumber

section Parts

variable {rest : List Char}

theorem readDigits_append {digits : List Char} (digital : Digital digits) (some : digits ≠ [])
    (ended : ∀ c ∈ rest.head?, c.isDigit = false) :
    readDigits (digits ++ rest) = .ok (digits, rest) := by
  simp [readDigits, splitDigits_append digital ended, some]

theorem readWhole_append {digits : List Char} (digital : Digital digits) (some : digits ≠ [])
    (leading : digits.head? = Option.some '0' → digits = ['0'])
    (ended : ∀ c ∈ rest.head?, c.isDigit = false) :
    readWhole (digits ++ rest) = .ok (digits, rest) := by
  rw [readWhole, readDigits_append digital some ended]
  split
  · rename_i found
    obtain ⟨rfl, _⟩ := Prod.mk.inj (Except.ok.inj found)
    exact absurd (leading rfl) (by simp)
  · rfl

theorem signedValue_digitsOf (n : Int) : signedValue (n < 0) (digitsOf n.natAbs) = n := by
  rw [signedValue, digitsValue_digitsOf]
  by_cases negative : n < 0
  · rw [decide_eq_true negative, if_pos rfl]
    omega
  · rw [decide_eq_false negative, if_neg Bool.false_ne_true]
    omega

theorem readExponent_text (exponent : Option Int) (delimited : Delimited rest) :
    readExponent (exponentText exponent ++ rest) = .ok (exponent, rest) := by
  cases exponent with
  | none =>
    cases rest with
    | nil => rfl
    | cons c rest =>
      obtain ⟨_, _, notLower, notUpper⟩ := delimited c rfl
      simp [exponentText, readExponent, notLower, notUpper]
  | some e =>
    have read := readDigits_append (digital_digitsOf e.natAbs) Nat.toDigits_ne_nil fun c head =>
      (delimited c head).1
    have value := signedValue_digitsOf e
    by_cases negative : e < 0
    · simp only [negative, decide_true] at value
      simp [exponentText, readExponent, splitSign, negative, read, Outcome.map_ok, value]
    · simp only [negative, decide_false] at value
      simp [exponentText, readExponent, splitSign, negative, read, Outcome.map_ok, value]

theorem readFraction_text {fraction : Option (List Char)}
    (digits : ∀ digits ∈ fraction, Digital digits ∧ digits ≠ [])
    (ended : ∀ c ∈ rest.head?, c.isDigit = false ∧ c ≠ '.') :
    readFraction (fractionText fraction ++ rest) = .ok (fraction, rest) := by
  cases fraction with
  | none =>
    cases rest with
    | nil => rfl
    | cons c rest =>
      obtain ⟨_, notPoint⟩ := ended c rfl
      simp [fractionText, readFraction, notPoint]
  | some fraction =>
    obtain ⟨digital, some⟩ := digits fraction rfl
    have read := readDigits_append digital some fun c head => (ended c head).1
    simp [fractionText, readFraction, read, Outcome.map_ok]

/-- The parts of a number are found again in their text. -/
theorem scanNumber_text {w : WrittenNumber} (proper : w.Proper) (delimited : Delimited rest) :
    scanNumber (w.text ++ rest) = .ok (w, rest) := by
  obtain ⟨negative, whole, fraction, exponent⟩ := w
  obtain ⟨digital, some, leading, behind⟩ := proper
  have exponentEnds : ∀ c ∈ (exponentText exponent ++ rest).head?, c.isDigit = false ∧ c ≠ '.' := by
    cases exponent with
    | none => exact fun c head => ⟨(delimited c head).1, (delimited c head).2.1⟩
    | some e =>
      rintro c ⟨⟩
      decide
  have wholeEnds : ∀ c ∈ (fractionText fraction ++ (exponentText exponent ++ rest)).head?,
      c.isDigit = false := by
    cases fraction with
    | none => exact fun c head => (exponentEnds c head).1
    | some fraction =>
      rintro c ⟨⟩
      decide
  have readW := readWhole_append digital some leading wholeEnds
  have readF := readFraction_text behind exponentEnds
  have readE := readExponent_text exponent delimited
  obtain ⟨first, others, rfl⟩ := List.exists_cons_of_ne_nil some
  have unsigned : first ≠ '-' := by
    rintro rfl
    exact absurd (digital '-' List.mem_cons_self) (by decide)
  rw [WrittenNumber.text]
  simp only [List.append_assoc, List.cons_append] at readW ⊢
  unfold scanNumber
  cases negative with
  | true => simp [signText, readW, readF, readE]
  | false => simp [signText, unsigned, readW, readF, readE]

end Parts

/-! ### Numbers by their parts -/

theorem readNumber_text {w : WrittenNumber} {n : Numeral} (proper : w.Proper)
    (stated : w.numeral? = some n) {rest : List Char} (delimited : Delimited rest) :
    readNumber (w.text ++ rest) = .ok (n, rest) := by
  simp only [readNumber, scanNumber_text proper delimited, stated]

theorem WrittenNumber.Proper.exists_cons {w : WrittenNumber} (proper : w.Proper) :
    ∃ c text, w.text = c :: text ∧ (c = '-' ∨ c.isDigit = true) := by
  obtain ⟨negative, whole, fraction, exponent⟩ := w
  cases negative with
  | true => exact ⟨'-', _, rfl, .inl rfl⟩
  | false =>
    obtain ⟨first, others, rfl⟩ := List.exists_cons_of_ne_nil proper.some
    exact ⟨first, _, rfl, .inr (proper.whole first List.mem_cons_self)⟩

/-- A style reads the numbers that it writes by their parts. -/
theorem Style.reads_of_text {style : Style} {n : Numeral} {w : WrittenNumber}
    (written : style.numeral n = w.text) (proper : w.Proper) (stated : w.numeral? = some n) :
    style.Reads n where
  head := by
    rw [written]
    exact proper.exists_cons
  read rest delimited := by
    rw [written]
    exact readNumber_text proper stated delimited

/-- A number with a fraction or an exponent is no integer. -/
theorem WrittenNumber.numeral?_eq_real {w : WrittenNumber} {x : Finite}
    (shown : w.fraction.isSome ∨ w.exponent.isSome) (value : w.toNumber = .finite x) :
    w.numeral? = some (.real x) := by
  have notWhole : ¬(w.fraction.isNone ∧ w.exponent.isNone ∧
      fitsInteger (signedValue w.negative w.whole) ∧
        ¬(w.negative ∧ signedValue w.negative w.whole = 0)) := by
    rintro ⟨noFraction, noExponent, _⟩
    rcases shown with shown | shown <;> simp_all
  unfold numeral?
  rw [if_neg notWhole, value]
  rfl

/-- The digits of a number are a whole part. -/
theorem proper_digitsOf (negative : Bool) (n : Nat) :
    (⟨negative, digitsOf n, none, none⟩ : WrittenNumber).Proper := by
  refine ⟨digital_digitsOf n, Nat.toDigits_ne_nil, ?_, ?_⟩
  · intro zero
    have none : n = 0 := by
      by_contra some
      exact head?_digitsOf some zero
    rw [none]
    rfl
  · intro _ fraction
    exact nomatch fraction

theorem reads_integer (style : Style) {n : Int} (fits : fitsInteger n = true) :
    style.Reads (.integer n) := by
  let w : WrittenNumber := ⟨n < 0, digitsOf n.natAbs, none, none⟩
  have written : style.numeral (.integer n) = w.text := by
    simp [w, Style.numeral, integerText, WrittenNumber.text, fractionText, exponentText]
  refine Style.reads_of_text written (proper_digitsOf _ _) ?_
  have value : signedValue w.negative w.whole = n := signedValue_digitsOf n
  have notMinusZero : ¬(w.negative = true ∧ n = 0) := by
    rintro ⟨negative, rfl⟩
    exact absurd negative (by decide)
  unfold WrittenNumber.numeral?
  rw [value, if_pos ⟨rfl, rfl, fits, notMinusZero⟩]

/-! ### The document form -/

section Document

variable {x : Finite} {d : Decimal}

/-- The number is written in these parts, and they say the number. -/
structure WrittenAs (x : Finite) (body : List Char) (w : WrittenNumber) : Prop where
  text : signText x.negative ++ body = w.text
  proper : w.Proper
  stated : w.numeral? = some (.real x)

theorem writtenAs_zero (back : x.ReadsBack d) (zero : d.digits = 0) :
    WrittenAs x ['0', '.', '0'] ⟨x.negative, ['0'], some ['0'], none⟩ := by
  refine ⟨rfl, ⟨?_, ?_, fun _ => rfl, ?_⟩, WrittenNumber.numeral?_eq_real (.inl rfl) ?_⟩
  · exact digital_replicate_zero 1
  · exact List.cons_ne_nil _ _
  · rintro _ ⟨⟩
    exact ⟨digital_replicate_zero 1, List.cons_ne_nil _ _⟩
  · rw [eq_zero_of_readsBack back zero]
    exact ofDecimal_zero _ _

/-- Positional notation with a fraction, a zero if there is no other one. -/
theorem exists_writtenAs_positional (back : x.ReadsBack d) (some : d.digits ≠ 0) :
    ∃ w, WrittenAs x (if 0 ≤ d.exponent then d.positional ++ ['.', '0'] else d.positional) w := by
  obtain ⟨whole, fraction, written, positions, leading⟩ := positional_eq_pointed d
  have leading : whole.head? = Option.some '0' → whole = ['0'] := by
    intro zero
    rcases leading with same | other
    · exact same
    · exact absurd zero (other some)
  obtain ⟨nonempty, digital, value, places⟩ := positions
  obtain ⟨before, behind⟩ := digital_append.mp digital
  split
  · rename_i integral
    obtain rfl : fraction = [] := List.eq_nil_of_length_eq_zero (by omega)
    refine ⟨⟨x.negative, whole, Option.some ['0'], none⟩, ?_, ⟨before, nonempty, leading, ?_⟩,
      WrittenNumber.numeral?_eq_real (.inl rfl) ?_⟩
    · simp [written, pointed, WrittenNumber.text, fractionText, exponentText]
    · rintro _ ⟨⟩
      exact ⟨digital_replicate_zero 1, List.cons_ne_nil _ _⟩
    · have below := exponent_lt_of_readsBack back some
      have shift := ofDecimal_shift x.negative d.digits integral below (d.exponent.toNat + 1)
      rw [List.append_nil] at value
      rw [show d.exponent - ((d.exponent.toNat + 1 : Nat) : Int) = 0 - (['0'] : List Char).length by
        rw [List.length_singleton]
        omega, Nat.pow_succ, ← Nat.mul_assoc, ← value] at shift
      have joined : digitsValue (whole ++ ['0']) = digitsValue whole * 10 := digitsValue_append _ _
      rw [← joined] at shift
      exact shift.trans back
  · rename_i fractional
    have nonemptyBehind : fraction ≠ [] := by
      rintro rfl
      rw [List.length_nil] at places
      omega
    refine ⟨⟨x.negative, whole, Option.some fraction, none⟩, ?_, ⟨before, nonempty, leading, ?_⟩,
      WrittenNumber.numeral?_eq_real (.inl rfl) ?_⟩
    · simp [written, pointed_of_ne_nil whole nonemptyBehind, WrittenNumber.text, fractionText,
        exponentText]
    · rintro _ ⟨⟩
      exact ⟨behind, nonemptyBehind⟩
    · have said := ofDecimal_of_readsBack back
      rw [← value, ← places, ← Int.zero_sub] at said
      exact said

/-- One digit before the point, the others behind it, and the power of ten of the first one. -/
theorem exists_writtenAs_scientific (back : x.ReadsBack d) : ∃ w, WrittenAs x d.scientific w := by
  have digital := digital_digitsOf d.digits
  have value := digitsValue_digitsOf d.digits
  have nonempty : digitsOf d.digits ≠ [] := Nat.toDigits_ne_nil
  obtain ⟨lead, others, digits⟩ := List.exists_cons_of_ne_nil nonempty
  have power : d.magnitude - others.length = d.exponent := by
    rw [Decimal.magnitude, digits, List.length_cons]
    omega
  rw [digits] at digital value
  obtain ⟨first, behind⟩ : Digital [lead] ∧ Digital others := digital_append.mp digital
  have leading : [lead].head? = some '0' → [lead] = ['0'] := by
    rintro ⟨⟩
    rfl
  unfold Decimal.scientific
  cases others with
  | nil =>
    refine ⟨⟨x.negative, [lead], none, some d.magnitude⟩, ?_,
      ⟨first, List.cons_ne_nil _ _, leading, fun _ h => nomatch h⟩,
      WrittenNumber.numeral?_eq_real (.inr rfl) ?_⟩
    · simp [digits, WrittenNumber.text, fractionText, exponentText]
    · rw [Finite.ReadsBack, ← value, ← power] at back
      exact back
  | cons c others =>
    refine ⟨⟨x.negative, [lead], some (c :: others), some d.magnitude⟩, ?_,
      ⟨first, List.cons_ne_nil _ _, leading, ?_⟩, WrittenNumber.numeral?_eq_real (.inl rfl) ?_⟩
    · simp [digits, WrittenNumber.text, fractionText, exponentText]
    · rintro _ ⟨⟩
      exact ⟨behind, List.cons_ne_nil _ _⟩
    · rw [Finite.ReadsBack, ← value, ← power] at back
      exact back

/-- A number in its document form is read as it was. -/
theorem reads_real {style : Style} (document : style.real = Finite.document) (x : Finite) :
    style.Reads (.real x) := by
  have back := shortest_readsBack x .toEven
  have parts : ∃ w : WrittenNumber,
      x.document = w.text ∧ w.Proper ∧ w.numeral? = some (.real x) := by
    unfold Finite.document
    dsimp only
    split
    · rename_i zero
      have zero := writtenAs_zero back zero
      exact ⟨_, zero.text, zero.proper, zero.stated⟩
    · rename_i some
      split
      · obtain ⟨w, positional⟩ := exists_writtenAs_positional back some
        exact ⟨w, positional.text, positional.proper, positional.stated⟩
      · obtain ⟨w, scientific⟩ := exists_writtenAs_scientific back
        exact ⟨w, scientific.text, scientific.proper, scientific.stated⟩
  obtain ⟨w, written, proper, stated⟩ := parts
  refine Style.reads_of_text ?_ proper stated
  rw [Style.numeral, document, written]

end Document

/-! ### The plain form -/

/-- Digits alone are an integer as long as it fits 64 bits, and otherwise the number that they say;
minus zero is not an integer. -/
theorem numeral?_digitsOf {x : Finite} {value : Nat}
    (read : ofDecimal x.negative value 0 = .finite x) :
    ∃ n : Numeral, (⟨x.negative, digitsOf value, none, none⟩ : WrittenNumber).numeral? = some n ∧
      n.toNumber = .finite x ∧
        (n = .real x ∨ Style.plain.numeral n = signText x.negative ++ digitsOf value) := by
  have stated : signedValue x.negative (digitsOf value) =
      if x.negative then -(value : Int) else value := by
    rw [signedValue, digitsValue_digitsOf]
  have said : (⟨x.negative, digitsOf value, none, none⟩ : WrittenNumber).toNumber = .finite x := by
    rw [WrittenNumber.toNumber]
    simpa [digitsValue_digitsOf] using read
  unfold WrittenNumber.numeral?
  dsimp only
  generalize signedValue x.negative (digitsOf value) = n at stated ⊢
  split
  · rename_i integer
    obtain ⟨_, _, _, notMinusZero⟩ := integer
    have sign : decide (n < 0) = x.negative := by
      cases negative : x.negative with
      | true =>
        rw [negative, if_pos rfl] at stated
        have : n ≠ 0 := fun zero => notMinusZero ⟨negative, zero⟩
        exact decide_eq_true (by omega)
      | false =>
        rw [negative, if_neg Bool.false_ne_true] at stated
        exact decide_eq_false (by omega)
    have magnitude : n.natAbs = value := by
      rw [stated]
      split <;> omega
    refine ⟨.integer n, rfl, ?_, .inr ?_⟩
    · rw [Numeral.toNumber, ofInt, sign, magnitude, read]
    · rw [Style.numeral, integerText, sign, magnitude]
  · rw [said]
    exact ⟨.real x, rfl, rfl, .inl rfl⟩

/-- A number in its plain form is read as a numeral that is written like it and is the same
number. -/
theorem exists_plain_numeral (x : Finite) :
    ∃ n : Numeral, n.toNumber = .finite x ∧ Style.plain.numeral n = x.plain ∧
      Style.plain.Reads n := by
  have back := shortest_readsBack x .up
  by_cases whole : 0 ≤ (x.shortest .up).exponent
  · have read := ofDecimal_of_readsBack back
    have places : (-(x.shortest .up).exponent).toNat = 0 := by omega
    rw [places] at read
    have written : x.plain = signText x.negative ++
        digitsOf ((x.shortest .up).digits * 10 ^ (x.shortest .up).exponent.toNat) := by
      rw [Finite.plain, positional_shortest whole]
    generalize (x.shortest .up).digits * 10 ^ (x.shortest .up).exponent.toNat = value
      at read written
    obtain ⟨n, stated, same, spelled⟩ := numeral?_digitsOf read
    have alike : Style.plain.numeral n = x.plain := by
      rcases spelled with rfl | spelled
      · rfl
      · rw [spelled, written]
    refine ⟨n, same, alike, Style.reads_of_text ?_ (proper_digitsOf x.negative value) stated⟩
    rw [alike, written]
    simp [WrittenNumber.text, fractionText, exponentText]
  · have some : (x.shortest .up).digits ≠ 0 := by
      intro zero
      rw [shortest_eq_zero zero] at whole
      exact whole (Int.le_refl 0)
    obtain ⟨w, written⟩ := exists_writtenAs_positional back some
    rw [if_neg whole] at written
    exact ⟨.real x, rfl, rfl, Style.reads_of_text written.text written.proper written.stated⟩

/-! ### Documents that are not nested too deep -/

/-- The integers of the document fit 64 bits, and its containers are nested at most to the given
depth. -/
inductive Bounded : Nat → Json → Prop where
  | null {depth : Nat} : Bounded depth .null
  | bool {depth : Nat} (b : Bool) : Bounded depth (.bool b)
  | integer {depth : Nat} {n : Int} (fits : fitsInteger n = true) :
      Bounded depth (.number (.integer n))
  | real {depth : Nat} (x : Finite) : Bounded depth (.number (.real x))
  | string {depth : Nat} (s : String) : Bounded depth (.string s)
  | array {depth : Nat} {items : List Json} (inside : ∀ item ∈ items, Bounded depth item) :
      Bounded (depth + 1) (.array items)
  | object {depth : Nat} {members : List (String × Json)}
      (inside : ∀ member ∈ members, Bounded depth member.2) :
      Bounded (depth + 1) (.object members)

theorem Bounded.readable {style : Style} (document : style.real = Finite.document) {depth : Nat}
    {json : Json} (bounded : Bounded depth json) : Readable style depth json := by
  induction bounded with
  | null => exact .null
  | bool b => exact .bool b
  | integer fits => exact .number (reads_integer style fits)
  | real x => exact .number (reads_real document x)
  | string s => exact .string s
  | array _ ih => exact .array ih
  | object _ ih => exact .object ih

end DecisionCompiler.Json
