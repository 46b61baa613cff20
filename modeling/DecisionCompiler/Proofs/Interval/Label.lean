import DecisionCompiler.Proofs.Interval.Tiling
import DecisionCompiler.Proofs.Number.Layout
import DecisionCompiler.Proofs.Text.Split

/-!
Which labels are read, and as what.

`States` says what a label is, without reading it: the first `...` in it stands between a lower and
an upper bound, and a bound is a round bracket alone or a bracket with the numeral of a finite
number inside of it. A label is read exactly when it states two bounds that some number lies
between, and then as these bounds (`ofLabel_reads_stated`). The label that is written for two bounds
states them (`states_labelOf`), to the bit of their endpoints.
-/

namespace DecisionCompiler.Interval

/-! ### What a label states -/

/-- The text states a lower bound. -/
inductive StatesLower : List Char → Option Endpoint → Prop where
  | unbounded : StatesLower ['('] none
  | opened {numeral : List Char} {x : Number.Finite}
      (read : Number.read? numeral = some (.finite x)) :
      StatesLower ('(' :: numeral) (some ⟨x, false⟩)
  | closed {numeral : List Char} {x : Number.Finite}
      (read : Number.read? numeral = some (.finite x)) :
      StatesLower ('[' :: numeral) (some ⟨x, true⟩)

/-- The text states an upper bound. -/
inductive StatesUpper : List Char → Option Endpoint → Prop where
  | unbounded : StatesUpper [')'] none
  | opened {numeral : List Char} {x : Number.Finite}
      (read : Number.read? numeral = some (.finite x)) :
      StatesUpper (numeral ++ [')']) (some ⟨x, false⟩)
  | closed {numeral : List Char} {x : Number.Finite}
      (read : Number.read? numeral = some (.finite x)) :
      StatesUpper (numeral ++ [']']) (some ⟨x, true⟩)

/-- The text states a lower and an upper bound: they stand before and behind the first separator. -/
def States (text : List Char) (lower upper : Option Endpoint) : Prop :=
  ∃ before behind, Text.FirstSplit separator text before behind ∧ StatesLower before lower ∧
    StatesUpper behind upper

/-! ### Reading -/

section Reading

variable {text : List Char} {lower upper bound : Option Endpoint} {closed : Bool}

theorem readNumeral_eq_ok_iff {x : Number.Finite} :
    readNumeral text = .ok x ↔ Number.read? text = some (.finite x) := by
  unfold readNumeral
  split
  · rename_i unread
    rw [unread]
    simp
  · rename_i y read
    rw [read]
    simp
  · rename_i notFinite read
    rw [read]
    constructor
    · intro accepted
      cases accepted
    · intro finite
      exact absurd (Option.some.inj finite) (notFinite x)

theorem readEndpoint_eq_ok_iff :
    readEndpoint closed text = .ok bound ↔
      ∃ x, Number.read? text = some (.finite x) ∧ bound = some ⟨x, closed⟩ := by
  rw [readEndpoint, Outcome.map_eq_ok_iff]
  constructor
  · rintro ⟨x, read, rfl⟩
    exact ⟨x, readNumeral_eq_ok_iff.mp read, rfl⟩
  · rintro ⟨x, read, rfl⟩
    exact ⟨x, readNumeral_eq_ok_iff.mpr read, rfl⟩

/-- No number is stated by nothing, so a bracket alone has no endpoint. -/
theorem ne_nil_of_read? {x : Number.Finite} (read : Number.read? text = some (.finite x)) :
    text ≠ [] := by
  have none : Number.read? [] = none := by decide
  rintro rfl
  rw [none] at read
  cases read

theorem readLower_eq_ok_iff : readLower text = .ok bound ↔ StatesLower text bound := by
  constructor
  · intro read
    unfold readLower at read
    split at read
    · obtain rfl := Except.ok.inj read
      exact .unbounded
    · obtain ⟨x, stated, rfl⟩ := readEndpoint_eq_ok_iff.mp read
      exact .opened stated
    · obtain ⟨x, stated, rfl⟩ := readEndpoint_eq_ok_iff.mp read
      exact .closed stated
    · cases read
  · intro stated
    cases stated with
    | unbounded => rfl
    | @opened numeral x read =>
      obtain ⟨c, rest, rfl⟩ := List.exists_cons_of_ne_nil (ne_nil_of_read? read)
      exact readEndpoint_eq_ok_iff.mpr ⟨x, read, rfl⟩
    | @closed numeral x read => exact readEndpoint_eq_ok_iff.mpr ⟨x, read, rfl⟩

theorem readUpper_eq_ok_iff : readUpper text = .ok bound ↔ StatesUpper text bound := by
  constructor
  · intro read
    unfold readUpper at read
    split at read
    · rename_i reversed
      obtain rfl := Except.ok.inj read
      rw [List.reverse_eq_iff] at reversed
      rw [reversed]
      exact .unbounded
    · rename_i numeral _ reversed
      obtain ⟨x, stated, rfl⟩ := readEndpoint_eq_ok_iff.mp read
      rw [List.reverse_eq_iff, List.reverse_cons] at reversed
      rw [reversed]
      exact .opened stated
    · rename_i numeral reversed
      obtain ⟨x, stated, rfl⟩ := readEndpoint_eq_ok_iff.mp read
      rw [List.reverse_eq_iff, List.reverse_cons] at reversed
      rw [reversed]
      exact .closed stated
    · cases read
  · intro stated
    cases stated with
    | unbounded => rfl
    | @opened numeral x read =>
      have nonempty : numeral.reverse ≠ [] := by
        rw [ne_eq, List.reverse_eq_nil_iff]
        exact ne_nil_of_read? read
      obtain ⟨c, rest, reversed⟩ := List.exists_cons_of_ne_nil nonempty
      have stated : readEndpoint false numeral = .ok (some ⟨x, false⟩) :=
        readEndpoint_eq_ok_iff.mpr ⟨x, read, rfl⟩
      rw [← List.reverse_reverse numeral, reversed] at stated
      rw [readUpper, List.reverse_append, reversed]
      exact stated
    | @closed numeral x read =>
      have stated : readEndpoint true numeral = .ok (some ⟨x, true⟩) :=
        readEndpoint_eq_ok_iff.mpr ⟨x, read, rfl⟩
      rw [← List.reverse_reverse numeral] at stated
      rw [readUpper, List.reverse_append]
      exact stated

theorem readBounds_eq_ok_iff :
    readBounds text = .ok (lower, upper) ↔ States text lower upper := by
  unfold readBounds
  constructor
  · intro read
    split at read
    · cases read
    · rename_i before behind found
      obtain ⟨lower', readLower, read⟩ := Outcome.bind_eq_ok_iff.mp read
      obtain ⟨upper', readUpper, same⟩ := Outcome.bind_eq_ok_iff.mp read
      obtain ⟨rfl, rfl⟩ := Prod.mk.inj (Except.ok.inj same)
      exact ⟨before, behind, Text.splitOnce?_eq_some_iff.mp found,
        readLower_eq_ok_iff.mp readLower, readUpper_eq_ok_iff.mp readUpper⟩
  · rintro ⟨before, behind, split, statesLower, statesUpper⟩
    rw [Text.splitOnce?_eq_some_iff.mpr split]
    simp only [readLower_eq_ok_iff.mpr statesLower, readUpper_eq_ok_iff.mpr statesUpper,
      Outcome.ok_bind]
    rfl

end Reading

/-! ### Writing -/

section Writing

variable {lower upper : Option Endpoint}

theorem statesLower_lowerText (lower : Option Endpoint) :
    StatesLower (lowerText lower) lower := by
  cases lower with
  | none => exact .unbounded
  | some e =>
    obtain ⟨x, closed⟩ := e
    cases closed with
    | false => exact .opened (Number.read?_plain x)
    | true => exact .closed (Number.read?_plain x)

theorem statesUpper_upperText (upper : Option Endpoint) :
    StatesUpper (upperText upper) upper := by
  cases upper with
  | none => exact .unbounded
  | some e =>
    obtain ⟨x, closed⟩ := e
    cases closed with
    | false => exact .opened (Number.read?_plain x)
    | true => exact .closed (Number.read?_plain x)

/-- A lower bound can stand in front of the separator: no two points follow each other in it, and no
point stands at its end. -/
theorem apart_lowerText (lower : Option Endpoint) :
    ¬['.', '.'] <:+: lowerText lower ∧ ¬['.'] <:+ lowerText lower := by
  cases lower with
  | none => decide
  | some e =>
    obtain ⟨inside, atEnd⟩ := Number.apart_plain e.value
    have bracket : (if e.closed then '[' else '(') ≠ '.' := by
      split <;> decide
    rw [lowerText, List.infix_cons_iff, List.suffix_cons_iff, List.cons_prefix_cons]
    constructor
    · rintro (⟨same, _⟩ | infixed)
      · exact bracket same.symm
      · exact inside infixed
    · rintro (same | suffixed)
      · exact bracket (List.cons.inj same).1.symm
      · exact atEnd suffixed

/-- The label that is written for two bounds states them. -/
theorem states_labelOf (lower upper : Option Endpoint) :
    States (labelOf lower upper).toList lower upper := by
  obtain ⟨inside, atEnd⟩ := apart_lowerText lower
  have found := Text.splitOnce?_of_apart inside atEnd ['.'] (upperText upper)
  refine ⟨lowerText lower, upperText upper, ?_, statesLower_lowerText lower,
    statesUpper_upperText upper⟩
  rw [labelOf, String.toList_ofList]
  exact Text.splitOnce?_eq_some_iff.mp found

end Writing

/-- **A label is read exactly as it states.** An interval is read from a label exactly if the label
states its bounds and some number lies between them. For any two bounds that some number lies
between, the label that is written for them is read as these bounds. -/
theorem ofLabel_reads_stated :
    (∀ label i, ofLabel label = .ok i ↔
      i.label = label ∧ States label.toList i.lower i.upper ∧ ∃ x, i.Contains x) ∧
    ∀ lower upper, (∃ x, Above lower x ∧ Below upper x) →
      ofLabel (labelOf lower upper) = .ok ⟨labelOf lower upper, lower, upper⟩ := by
  have reads : ∀ label i, ofLabel label = .ok i ↔
      i.label = label ∧ States label.toList i.lower i.upper ∧ ∃ x, i.Contains x := by
    intro label i
    rw [Partition.ofLabel_eq_ok_iff, readBounds_eq_ok_iff, Inhabited, and_left_comm]
  refine ⟨reads, fun lower upper inhabited => ?_⟩
  exact (reads _ _).mpr ⟨rfl, states_labelOf lower upper, inhabited⟩

/-- The fourth point of a label is the point of a numeral. A point between the two zeros is written
with both of them, and an open end at the same point leaves nothing. -/
theorem ofLabel_reads_stated_at_zero :
    let zero (negative closed : Bool) : Option Endpoint := some ⟨.zero negative, closed⟩
    (∃ i, ofLabel "(....5e1)" = .ok i ∧ States "(....5e1)".toList i.lower i.upper ∧
        ∃ x, i.Contains x) ∧
      ofLabel "[-0...0]" = .ok ⟨"[-0...0]", zero true true, zero false true⟩ ∧
      ∀ i, ofLabel "[-0...0)" ≠ .ok i := by
  intro zero
  obtain ⟨reads, written⟩ := ofLabel_reads_stated
  refine ⟨?_, ?_, fun i accepted => ?_⟩
  · obtain ⟨i, accepted⟩ : ∃ i, ofLabel "(....5e1)" = .ok i :=
      Outcome.exists_eq_ok_of_isSome (by decide +kernel)
    obtain ⟨_, states, inhabited⟩ := (reads _ i).mp accepted
    exact ⟨i, accepted, states, inhabited⟩
  · have label : labelOf (zero true true) (zero false true) = "[-0...0]" := by decide +kernel
    have point : ∀ negative, (Number.Finite.zero negative).toRat = 0 := by
      intro negative
      cases negative <;> simp [Number.Finite.toRat, Number.Finite.scaled, Number.Finite.zero,
        Number.Finite.units, Number.unitsOfRank]
    rw [← label]
    refine written _ _ ⟨0, ?_, ?_⟩
    · simp [zero, above_some_iff, point]
    · simp [zero, below_some_iff, point]
  · have refused : (ofLabel "[-0...0)").toOption.isSome = false := by decide +kernel
    rw [accepted] at refused
    cases refused

end DecisionCompiler.Interval
