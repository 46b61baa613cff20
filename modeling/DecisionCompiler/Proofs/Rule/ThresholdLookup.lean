import DecisionCompiler.Proofs.Rule.RangeLookup
import DecisionCompiler.Proofs.Threshold

/-!
What a compiled threshold lookup selects.

The one test of the conditional is the comparison of the upper half, so the literal that is chosen
is that of the half in which the operand lies (`Expr.isLiteralOf_chosen`), and the label of this
half is the one label of the payload that the operand satisfies
(`Threshold.satisfies_iff_eq_halfAt`).

`compileSpec_threshold_selects` joins this with what makes a threshold of two labels.
-/

namespace DecisionCompiler

namespace Threshold

variable {labels : List String} {threshold : Threshold} {label : String} {x : ℚ}

theorem mem_labels_iff (accepted : ofLabels labels = .ok threshold) :
    label ∈ labels ↔ label = threshold.upper.label ∨ label = threshold.lower.label := by
  obtain ⟨listed, _⟩ := ofLabels_eq_ok_iff.mp accepted
  rw [listed.mem_iff]
  simp

/-- The half that a number lies in. -/
def halfAt (threshold : Threshold) (x : ℚ) : HalfLine :=
  if threshold.upper.comparator.Holds x threshold.upper.pivot.toRat then threshold.upper
  else threshold.lower

theorem halfAt_mem_labels (accepted : ofLabels labels = .ok threshold) :
    (threshold.halfAt x).label ∈ labels := by
  rw [mem_labels_iff accepted]
  unfold halfAt
  split
  · exact .inl rfl
  · exact .inr rfl

/-- The label of its half is the one label that a number satisfies. -/
theorem satisfies_iff_eq_halfAt (accepted : ofLabels labels = .ok threshold)
    (mem : label ∈ labels) : Satisfies label x ↔ label = (threshold.halfAt x).label := by
  obtain ⟨tested, opposed⟩ := satisfies_iff_of_ofLabels accepted x
  unfold halfAt
  split
  case isTrue holds =>
    have upper := tested.mp holds
    have notLower := opposed.mp upper
    rcases (mem_labels_iff accepted).mp mem with rfl | rfl
    · exact iff_of_true upper rfl
    · exact iff_of_false notLower fun same => notLower (same ▸ upper)
  case isFalse fails =>
    have notUpper := mt tested.mpr fails
    have lower : Satisfies threshold.lower.label x := not_not.mp (mt opposed.mpr notUpper)
    rcases (mem_labels_iff accepted).mp mem with rfl | rfl
    · exact iff_of_false notUpper fun same => notUpper (same ▸ lower)
    · exact iff_of_true lower rfl

end Threshold

namespace Expr

variable {type : ValueType} {operand : String} {literals : Payload} {threshold : Threshold}

/-- The threshold lookup of accepted labels compiles: no label is without its literal. -/
theorem ofThreshold_eq_ok (type : ValueType) (operand : String)
    (accepted : Threshold.ofLabels literals.labels = .ok threshold) :
    ∃ onUpper onLower,
      ofThreshold type operand literals = .ok (conditional
        [(.compare threshold.upper.comparator operand (.finite threshold.upper.pivot), onUpper)]
        onLower) ∧
      IsLiteralOf type literals threshold.upper.label onUpper ∧
      IsLiteralOf type literals threshold.lower.label onLower := by
  have filed (half : HalfLine) (mem : half.label ∈ literals.labels) :
      ∃ expr, IsLiteralOf type literals half.label expr := by
    obtain ⟨value, found⟩ := Payload.exists_get? mem
    exact ⟨_, value, found, rfl⟩
  obtain ⟨onUpper, upper⟩ :=
    filed threshold.upper ((Threshold.mem_labels_iff accepted).mpr (.inl rfl))
  obtain ⟨onLower, lower⟩ :=
    filed threshold.lower ((Threshold.mem_labels_iff accepted).mpr (.inr rfl))
  refine ⟨onUpper, onLower, ?_, upper, lower⟩
  unfold ofThreshold
  rw [accepted]
  simp only [Outcome.ok_bind, ofLabel_eq_ok_iff.mpr upper, ofLabel_eq_ok_iff.mpr lower]
  rfl

/-- What the conditional chooses is the literal of the half that the operand lies in. -/
theorem isLiteralOf_chosen {onUpper onLower : Expr}
    (upper : IsLiteralOf type literals threshold.upper.label onUpper)
    (lower : IsLiteralOf type literals threshold.lower.label onLower) (values : Operands) :
    IsLiteralOf type literals (threshold.halfAt (values.number operand)).label
      ((conditional
        [(.compare threshold.upper.comparator operand (.finite threshold.upper.pivot), onUpper)]
        onLower).chosen values) := by
  have test_iff : (Condition.compare threshold.upper.comparator operand
      (.finite threshold.upper.pivot)).Holds values ↔
        threshold.upper.comparator.Holds (values.number operand) threshold.upper.pivot.toRat :=
    Iff.rfl
  rw [chosen, chosenBranch, Threshold.halfAt]
  simp only [test_iff]
  split
  · obtain ⟨value, found, rfl⟩ := upper
    exact ⟨value, found, rfl⟩
  · obtain ⟨value, found, rfl⟩ := lower
    exact ⟨value, found, rfl⟩

end Expr

/-! ### The lookup -/

namespace Compiler

theorem compileSpec_threshold (compiler : Compiler) (field operand : String) (type : ValueType)
    (literals : Payload) :
    compiler.compileSpec field type (.threshold operand literals) =
      (Expr.ofThreshold type operand literals).map fun body =>
        ⟨String.ofList (Template.mk field body).render⟩ :=
  compileSpec_eq_map compiler field nofun rfl

/-- A threshold lookup fails exactly as its labels do. -/
theorem compileSpec_threshold_eq_error_iff {compiler : Compiler} {field operand : String}
    {type : ValueType} {literals : Payload} {e : CompileError} :
    compiler.compileSpec field type (.threshold operand literals) = .error e ↔
      Threshold.ofLabels literals.labels = .error e := by
  rw [compileSpec_threshold]
  cases accepted : Threshold.ofLabels literals.labels with
  | error e' => simp [Expr.ofThreshold, accepted]
  | ok threshold =>
    obtain ⟨_, _, compiled, _⟩ := Expr.ofThreshold_eq_ok type operand accepted
    simp [compiled]

/-- **A threshold lookup selects the literal of the label that the operand satisfies.** Labels are
accepted exactly when they are two conditions of which every number satisfies one and not the other.
What they are accepted as does not depend on their order; its comparison is one with the upper half,
and it holds of the numbers that satisfy the one label and do not satisfy the other. A lookup is
compiled exactly when its labels are accepted; of its labels every operand satisfies one alone, and
what the lookup chooses is the literal of that one. -/
theorem compileSpec_threshold_selects :
    (∀ labels, (∃ threshold, Threshold.ofLabels labels = .ok threshold) ↔
        ∃ first second, labels = [first, second] ∧ IsCondition first ∧ IsCondition second ∧
          ∀ x : ℚ, Xor (Satisfies first x) (Satisfies second x)) ∧
      (∀ labels threshold, Threshold.ofLabels labels = .ok threshold →
        (∀ reordered : List String, reordered.Perm labels →
          Threshold.ofLabels reordered = .ok threshold) ∧
        (threshold.upper.comparator = .greater ∨
          threshold.upper.comparator = .greaterOrEqual) ∧
        labels.Perm [threshold.upper.label, threshold.lower.label] ∧
        ∀ x : ℚ,
          (threshold.upper.comparator.Holds x threshold.upper.pivot.toRat ↔
            Satisfies threshold.upper.label x) ∧
          (Satisfies threshold.upper.label x ↔ ¬Satisfies threshold.lower.label x)) ∧
      ∀ (compiler : Compiler) (field operand : String) (type : ValueType) (literals : Payload),
        (∀ e, compiler.compileSpec field type (.threshold operand literals) = .error e ↔
          Threshold.ofLabels literals.labels = .error e) ∧
        ∀ expression,
          compiler.compileSpec field type (.threshold operand literals) = .ok expression →
            ∃ expr, Expr.ofThreshold type operand literals = .ok expr ∧
              expression = ⟨String.ofList (Template.mk field expr).render⟩ ∧
              ∀ values : Operands, ∃ label ∈ literals.labels, ∃ value,
                (∀ other ∈ literals.labels,
                  Satisfies other (values.number operand) ↔ other = label) ∧
                literals.get? label = some value ∧
                expr.chosen values = .literal (type.literal value) := by
  refine ⟨fun labels => Threshold.exists_ofLabels_iff, ?_, ?_⟩
  · intro labels threshold accepted
    have isUpper := threshold.isUpper
    refine ⟨fun reordered perm => Threshold.ofLabels_eq_ok_of_perm perm accepted, ?_,
      (Threshold.ofLabels_eq_ok_iff.mp accepted).1, Threshold.satisfies_iff_of_ofLabels accepted⟩
    cases comparator : threshold.upper.comparator <;> simp_all [Comparator.isUpper]
  · intro compiler field operand type literals
    refine ⟨fun e => compileSpec_threshold_eq_error_iff, ?_⟩
    intro expression compiled
    cases accepted : Threshold.ofLabels literals.labels with
    | error e =>
      rw [compileSpec_threshold_eq_error_iff.mpr accepted] at compiled
      cases compiled
    | ok threshold =>
      obtain ⟨onUpper, onLower, made, upper, lower⟩ :=
        Expr.ofThreshold_eq_ok type operand accepted
      rw [compileSpec_threshold, made] at compiled
      cases compiled
      refine ⟨_, made, rfl, fun values => ?_⟩
      obtain ⟨value, found, chosen⟩ := Expr.isLiteralOf_chosen upper lower values
      exact ⟨_, Threshold.halfAt_mem_labels accepted, value,
        fun other mem => Threshold.satisfies_iff_eq_halfAt accepted mem, found, chosen⟩

/-- The pivots are the two zeros, spelled in two ways: they are one point, and the label that
includes it is the one that zero satisfies. -/
theorem compileSpec_threshold_selects_at_zero :
    let accounts := Payload.ofEntries [(">= 0", .string "credit"), ("<-0.0", .string "debit")]
    ∃ expr, compileSpec {} "standing" .string (.threshold "balance" accounts) =
        .ok ⟨String.ofList (Template.mk "standing" expr).render⟩ ∧
      ∀ values : Operands, values.number "balance" = 0 →
        expr.chosen values = .literal "\"credit\"" := by
  intro accounts
  obtain ⟨_, halves, lookup⟩ := compileSpec_threshold_selects
  obtain ⟨fails, selects⟩ := lookup {} "standing" "balance" .string accounts
  have read : (Threshold.ofLabels accounts.labels).toOption.map Threshold.upper =
      some ⟨">= 0", .greaterOrEqual, .zero false⟩ := by decide +kernel
  cases accepted : Threshold.ofLabels accounts.labels with
  | error e => simp [accepted, Except.toOption] at read
  | ok threshold =>
    have upper : threshold.upper = ⟨">= 0", .greaterOrEqual, .zero false⟩ := by
      rw [accepted] at read
      exact Option.some.inj read
    cases compiled : compileSpec {} "standing" .string (.threshold "balance" accounts) with
    | error e => simp [(fails e).mp compiled] at accepted
    | ok expression =>
      obtain ⟨expr, _, rfl, chosen⟩ := selects expression compiled
      refine ⟨expr, rfl, fun values zero => ?_⟩
      obtain ⟨label, _, value, satisfied, found, literal⟩ := chosen values
      have satisfies : Satisfies ">= 0" (values.number "balance") := by
        have atZero := ((halves _ _ accepted).2.2.2 0).1
        rw [upper] at atZero
        rw [zero]
        exact atZero.mp (by decide +kernel)
      have mem : ">= 0" ∈ accounts.labels := by decide +kernel
      rw [← (satisfied _ mem).mp satisfies] at found
      have credit : accounts.get? ">= 0" = some (.string "credit") := by rfl
      rw [literal, ← Option.some.inj (credit.symm.trans found)]
      rfl

end Compiler

end DecisionCompiler
