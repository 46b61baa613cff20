import DecisionCompiler.Proofs.Interval.Counterparts
import DecisionCompiler.Proofs.Rule.ThresholdLookup

/-!
Lookups do not depend on how their labels are spelled.

A payload respells another one when the entries of both correspond one to one, each with a label
that is read as the same bounds, or as the same comparison, and with the same literal. Spelling a
number in another way can change the order of the labels, and with it the order in which intervals
and halves are looked at; the compiled template is nevertheless the same, and labels that are
refused in one spelling are refused with an error of the same kind in the other
(`compileSpec_canonical`). The texts of such errors may differ, since they quote labels.
-/

namespace DecisionCompiler

/-- Two halves have the same comparison, down to the sign of zero. -/
def HalfLine.SameComparison (half other : HalfLine) : Prop :=
  half.comparator = other.comparator ∧ half.pivot = other.pivot

/-- Two entries file the same literal under labels that are read as the same thing. -/
def RespelledEntry {ε α : Type} (read : String → Except ε α) (same : α → α → Prop)
    (entry other : String × Value) : Prop :=
  entry.2 = other.2 ∧ ∃ a b, read entry.1 = .ok a ∧ read other.1 = .ok b ∧ same a b

/-- The entries of two payloads correspond one to one, up to the spelling of their labels. -/
def Payload.Respells {ε α : Type} (read : String → Except ε α) (same : α → α → Prop)
    (literals other : Payload) : Prop :=
  Counterparts (RespelledEntry read same) literals.entries other.entries

section Payload

variable {ε α : Type} {read : String → Except ε α} {same : α → α → Prop}
  {literals other : Payload}

theorem Payload.get?_of_mem {entry : String × Value} (mem : entry ∈ literals.entries) :
    literals.get? entry.1 = some entry.2 :=
  (Entries.get?_eq_some_iff literals.ascending).mpr mem

theorem Payload.Respells.symm (symmetric : ∀ a b, same a b → same b a)
    (respells : literals.Respells read same other) : other.Respells read same literals := by
  refine Counterparts.imp (Counterparts.symm respells) ?_
  rintro entry entry' ⟨value, a, b, readA, readB, alike⟩
  exact ⟨value.symm, b, a, readB, readA, symmetric a b alike⟩

end Payload

/-! ### Range lookups -/

/-- Intervals of two payloads have the same bounds and the same literal. -/
def SameChoice (literals other : Payload) (i j : Interval) : Prop :=
  i.SameBounds j ∧ ∃ value, literals.get? i.label = some value ∧ other.get? j.label = some value

section Range

variable {type : ValueType} {operand : String} {literals other : Payload}
  {partition partition' : Partition}

/-- Entries that respell each other are read as intervals with the same bounds and literals. -/
theorem exists_sameChoice {entries entries' : List (String × Value)}
    (related : List.Forall₂ (RespelledEntry Interval.ofLabel Interval.SameBounds) entries entries')
    (filed : ∀ entry ∈ entries, literals.get? entry.1 = some entry.2)
    (filed' : ∀ entry ∈ entries', other.get? entry.1 = some entry.2) :
    ∃ intervals intervals', Partition.ReadAs (entries.map Prod.fst) intervals ∧
      Partition.ReadAs (entries'.map Prod.fst) intervals' ∧
        List.Forall₂ (SameChoice literals other) intervals intervals' := by
  induction related with
  | nil => exact ⟨[], [], .nil, .nil, .nil⟩
  | @cons entry entry' _ _ first _ ih =>
    rw [List.forall_mem_cons] at filed filed'
    obtain ⟨intervals, intervals', read, read', same⟩ := ih filed.2 filed'.2
    obtain ⟨value, i, j, readI, readJ, bounds⟩ := first
    have labelI := (Partition.ofLabel_eq_ok_iff.mp readI).2.1
    have labelJ := (Partition.ofLabel_eq_ok_iff.mp readJ).2.1
    refine ⟨i :: intervals, j :: intervals', .cons readI read, .cons readJ read',
      .cons ⟨bounds, entry.2, ?_, ?_⟩ same⟩
    · rw [labelI, filed.1]
    · rw [labelJ, filed'.1, value]

/-- The intervals of a respelled payload correspond to those of the payload. -/
theorem exists_counterparts_of_respells
    (respells : literals.Respells Interval.ofLabel Interval.SameBounds other) :
    ∃ intervals intervals', Partition.ReadAs literals.labels intervals ∧
      Partition.ReadAs other.labels intervals' ∧
        Counterparts (SameChoice literals other) intervals intervals' := by
  obtain ⟨reordered, related, perm⟩ := respells
  obtain ⟨intervals, intervals', read, read', same⟩ := exists_sameChoice related
    (fun _ mem => Payload.get?_of_mem mem) fun _ mem => Payload.get?_of_mem (perm.subset mem)
  obtain ⟨intervals'', read'', perm'⟩ := read'.perm (perm.map Prod.fst).symm
  exact ⟨intervals, intervals'', read, read'',
    (Counterparts.of_forall₂ same).perm_right perm'.symm⟩

theorem Cell.test_eq_of_sameBounds {cell cell' : Cell}
    (same : cell.interval.SameBounds cell'.interval) : cell.test operand = cell'.test operand := by
  have upper : cell.upper = cell'.upper := by
    have ends := same.2
    rw [cell.bounded, cell'.bounded] at ends
    exact Option.some.inj ends
  rw [Cell.test, Cell.test, same.1, upper]

/-- Related partitions have the same conditional. -/
theorem Expr.ofPartition_eq_of_related {R : Interval → Interval → Prop}
    {select select' : Interval → Except CompileError Expr}
    (bounds : ∀ i j, R i j → i.SameBounds j) (chosen : ∀ i j, R i j → select i = select' j)
    (same : partition.Related R partition') :
    ofPartition operand select partition = ofPartition operand select' partition' := by
  unfold ofPartition
  rw [chosen _ _ same.top, Outcome.mapM_congr (same.cells.imp fun cell cell' related => ?_)]
  rw [chosen _ _ related, Cell.test_eq_of_sameBounds (bounds _ _ related)]

theorem Expr.ofRange_alike
    (respells : literals.Respells Interval.ofLabel Interval.SameBounds other) :
    Outcome.Alike CompileError.SameKind Eq (ofRange type operand literals)
      (ofRange type operand other) := by
  obtain ⟨intervals, intervals', read, read', counterparts⟩ :=
    exists_counterparts_of_respells respells
  unfold ofRange
  rw [Partition.ofLabels_of_readAs read, Partition.ofLabels_of_readAs read']
  refine (Partition.ofIntervals_alike (fun _ _ same => same.1) counterparts).bind ?_
  intro partition partition' related
  refine .of_eq CompileError.SameKind.refl ?_
  refine Expr.ofPartition_eq_of_related (fun _ _ same => same.1) ?_ related
  rintro i j ⟨_, value, found, found'⟩
  simp only [ofLabel, found, found']

end Range

/-! ### Threshold lookups -/

section Threshold

variable {type : ValueType} {operand : String} {literals other : Payload} {threshold : Threshold}
  {labels : List String}

/-- Labels are refused as a threshold with one kind of error only. -/
theorem Threshold.kind_of_ofLabels {e : CompileError} (refused : ofLabels labels = .error e) :
    e.kind = .invalidThreshold := by
  unfold ofLabels at refused
  cases read : ofConditions labels with
  | ok threshold =>
    rw [read] at refused
    cases refused
  | error defect =>
    rw [read] at refused
    cases refused
    rfl

/-- A payload with a threshold has two entries, one for each half. -/
theorem Payload.entries_perm_of_ofLabels
    (accepted : Threshold.ofLabels literals.labels = .ok threshold) :
    ∃ onUpper onLower, List.Perm
      [(threshold.upper.label, onUpper), (threshold.lower.label, onLower)] literals.entries := by
  obtain ⟨listed, _⟩ := Threshold.ofLabels_eq_ok_iff.mp accepted
  have filed : List.Forall₂ (fun label entry => entry.1 = label) literals.labels
      literals.entries := by
    rw [Payload.labels, List.forall₂_map_left_iff, List.forall₂_same]
    exact fun _ _ => rfl
  obtain ⟨⟨_, onUpper⟩, ⟨_, onLower⟩, rfl, rfl, perm⟩ :=
    ((Counterparts.of_forall₂ filed).perm_left listed.symm).exists_of_pair
  exact ⟨onUpper, onLower, perm⟩

/-- The label that respells the label of a half is read as the same comparison. -/
theorem HalfLine.exists_of_respelled {half : HalfLine} {value : Value} {entry : String × Value}
    (compares : Compares half.label half.comparator half.pivot)
    (respelled : RespelledEntry ofLabel SameComparison (half.label, value) entry) :
    ∃ half', half'.label = entry.1 ∧ half.SameComparison half' ∧
      Compares half'.label half'.comparator half'.pivot := by
  obtain ⟨_, read, half', isRead, isRead', same⟩ := respelled
  obtain rfl : half = read :=
    Except.ok.inj ((ofLabel_eq_ok_iff.mpr ⟨rfl, compares⟩).symm.trans isRead)
  obtain ⟨label, compares'⟩ := ofLabel_eq_ok_iff.mp isRead'
  exact ⟨half', label, same, label ▸ compares'⟩

/-- A respelled payload has a threshold as well, with the same comparison and the same literals. -/
theorem Threshold.exists_of_respells
    (respells : literals.Respells HalfLine.ofLabel HalfLine.SameComparison other)
    (accepted : ofLabels literals.labels = .ok threshold) :
    ∃ respelled onUpper onLower, ofLabels other.labels = .ok respelled ∧
      threshold.upper.SameComparison respelled.upper ∧
      (literals.get? threshold.upper.label = some onUpper ∧
        literals.get? threshold.lower.label = some onLower) ∧
      other.get? respelled.upper.label = some onUpper ∧
        other.get? respelled.lower.label = some onLower := by
  obtain ⟨_, comparesUpper, comparesLower⟩ := ofLabels_eq_ok_iff.mp accepted
  obtain ⟨onUpper, onLower, perm⟩ := Payload.entries_perm_of_ofLabels accepted
  obtain ⟨entry, entry', first, second, perm'⟩ :=
    (Counterparts.perm_left respells perm).exists_of_pair
  obtain ⟨upper, labelUpper, ⟨comparator, pivot⟩, compares⟩ :=
    HalfLine.exists_of_respelled comparesUpper first
  obtain ⟨lower, labelLower, ⟨comparator', pivot'⟩, compares'⟩ :=
    HalfLine.exists_of_respelled comparesLower second
  let respelled : Threshold :=
    { upper, lower
      isUpper := comparator ▸ threshold.isUpper
      complementary := by rw [← comparator, ← comparator', threshold.complementary]
      samePivot := by rw [← pivot, ← pivot']; exact threshold.samePivot }
  have accepted' : ofLabels other.labels = .ok respelled := by
    refine ofLabels_eq_ok_iff.mpr ⟨?_, compares, compares'⟩
    rw [labelUpper, labelLower]
    exact (perm'.map Prod.fst).symm
  refine ⟨respelled, onUpper, onLower, accepted', ⟨comparator, pivot⟩, ⟨?_, ?_⟩, ?_, ?_⟩
  · exact Payload.get?_of_mem (perm.subset List.mem_cons_self)
  · exact Payload.get?_of_mem (perm.subset (List.mem_cons_of_mem _ List.mem_cons_self))
  · rw [labelUpper, Payload.get?_of_mem (perm'.subset List.mem_cons_self), ← first.1]
  · have mem : entry' ∈ other.entries :=
      perm'.subset (List.mem_cons_of_mem _ List.mem_cons_self)
    rw [labelLower, Payload.get?_of_mem mem, ← second.1]

/-- The lookup of a threshold and of the literals of its halves. -/
theorem Expr.ofThreshold_eq {onUpper onLower : Value}
    (accepted : Threshold.ofLabels literals.labels = .ok threshold)
    (upper : literals.get? threshold.upper.label = some onUpper)
    (lower : literals.get? threshold.lower.label = some onLower) :
    ofThreshold type operand literals = .ok (conditional
      [(.compare threshold.upper.comparator operand (.finite threshold.upper.pivot),
        ofValue type onUpper)] (ofValue type onLower)) := by
  unfold ofThreshold
  rw [accepted]
  simp only [Outcome.ok_bind, ofLabel, upper, lower]
  rfl

/-- A respelled payload has the same threshold lookup. -/
theorem Expr.ofThreshold_eq_of_respells
    (respells : literals.Respells HalfLine.ofLabel HalfLine.SameComparison other)
    (accepted : Threshold.ofLabels literals.labels = .ok threshold) :
    ofThreshold type operand other = ofThreshold type operand literals := by
  obtain ⟨respelled, onUpper, onLower, accepted', ⟨comparator, pivot⟩, ⟨upper, lower⟩, upper',
    lower'⟩ := Threshold.exists_of_respells respells accepted
  rw [ofThreshold_eq accepted' upper' lower', ofThreshold_eq accepted upper lower, comparator,
    pivot]

theorem Expr.ofThreshold_alike
    (respells : literals.Respells HalfLine.ofLabel HalfLine.SameComparison other) :
    Outcome.Alike CompileError.SameKind Eq (ofThreshold type operand literals)
      (ofThreshold type operand other) := by
  cases accepted : Threshold.ofLabels literals.labels with
  | ok threshold =>
    exact .of_eq CompileError.SameKind.refl (ofThreshold_eq_of_respells respells accepted).symm
  | error e =>
    cases accepted' : Threshold.ofLabels other.labels with
    | ok threshold =>
      have back := respells.symm fun _ _ same => ⟨same.1.symm, same.2.symm⟩
      exact .of_eq CompileError.SameKind.refl (ofThreshold_eq_of_respells back accepted')
    | error e' =>
      have kinds : e.kind = e'.kind := by
        rw [Threshold.kind_of_ofLabels accepted, Threshold.kind_of_ofLabels accepted']
      simp only [ofThreshold, accepted, accepted', Outcome.error_bind]
      exact .error kinds

end Threshold

/-! ### Compiled lookups -/

namespace Compiler

/-- **Lookups are canonical.** Payloads that respell each other, for a range lookup or for a
threshold lookup, are compiled to the same template, or both are refused with an error of the same
kind. Labels that are all read form the same partition in any order, or are refused with an error of
the same kind in any order. -/
theorem compileSpec_canonical (compiler : Compiler) (field operand : String) (type : ValueType) :
    (∀ literals other : Payload, literals.Respells Interval.ofLabel Interval.SameBounds other →
        Outcome.Alike CompileError.SameKind Eq
          (compiler.compileSpec field type (.range operand literals))
          (compiler.compileSpec field type (.range operand other))) ∧
      (∀ literals other : Payload,
        literals.Respells HalfLine.ofLabel HalfLine.SameComparison other →
          Outcome.Alike CompileError.SameKind Eq
            (compiler.compileSpec field type (.threshold operand literals))
            (compiler.compileSpec field type (.threshold operand other))) ∧
      ∀ labels reordered : List String, reordered.Perm labels →
        (∀ label ∈ labels, ∃ i, Interval.ofLabel label = .ok i) →
          Outcome.Alike CompileError.SameKind Eq (Partition.ofLabels reordered)
            (Partition.ofLabels labels) := by
  refine ⟨fun literals other respells => ?_, fun literals other respells => ?_,
    fun labels reordered perm readable => ?_⟩
  · rw [compileSpec_range, compileSpec_range]
    exact (Expr.ofRange_alike respells).map fun _ _ same => same ▸ rfl
  · rw [compileSpec_threshold, compileSpec_threshold]
    exact (Expr.ofThreshold_alike respells).map fun _ _ same => same ▸ rfl
  · obtain ⟨intervals, read⟩ := Partition.exists_readAs readable
    exact Partition.ofLabels_alike_of_perm read perm

/-- Zero is spelled in other ways, by which the labels of the intervals change places. -/
theorem compileSpec_canonical_at_zero :
    let intervals : Payload := ⟨[("(...0]", .string "low"), ("(0...)", .string "high")],
      List.pairwise_pair.mpr (by decide +kernel)⟩
    let respelled : Payload := ⟨[("(+0...)", .string "high"), ("(...0.0]", .string "low")],
      List.pairwise_pair.mpr (by decide +kernel)⟩
    let halves : Payload := ⟨[("<=0", .string "low"), (">0", .string "high")],
      List.pairwise_pair.mpr (by decide +kernel)⟩
    let respelled' : Payload := ⟨[("<= +0", .string "low"), ("> 0.0", .string "high")],
      List.pairwise_pair.mpr (by decide +kernel)⟩
    (∃ expression, compileSpec {} "grade" .string (.range "score" intervals) = .ok expression ∧
        compileSpec {} "grade" .string (.range "score" respelled) = .ok expression) ∧
      (∃ expression, compileSpec {} "grade" .string (.threshold "score" halves) = .ok expression ∧
        compileSpec {} "grade" .string (.threshold "score" respelled') = .ok expression) ∧
      ∃ partition, Partition.ofLabels ["(...0]", "(0...)"] = .ok partition ∧
        Partition.ofLabels ["(0...)", "(...0]"] = .ok partition := by
  intro intervals respelled halves respelled'
  obtain ⟨ranges, thresholds, orders⟩ := compileSpec_canonical {} "grade" "score" .string
  refine ⟨?_, ?_, ?_⟩
  · have respells : intervals.Respells Interval.ofLabel Interval.SameBounds respelled := by
      refine ⟨[("(...0.0]", .string "low"), ("(+0...)", .string "high")],
        .cons ?_ (.cons ?_ .nil), .swap _ _ _⟩
      · exact ⟨rfl, ⟨"(...0]", none, some ⟨.zero false, true⟩⟩,
          ⟨"(...0.0]", none, some ⟨.zero false, true⟩⟩, by decide +kernel, by decide +kernel, rfl,
          rfl⟩
      · exact ⟨rfl, ⟨"(0...)", some ⟨.zero false, false⟩, none⟩,
          ⟨"(+0...)", some ⟨.zero false, false⟩, none⟩, by decide +kernel, by decide +kernel, rfl,
          rfl⟩
    have succeeds : (compileSpec {} "grade" .string (.range "score" intervals)).toOption.isSome =
        true := by decide +kernel
    obtain ⟨expression, compiled⟩ := Outcome.exists_eq_ok_of_isSome succeeds
    exact ⟨expression, compiled, (ranges _ _ respells).eq_ok_iff.mp compiled⟩
  · have respells : halves.Respells HalfLine.ofLabel HalfLine.SameComparison respelled' := by
      refine ⟨[("<= +0", .string "low"), ("> 0.0", .string "high")],
        .cons ?_ (.cons ?_ .nil), .refl _⟩
      · exact ⟨rfl, ⟨"<=0", .lessOrEqual, .zero false⟩, ⟨"<= +0", .lessOrEqual, .zero false⟩,
          by decide +kernel, by decide +kernel, rfl, rfl⟩
      · exact ⟨rfl, ⟨">0", .greater, .zero false⟩, ⟨"> 0.0", .greater, .zero false⟩,
          by decide +kernel, by decide +kernel, rfl, rfl⟩
    have succeeds : (compileSpec {} "grade" .string (.threshold "score" halves)).toOption.isSome =
        true := by decide +kernel
    obtain ⟨expression, compiled⟩ := Outcome.exists_eq_ok_of_isSome succeeds
    exact ⟨expression, compiled, (thresholds _ _ respells).eq_ok_iff.mp compiled⟩
  · have readable : ∀ label ∈ ["(...0]", "(0...)"], ∃ i, Interval.ofLabel label = .ok i := by
      simp only [List.forall_mem_cons]
      exact ⟨Outcome.exists_eq_ok_of_isSome (by decide +kernel),
        Outcome.exists_eq_ok_of_isSome (by decide +kernel), nofun⟩
    have succeeds : (Partition.ofLabels ["(...0]", "(0...)"]).toOption.isSome = true := by
      decide +kernel
    obtain ⟨partition, accepted⟩ := Outcome.exists_eq_ok_of_isSome succeeds
    have alike := orders ["(...0]", "(0...)"] ["(0...)", "(...0]"] (.swap _ _ _) readable
    exact ⟨partition, accepted, alike.eq_ok_iff.mpr accepted⟩

end Compiler

end DecisionCompiler
