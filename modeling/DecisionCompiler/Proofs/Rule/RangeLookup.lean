import DecisionCompiler.Compiler
import DecisionCompiler.Proofs.Interval.Tiling
import DecisionCompiler.Proofs.Template.Selection

/-!
What a compiled range lookup selects.

The test of a cell holds of an operand exactly when its interval contains the operand
(`test_holds_iff`), so a conditional over a partition asks which interval an operand lies in. Every
label of an accepted partition is a label of the payload and has its literal there
(`Payload.exists_get?`); nothing but the labels can therefore make a range lookup fail.

`compileSpec_range_selects` is the result: a range lookup is compiled exactly when its labels are
accepted, and what it selects is the literal of the one interval that contains the operand.
-/

namespace DecisionCompiler

/-! ### Tests -/

section Tests

variable {values : Operands} {operand : String}

theorem testAbove_holds_iff (e : Endpoint) :
    (e.testAbove operand).Holds values ↔ Above (some e) (values.number operand) := by
  rw [above_some_iff]
  cases closed : e.closed <;>
    simp [Endpoint.testAbove, Condition.Holds, Comparator.HoldsOf, Comparator.Holds, closed]

theorem testBelow_holds_iff (e : Endpoint) :
    (e.testBelow operand).Holds values ↔ Below (some e) (values.number operand) := by
  rw [below_some_iff]
  cases closed : e.closed <;>
    simp [Endpoint.testBelow, Condition.Holds, Comparator.HoldsOf, Comparator.Holds, closed]

/-- The test of a cell holds exactly of the operands in its interval. -/
theorem test_holds_iff (cell : Cell) :
    (cell.test operand).Holds values ↔ cell.interval.Contains (values.number operand) := by
  rw [Interval.Contains, cell.bounded]
  unfold Cell.test
  split
  · rename_i lower
    rw [lower, testBelow_holds_iff]
    simp
  · rename_i lower
    rw [lower, Condition.Holds, testAbove_holds_iff, testBelow_holds_iff]

end Tests

/-! ### Cells and the top -/

namespace Partition

/-- The cells are the intervals with an upper endpoint. -/
theorem countP_bounded (partition : Partition) :
    (partition.intervals.countP fun i => i.upper.isSome) = partition.cells.length := by
  have cells : ∀ cell ∈ partition.cells, cell.interval.upper.isSome = true := fun cell _ => by
    rw [cell.bounded]
    rfl
  rw [intervals, List.countP_append, List.countP_map]
  simp [partition.unbounded, List.countP_eq_length.mpr cells, Function.comp_def]

/-- The top is the only interval without one. -/
theorem countP_unbounded (partition : Partition) :
    (partition.intervals.countP fun i => i.upper.isNone) = 1 := by
  have cells : ∀ cell ∈ partition.cells, ¬cell.interval.upper.isNone = true := fun cell _ => by
    rw [cell.bounded]
    exact Bool.false_ne_true
  rw [intervals, List.countP_append, List.countP_map]
  simp [partition.unbounded, List.countP_eq_zero.mpr cells, Function.comp_def]

end Partition

/-! ### The literals of a payload -/

/-- Every label of a payload has its literal. -/
theorem Payload.exists_get? {literals : Payload} {label : String}
    (mem : label ∈ literals.labels) : ∃ value, literals.get? label = some value := by
  obtain ⟨entry, found, rfl⟩ := List.mem_map.mp mem
  exact ⟨entry.2, (Entries.get?_eq_some_iff literals.ascending).mpr found⟩

/-! ### The conditional over a partition -/

namespace Expr

variable {operand : String} {select : Interval → Except CompileError Expr}
  {partition : Partition} {expr : Expr} {e : CompileError}

/-- A conditional over a partition has a branch for each cell and the interval above them as its
fallback. -/
theorem ofPartition_eq_ok_iff :
    ofPartition operand select partition = .ok expr ↔
      ∃ branches fallback, expr = conditional branches fallback ∧
        List.Forall₂ (fun cell branch => branch.1 = cell.test operand ∧
          select cell.interval = .ok branch.2) partition.cells branches ∧
        select partition.top = .ok fallback := by
  have branch_iff (cell : Cell) (branch : Condition × Expr) :
      (do let expr ← select cell.interval; return (cell.test operand, expr)) = .ok branch ↔
        branch.1 = cell.test operand ∧ select cell.interval = .ok branch.2 := by
    rw [Outcome.bind_eq_ok_iff]
    constructor
    · rintro ⟨expr, found, ⟨⟩⟩
      exact ⟨rfl, found⟩
    · rintro ⟨test, found⟩
      exact ⟨branch.2, found, by rw [← test]; rfl⟩
  simp only [ofPartition, Outcome.bind_eq_ok_iff, Outcome.mapM_eq_ok_iff, branch_iff]
  constructor
  · rintro ⟨branches, parts, fallback, top, ⟨⟩⟩
    exact ⟨branches, fallback, rfl, parts, top⟩
  · rintro ⟨branches, fallback, rfl, parts, top⟩
    exact ⟨branches, parts, fallback, top, rfl⟩

/-- A conditional over a partition fails only if an interval has no expression. -/
theorem exists_of_ofPartition_eq_error (h : ofPartition operand select partition = .error e) :
    ∃ i ∈ partition.intervals, select i = .error e := by
  rcases Outcome.bind_eq_error_iff.mp h with h | ⟨_, _, h⟩
  · obtain ⟨before, _, cell, after, split, _, h⟩ := Outcome.mapM_eq_error_iff.mp h
    have h : select cell.interval = .error e := by
      simpa [Outcome.bind_eq_error_iff] using h
    exact ⟨cell.interval, by simp [Partition.intervals, split], h⟩
  · have h : select partition.top = .error e := by
      simpa [Outcome.bind_eq_error_iff] using h
    exact ⟨partition.top, by simp [Partition.intervals], h⟩

/-- The expression is the literal that is filed under a label. -/
def IsLiteralOf (type : ValueType) (literals : Payload) (label : String) (expr : Expr) : Prop :=
  ∃ value, literals.get? label = some value ∧ expr = ofValue type value

section Range

variable {type : ValueType} {literals : Payload} {missing : CompileError} {label : String}

theorem ofLabel_eq_ok_iff :
    ofLabel type literals missing label = .ok expr ↔ IsLiteralOf type literals label expr := by
  cases found : literals.get? label <;> simp [ofLabel, IsLiteralOf, found, eq_comm]

/-- The range lookup of an accepted partition compiles: no label is without its literal. -/
theorem ofRange_eq_ok (type : ValueType) (operand : String)
    (h : Partition.ofLabels literals.labels = .ok partition) :
    ∃ branches fallback,
      ofRange type operand literals = .ok (conditional branches fallback) ∧
        List.Forall₂ (fun cell branch => branch.1 = cell.test operand ∧
          IsLiteralOf type literals cell.interval.label branch.2) partition.cells branches ∧
        IsLiteralOf type literals partition.top.label fallback := by
  rw [ofRange, h, Outcome.ok_bind]
  cases compiled : ofPartition operand (fun i : Interval =>
      ofLabel type literals (.invalidInterval i.label .valueless) i.label) partition with
  | error e =>
    obtain ⟨i, mem, fails⟩ := exists_of_ofPartition_eq_error compiled
    obtain ⟨value, found⟩ := Payload.exists_get? (Partition.label_mem_of_ofLabels h mem)
    rw [ofLabel_eq_ok_iff.mpr ⟨value, found, rfl⟩] at fails
    exact nomatch fails
  | ok expr =>
    obtain ⟨branches, fallback, rfl, parts, top⟩ := ofPartition_eq_ok_iff.mp compiled
    simp only [ofLabel_eq_ok_iff] at parts top
    exact ⟨branches, fallback, rfl, parts, top⟩

/-- As many conditions hold of an operand as cells contain it. -/
theorem countP_holds_eq_coverage (values : Operands) {cells : List Cell}
    {branches : List (Condition × Expr)} {related : Cell → Condition × Expr → Prop}
    (parts : List.Forall₂ (fun cell branch => branch.1 = cell.test operand ∧ related cell branch)
      cells branches) :
    (branches.countP fun branch => branch.1.Holds values) =
      coverage (values.number operand) (cells.map Cell.interval) := by
  induction parts with
  | nil => rfl
  | @cons cell branch _ _ first _ ih =>
    have same : branch.1.Holds values ↔ cell.interval.Contains (values.number operand) := by
      rw [first.1, test_holds_iff]
    rw [List.map_cons, coverage_cons, ← ih, List.countP_cons]
    simp [same]

/-- What a conditional over a partition chooses is the literal of the interval that contains the
operand, whatever the order of the branches. -/
theorem exists_chosen {branches : List (Condition × Expr)} {fallback : Expr}
    (tiles : Tiles partition.intervals)
    (parts : List.Forall₂ (fun cell branch => branch.1 = cell.test operand ∧
      IsLiteralOf type literals cell.interval.label branch.2) partition.cells branches)
    (top : IsLiteralOf type literals partition.top.label fallback) (values : Operands) :
    (branches.countP fun branch => branch.1.Holds values) ≤ 1 ∧
      ∃ i ∈ partition.intervals, i.Contains (values.number operand) ∧
        ∃ value, literals.get? i.label = some value ∧
          ∀ reordered, reordered.Perm branches →
            (conditional reordered fallback).chosen values = .literal (type.literal value) := by
  have count := countP_holds_eq_coverage values parts
  have one := tiles (values.number operand)
  rw [Partition.intervals, coverage_append, coverage_cons, coverage_nil, Nat.zero_add] at one
  refine ⟨by omega, ?_⟩
  by_cases inTop : partition.top.Contains (values.number operand)
  · -- No condition holds, and the fallback is the literal of the top.
    obtain ⟨value, found, rfl⟩ := top
    refine ⟨partition.top, by simp [Partition.intervals], inTop, value, found, ?_⟩
    intro reordered perm
    rw [if_pos inTop] at one
    have zero : (branches.countP fun branch => branch.1.Holds values) = 0 := by omega
    have none : ∀ branch ∈ branches, ¬branch.1.Holds values := by
      simpa [List.countP_eq_zero] using zero
    exact chosen_conditional_of_none fun branch mem => none branch (perm.subset mem)
  · -- The interval of one cell contains the operand, and the branch of the cell holds.
    rw [if_neg inTop] at one
    obtain ⟨cell, mem, inside⟩ :
        ∃ cell ∈ partition.cells, cell.interval.Contains (values.number operand) := by
      have positive : 0 < coverage (values.number operand) (partition.cells.map Cell.interval) := by
        omega
      simpa [coverage] using positive
    obtain ⟨branch, memBranch, test, value, found, literal⟩ := Outcome.exists_of_forall₂ parts mem
    refine ⟨cell.interval, ?_, inside, value, found, ?_⟩
    · simp only [Partition.intervals, List.mem_append, List.mem_map]
      exact .inl ⟨cell, mem, rfl⟩
    intro reordered perm
    have holds : branch.1.Holds values := by rw [test, test_holds_iff]; exact inside
    have single : (reordered.countP fun branch => branch.1.Holds values) ≤ 1 := by
      rw [perm.countP_eq]
      omega
    rw [chosen_conditional_of_mem (perm.mem_iff.mpr memBranch) holds single, literal]
    rfl

end Range

end Expr

/-! ### The lookup -/

namespace Compiler

/-- The rule of a known kind is compiled to the template of its expression. -/
theorem compileSpec_eq_map (compiler : Compiler) (field : String) {type : ValueType}
    {spec : RuleSpec} {made : Except CompileError Expr}
    (known : ∀ kind, spec ≠ .unknown kind) (ofSpec : Expr.ofSpec type spec = made.map some) :
    compiler.compileSpec field type spec =
      made.map fun body => ⟨String.ofList (Template.mk field body).render⟩ := by
  unfold compileSpec
  rw [ofSpec]
  split
  · exact absurd rfl (known _)
  · cases made <;> rfl

theorem compileSpec_range (compiler : Compiler) (field operand : String) (type : ValueType)
    (literals : Payload) :
    compiler.compileSpec field type (.range operand literals) =
      (Expr.ofRange type operand literals).map fun body =>
        ⟨String.ofList (Template.mk field body).render⟩ :=
  compileSpec_eq_map compiler field nofun rfl

/-- **A range lookup selects the literal of the interval.** It is compiled exactly when its labels
are accepted, and fails as they do otherwise. Compiled, it has one branch for each interval with an
upper endpoint; of every operand at most one condition holds, and whatever the order of the
branches, what is chosen is the literal of the one interval that contains the operand. -/
theorem compileSpec_range_selects (compiler : Compiler) (field operand : String)
    (type : ValueType) (literals : Payload) :
    (∀ e, compiler.compileSpec field type (.range operand literals) = .error e ↔
        Partition.ofLabels literals.labels = .error e) ∧
      ∀ partition, Partition.ofLabels literals.labels = .ok partition →
        ∃ branches fallback,
          Expr.ofRange type operand literals = .ok (.conditional branches fallback) ∧
            compiler.compileSpec field type (.range operand literals) =
              .ok ⟨String.ofList (Template.mk field (.conditional branches fallback)).render⟩ ∧
            branches.length = (partition.intervals.countP fun i => i.upper.isSome) ∧
            (partition.intervals.countP fun i => i.upper.isNone) = 1 ∧
            ∀ values : Operands,
              (branches.countP fun branch => branch.1.Holds values) ≤ 1 ∧
              ∃ i ∈ partition.intervals, ∃ value,
                (∀ j ∈ partition.intervals, j.Contains (values.number operand) ↔ j = i) ∧
                literals.get? i.label = some value ∧
                ∀ reordered, reordered.Perm branches →
                  (Expr.conditional reordered fallback).chosen values =
                    .literal (type.literal value) := by
  rw [compileSpec_range]
  constructor
  · intro e
    cases h : Partition.ofLabels literals.labels with
    | error e' => simp [Expr.ofRange, h]
    | ok partition =>
      obtain ⟨branches, fallback, compiled, _⟩ := Expr.ofRange_eq_ok type operand h
      simp [compiled]
  · intro partition h
    obtain ⟨branches, fallback, compiled, parts, top⟩ := Expr.ofRange_eq_ok type operand h
    have tiles := Partition.tiles_of_ofLabels h
    refine ⟨branches, fallback, compiled, by rw [compiled]; rfl, ?_, ?_, fun values => ?_⟩
    · rw [← parts.length_eq, partition.countP_bounded]
    · exact partition.countP_unbounded
    · obtain ⟨single, i, mem, inside, value, found, chosen⟩ :=
        Expr.exists_chosen tiles parts top values
      refine ⟨single, i, mem, value, fun j memJ => ⟨fun insideJ => ?_, ?_⟩, found, chosen⟩
      · exact eq_of_countP_le_one (tiles (values.number operand)).le memJ mem (by simpa)
          (by simpa)
      · rintro rfl
        exact inside

/-- Two grades: the boundary belongs to the upper one, whose label spells it in another way. -/
theorem compileSpec_range_selects_at_boundary :
    let grades := Payload.ofEntries [("(...10)", .string "low"), ("[1e1...)", .string "high")]
    ∃ branches fallback,
      compileSpec {} "grade" .string (.range "score" grades) =
          .ok ⟨String.ofList (Template.mk "grade" (.conditional branches fallback)).render⟩ ∧
        ∀ values : Operands, values.number "score" = 10 →
          (Expr.conditional branches fallback).chosen values = .literal "\"high\"" := by
  intro grades
  have located : ((Partition.ofLabels grades.labels).toOption.map fun partition =>
      (partition.intervals.filter fun i => i.Contains 10).map Interval.label) =
        some ["[1e1...)"] := by decide +kernel
  cases h : Partition.ofLabels grades.labels with
  | error e => simp [h, Except.toOption] at located
  | ok partition =>
    obtain ⟨branches, fallback, _, compiled, _, _, selects⟩ :=
      (compileSpec_range_selects {} "grade" "score" .string grades).2 partition h
    refine ⟨branches, fallback, compiled, fun values ten => ?_⟩
    obtain ⟨_, i, mem, value, unique, found, chosen⟩ := selects values
    have inside : i.Contains 10 := ten ▸ (unique i mem).mpr rfl
    have label : i.label = "[1e1...)" := by
      have kept : i ∈ partition.intervals.filter fun i => i.Contains 10 :=
        List.mem_filter.mpr ⟨mem, decide_eq_true inside⟩
      rw [h] at located
      exact List.mem_singleton.mp (Option.some.inj located ▸ List.mem_map_of_mem kept)
    have filed : grades.get? "[1e1...)" = some (.string "high") := by rfl
    cases Option.some.inj (filed.symm.trans (label ▸ found))
    exact chosen branches (.refl _)

end Compiler

end DecisionCompiler
