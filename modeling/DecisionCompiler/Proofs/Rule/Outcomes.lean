import DecisionCompiler.Proofs.Rule.Canonical

/-!
How the compilation of a rule ends.

`Compiler.verdict` is a table of all endings, in the order in which they are looked for: a rule of
an unknown kind is asked for nothing, a call for the name of a function, and a lookup for its
operand before it is asked for a mapping, and only then for labels that are accepted. The compiler
itself spreads these tests over settling the form of a rule, the options, the readers of labels and
the assembly of the expression, where none is added (`compileSpec_alike`).

The fixed text of a rule of an unknown kind is never the text of a template, since a template begins
with a brace whatever its key and its expression are (`Template.text_ne_unsupported`).
`compileRule_outcome` puts both together.
-/

namespace DecisionCompiler

/-- The operand of a lookup: the first argument, unless it is empty. -/
def RuleRequest.operand? (request : RuleRequest) : Option String :=
  request.args.head?.filter (· ≠ "")

/-- How the compilation of a rule ends, apart from what it gives: the first row that applies. -/
def Compiler.verdict (compiler : Compiler) (field : String) (request : RuleRequest) :
    Except CompileError Unit :=
  match RuleKind.ofName request.kind, request.operand?, request.payload with
  | .unknown kind, _, _ =>
    if compiler.rejectUnknownRules then .error (.unsupportedRule kind) else .ok ()
  | .func, _, .string _ => .ok ()
  | .func, _, payload => .error (.wrongPayload field .functionName payload.kind)
  -- From here on the rule is a lookup.
  | _, none, _ => .error (.missingOperand field)
  | .boolMap, some _, .object _ => .ok ()
  | .intervalMap, some _, .object entries =>
    (Partition.ofLabels (Payload.ofEntries entries).labels).map fun _ => ()
  | .thresholdMap, some _, .object entries =>
    (Threshold.ofLabels (Payload.ofEntries entries).labels).map fun _ => ()
  | _, some _, payload => .error (.wrongPayload field .mapping payload.kind)

/-! ### The form of a rule -/

namespace RuleSpec

variable {field : String} {request : RuleRequest} {spec : RuleSpec} {e : CompileError}

theorem operandOf_eq (field : String) (request : RuleRequest) :
    operandOf field request =
      match request.operand? with
      | some operand => .ok operand
      | none => .error (.missingOperand field) := by
  unfold operandOf RuleRequest.operand?
  cases request.args with
  | nil => rfl
  | cons operand others => by_cases empty : operand = "" <;> simp [Option.filter, empty]

/-- The form of a rule has the kind that the rule names. -/
theorem kind_of_ofRequest (settled : ofRequest field request = .ok spec) :
    spec.kind = RuleKind.ofName request.kind := by
  unfold ofRequest at settled
  cases named : RuleKind.ofName request.kind with
  | intervalMap | boolMap | thresholdMap =>
    simp only [named, Outcome.bind_eq_ok_iff, Outcome.pure_eq_ok, Except.ok.injEq] at settled
    obtain ⟨_, _, _, _, rfl⟩ := settled
    rfl
  | func =>
    simp only [named, Outcome.bind_eq_ok_iff, Outcome.pure_eq_ok, Except.ok.injEq] at settled
    obtain ⟨_, _, rfl⟩ := settled
    rfl
  | unknown kind =>
    rw [named] at settled
    cases settled
    rfl

theorem kind_of_operandOf (refused : operandOf field request = .error e) :
    e.kind = .missingOperand := by
  rw [operandOf_eq] at refused
  split at refused <;> cases refused
  rfl

theorem kind_of_mappingOf (refused : mappingOf field request = .error e) :
    e.kind = .wrongPayload := by
  unfold mappingOf at refused
  split at refused <;> cases refused
  rfl

theorem kind_of_functionOf (refused : functionOf field request = .error e) :
    e.kind = .wrongPayload := by
  unfold functionOf at refused
  split at refused <;> cases refused
  rfl

/-- The form of a rule is refused for its operand or for its payload. -/
theorem kind_of_unsettled (unsettled : ofRequest field request = .error e) :
    e.kind = .missingOperand ∨ e.kind = .wrongPayload := by
  unfold ofRequest at unsettled
  cases named : RuleKind.ofName request.kind with
  | intervalMap | boolMap | thresholdMap =>
    simp only [named, Outcome.bind_eq_error_iff, Outcome.pure_eq_ok, reduceCtorEq, and_false,
      exists_false, or_false] at unsettled
    rcases unsettled with unsettled | ⟨_, _, unsettled⟩
    · exact .inl (kind_of_operandOf unsettled)
    · exact .inr (kind_of_mappingOf unsettled)
  | func =>
    simp only [named, Outcome.bind_eq_error_iff, Outcome.pure_eq_ok, reduceCtorEq, and_false,
      exists_false, or_false] at unsettled
    exact .inr (kind_of_functionOf unsettled)
  | unknown kind =>
    rw [named] at unsettled
    cases unsettled

end RuleSpec

namespace Compiler

/-- What is left to be looked at once the form of a rule is settled. -/
def examine (compiler : Compiler) : RuleSpec → Except CompileError Unit
  | .unknown kind =>
    if compiler.rejectUnknownRules then .error (.unsupportedRule kind) else .ok ()
  | .range _ literals => (Partition.ofLabels literals.labels).map fun _ => ()
  | .threshold _ literals => (Threshold.ofLabels literals.labels).map fun _ => ()
  | .bool .. | .call .. => .ok ()

/-- The table is gone through in two steps, the form of the rule first. -/
theorem verdict_eq_bind (compiler : Compiler) (field : String) (request : RuleRequest) :
    compiler.verdict field request = RuleSpec.ofRequest field request >>= compiler.examine := by
  unfold verdict RuleSpec.ofRequest
  cases RuleKind.ofName request.kind with
  | unknown kind => rfl
  | func =>
    unfold RuleSpec.functionOf
    cases request.payload <;> rfl
  | intervalMap | boolMap | thresholdMap =>
    simp only [RuleSpec.operandOf_eq, RuleSpec.mappingOf]
    cases request.operand? with
    | none => rfl
    | some operand => cases request.payload <;> rfl

end Compiler

/-! ### The errors of labels -/

/-- The errors with which the labels of intervals are refused. -/
def CompileError.RefusesIntervals (e : CompileError) : Prop :=
  e.kind ∈ [.invalidInterval, .nonExhaustiveIntervals, .overlappingIntervals]

section Labels

variable {label : String} {labels : List String} {intervals remaining : List Interval}
  {bound : Option Endpoint} {e : CompileError}

theorem Interval.refuses_of_ofLabel (refused : ofLabel label = .error e) : e.RefusesIntervals := by
  unfold ofLabel at refused
  split at refused
  · cases refused
    exact List.mem_cons_self
  · dsimp only at refused
    split at refused <;> cases refused
    exact List.mem_cons_self

namespace Partition

theorem refuses_of_climb (refused : climb bound remaining = .error e) : e.RefusesIntervals := by
  fun_induction climb bound remaining generalizing e with
  | case1 | case2 =>
    cases refused
    simp [CompileError.RefusesIntervals, CompileError.kind]
  | case3 => cases refused
  | case4 _ _ _ _ _ _ _ _ ih =>
    rcases Outcome.bind_eq_error_iff.mp refused with refused | ⟨_, _, absurd⟩
    · exact ih refused
    · cases absurd

theorem refuses_of_ofIntervals (refused : ofIntervals intervals = .error e) :
    e.RefusesIntervals := by
  by_cases several : intervals.length = 1
  · obtain ⟨i, rfl⟩ := List.length_eq_one_iff.mp several
    cases refused
    exact List.mem_cons_self
  · rw [ofIntervals_of_several several] at refused
    rcases Outcome.bind_eq_error_iff.mp refused with refused | ⟨_, _, refused⟩
    · exact refuses_of_climb refused
    · unfold settle at refused
      split at refused
      · cases refused
        exact List.mem_cons_self
      · split at refused <;> cases refused
        simp [CompileError.RefusesIntervals, CompileError.kind]

theorem refuses_of_ofLabels (refused : ofLabels labels = .error e) : e.RefusesIntervals := by
  rcases Outcome.bind_eq_error_iff.mp refused with unread | ⟨intervals, _, refused⟩
  · obtain ⟨_, _, _, _, _, _, unread⟩ := Outcome.mapM_eq_error_iff.mp unread
    exact Interval.refuses_of_ofLabel unread
  · exact refuses_of_ofIntervals refused

end Partition

end Labels

/-! ### The compiled text -/

/-- The text of a template begins with a brace. -/
theorem Template.text_ne_unsupported (template : Template) :
    (⟨String.ofList template.render⟩ : Expression) ≠ .unsupported := by
  intro same
  have text : String.ofList template.render = "unsupported rule type" :=
    congrArg Expression.text same
  have brace : '{' = 'u' := by
    have chars := congrArg (fun s => s.toList.head?) text
    rw [String.toList_ofList, Template.render] at chars
    exact Option.some.inj chars
  exact absurd brace (by decide)

namespace Compiler

variable {compiler : Compiler} {field : String} {type : ValueType} {spec : RuleSpec}

/-- A rule of a known kind ends as the making of its expression does, and gives a template. -/
theorem compileSpec_alike_of_made {made : Except CompileError Expr}
    {examined : Except CompileError Unit} (known : ∀ kind, spec ≠ .unknown kind)
    (ofSpec : Expr.ofSpec type spec = made.map some)
    (alike : Outcome.Alike Eq (fun _ _ => True) made examined) :
    Outcome.Alike Eq (fun expression _ => expression = .unsupported ↔ ∃ kind, spec = .unknown kind)
      (compiler.compileSpec field type spec) examined := by
  rw [compileSpec_eq_map compiler field known ofSpec]
  cases alike with
  | ok _ =>
    refine .ok (iff_of_false (Template.text_ne_unsupported _) ?_)
    rintro ⟨kind, unknown⟩
    exact known kind unknown
  | error same => exact .error same

/-- A rule whose form is settled ends as what is left to be looked at. -/
theorem compileSpec_alike (compiler : Compiler) (field : String) (type : ValueType)
    (spec : RuleSpec) :
    Outcome.Alike Eq (fun expression _ => expression = .unsupported ↔ ∃ kind, spec = .unknown kind)
      (compiler.compileSpec field type spec) (compiler.examine spec) := by
  cases spec with
  | range operand literals =>
    refine compileSpec_alike_of_made (by simp) rfl (Outcome.alike_of_map ?_ ?_)
    · intro e refused
      rw [Expr.ofRange, refused, Outcome.error_bind]
    · intro partition accepted
      obtain ⟨_, _, made, _⟩ := Expr.ofRange_eq_ok type operand accepted
      exact ⟨_, made⟩
  | threshold operand literals =>
    refine compileSpec_alike_of_made (by simp) rfl (Outcome.alike_of_map ?_ ?_)
    · intro e refused
      rw [Expr.ofThreshold, refused, Outcome.error_bind]
    · intro threshold accepted
      obtain ⟨_, _, made, _⟩ := Expr.ofThreshold_eq_ok type operand accepted
      exact ⟨_, made⟩
  | bool operand onTrue onFalse =>
    have made : Expr.ofSpec type (.bool operand onTrue onFalse) =
        (Except.ok (Expr.ofBool type operand onTrue onFalse)).map some := rfl
    exact compileSpec_alike_of_made (by simp) made (.ok trivial)
  | call function operands =>
    have made : Expr.ofSpec type (.call function operands) =
        (Except.ok (Expr.call function operands)).map some := rfl
    exact compileSpec_alike_of_made (by simp) made (.ok trivial)
  | unknown kind =>
    unfold compileSpec examine
    cases compiler.rejectUnknownRules with
    | true => exact .error rfl
    | false => exact .ok (iff_of_true rfl ⟨kind, rfl⟩)

/-- The compilation of a rule ends as the table says. -/
theorem compileRule_alike (compiler : Compiler) (field : String) (type : ValueType)
    (request : RuleRequest) :
    Outcome.Alike Eq
      (fun expression _ =>
        expression = .unsupported ↔ ∃ kind, RuleKind.ofName request.kind = .unknown kind)
      (compiler.compileRule field type request) (compiler.verdict field request) := by
  rw [verdict_eq_bind, compileRule]
  cases settled : RuleSpec.ofRequest field request with
  | error e => exact .error rfl
  | ok spec =>
    refine (compiler.compileSpec_alike field type spec).imp fun expression _ fixed => ?_
    rw [fixed, ← RuleSpec.kind_of_ofRequest settled]
    cases spec <;> simp [RuleSpec.kind]

/-- Nothing in the table is about the source of a field. -/
theorem kind_of_verdict {request : RuleRequest} {e : CompileError}
    (refused : compiler.verdict field request = .error e) : e.kind ≠ .unrecognizedSource := by
  rw [verdict_eq_bind] at refused
  rcases Outcome.bind_eq_error_iff.mp refused with unsettled | ⟨spec, _, refused⟩
  · rcases RuleSpec.kind_of_unsettled unsettled with kind | kind <;> rw [kind] <;> exact nofun
  · cases spec with
    | range operand literals =>
      have kinds := Partition.refuses_of_ofLabels (Outcome.map_eq_error_iff.mp refused)
      intro source
      simp [CompileError.RefusesIntervals, source] at kinds
    | threshold operand literals =>
      rw [Threshold.kind_of_ofLabels (Outcome.map_eq_error_iff.mp refused)]
      exact nofun
    | unknown kind =>
      simp only [examine] at refused
      split at refused <;> cases refused
      exact nofun
    | bool | call => cases refused

/-- **All endings of the compilation of a rule.** It fails with the error of the first row of
the table that applies, and has a result if that row has none. The labels of a range lookup are
refused as intervals, those of a threshold lookup as a threshold, and nothing is reported about the
source of a field. What is compiled is the fixed text exactly if the rule is of an unknown kind,
whatever the key, the type and the payload are. -/
theorem compileRule_outcome (compiler : Compiler) (field : String) (type : ValueType)
    (request : RuleRequest) :
    (∀ e, compiler.compileRule field type request = .error e ↔
        compiler.verdict field request = .error e) ∧
      ((∃ expression, compiler.compileRule field type request = .ok expression) ↔
        compiler.verdict field request = .ok ()) ∧
      (∀ labels e, Partition.ofLabels labels = .error e → e.RefusesIntervals) ∧
      (∀ labels e, Threshold.ofLabels labels = .error e → e.kind = .invalidThreshold) ∧
      (∀ e, compiler.compileRule field type request = .error e → e.kind ≠ .unrecognizedSource) ∧
      ∀ expression, compiler.compileRule field type request = .ok expression →
        (expression = .unsupported ↔ ∃ kind, RuleKind.ofName request.kind = .unknown kind) := by
  have alike := compiler.compileRule_alike field type request
  refine ⟨fun e => alike.eq_error_iff, ?_, fun _ _ => Partition.refuses_of_ofLabels,
    fun _ _ => Threshold.kind_of_ofLabels,
    fun e refused => kind_of_verdict (alike.eq_error_iff.mp refused), ?_⟩
  · rw [alike.exists_ok_iff]
    exact ⟨fun ⟨_, passes⟩ => passes, fun passes => ⟨(), passes⟩⟩
  · intro expression compiled
    obtain ⟨_, _, fixed⟩ := alike.exists_of_ok compiled
    exact fixed

/-- A lookup with neither an operand nor a mapping lacks its operand; a call in which a function is
missing is refused for its payload, whatever its arguments are; a rule of an unknown kind is refused
by a strict compiler for its kind alone. -/
theorem compileRule_outcome_precedence :
    let lookup : RuleRequest := { kind := "IntervalMap", args := [""], payload := .string "risk" }
    let call : RuleRequest := { kind := "Func", payload := .object [] }
    let matrix : RuleRequest := { kind := "Matrix" }
    compileRule {} "x" .bool lookup = .error (.missingOperand "x") ∧
      compileRule {} "x" .bool call = .error (.wrongPayload "x" .functionName "object") ∧
      compileRule { rejectUnknownRules := true } "x" .bool matrix =
        .error (.unsupportedRule "Matrix") ∧
      ∃ expression, compileRule {} "x" .bool matrix = .ok expression ∧
        expression = .unsupported := by
  intro lookup call matrix
  obtain ⟨_, succeeds, _, _, _, fixed⟩ := compileRule_outcome {} "x" .bool matrix
  obtain ⟨expression, compiled⟩ := succeeds.mpr rfl
  exact ⟨((compileRule_outcome {} "x" .bool lookup).1 _).mpr rfl,
    ((compileRule_outcome {} "x" .bool call).1 _).mpr rfl,
    ((compileRule_outcome { rejectUnknownRules := true } "x" .bool matrix).1 _).mpr rfl,
    expression, compiled, (fixed expression compiled).mpr ⟨"Matrix", rfl⟩⟩

end Compiler

end DecisionCompiler
