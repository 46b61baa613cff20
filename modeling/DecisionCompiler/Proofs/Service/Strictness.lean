import DecisionCompiler.Proofs.Decision.Assembly
import DecisionCompiler.Proofs.Rule.Outcomes
import DecisionCompiler.Proofs.Service.Batch

/-!
What it changes to reject rules of unknown kinds.

A lenient compiler and a strict one do the same at every field but at an output whose rule is of an
unknown kind, which the one passes and the other refuses. The strict run of a batch is therefore the
lenient run up to the first such field: both fail before it, or the strict run ends there
(`Compiler.strict_follows_lenient`). That a strict run never does anything else is carried through
the steps of assembly by `Outcome.Follows`, and through the inserts of a batch by
`Service.strict_run_or_stop`.
-/

namespace DecisionCompiler

/-- The kind of the rule of an output field, if it is unknown. -/
def Site.unknownKind? : Site → Option String
  | .input _ => none
  | .output field =>
    match RuleKind.ofName field.rule.kind with
    | .unknown kind => some kind
    | _ => none

/-- The first field of a batch with a rule of an unknown kind stands at the given position. -/
structure Batch.FirstUnknown (batch : Batch) (n : ℕ) (kind : String) : Prop where
  before : ∀ site ∈ batch.sites.take n, site.unknownKind? = none
  here : ∃ site, batch.sites[n]? = some site ∧ site.unknownKind? = some kind

/-- The error says that a rule is of an unknown kind. -/
def CompileError.IsUnsupported (e : CompileError) : Prop :=
  ∃ kind, e = unsupportedRule kind

namespace Compiler

/-- The compiler that gives rules of unknown kinds a fixed text. -/
def lenient : Compiler :=
  { rejectUnknownRules := false }

/-- The compiler that rejects rules of unknown kinds. -/
def strict : Compiler :=
  { rejectUnknownRules := true }

/-! ### One field -/

section Field

variable {key kind : String} {type : ValueType} {rule : RuleRequest} {field : FieldRequest}
  {site : Site}

theorem compileRule_strict_of_known (known : ∀ kind, RuleKind.ofName rule.kind ≠ .unknown kind) :
    strict.compileRule key type rule = lenient.compileRule key type rule := by
  unfold compileRule
  cases settled : RuleSpec.ofRequest key rule with
  | error e => rfl
  | ok spec =>
    have named := RuleSpec.kind_of_ofRequest settled
    cases spec with
    | unknown kind => exact absurd named.symm (known kind)
    | _ => rfl

theorem compileRule_strict_of_unknown (unknown : RuleKind.ofName rule.kind = .unknown kind) :
    strict.compileRule key type rule = .error (.unsupportedRule kind) := by
  unfold compileRule RuleSpec.ofRequest
  rw [unknown]
  rfl

theorem assembleOutput_strict_of_known (known : (Site.output field).unknownKind? = none) :
    strict.assembleOutput field = lenient.assembleOutput field := by
  have named : ∀ kind, RuleKind.ofName field.rule.kind ≠ .unknown kind := by
    intro kind unknown
    simp [Site.unknownKind?, unknown] at known
  rw [assembleOutput, assembleOutput, compileRule_strict_of_known named]

theorem assembleOutput_strict_of_unknown
    (unknown : (Site.output field).unknownKind? = some kind) :
    strict.assembleOutput field = .error (.unsupportedRule kind) := by
  have named : RuleKind.ofName field.rule.kind = .unknown kind := by
    simp only [Site.unknownKind?] at unknown
    split at unknown
    · cases unknown
      assumption
    · exact nomatch unknown
  rw [assembleOutput, compileRule_strict_of_unknown named, Outcome.error_bind]

theorem assembleOutput_strict_follows (field : FieldRequest) :
    Outcome.Follows CompileError.IsUnsupported (strict.assembleOutput field)
      (lenient.assembleOutput field) := by
  cases unknown : (Site.output field).unknownKind? with
  | none => exact .inl (assembleOutput_strict_of_known unknown)
  | some kind => exact .inr ⟨_, ⟨kind, rfl⟩, assembleOutput_strict_of_unknown unknown⟩

theorem visit_strict_of_known (known : site.unknownKind? = none) :
    strict.visit site = lenient.visit site := by
  cases site with
  | input field => rfl
  | output field => rw [visit, visit, assembleOutput_strict_of_known known]

theorem visit_strict_of_unknown (unknown : site.unknownKind? = some kind) :
    strict.visit site = .error (.unsupportedRule kind) := by
  cases site with
  | input field => exact nomatch unknown
  | output field => rw [visit, assembleOutput_strict_of_unknown unknown, Outcome.map_error]

end Field

/-! ### A batch -/

section Batch

variable {batch : Batch} {n k : ℕ} {kind : String} {e : CompileError}

theorem assemble_strict_follows (request : DecisionRequest) :
    Outcome.Follows CompileError.IsUnsupported (strict.assemble request)
      (lenient.assemble request) :=
  (Outcome.Follows.refl _).bind fun _ =>
    (Outcome.Follows.mapM assembleOutput_strict_follows _).bind fun _ => .refl _

theorem assembleBatch_strict_follows (batch : Batch) :
    Outcome.Follows CompileError.IsUnsupported (strict.assembleBatch batch)
      (lenient.assembleBatch batch) :=
  Outcome.Follows.mapM assemble_strict_follows _

/-- Where no kind is unknown up to a field, the strict run fails there as the lenient run does. -/
theorem failsAt_strict_iff (known : ∀ site ∈ batch.sites.take (n + 1), site.unknownKind? = none) :
    Outcome.FailsAt strict.visit batch.sites n e ↔ Outcome.FailsAt lenient.visit batch.sites n e :=
  Outcome.failsAt_congr fun site mem => visit_strict_of_known (known site mem)

/-- Without unknown kinds, strictness changes nothing. -/
theorem assembleBatch_strict_of_known (known : ∀ site ∈ batch.sites, site.unknownKind? = none) :
    strict.assembleBatch batch = lenient.assembleBatch batch := by
  obtain same | ⟨e, _, fails⟩ := assembleBatch_strict_follows batch
  · exact same
  · obtain ⟨n, failsAt⟩ := assembleBatch_eq_error_iff.mp fails
    have fails' := assembleBatch_eq_error_iff.mpr
      ⟨n, (failsAt_strict_iff fun site mem => known site (List.mem_of_mem_take mem)).mp failsAt⟩
    rw [fails, fails']

/-- A failure before the first unknown kind is the failure of both runs. -/
theorem assembleBatch_strict_of_failsAt (first : batch.FirstUnknown n kind) (before : k < n)
    (failsAt : Outcome.FailsAt lenient.visit batch.sites k e) :
    strict.assembleBatch batch = lenient.assembleBatch batch := by
  have known : ∀ site ∈ batch.sites.take (k + 1), site.unknownKind? = none := fun site mem =>
    first.before site (List.take_subset_take_left batch.sites before mem)
  rw [assembleBatch_eq_error_iff.mpr ⟨k, (failsAt_strict_iff known).mpr failsAt⟩,
    assembleBatch_eq_error_iff.mpr ⟨k, failsAt⟩]

/-- Where nothing fails before the first unknown kind, the strict run ends there. -/
theorem assembleBatch_strict_of_firstUnknown (first : batch.FirstUnknown n kind)
    (passes : ¬∃ k < n, ∃ e, Outcome.FailsAt lenient.visit batch.sites k e) :
    strict.assembleBatch batch = .error (.unsupportedRule kind) := by
  obtain ⟨site, found, unknown⟩ := first.here
  refine assembleBatch_eq_error_iff.mpr
    ⟨n, fun earlier mem => ?_, site, found, visit_strict_of_unknown unknown⟩
  rw [visit_strict_of_known (first.before earlier mem)]
  cases visited : lenient.visit earlier with
  | ok done => exact ⟨done, rfl⟩
  | error e => exact absurd (Outcome.exists_failsAt_of_mem_take mem visited) passes

end Batch

end Compiler

/-! ### Inserts -/

namespace Service

variable {σ : Type} {service : Service σ} {repository : Repository σ} {state last : σ}
  {requests : List DecisionRequest} {calls decisions : List Decision}

/-- What the repository has been given stays at the head of what it is given. -/
theorem prefix_compileAll_recorded (service : Service σ) (state : σ) (calls : List Decision)
    (requests : List DecisionRequest) :
    calls <+: (service.recorded.compileAll (state, calls) requests).1.2 := by
  obtain ⟨decisions, last, passes⟩ |
    ⟨before, request, after, decisions, kept, error, tried, last, rfl, passes, fails⟩ :=
      passes_or_fails service state requests
  · have run := passes.compileAll_append calls []
    rw [List.append_nil] at run
    rw [run]
    exact List.prefix_append _ _
  · rw [passes.compileAll_append, fails.compileAll_cons, List.append_assoc]
    exact List.prefix_append _ _

/-- What passes a strict compiler passes a lenient one. -/
theorem Passes.lenient
    (passes : Passes ⟨Compiler.strict, repository⟩ state requests decisions last) :
    Passes ⟨Compiler.lenient, repository⟩ state requests decisions last := by
  induction passes with
  | nil state => exact .nil state
  | cons assembled inserted _ ih =>
    exact .cons ((Compiler.assemble_strict_follows _).eq_ok assembled) inserted ih

/-- A strict service does what the lenient one does, or it stops at a rule of an unknown kind,
having inserted what the lenient one inserts first. -/
theorem strict_run_or_stop (repository : Repository σ) (state : σ)
    (requests : List DecisionRequest) :
    let strictRun := (Service.mk .strict repository).recorded.compileAll (state, []) requests
    let lenientRun := (Service.mk .lenient repository).recorded.compileAll (state, []) requests
    strictRun = lenientRun ∨
      strictRun.1.2 <+: lenientRun.1.2 ∧
        ∃ kind, strictRun.2 = .error (.compile (.unsupportedRule kind)) := by
  intro strictRun lenientRun
  obtain ⟨decisions, last, passes⟩ |
    ⟨before, request, after, decisions, kept, error, tried, last, rfl, passes, fails⟩ :=
      passes_or_fails (Service.mk .strict repository) state requests
  · left
    exact (compileAll_eq_ok_iff.mpr passes).trans (compileAll_eq_ok_iff.mpr passes.lenient).symm
  · have lenientRun_eq : lenientRun = _ := passes.lenient.compileAll_append [] (request :: after)
    have strictRun_eq : strictRun = _ :=
      (passes.compileAll_append [] (request :: after)).trans fails.compileAll_cons
    cases fails with
    | persistence assembled refused =>
      have assembled' := (Compiler.assemble_strict_follows _).eq_ok assembled
      have fails' : Fails ⟨.lenient, repository⟩ kept request _ _ last :=
        .persistence assembled' refused
      exact .inl (strictRun_eq.trans (lenientRun_eq.trans fails'.compileAll_cons).symm)
    | compile refused =>
      obtain same | ⟨e, ⟨kind, rfl⟩, stops⟩ := Compiler.assemble_strict_follows request
      · have fails' : Fails ⟨.lenient, repository⟩ kept request _ _ kept :=
          .compile (same.symm.trans refused)
        exact .inl (strictRun_eq.trans (lenientRun_eq.trans fails'.compileAll_cons).symm)
      · right
        rw [strictRun_eq, lenientRun_eq, List.append_nil]
        obtain rfl := Except.error.inj (refused.symm.trans stops)
        exact ⟨prefix_compileAll_recorded _ _ _ _, kind, rfl⟩

end Service

namespace Compiler

/-- **A strict run is the lenient run up to the first unknown kind.** A run fails at the first field
that does, in the order of assembly. Without rules of unknown kinds, or if the lenient run fails at
a field before the first of them, both runs of a batch are the same; otherwise the strict run fails
with the kind of the first one. A strict success is therefore a lenient one, and whatever the
repository, what a strict service gives it is what a lenient one gives it first. -/
theorem strict_follows_lenient (batch : Batch) :
    (∀ (compiler : Compiler) (e : CompileError), compiler.assembleBatch batch = .error e ↔
        ∃ n, Outcome.FailsAt compiler.visit batch.sites n e) ∧
      ((∀ site ∈ batch.sites, site.unknownKind? = none) →
        strict.assembleBatch batch = lenient.assembleBatch batch) ∧
      (∀ n kind, batch.FirstUnknown n kind →
        ((∃ k < n, ∃ e, Outcome.FailsAt lenient.visit batch.sites k e) →
          strict.assembleBatch batch = lenient.assembleBatch batch) ∧
        ((¬∃ k < n, ∃ e, Outcome.FailsAt lenient.visit batch.sites k e) →
          strict.assembleBatch batch = .error (.unsupportedRule kind))) ∧
      (∀ decisions, strict.assembleBatch batch = .ok decisions →
        lenient.assembleBatch batch = .ok decisions) ∧
      ∀ (σ : Type) (repository : Repository σ) (state : σ),
        let strictRun := (Service.mk strict repository).recorded.compileBatch (state, []) batch
        let lenientRun := (Service.mk lenient repository).recorded.compileBatch (state, []) batch
        strictRun.1.2 <+: lenientRun.1.2 ∧
          (strictRun = lenientRun ∨
            ∃ kind, strictRun.2 = .error (.compile (.unsupportedRule kind))) := by
  refine ⟨fun compiler e => assembleBatch_eq_error_iff, assembleBatch_strict_of_known,
    fun n kind first => ⟨?_, assembleBatch_strict_of_firstUnknown first⟩,
    fun decisions => (assembleBatch_strict_follows batch).eq_ok, fun σ repository state => ?_⟩
  · rintro ⟨k, before, e, failsAt⟩
    exact assembleBatch_strict_of_failsAt first before failsAt
  · intro strictRun lenientRun
    obtain same | ⟨shorter, stops⟩ := Service.strict_run_or_stop repository state batch.decisions
    · have same : strictRun = lenientRun := same
      exact ⟨same ▸ List.prefix_rfl, .inl same⟩
    · exact ⟨shorter, .inr stops⟩

/-- Three batches: no kind is unknown; an input without a source comes before the unknown kind; a
lookup without an operand comes behind it. -/
theorem strict_follows_lenient_matrix :
    let call : FieldRequest := .output "w" .number { kind := "Func", payload := .string "risk" }
    let unlinked : FieldRequest := FieldRequest.withSource "nowhere" (.input "a" .bool)
    let matrix : FieldRequest := .output "x" .bool { kind := "Matrix" }
    let lookup : FieldRequest := .output "y" .bool { kind := "BoolMap", payload := .object [] }
    let known : Batch := ⟨[⟨"first", [], [call]⟩]⟩
    let failing : Batch := ⟨[⟨"first", [], [call]⟩, ⟨"second", [unlinked], [matrix]⟩]⟩
    let stopped : Batch := ⟨[⟨"first", [], [call]⟩, ⟨"second", [], [matrix, lookup]⟩]⟩
    (∃ decisions, strict.assembleBatch known = .ok decisions ∧
        lenient.assembleBatch known = .ok decisions) ∧
      (failing.FirstUnknown 2 "Matrix" ∧
        Outcome.FailsAt lenient.visit failing.sites 1 (.unrecognizedSource "nowhere") ∧
        strict.assembleBatch failing = lenient.assembleBatch failing) ∧
      stopped.FirstUnknown 1 "Matrix" ∧
        lenient.assembleBatch stopped = .error (.missingOperand "y") ∧
        strict.assembleBatch stopped = .error (.unsupportedRule "Matrix") := by
  intro call unlinked matrix lookup known failing stopped
  have callPasses : lenient.visit (.output call) = .ok () := by decide +kernel
  refine ⟨?_, ?_, ?_⟩
  · obtain ⟨_, same, _, kept, _⟩ := strict_follows_lenient known
    have noneUnknown : ∀ site ∈ known.sites, site.unknownKind? = none := by decide +kernel
    have succeeds : (lenient.assembleBatch known).toOption.isSome = true := by decide +kernel
    obtain ⟨decisions, assembled⟩ := Outcome.exists_eq_ok_of_isSome succeeds
    have assembled' := (same noneUnknown).trans assembled
    exact ⟨decisions, assembled', kept decisions assembled'⟩
  · have first : failing.FirstUnknown 2 "Matrix" := ⟨by decide +kernel, _, rfl, rfl⟩
    have failsAt :
        Outcome.FailsAt lenient.visit failing.sites 1 (.unrecognizedSource "nowhere") := by
      refine ⟨fun site mem => ?_, _, rfl, by decide +kernel⟩
      obtain rfl := List.mem_singleton.mp mem
      exact ⟨(), callPasses⟩
    obtain ⟨_, _, cut, _⟩ := strict_follows_lenient failing
    exact ⟨first, failsAt, (cut 2 "Matrix" first).1 ⟨1, by omega, _, failsAt⟩⟩
  · have first : stopped.FirstUnknown 1 "Matrix" := ⟨by decide +kernel, _, rfl, rfl⟩
    have passes : ¬∃ k < 1, ∃ e, Outcome.FailsAt lenient.visit stopped.sites k e := by
      rintro ⟨k, below, e, _, site, found, fails⟩
      obtain rfl : k = 0 := by omega
      cases found
      exact nomatch fails.symm.trans callPasses
    obtain ⟨_, _, cut, _⟩ := strict_follows_lenient stopped
    exact ⟨first, by decide +kernel, (cut 1 "Matrix" first).2 passes⟩

end Compiler

end DecisionCompiler
