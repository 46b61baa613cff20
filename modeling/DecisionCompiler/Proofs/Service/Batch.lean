import DecisionCompiler.Service
import DecisionCompiler.Store.Memory
import DecisionCompiler.Proofs.Outcome

/-!
What a batch does to a repository.

`Passes` are requests taken one after the other without failure, with the decisions they yield and
the state that inserting these leads to; `Fails` is one request that ends a batch. A batch either
passes or fails at its first request that does (`passes_or_fails`), and the relations say what is
returned, in which state the repository is left, and, through `recorded`, which decisions it was
given.

`compileBatch_runs_in_order` collects this, with the comparison to a dry run: over a repository that
never refuses a decision, a batch is its dry run with each decision inserted on the way.
-/

namespace DecisionCompiler

variable {σ : Type}

namespace Repository

/-- The repository that also keeps the decisions that it is given, in order. -/
def recorded (repository : Repository σ) : Repository (σ × List Decision) where
  backend := repository.backend
  insert state decision :=
    let (next, result) := repository.insert state.1 decision
    ((next, state.2 ++ [decision]), result)

/-- No decision is ever refused. -/
def Reliable (repository : Repository σ) : Prop :=
  ∀ state decision, (repository.insert state decision).2 = .ok ()

end Repository

namespace Service

/-- The service whose repository keeps a record. -/
def recorded (service : Service σ) : Service (σ × List Decision) :=
  ⟨service.compiler, service.repository.recorded⟩

/-- Requests that are assembled and inserted one after the other. -/
inductive Passes (service : Service σ) : σ → List DecisionRequest → List Decision → σ → Prop where
  | nil (state : σ) : Passes service state [] [] state
  | cons {state next last : σ} {request : DecisionRequest} {requests : List DecisionRequest}
      {decision : Decision} {decisions : List Decision}
      (assembled : service.compiler.assemble request = .ok decision)
      (inserted : service.repository.insert state decision = (next, .ok ()))
      (rest : Passes service next requests decisions last) :
      Passes service state (request :: requests) (decision :: decisions) last

/-- A request that ends a batch: the failure, the decisions that the repository is still given, and
the state it is left in. -/
inductive Fails (service : Service σ) (state : σ) (request : DecisionRequest) :
    ServiceError → List Decision → σ → Prop where
  | compile {e : CompileError} (refused : service.compiler.assemble request = .error e) :
      Fails service state request (.compile e) [] state
  | persistence {decision : Decision} {e : RepositoryError} {last : σ}
      (assembled : service.compiler.assemble request = .ok decision)
      (refused : service.repository.insert state decision = (last, .error e)) :
      Fails service state request (.persistence e) [decision] last

/-- Every request is assembled, to the decision at its place. -/
def Assembles (service : Service σ) (requests : List DecisionRequest)
    (decisions : List Decision) : Prop :=
  List.Forall₂ (fun request decision => service.compiler.assemble request = .ok decision)
    requests decisions

section Runs

variable {service : Service σ} {state kept last : σ} {request : DecisionRequest}
  {before after requests : List DecisionRequest} {decisions tried calls : List Decision}
  {error : ServiceError}

@[simp] theorem recorded_compiler (service : Service σ) :
    service.recorded.compiler = service.compiler :=
  rfl

theorem recorded_insert {decision : Decision} {next : σ} {result : Except RepositoryError Unit}
    (inserted : service.repository.insert state decision = (next, result)) :
    service.recorded.repository.insert (state, calls) decision =
      ((next, calls ++ [decision]), result) := by
  simp only [recorded, Repository.recorded, inserted]

/-- A record does not change what a batch does. -/
theorem compileAll_recorded (service : Service σ) (state : σ) (calls : List Decision)
    (requests : List DecisionRequest) :
    ((service.recorded.compileAll (state, calls) requests).1.1,
      (service.recorded.compileAll (state, calls) requests).2) =
        service.compileAll state requests := by
  induction requests generalizing state calls with
  | nil => rfl
  | cons request requests ih =>
    cases assembled : service.compiler.assemble request with
    | error e => simp [compileAll, assembled]
    | ok decision =>
      rcases inserted : service.repository.insert state decision with ⟨next, _ | _⟩
      · simp [compileAll, assembled, inserted, recorded_insert inserted]
      · simpa [compileAll, assembled, inserted, recorded_insert inserted] using
          ih next (calls ++ [decision])

/-- What passes is inserted before anything else is looked at. -/
theorem Passes.compileAll_append (passes : Passes service state before decisions kept)
    (calls : List Decision) (after : List DecisionRequest) :
    service.recorded.compileAll (state, calls) (before ++ after) =
      service.recorded.compileAll (kept, calls ++ decisions) after := by
  induction passes generalizing calls with
  | nil => simp
  | cons assembled inserted _ ih =>
    rw [List.cons_append, compileAll]
    simp only [recorded_compiler, assembled, recorded_insert inserted]
    rw [ih, List.append_assoc, List.singleton_append]

/-- What fails ends the batch. -/
theorem Fails.compileAll_cons (fails : Fails service state request error tried last) :
    service.recorded.compileAll (state, calls) (request :: after) =
      ((last, calls ++ tried), .error error) := by
  cases fails with
  | compile refused => simp [compileAll, refused]
  | persistence assembled refused => simp [compileAll, assembled, recorded_insert refused]

/-- Requests pass, or they fail at the first one that does. -/
theorem passes_or_fails (service : Service σ) (state : σ) (requests : List DecisionRequest) :
    (∃ decisions last, Passes service state requests decisions last) ∨
      ∃ before request after decisions kept error tried last,
        requests = before ++ request :: after ∧ Passes service state before decisions kept ∧
          Fails service kept request error tried last := by
  induction requests generalizing state with
  | nil => exact .inl ⟨[], state, .nil state⟩
  | cons request requests ih =>
    cases assembled : service.compiler.assemble request with
    | error e =>
      exact .inr ⟨[], request, requests, [], state, _, _, _, rfl, .nil state, .compile assembled⟩
    | ok decision =>
      rcases inserted : service.repository.insert state decision with ⟨next, e | _⟩
      · exact .inr ⟨[], request, requests, [], state, _, _, _, rfl, .nil state,
          .persistence assembled inserted⟩
      · obtain ⟨decisions, last, rest⟩ |
          ⟨before, failing, after, decisions, kept, error, tried, last, rfl, rest, fails⟩ := ih next
        · exact .inl ⟨_, last, .cons assembled inserted rest⟩
        · exact .inr ⟨request :: before, failing, after, _, kept, error, tried, last, rfl,
            .cons assembled inserted rest, fails⟩

theorem compileAll_eq_ok_iff :
    service.recorded.compileAll (state, []) requests = ((last, calls), .ok ()) ↔
      Passes service state requests calls last := by
  constructor
  · intro h
    obtain ⟨decisions, last', passes⟩ |
      ⟨before, failing, after, decisions, kept, error, tried, last', rfl, passes, fails⟩ :=
        passes_or_fails service state requests
    · have run := passes.compileAll_append [] []
      rw [List.append_nil, h] at run
      cases run
      exact passes
    · rw [passes.compileAll_append, fails.compileAll_cons] at h
      cases h
  · intro passes
    have run := passes.compileAll_append [] []
    rw [List.append_nil] at run
    exact run

theorem compileAll_eq_error_iff :
    service.recorded.compileAll (state, []) requests = ((last, calls), .error error) ↔
      ∃ before request after decisions kept tried,
        requests = before ++ request :: after ∧ Passes service state before decisions kept ∧
          Fails service kept request error tried last ∧ calls = decisions ++ tried := by
  constructor
  · intro h
    obtain ⟨decisions, last', passes⟩ |
      ⟨before, failing, after, decisions, kept, error', tried, last', rfl, passes, fails⟩ :=
        passes_or_fails service state requests
    · rw [compileAll_eq_ok_iff.mpr passes] at h
      cases h
    · rw [passes.compileAll_append, fails.compileAll_cons] at h
      cases h
      exact ⟨before, failing, after, decisions, kept, tried, rfl, passes, fails, rfl⟩
  · rintro ⟨before, request, after, decisions, kept, tried, rfl, passes, fails, rfl⟩
    rw [passes.compileAll_append, fails.compileAll_cons]
    rfl

/-- A batch does without a record what it does with one. -/
theorem compileAll_eq_of_recorded {result : Except ServiceError Unit}
    (run : service.recorded.compileAll (state, []) requests = ((last, calls), result)) :
    service.compileAll state requests = (last, result) := by
  rw [← compileAll_recorded service state [], run]

theorem Passes.compileAll_eq (passes : Passes service state requests decisions last) :
    service.compileAll state requests = (last, .ok ()) :=
  compileAll_eq_of_recorded (compileAll_eq_ok_iff.mpr passes)

theorem Passes.compileAll_eq_of_fails (passes : Passes service state before decisions kept)
    (fails : Fails service kept request error tried last) :
    service.compileAll state (before ++ request :: after) = (last, .error error) :=
  compileAll_eq_of_recorded
    (compileAll_eq_error_iff.mpr ⟨_, _, _, _, _, _, rfl, passes, fails, rfl⟩)

/-- A batch that succeeds has passed. -/
theorem exists_passes_of_compileAll (succeeds : (service.compileAll state requests).2 = .ok ()) :
    ∃ decisions last, Passes service state requests decisions last := by
  obtain passed | ⟨before, request, after, _, _, error, _, last, rfl, passes, fails⟩ :=
    passes_or_fails service state requests
  · exact passed
  · rw [passes.compileAll_eq_of_fails fails] at succeeds
    exact nomatch succeeds

/-! ### Dry runs -/

/-- What passes is assembled. -/
theorem Passes.assembled (passes : Passes service state requests decisions last) :
    service.Assembles requests decisions := by
  induction passes with
  | nil => exact .nil
  | cons assembled _ _ ih => exact .cons assembled ih

/-- What is assembled passes if no decision is refused. -/
theorem exists_passes (reliable : service.repository.Reliable) (state : σ)
    (assembled : service.Assembles requests decisions) :
    ∃ last, Passes service state requests decisions last := by
  induction assembled generalizing state with
  | nil => exact ⟨state, .nil state⟩
  | @cons request decision _ _ first _ ih =>
    obtain ⟨last, rest⟩ := ih (service.repository.insert state decision).1
    exact ⟨last, .cons first (Prod.ext rfl (reliable state decision)) rest⟩

/-- Without refusals, a request can only fail to be assembled. -/
theorem Fails.compile_of_reliable (reliable : service.repository.Reliable)
    (fails : Fails service state request error tried last) :
    ∃ e, service.compiler.assemble request = .error e ∧ error = .compile e ∧ tried = [] ∧
      last = state := by
  cases fails with
  | compile refused => exact ⟨_, refused, rfl, rfl, rfl⟩
  | @persistence decision _ _ _ refused =>
    have kept := reliable state decision
    rw [refused] at kept
    exact nomatch kept

theorem dryRun_eq_ok_iff {batch : Batch} :
    service.dryRun batch = .ok decisions ↔ service.Assembles batch.decisions decisions := by
  rw [Assembles, ← Outcome.mapM_eq_ok_iff, dryRun, Compiler.assembleBatch]
  cases batch.decisions.mapM service.compiler.assemble <;> simp [Except.mapError]

theorem dryRun_eq_error_iff {batch : Batch} :
    service.dryRun batch = .error error ↔
      ∃ before request after decisions e, batch.decisions = before ++ request :: after ∧
        service.Assembles before decisions ∧ service.compiler.assemble request = .error e ∧
          error = .compile e := by
  have wrapped : service.dryRun batch = .error error ↔
      ∃ e, batch.decisions.mapM service.compiler.assemble = .error e ∧ error = .compile e := by
    rw [dryRun, Compiler.assembleBatch]
    cases batch.decisions.mapM service.compiler.assemble <;> simp [Except.mapError, eq_comm]
  simp only [wrapped, Outcome.mapM_eq_error_iff, Assembles]
  constructor
  · rintro ⟨e, ⟨before, decisions, request, after, split, assembled, refused⟩, rfl⟩
    exact ⟨before, request, after, decisions, e, split, assembled, refused, rfl⟩
  · rintro ⟨before, request, after, decisions, e, split, assembled, refused, rfl⟩
    exact ⟨e, ⟨before, decisions, request, after, split, assembled, refused⟩, rfl⟩

/-- Over a repository that refuses nothing, a batch fails where its dry run does, with the decisions
before that place inserted. -/
theorem compileAll_eq_error_iff_of_reliable (reliable : service.repository.Reliable) :
    (∃ last, service.recorded.compileAll (state, []) requests = ((last, calls), .error error)) ↔
      ∃ before request after e, requests = before ++ request :: after ∧
        service.Assembles before calls ∧ service.compiler.assemble request = .error e ∧
          error = .compile e := by
  simp only [compileAll_eq_error_iff]
  constructor
  · rintro ⟨last, before, request, after, decisions, kept, tried, split, passes, fails, rfl⟩
    obtain ⟨e, refused, rfl, rfl, rfl⟩ := fails.compile_of_reliable reliable
    exact ⟨before, request, after, e, split, by simpa using passes.assembled, refused, rfl⟩
  · rintro ⟨before, request, after, e, split, assembled, refused, rfl⟩
    obtain ⟨last, passes⟩ := exists_passes reliable state assembled
    exact ⟨last, before, request, after, calls, last, [], split, passes, .compile refused,
      by simp⟩

end Runs

/-- **A batch is taken in order, up to its first failure.** The repository is given the decisions of
the requests that pass, in order, and nothing behind a request that fails; a failure is that of the
first request that fails. Over a repository that refuses nothing, a batch does what its dry run
says. -/
theorem compileBatch_runs_in_order (service : Service σ) (state : σ) (batch : Batch) :
    ((service.recorded.compileBatch (state, []) batch).1.1,
        (service.recorded.compileBatch (state, []) batch).2) = service.compileBatch state batch ∧
      (∀ calls last, service.recorded.compileBatch (state, []) batch = ((last, calls), .ok ()) ↔
        Passes service state batch.decisions calls last) ∧
      (∀ calls last error,
        service.recorded.compileBatch (state, []) batch = ((last, calls), .error error) ↔
          ∃ before request after decisions kept tried,
            batch.decisions = before ++ request :: after ∧
              Passes service state before decisions kept ∧
              Fails service kept request error tried last ∧ calls = decisions ++ tried) ∧
      (service.repository.Reliable →
        (∀ decisions, service.dryRun batch = .ok decisions ↔
          ∃ last, service.recorded.compileBatch (state, []) batch = ((last, decisions), .ok ())) ∧
        (∀ error, service.dryRun batch = .error error ↔
          ∃ last calls,
            service.recorded.compileBatch (state, []) batch = ((last, calls), .error error)) ∧
        ∀ error last calls,
          service.recorded.compileBatch (state, []) batch = ((last, calls), .error error) →
            ∃ before request after e, batch.decisions = before ++ request :: after ∧
              service.Assembles before calls ∧ service.compiler.assemble request = .error e ∧
                error = .compile e) := by
  refine ⟨compileAll_recorded service state [] batch.decisions,
    fun calls last => compileAll_eq_ok_iff, fun calls last error => compileAll_eq_error_iff,
    fun reliable => ⟨fun decisions => ?_, fun error => ?_, fun error last calls h => ?_⟩⟩
  · rw [dryRun_eq_ok_iff]
    constructor
    · intro assembled
      obtain ⟨last, passes⟩ := exists_passes reliable state assembled
      exact ⟨last, compileAll_eq_ok_iff.mpr passes⟩
    · rintro ⟨last, h⟩
      exact (compileAll_eq_ok_iff.mp h).assembled
  · rw [dryRun_eq_error_iff]
    constructor
    · rintro ⟨before, request, after, decisions, e, failed⟩
      obtain ⟨last, h⟩ :=
        (compileAll_eq_error_iff_of_reliable reliable).mpr ⟨before, request, after, e, failed⟩
      exact ⟨last, decisions, h⟩
    · rintro ⟨last, calls, h⟩
      obtain ⟨before, request, after, e, failed⟩ :=
        (compileAll_eq_error_iff_of_reliable reliable).mp ⟨last, h⟩
      exact ⟨before, request, after, calls, e, failed⟩
  · exact (compileAll_eq_error_iff_of_reliable reliable).mp ⟨last, h⟩

/-- A repository in memory, and a batch whose second decision has a lookup without an operand. -/
theorem compileBatch_runs_in_order_memory :
    let lookup : RuleRequest := { kind := "BoolMap", payload := .object [] }
    let batch : Batch := ⟨[.named "first", .addOutput (.named "second") (.output "y" .bool lookup),
      .named "third"]⟩
    let service : Service MemoryStore := ⟨{}, MemoryStore.repository⟩
    let error : ServiceError := .compile (.missingOperand "y")
    service.repository.Reliable ∧ service.dryRun batch = .error error ∧
      ∃ last, service.recorded.compileBatch ({}, []) batch =
        ((last, [⟨"first", [], []⟩]), .error error) := by
  intro lookup batch service error
  have reliable : service.repository.Reliable := fun _ _ => rfl
  obtain ⟨_, _, failure, dry⟩ := compileBatch_runs_in_order service {} batch
  have h := (failure [⟨"first", [], []⟩] ⟨[⟨"first", [], []⟩]⟩ error).mpr
    ⟨[.named "first"], _, [.named "third"], _, _, [], rfl, .cons rfl rfl (.nil _), .compile rfl,
      rfl⟩
  exact ⟨reliable, ((dry reliable).2.1 error).mpr ⟨_, _, h⟩, _, h⟩

end Service

end DecisionCompiler
