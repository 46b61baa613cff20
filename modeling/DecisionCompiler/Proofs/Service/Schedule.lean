import DecisionCompiler.Proofs.Store.Inserts
import DecisionCompiler.Proofs.Service.Batch
import Mathlib.Logic.Function.Basic

/-!
Batches that are compiled at the same time.

A call works through its batch in steps. A step assembles the next decision and inserts it, or it
returns; what a call does from some step on is what the rest of its batch does (`finish_step`).
Calls that share a memory take their steps in any order that a schedule gives (`Shared.run`), and
`Shared.pushes` notes who pushed which decision on the way.

A call in memory never looks at what is stored, so that other calls cannot disturb it. The invariant
of a run is therefore that of each call alone: what it has pushed and what it would still push by
itself make up what it would have pushed by itself from the start (`contribution_append_owed`).
`run_interleaves` draws the conclusions for the stored list and for the results.
-/

namespace DecisionCompiler

/-- A call on its way. -/
inductive Call where
  /-- These requests are still to be taken. -/
  | pending (requests : List DecisionRequest)
  | returned (result : Except ServiceError Unit)

namespace Call

/-- How many steps it takes at most until the call has returned. -/
def stepsLeft : Call → Nat
  | pending requests => requests.length + 1
  | returned _ => 0

theorem exists_returned_of_stepsLeft {call : Call} (done : call.stepsLeft = 0) :
    ∃ result, call = returned result := by
  cases call with
  | pending requests => exact absurd done (Nat.succ_ne_zero _)
  | returned result => exact ⟨result, rfl⟩

end Call

namespace Service

variable {σ : Type}

/-- One step of a call: the next decision is assembled and inserted, or the call returns. -/
def step (service : Service σ) (state : σ) : Call → σ × Call
  | .pending [] => (state, .returned (.ok ()))
  | .pending (request :: requests) =>
    match service.compiler.assemble request with
    | .error e => (state, .returned (.error (.compile e)))
    | .ok decision =>
      match service.repository.insert state decision with
      | (state, .error e) => (state, .returned (.error (.persistence e)))
      | (state, .ok ()) => (state, .pending requests)
  | .returned result => (state, .returned result)

/-- What a call does from now on if nobody else takes a step. -/
def finish (service : Service σ) (state : σ) : Call → σ × Except ServiceError Unit
  | .pending requests => service.compileAll state requests
  | .returned result => (state, result)

/-- A step is the beginning of what the call does. -/
theorem finish_step (service : Service σ) (state : σ) (call : Call) :
    service.finish (service.step state call).1 (service.step state call).2 =
      service.finish state call := by
  cases call with
  | returned result => rfl
  | pending requests =>
    cases requests with
    | nil => rfl
    | cons request requests =>
      cases assembled : service.compiler.assemble request with
      | error e => simp [step, finish, compileAll, assembled]
      | ok decision =>
        rcases inserted : service.repository.insert state decision with ⟨next, _ | _⟩ <;>
          simp [step, finish, compileAll, assembled, inserted]

/-- Every step of a call that has not returned brings it nearer to that. -/
theorem stepsLeft_step (service : Service σ) (state : σ) (call : Call) :
    (service.step state call).2.stepsLeft ≤ call.stepsLeft - 1 := by
  cases call with
  | returned result => exact Nat.le_refl 0
  | pending requests =>
    cases requests with
    | nil => exact Nat.zero_le _
    | cons request requests =>
      cases assembled : service.compiler.assemble request with
      | error e => simp [step, assembled, Call.stepsLeft]
      | ok decision =>
        rcases inserted : service.repository.insert state decision with ⟨next, _ | _⟩ <;>
          simp [step, assembled, inserted, Call.stepsLeft]

end Service

/-! ### A call in memory -/

namespace Compiler

variable {compiler : Compiler} {store : MemoryStore} {call : Call}

/-- The service that compiles into a memory. -/
def inMemory (compiler : Compiler) : Service MemoryStore :=
  ⟨compiler, MemoryStore.repository⟩

/-- The decision that the next step of a call pushes, if it pushes one. -/
def pushed? (compiler : Compiler) : Call → Option Decision
  | .pending (request :: _) => (compiler.assemble request).toOption
  | _ => none

/-- The decisions that a call would still push by itself. -/
def owed (compiler : Compiler) (call : Call) : List Decision :=
  (compiler.inMemory.recorded.finish ({}, []) call).1.2

/-- The result that a call would return by itself. -/
def outcome (compiler : Compiler) (call : Call) : Except ServiceError Unit :=
  (compiler.inMemory.recorded.finish ({}, []) call).2

/-- What a call does does not depend on what is stored. -/
theorem finish_inMemory (compiler : Compiler) (store : MemoryStore) (calls : List Decision)
    (call : Call) :
    compiler.inMemory.recorded.finish (store, calls) call =
      ((⟨store.decisions ++ compiler.owed call⟩, calls ++ compiler.owed call),
        compiler.outcome call) := by
  cases call with
  | returned result => simp [Service.finish, owed, outcome]
  | pending requests =>
    induction requests generalizing store calls with
    | nil => simp [Service.finish, Service.compileAll, owed, outcome]
    | cons request requests ih =>
      have next (store : MemoryStore) (calls : List Decision) {decision : Decision}
          (assembled : compiler.assemble request = .ok decision) :
          compiler.inMemory.recorded.finish (store, calls) (.pending (request :: requests)) =
            compiler.inMemory.recorded.finish (store.push decision, calls ++ [decision])
              (.pending requests) := by
        simp [Service.finish, Service.compileAll, Service.recorded, Repository.recorded, inMemory,
          MemoryStore.repository, assembled]
      cases assembled : compiler.assemble request with
      | error e =>
        simp [Service.finish, Service.compileAll, owed, outcome, inMemory, assembled]
      | ok decision =>
        rw [owed, outcome, next store calls assembled, next {} [] assembled, ih, ih]
        simp [MemoryStore.push]

/-- What is left of a call after its next step. -/
def advance (compiler : Compiler) (call : Call) : Call :=
  (compiler.inMemory.step {} call).2

theorem step_inMemory (compiler : Compiler) (store : MemoryStore) (call : Call) :
    compiler.inMemory.step store call =
      (⟨store.decisions ++ (compiler.pushed? call).toList⟩, compiler.advance call) := by
  rcases call with (_ | ⟨request, requests⟩) | result
  · simp [Service.step, pushed?, advance]
  · cases assembled : compiler.assemble request <;>
      simp [Service.step, pushed?, advance, inMemory, MemoryStore.repository, MemoryStore.push,
        assembled, Except.toOption]
  · simp [Service.step, pushed?, advance]

theorem recorded_step_inMemory (compiler : Compiler) (store : MemoryStore) (calls : List Decision)
    (call : Call) :
    compiler.inMemory.recorded.step (store, calls) call =
      ((⟨store.decisions ++ (compiler.pushed? call).toList⟩,
        calls ++ (compiler.pushed? call).toList), compiler.advance call) := by
  rcases call with (_ | ⟨request, requests⟩) | result
  · simp [Service.step, pushed?, advance]
  · cases assembled : compiler.assemble request <;>
      simp [Service.step, Service.recorded, Repository.recorded, pushed?, advance, inMemory,
        MemoryStore.repository, MemoryStore.push, assembled, Except.toOption]
  · simp [Service.step, pushed?, advance]

/-- A step pushes the first of the decisions owed, and leaves the others and the result to come. -/
theorem owed_outcome_advance (compiler : Compiler) (call : Call) :
    (compiler.pushed? call).toList ++ compiler.owed (compiler.advance call) = compiler.owed call ∧
      compiler.outcome (compiler.advance call) = compiler.outcome call := by
  have step := compiler.inMemory.recorded.finish_step ({}, []) call
  rw [recorded_step_inMemory, finish_inMemory, finish_inMemory] at step
  obtain ⟨states, outcomes⟩ := Prod.mk.inj step
  exact ⟨congrArg Prod.snd states, outcomes⟩

end Compiler

/-! ### Calls that share a memory -/

/-- A memory and the calls that push into it. -/
structure Shared (ι : Type) where
  store : MemoryStore
  calls : ι → Call

/-- The decisions that one of the calls pushed, in order. -/
def contribution {ι : Type} [DecidableEq ι] (i : ι) (pushes : List (ι × Decision)) :
    List Decision :=
  (pushes.filter fun push => push.1 = i).map Prod.snd

namespace Shared

variable {ι : Type} [DecidableEq ι]

/-- One of the calls takes a step; nothing else happens meanwhile. -/
def step (compilers : ι → Compiler) (shared : Shared ι) (i : ι) : Shared ι :=
  let (store, call) := (compilers i).inMemory.step shared.store (shared.calls i)
  ⟨store, Function.update shared.calls i call⟩

/-- The calls take steps in the order of a schedule. -/
def run (compilers : ι → Compiler) (shared : Shared ι) (schedule : List ι) : Shared ι :=
  schedule.foldl (step compilers) shared

/-- What is pushed in the order of a schedule, and by which call. -/
def pushes (compilers : ι → Compiler) : Shared ι → List ι → List (ι × Decision)
  | _, [] => []
  | shared, i :: schedule =>
    ((compilers i).pushed? (shared.calls i)).toList.map (i, ·) ++
      pushes compilers (shared.step compilers i) schedule

section Run

variable {compilers : ι → Compiler} {shared : Shared ι} {schedule : List ι} {i j : ι}

theorem store_step :
    (shared.step compilers i).store.decisions =
      shared.store.decisions ++ ((compilers i).pushed? (shared.calls i)).toList := by
  rw [step, Compiler.step_inMemory]

theorem calls_step_self :
    (shared.step compilers i).calls i = (compilers i).advance (shared.calls i) := by
  rw [step, Compiler.step_inMemory]
  exact Function.update_self ..

theorem calls_step_of_ne (other : j ≠ i) :
    (shared.step compilers i).calls j = shared.calls j := by
  rw [step, Compiler.step_inMemory]
  exact Function.update_of_ne other ..

/-- What is pushed stands behind what was stored, in the order in which it was pushed. -/
theorem store_run (compilers : ι → Compiler) (shared : Shared ι) (schedule : List ι) :
    (shared.run compilers schedule).store.decisions =
      shared.store.decisions ++ (shared.pushes compilers schedule).map Prod.snd := by
  induction schedule generalizing shared with
  | nil => simp [run, pushes]
  | cons i schedule ih =>
    have rest := ih (shared.step compilers i)
    rw [store_step, List.append_assoc] at rest
    simpa [pushes, run] using rest

/-- **The invariant of a run.** What a call has pushed and what it still owes are what it owed at
the start, and the result that it heads for stays the same. -/
theorem contribution_append_owed (compilers : ι → Compiler) (shared : Shared ι)
    (schedule : List ι) (i : ι) :
    contribution i (shared.pushes compilers schedule) ++
        (compilers i).owed ((shared.run compilers schedule).calls i) =
        (compilers i).owed (shared.calls i) ∧
      (compilers i).outcome ((shared.run compilers schedule).calls i) =
        (compilers i).outcome (shared.calls i) := by
  induction schedule generalizing shared with
  | nil => exact ⟨rfl, rfl⟩
  | cons j schedule ih =>
    obtain ⟨pushed, result⟩ := ih (shared.step compilers j)
    by_cases turn : j = i
    · subst turn
      obtain ⟨owed, outcome⟩ := (compilers j).owed_outcome_advance (shared.calls j)
      rw [calls_step_self] at pushed result
      refine ⟨?_, result.trans outcome⟩
      rw [← owed, ← pushed]
      simp [contribution, pushes, run, List.filter_map, Function.comp_def]
    · rw [calls_step_of_ne (Ne.symm turn)] at pushed result
      refine ⟨?_, result⟩
      rw [← pushed]
      simp [contribution, pushes, run, List.filter_map, Function.comp_def, turn]

/-- A call that gets enough turns returns. -/
theorem stepsLeft_run (compilers : ι → Compiler) (shared : Shared ι) (schedule : List ι) (i : ι) :
    ((shared.run compilers schedule).calls i).stepsLeft ≤
      (shared.calls i).stepsLeft - schedule.count i := by
  induction schedule generalizing shared with
  | nil => exact Nat.le_refl _
  | cons j schedule ih =>
    have rest := ih (shared.step compilers j)
    by_cases turn : j = i
    · subst turn
      have nearer := (compilers j).inMemory.stepsLeft_step {} (shared.calls j)
      rw [calls_step_self, Compiler.advance] at rest
      rw [List.count_cons_self, run, List.foldl_cons]
      exact rest.trans (by omega)
    · rw [calls_step_of_ne (Ne.symm turn)] at rest
      rw [List.count_cons_of_ne turn]
      exact rest

end Run

end Shared

namespace Service

/-- **Calls that run at the same time do not disturb each other.** Let any number of batches be
compiled into one memory, each by a compiler of its own, with their steps in any order. At every
point of the run, the memory holds what it held at the start and behind it what was pushed, and a
name is answered by the last decision pushed under it. What one call pushed is the beginning of what
it would insert alone; a call that has returned pushed all of that, with the result that it would
return alone; and a call returns once it has taken one step more than it has requests. -/
theorem run_interleaves {ι : Type} [DecidableEq ι] (compilers : ι → Compiler)
    (batches : ι → Batch) (store : MemoryStore) (schedule : List ι) :
    let alone (i : ι) := (compilers i).inMemory.recorded.compileBatch (store, []) (batches i)
    let start : Shared ι := ⟨store, fun i => .pending (batches i).decisions⟩
    let now := start.run compilers schedule
    let pushes := start.pushes compilers schedule
    now.store.decisions = store.decisions ++ pushes.map Prod.snd ∧
      (∀ name decision, now.store.get? name = some decision ↔
        Latest name (store.decisions ++ pushes.map Prod.snd) decision) ∧
      (∀ i, contribution i pushes <+: (alone i).1.2) ∧
      (∀ i result, now.calls i = .returned result →
        contribution i pushes = (alone i).1.2 ∧ result = (alone i).2) ∧
      ∀ i, (batches i).decisions.length < schedule.count i →
        ∃ result, now.calls i = .returned result := by
  intro alone start now pushes
  have stored : now.store.decisions = store.decisions ++ pushes.map Prod.snd :=
    Shared.store_run compilers start schedule
  have byItself : ∀ i, alone i =
      ((⟨store.decisions ++ (compilers i).owed (start.calls i)⟩,
        (compilers i).owed (start.calls i)), (compilers i).outcome (start.calls i)) :=
    fun i => (compilers i).finish_inMemory store [] (start.calls i)
  refine ⟨stored, fun name decision => ?_, fun i => ?_, fun i result returned => ?_,
    fun i turns => ?_⟩
  · rw [MemoryStore.get?_eq_some_iff, stored]
  · obtain ⟨pushed, _⟩ := Shared.contribution_append_owed compilers start schedule i
    rw [byItself]
    exact ⟨_, pushed⟩
  · obtain ⟨pushed, outcome⟩ := Shared.contribution_append_owed compilers start schedule i
    rw [byItself]
    rw [returned] at pushed outcome
    exact ⟨(List.append_nil _).symm.trans pushed, outcome⟩
  · have left := Shared.stepsLeft_run compilers start schedule i
    have none : (start.calls i).stepsLeft - schedule.count i = 0 := Nat.sub_eq_zero_of_le turns
    exact Call.exists_returned_of_stepsLeft (Nat.le_zero.mp (left.trans (Nat.le_of_eq none)))

/-- Two calls with a name in common, of which the one fails at its second decision. -/
theorem run_interleaves_same_name :
    let lookup : RuleRequest := { kind := "BoolMap", payload := .object [] }
    let broken : DecisionRequest := .addOutput (.named "rate") (.output "y" .bool lookup)
    let batches : Bool → Batch
      | false => ⟨[.named "loan", .named "rate"]⟩
      | true => ⟨[.addInput (.named "loan") (.input "age" .number), broken]⟩
    let start : Shared Bool := ⟨{}, fun i => .pending (batches i).decisions⟩
    let now := start.run (fun _ => {}) [false, true, true, false, true, false]
    now.calls false = .returned (.ok ()) ∧
      now.calls true = .returned (.error (.compile (.missingOperand "y"))) ∧
      now.store.names = ["loan", "loan", "rate"] ∧
      now.store.get? "loan" =
        some ⟨"loan", [⟨{ key := "age", type := .number }, none⟩], []⟩ := by
  intro lookup broken batches start now
  obtain ⟨stored, latest, _, results, returns⟩ :=
    run_interleaves (fun _ => {}) batches {} [false, true, true, false, true, false]
  obtain ⟨first, firstReturned⟩ := returns false (by decide)
  obtain ⟨second, secondReturned⟩ := returns true (by decide)
  refine ⟨?_, ?_, ?_, (latest _ _).mpr ⟨[_], [_], rfl, rfl, by decide⟩⟩
  · obtain ⟨_, alone⟩ := results false first firstReturned
    exact firstReturned.trans (congrArg Call.returned alone)
  · obtain ⟨_, alone⟩ := results true second secondReturned
    exact secondReturned.trans (congrArg Call.returned alone)
  · exact congrArg (List.map Decision.name) stored

end Service

end DecisionCompiler
