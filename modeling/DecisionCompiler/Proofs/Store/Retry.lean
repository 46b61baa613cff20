import DecisionCompiler.Proofs.Entries
import DecisionCompiler.Proofs.Service.Batch
import DecisionCompiler.Proofs.Store.Inserts
import Mathlib.Data.Set.Insert

/-!
Batches that are submitted again.

A batch that stops midway leaves what it has inserted behind. `compileBatch_retried` says that this
does no harm in a directory: a later batch that succeeds, and that has a decision for every name
that the first one inserted, leaves the documents that it would have left without the first one.

The proof compares the directory in which the first batch was run with the one in which it was not.
They agree on every file that the first batch did not write (`agree_of_passes`), a batch that passes
in one of two directories passes in the other, and after it they also agree on every file that it
wrote (`exists_passes_of_agree`). Files that are listed in order are known by their contents, so
that directories that agree on every file have the same files (`files_eq_of_agree`).
-/

namespace DecisionCompiler

/-- The batch inserts the decision: it is a decision of some of the first requests, all of which
pass. -/
def Service.Inserts {σ : Type} (service : Service σ) (state : σ) (batch : Batch)
    (decision : Decision) : Prop :=
  ∃ before after decisions kept, batch.decisions = before ++ after ∧
    service.Passes state before decisions kept ∧ decision ∈ decisions

namespace Directory

/-! ### One insert -/

section Insert

variable {fileSystem : FileSystem} {directory next : Directory} {decision : Decision}
  {e : RepositoryError}

/-- The file of a decision can be written. -/
def Writable (fileSystem : FileSystem) (decision : Decision) : Prop :=
  ValidName decision.name ∧ fileSystem.Fits (fileName decision.name)

/-- The directory with the document of a decision written to its file. -/
def writeDecision (directory : Directory) (decision : Decision) : Directory :=
  directory.write (fileName decision.name) decision.toJson.pretty

/-- Whether an insert succeeds does not depend on what the directory holds. -/
theorem insert_eq_ok_iff :
    (repository fileSystem).insert directory decision = (next, .ok ()) ↔
      Writable fileSystem decision ∧ next = directory.writeDecision decision := by
  by_cases valid : ValidName decision.name
  · by_cases fits : fileSystem.Fits (fileName decision.name)
    · simp [repository, fileOf, valid, store, fits, Writable, writeDecision, eq_comm]
    · simp [repository, fileOf, valid, store, fits, Writable]
  · simp [insert_of_not_valid fileSystem valid, Writable, valid]

/-- An insert that fails changes no file. -/
theorem files_of_insert_eq_error
    (failed : (repository fileSystem).insert directory decision = (next, .error e)) :
    next.files = directory.files := by
  by_cases valid : ValidName decision.name
  · by_cases fits : fileSystem.Fits (fileName decision.name)
    · simp [repository, fileOf, valid, store, fits] at failed
    · have created : directory.create = next := by
        simpa [repository, fileOf, valid, store, fits] using congrArg Prod.fst failed
      rw [← created]
      rfl
  · rw [insert_of_not_valid fileSystem valid] at failed
    obtain ⟨rfl, _⟩ := Prod.mk.inj failed
    rfl

end Insert

/-! ### Directories that agree -/

/-- The directories have the same contents in some files. -/
def Agree (files : Set String) (first second : Directory) : Prop :=
  ∀ file ∈ files, first.read? file = second.read? file

/-- The files of decisions. -/
def filesOf (decisions : List Decision) : Set String :=
  { file | ∃ decision ∈ decisions, file = fileName decision.name }

theorem filesOf_cons (decision : Decision) (decisions : List Decision) :
    filesOf (decision :: decisions) = insert (fileName decision.name) (filesOf decisions) := by
  ext file
  simp [filesOf]

/-- What is written to both directories is the same in both. -/
theorem Agree.writeDecision {files : Set String} {first second : Directory}
    (agree : Agree files first second) (decision : Decision) :
    Agree (insert (fileName decision.name) files) (first.writeDecision decision)
      (second.writeDecision decision) := by
  intro file mem
  rw [Directory.writeDecision, Directory.writeDecision, read?_write, read?_write]
  by_cases written : file = fileName decision.name
  · rw [if_pos written, if_pos written]
  · rw [if_neg written, if_neg written]
    exact agree file (Set.mem_of_mem_insert_of_ne mem written)

/-- Directories whose files are listed in order have the same files if they agree on every file. -/
theorem files_eq_of_agree {files : Set String} {first second : Directory}
    (agree : Agree files first second) (everywhere : ∀ file, file ∈ files)
    (ascending : Entries.Ascending first.files) (ascending' : Entries.Ascending second.files) :
    first.files = second.files :=
  Entries.eq_of_get?_eq ascending ascending' fun file => agree file (everywhere file)

/-! ### Batches -/

section Runs

variable {service : Service Directory} {fileSystem : FileSystem} {files : Set String}
  {first second last : Directory} {decisions : List Decision} {requests : List DecisionRequest}

/-- The decisions that pass are written to their files and to no others. -/
theorem agree_of_passes (filed : service.repository = repository fileSystem)
    (passes : service.Passes first requests decisions last) :
    Agree (filesOf decisions)ᶜ first last := by
  induction passes with
  | nil => exact fun _ _ => rfl
  | @cons state next last _ _ decision decisions _ inserted _ ih =>
    rw [filed] at inserted
    obtain ⟨_, rfl⟩ := insert_eq_ok_iff.mp inserted
    intro file outside
    rw [filesOf_cons, Set.mem_compl_iff, Set.mem_insert_iff, not_or] at outside
    obtain ⟨apart, behind⟩ := outside
    rw [← ih file behind, Directory.writeDecision, read?_write, if_neg apart]

/-- What passes in one directory passes in the other, and is the same in both afterwards. -/
theorem exists_passes_of_agree (filed : service.repository = repository fileSystem)
    (passes : service.Passes first requests decisions last) (agree : Agree files first second) :
    ∃ last', service.Passes second requests decisions last' ∧
      Agree (filesOf decisions ∪ files) last last' := by
  induction passes generalizing files second with
  | nil =>
    refine ⟨second, .nil second, fun file mem => ?_⟩
    exact agree file (by simpa [filesOf] using mem)
  | @cons state next last _ _ decision decisions assembled inserted _ ih =>
    rw [filed] at inserted
    obtain ⟨writable, rfl⟩ := insert_eq_ok_iff.mp inserted
    obtain ⟨last', rest, same⟩ := ih (agree.writeDecision decision)
    have inserted' : service.repository.insert second decision =
        (second.writeDecision decision, .ok ()) := by
      rw [filed]
      exact insert_eq_ok_iff.mpr ⟨writable, rfl⟩
    refine ⟨last', .cons assembled inserted' rest, ?_⟩
    rwa [filesOf_cons, Set.insert_union, ← Set.union_insert]

/-- Files that are listed in order stay so. -/
theorem ascending_of_passes (filed : service.repository = repository fileSystem)
    (passes : service.Passes first requests decisions last)
    (ascending : Entries.Ascending first.files) : Entries.Ascending last.files := by
  induction passes with
  | nil => exact ascending
  | cons _ inserted _ ih =>
    rw [filed] at inserted
    obtain ⟨_, rfl⟩ := insert_eq_ok_iff.mp inserted
    exact ih (Entries.ascending_insert ascending)

/-- Whatever becomes of a batch, the files it leaves are those of the decisions that it inserts. -/
theorem exists_passes_files (filed : service.repository = repository fileSystem)
    (start : Directory) (batch : Batch) :
    ∃ passed decisions kept, service.Passes start passed decisions kept ∧
      (service.compileBatch start batch).1.files = kept.files ∧
        ∀ decision ∈ decisions, service.Inserts start batch decision := by
  obtain ⟨decisions, last, passes⟩ |
    ⟨before, request, after, decisions, kept, error, tried, last, split, passes, fails⟩ :=
      service.passes_or_fails start batch.decisions
  · refine ⟨batch.decisions, decisions, last, passes, ?_, fun decision mem => ?_⟩
    · rw [Service.compileBatch, passes.compileAll_eq]
    · exact ⟨batch.decisions, [], decisions, last, (List.append_nil _).symm, passes, mem⟩
  · refine ⟨before, decisions, kept, passes, ?_, fun decision mem => ?_⟩
    · rw [Service.compileBatch, split, passes.compileAll_eq_of_fails fails]
      cases fails with
      | compile _ => rfl
      | persistence _ refused =>
        rw [filed] at refused
        exact files_of_insert_eq_error refused
    · exact ⟨before, request :: after, decisions, kept, split, passes, mem⟩

end Runs

end Directory

/-- A decision has the name under which it was requested. -/
theorem Compiler.name_of_assemble {compiler : Compiler} {request : DecisionRequest}
    {decision : Decision} (assembled : compiler.assemble request = .ok decision) :
    decision.name = request.name := by
  obtain ⟨inputs, _, assembled⟩ := Outcome.bind_eq_ok_iff.mp assembled
  obtain ⟨outputs, _, ⟨⟩⟩ := Outcome.bind_eq_ok_iff.mp assembled
  rfl

/-- What a batch inserts was requested by it. -/
theorem Service.Inserts.exists_request {σ : Type} {service : Service σ} {state : σ} {batch : Batch}
    {decision : Decision} (inserts : service.Inserts state batch decision) :
    ∃ request ∈ batch.decisions, request.name = decision.name := by
  obtain ⟨before, after, decisions, kept, split, passes, mem⟩ := inserts
  have flipped := passes.assembled.flip
  obtain ⟨request, requested, assembled⟩ := Outcome.exists_of_forall₂ flipped mem
  refine ⟨request, ?_, (Compiler.name_of_assemble assembled).symm⟩
  rw [split]
  exact List.mem_append_left after requested

namespace Directory

/-- **A batch may be submitted again.** Take a batch that succeeds over some directory, and any
files, listed in order, to run it over; it succeeds there too. Whatever batch was run before it and
wherever that one stopped, if the names that it inserted are all among those of the later batch,
the later batch still succeeds and leaves the files that it leaves alone. In particular, running it
for the second time changes no file. -/
theorem compileBatch_retried (fileSystem : FileSystem) (compiler : Compiler) (again : Batch)
    (elsewhere : Directory)
    (succeeds :
      (Service.compileBatch ⟨compiler, repository fileSystem⟩ elsewhere again).2 = .ok ())
    (start : Directory) (ascending : Entries.Ascending start.files) :
    let service : Service Directory := ⟨compiler, repository fileSystem⟩
    let alone := (service.compileBatch start again).1
    (service.compileBatch start again).2 = .ok () ∧
      (∀ earlier : Batch,
        (∀ decision, service.Inserts start earlier decision →
          ∃ request ∈ again.decisions, request.name = decision.name) →
        let left := (service.compileBatch start earlier).1
        (service.compileBatch left again).2 = .ok () ∧
          (service.compileBatch left again).1.files = alone.files) ∧
      (service.compileBatch alone again).2 = .ok () ∧
        (service.compileBatch alone again).1.files = alone.files := by
  intro service alone
  have filed : service.repository = repository fileSystem := rfl
  obtain ⟨decisions, last, passes⟩ : ∃ decisions last,
      service.Passes start again.decisions decisions last := by
    obtain ⟨decisions, _, passed⟩ := Service.exists_passes_of_compileAll succeeds
    obtain ⟨last, passes, _⟩ :=
      exists_passes_of_agree filed passed (fun _ nowhere => absurd nowhere (Set.notMem_empty _))
    exact ⟨decisions, last, passes⟩
  have retried : ∀ earlier : Batch,
      (∀ decision, service.Inserts start earlier decision →
        ∃ request ∈ again.decisions, request.name = decision.name) →
      (service.compileBatch (service.compileBatch start earlier).1 again).2 = .ok () ∧
        (service.compileBatch (service.compileBatch start earlier).1 again).1.files =
          alone.files := by
    intro earlier covers
    obtain ⟨passed, inserted, kept, before, left, inserts⟩ :=
      exists_passes_files filed start earlier
    have agree : Agree (filesOf inserted)ᶜ start (service.compileBatch start earlier).1 := by
      intro file outside
      rw [agree_of_passes filed before file outside, read?, read?, left]
    obtain ⟨last', passes', same⟩ := exists_passes_of_agree filed passes agree
    -- The files that the earlier batch wrote are written again, and it left the others alone.
    have everywhere : ∀ file, file ∈ filesOf decisions ∪ (filesOf inserted)ᶜ := by
      intro file
      by_cases wrote : file ∈ filesOf inserted
      · obtain ⟨decision, mem, rfl⟩ := wrote
        obtain ⟨request, requested, name⟩ := covers decision (inserts decision mem)
        obtain ⟨later, memLater, assembled⟩ :=
          Outcome.exists_of_forall₂ passes.assembled requested
        have named := Compiler.name_of_assemble assembled
        exact .inl ⟨later, memLater, by rw [named, name]⟩
      · exact .inr wrote
    have listed : Entries.Ascending (service.compileBatch start earlier).1.files := by
      rw [left]
      exact ascending_of_passes filed before ascending
    have files : last.files = last'.files :=
      files_eq_of_agree same everywhere (ascending_of_passes filed passes ascending)
        (ascending_of_passes filed passes' listed)
    have aloneRun : service.compileBatch start again = (last, .ok ()) := passes.compileAll_eq
    have run : service.compileBatch (service.compileBatch start earlier).1 again =
        (last', .ok ()) :=
      passes'.compileAll_eq
    rw [run]
    refine ⟨rfl, ?_⟩
    rw [← files]
    exact congrArg (fun result => result.1.files) aloneRun.symm
  refine ⟨congrArg Prod.snd passes.compileAll_eq, retried, retried again ?_⟩
  exact fun decision inserts => inserts.exists_request

/-- A batch that stops at its second decision, and the same names again with that one mended. -/
theorem compileBatch_retried_mended :
    let lookup : RuleRequest := { kind := "BoolMap", payload := .object [] }
    let broken : DecisionRequest := .addOutput (.named "rate") (.output "y" .bool lookup)
    let earlier : Batch := ⟨[.addInput (.named "loan") (.input "age" .number), broken]⟩
    let again : Batch := ⟨[.named "loan", .named "rate"]⟩
    let start : Directory := ⟨some [("note.txt", "kept")]⟩
    let service : Service Directory := ⟨{}, repository .unlimited⟩
    let left := (service.compileBatch start earlier).1
    (service.compileBatch start earlier).2 = .error (.compile (.missingOperand "y")) ∧
      left.files ≠ start.files ∧ (service.compileBatch left again).2 = .ok () ∧
        (service.compileBatch left again).1.files =
          (service.compileBatch start again).1.files := by
  intro lookup broken earlier again start service left
  have succeeds : (service.compileBatch start again).2 = .ok () := rfl
  have ascending : Entries.Ascending start.files := List.pairwise_singleton _ _
  obtain ⟨_, retried, _⟩ := compileBatch_retried .unlimited {} again start succeeds start ascending
  refine ⟨rfl, ?_, retried earlier fun decision inserts => ?_⟩
  · decide
  · obtain ⟨request, requested, named⟩ := inserts.exists_request
    obtain rfl | rfl := by simpa [earlier] using requested
    · exact ⟨.named "loan", by simp [again], named⟩
    · exact ⟨.named "rate", by simp [again], named⟩

end Directory

end DecisionCompiler
