import DecisionCompiler.Proofs.Decision.Document
import DecisionCompiler.Store.Directory
import DecisionCompiler.Store.Memory
import Mathlib.Data.List.Dedup

/-!
What a directory and a memory hold after a run of inserts.

A directory mirrors a memory when the file of each name holds the document of the decision that the
memory gives for that name, and there are no other files (`Directory.Mirrors`). A directory that
starts without files mirrors an empty memory, and each insert keeps this: an insert that is accepted
writes one file and pushes one decision (`Mirrors.write`), and one that is refused changes neither.
Since a written document is decoded to its decision, the directory answers as the memory does
(`Mirrors.load`), and `insertAll_keeps_latest` says what both answer: the last decision that was
accepted under a name.
-/

namespace DecisionCompiler

namespace Repository

variable {σ : Type}

/-- The state after decisions have been inserted in turn, whatever became of each. -/
def insertAll (repository : Repository σ) (state : σ) (decisions : List Decision) : σ :=
  decisions.foldl (fun state decision => (repository.insert state decision).1) state

/-- The decisions among these that are inserted without a failure. -/
def accepted (repository : Repository σ) : σ → List Decision → List Decision
  | _, [] => []
  | state, decision :: decisions =>
    match repository.insert state decision with
    | (next, .ok ()) => decision :: repository.accepted next decisions
    | (next, .error _) => repository.accepted next decisions

end Repository

/-- The decision is the last one of that name. -/
def Latest (name : String) (decisions : List Decision) (decision : Decision) : Prop :=
  ∃ before after, decisions = before ++ decision :: after ∧ decision.name = name ∧
    ∀ other ∈ after, other.name ≠ name

/-! ### In memory -/

namespace MemoryStore

theorem get?_eq_some_iff {store : MemoryStore} {name : String} {decision : Decision} :
    store.get? name = some decision ↔ Latest name store.decisions decision := by
  rw [get?, List.find?_eq_some_iff_append, Latest]
  constructor
  · rintro ⟨named, behind, before, split, others⟩
    refine ⟨before.reverse, behind.reverse, ?_, by simpa using named, ?_⟩
    · rw [← List.reverse_reverse store.decisions, split]
      simp
    · intro other mem
      simpa using others other (List.mem_reverse.mp mem)
  · rintro ⟨before, after, split, named, others⟩
    refine ⟨by simpa using named, after.reverse, before.reverse, by simp [split], ?_⟩
    intro other mem
    simpa using others other (List.mem_reverse.mp mem)

theorem get?_eq_none_iff {store : MemoryStore} {name : String} :
    store.get? name = none ↔ ∀ decision ∈ store.decisions, decision.name ≠ name := by
  simp [get?]

theorem insertAll_eq (store : MemoryStore) (decisions : List Decision) :
    repository.insertAll store decisions = ⟨store.decisions ++ decisions⟩ := by
  induction decisions generalizing store with
  | nil => simp [Repository.insertAll]
  | cons decision decisions ih =>
    have next := ih (store.push decision)
    rw [push, List.append_assoc] at next
    exact next

end MemoryStore

/-! ### In a directory -/

namespace Directory

theorem fileName_injective : Function.Injective fileName := by
  intro first second same
  have chars : first.toList ++ ".json".toList = second.toList ++ ".json".toList := by
    rw [← String.toList_append, ← String.toList_append]
    exact congrArg String.toList same
  exact String.toList_inj.mp (List.append_cancel_right chars)

/-- The directory holds, in one file for each name, the documents that the memory would give. -/
structure Mirrors (directory : Directory) (store : MemoryStore) : Prop where
  ascending : Entries.Ascending directory.files
  named : ∀ entry ∈ directory.files, ∃ decision ∈ store.decisions, entry.1 = fileName decision.name
  read : ∀ name, directory.read? (fileName name) =
    (store.get? name).map fun decision => decision.toJson.pretty
  valid : ∀ decision ∈ store.decisions, ValidName decision.name
  canonical : ∀ decision ∈ store.decisions, decision.Canonical

section Run

variable {wording : Json.Wording} {directory : Directory} {store : MemoryStore}
  {decision : Decision} {decisions : List Decision} {name : String}

theorem Mirrors.empty (noFiles : directory.files = []) : Mirrors directory {} where
  ascending := by rw [noFiles]; exact .nil
  named := by simp [noFiles]
  read name := by simp [read?, noFiles, Entries.get?, MemoryStore.get?]
  valid := nofun
  canonical := nofun

/-- What is written to the file of a name and pushed under that name is mirrored. -/
theorem Mirrors.write (mirrors : Mirrors directory store) (valid : ValidName decision.name)
    (canonical : decision.Canonical) :
    Mirrors (directory.write (fileName decision.name) decision.toJson.pretty)
      (store.push decision) where
  ascending := Entries.ascending_insert mirrors.ascending
  named entry mem := by
    rcases Entries.mem_insert mem with rfl | mem
    · exact ⟨decision, by simp [MemoryStore.push], rfl⟩
    · obtain ⟨other, kept, file⟩ := mirrors.named entry mem
      exact ⟨other, List.mem_append_left _ kept, file⟩
  read name := by
    rw [read?_write, MemoryStore.get?_push, mirrors.read]
    by_cases same : decision.name = name
    · rw [if_pos same, if_pos (congrArg fileName same.symm), Option.map_some]
    · have apart : fileName name ≠ fileName decision.name := fun file =>
        same (fileName_injective file).symm
      rw [if_neg same, if_neg apart]
  valid := List.forall_mem_append.mpr ⟨mirrors.valid, by simpa using valid⟩
  canonical := List.forall_mem_append.mpr ⟨mirrors.canonical, by simpa using canonical⟩

theorem insert_of_valid (valid : ValidName decision.name) :
    (repository .unlimited).insert directory decision =
      (directory.write (fileName decision.name) decision.toJson.pretty, .ok ()) := by
  simp [repository, fileOf, valid, store, FileSystem.fits_unlimited]

/-- A name that is not valid is refused before anything is touched. -/
theorem insert_of_not_valid (fileSystem : FileSystem) (refused : ¬ValidName decision.name) :
    (repository fileSystem).insert directory decision =
      (directory, .error (.invalidName decision.name)) := by
  simp [repository, fileOf, refused]

/-- Whatever is inserted, the directory goes on to mirror a memory of what was accepted. -/
theorem Mirrors.insertAll (mirrors : Mirrors directory store)
    (canonical : ∀ decision ∈ decisions, decision.Canonical) :
    Mirrors ((repository .unlimited).insertAll directory decisions)
      (MemoryStore.repository.insertAll store
        ((repository .unlimited).accepted directory decisions)) := by
  induction decisions generalizing directory store with
  | nil => exact mirrors
  | cons decision decisions ih =>
    have others : ∀ decision ∈ decisions, decision.Canonical := fun other mem =>
      canonical other (List.mem_cons_of_mem _ mem)
    rw [Repository.insertAll, List.foldl_cons, Repository.accepted]
    by_cases valid : ValidName decision.name
    · rw [insert_of_valid valid]
      exact ih (mirrors.write valid (canonical decision List.mem_cons_self)) others
    · rw [insert_of_not_valid .unlimited valid]
      exact ih mirrors others

/-- A directory gives for a valid name what the memory does. -/
theorem Mirrors.load (mirrors : Mirrors directory store) (valid : ValidName name) :
    directory.load wording .unlimited name =
      (store.get? name).elim (.error (.io .notFound)) .ok := by
  have read := mirrors.read name
  rw [Directory.load, fileOf, if_pos valid, Outcome.ok_bind, Directory.read,
    if_neg fun measured => measured.2 (FileSystem.fits_unlimited _), read]
  cases kept : store.get? name with
  | none => rfl
  | some decision =>
    obtain ⟨before, after, split, _⟩ := MemoryStore.get?_eq_some_iff.mp kept
    have canonical := mirrors.canonical decision (by simp [split])
    have decoded := Decision.decodeText_toJson Json.Style.pretty_lawful canonical
    simp [Json.pretty, decoded, Except.mapError]

theorem load_of_not_valid (fileSystem : FileSystem) (refused : ¬ValidName name) :
    directory.load wording fileSystem name = .error (.invalidName name) := by
  simp [load, fileOf, refused]

theorem Mirrors.load_eq_ok_iff (mirrors : Mirrors directory store) :
    directory.load wording .unlimited name = .ok decision ↔ store.get? name = some decision := by
  by_cases valid : ValidName name
  · rw [mirrors.load valid]
    cases store.get? name <;> simp
  · rw [load_of_not_valid .unlimited valid]
    constructor
    · exact nofun
    · intro given
      obtain ⟨before, after, split, rfl, _⟩ := MemoryStore.get?_eq_some_iff.mp given
      exact absurd (mirrors.valid decision (by simp [split])) valid

/-- There is one file for each name. -/
theorem Mirrors.files_perm (mirrors : Mirrors directory store) :
    (directory.files.map Prod.fst).Perm
      ((store.decisions.map Decision.name).dedup.map fileName) := by
  have ascending : (directory.files.map Prod.fst).Pairwise (· < ·) :=
    List.pairwise_map.mpr mirrors.ascending
  have files : (directory.files.map Prod.fst).Nodup := by
    refine ascending.imp ?_
    rintro file _ less rfl
    exact String.lt_irrefl file less
  have names := (List.nodup_dedup (store.decisions.map Decision.name)).map fileName_injective
  rw [List.perm_ext_iff_of_nodup files names]
  intro file
  simp only [List.mem_map, List.mem_dedup]
  constructor
  · rintro ⟨entry, mem, rfl⟩
    obtain ⟨decision, kept, file⟩ := mirrors.named entry mem
    exact ⟨decision.name, ⟨decision, kept, rfl⟩, file.symm⟩
  · rintro ⟨_, ⟨decision, kept, rfl⟩, rfl⟩
    have read := mirrors.read decision.name
    cases given : store.get? decision.name with
    | none => exact absurd rfl (MemoryStore.get?_eq_none_iff.mp given decision kept)
    | some latest =>
      rw [given, Option.map_some] at read
      exact ⟨_, (Entries.get?_eq_some_iff mirrors.ascending).mp read, rfl⟩

end Run

/-- **A directory keeps the latest of each name.** Start from a directory that is absent or empty
and insert decisions in turn, under whatever names. What is loaded afterwards is the last decision
that was accepted under the name; a valid name under which none was accepted is not found, and an
invalid name is refused. There is one file for each name accepted. The next insert succeeds exactly
if its name is valid, and one that is refused for its name leaves the directory as it is. A memory
given the accepted decisions answers alike. -/
theorem insertAll_keeps_latest (wording : Json.Wording) (start : Directory)
    (noFiles : start.files = []) (decisions : List Decision)
    (canonical : ∀ decision ∈ decisions, decision.Canonical) :
    let directory := (repository .unlimited).insertAll start decisions
    let accepted := (repository .unlimited).accepted start decisions
    (∀ name decision,
      directory.load wording .unlimited name = .ok decision ↔ Latest name accepted decision) ∧
      (∀ name, ValidName name → (∀ decision ∈ accepted, decision.name ≠ name) →
        directory.load wording .unlimited name = .error (.io .notFound)) ∧
      (∀ name, ¬ValidName name →
        directory.load wording .unlimited name = .error (.invalidName name)) ∧
      (directory.files.map Prod.fst).Perm ((accepted.map Decision.name).dedup.map fileName) ∧
      (∀ decision, ((repository .unlimited).insert directory decision).2 =
        if ValidName decision.name then .ok () else .error (.invalidName decision.name)) ∧
      (∀ decision name,
        ((repository .unlimited).insert directory decision).2 = .error (.invalidName name) →
          ((repository .unlimited).insert directory decision).1 = directory) ∧
      ∀ name decision, (MemoryStore.repository.insertAll {} accepted).get? name = some decision ↔
        Latest name accepted decision := by
  intro directory accepted
  have kept : MemoryStore.repository.insertAll {} accepted = ⟨accepted⟩ :=
    MemoryStore.insertAll_eq {} accepted
  have mirrors : Mirrors directory ⟨accepted⟩ := kept ▸ (Mirrors.empty noFiles).insertAll canonical
  refine ⟨fun name decision => ?_, fun name valid unused => ?_,
    fun name refused => load_of_not_valid .unlimited refused, mirrors.files_perm,
    fun decision => ?_, fun decision name failed => ?_, fun name decision => ?_⟩
  · rw [mirrors.load_eq_ok_iff]
    exact MemoryStore.get?_eq_some_iff
  · rw [mirrors.load valid, MemoryStore.get?_eq_none_iff.mpr unused]
    rfl
  · split
    · rename_i valid
      rw [insert_of_valid valid]
    · rename_i refused
      rw [insert_of_not_valid .unlimited refused]
  · by_cases valid : ValidName decision.name
    · rw [insert_of_valid valid] at failed
      exact nomatch failed
    · rw [insert_of_not_valid .unlimited valid]
  · rw [kept]
    exact MemoryStore.get?_eq_some_iff

/-- A name inserted again, and a name that would lead out of the directory. -/
theorem insertAll_keeps_latest_replaced :
    let first : Decision := ⟨"loan", [], []⟩
    let second : Decision := ⟨"loan", [], [⟨{ key := "rate", type := .number }, ⟨"0.05"⟩⟩]⟩
    let outside : Decision := ⟨"../loan", [], []⟩
    let directory := (repository .unlimited).insertAll {} [first, outside, second]
    let wording : Json.Wording := fun text _ => text
    directory.load wording .unlimited "loan" = .ok second ∧
      directory.load wording .unlimited "rate" = .error (.io .notFound) ∧
      directory.load wording .unlimited "../loan" = .error (.invalidName "../loan") := by
  intro first second outside directory wording
  have canonical : ∀ decision ∈ [first, outside, second], decision.Canonical := by
    intro decision mem
    have inputs : decision.inputs = [] ∧ ∀ field ∈ decision.outputs, field.type = .number := by
      obtain rfl | rfl | rfl := by simpa using mem
      all_goals simp [first, outside, second]
    exact ⟨by simp [inputs.1], fun field mem => inputs.2 field mem ▸ rfl⟩
  obtain ⟨loaded, unused, refused, _⟩ :=
    insertAll_keeps_latest wording {} rfl [first, outside, second] canonical
  have valid : ValidName "loan" ∧ ValidName "rate" ∧ ¬ValidName "../loan" := by decide
  have accepted :
      (repository .unlimited).accepted {} [first, outside, second] = [first, second] := by
    simp [Repository.accepted, insert_of_valid, insert_of_not_valid, first, outside, second, valid]
  rw [accepted] at loaded unused
  refine ⟨(loaded "loan" second).mpr ⟨[first], [], rfl, rfl, nofun⟩, ?_, refused _ valid.2.2⟩
  exact unused "rate" valid.2.1 (by simp [first, second])

end Directory

end DecisionCompiler
