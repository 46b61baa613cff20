import DecisionCompiler.Proofs.Store.Inserts
import DecisionCompiler.Proofs.Store.Path

/-!
Where the documents of a directory stand.

A name that a directory accepts leads to one file, directly inside of the root (`Inside`), whatever
the name is and wherever the root stands. Inserting a decision writes that file and no other one,
and loading the name looks at that file alone (`Serves`). A name that could lead elsewhere is
refused before anything is touched (`Refuses`). `documentPath_confines` says all of this of the path
of a document.
-/

namespace DecisionCompiler.Directory

/-! ### Paths of documents -/

/-- The path is that of a file directly inside of a directory: its text is the text of the directory
and the file, as texts of paths are joined, its names are those of the directory and the file, and
none of them leads to a parent. -/
structure Inside (root : Path) (file : String) (path : Path) : Prop where
  joined : path.text = root.join file
  resolved : Path.ofText path.text = path
  names : Path.namesIn path.text = Path.namesIn root.text ++ [file]
  below : ".." ∉ Path.namesIn path.text

section Paths

variable {root path : Path} {name other : String}

/-- The file of a valid name is named by a single name. -/
theorem isName_fileName (valid : ValidName name) : Path.IsName (fileName name) := by
  have long : 5 ≤ (fileName name).length := by
    rw [fileName, String.length_append]
    exact Nat.le_add_left 5 _
  obtain ⟨_, _, noSlash, _⟩ := valid
  refine ⟨?_, ?_, ?_, ?_⟩
  · intro short
    exact absurd (short ▸ long) (by decide)
  · intro short
    exact absurd (short ▸ long) (by decide)
  · intro short
    exact absurd (short ▸ long) (by decide)
  · rw [fileName, String.toList_append, List.mem_append, not_or]
    exact ⟨noSlash, by decide⟩

theorem documentPath_eq_ok_iff :
    documentPath root name = .ok path ↔ ValidName name ∧ path = root.child (fileName name) := by
  rw [documentPath, fileOf]
  by_cases valid : ValidName name
  · rw [if_pos valid, Outcome.map_ok]
    constructor
    · intro made
      exact ⟨valid, (Except.ok.inj made).symm⟩
    · rintro ⟨_, rfl⟩
      rfl
  · rw [if_neg valid, Outcome.map_error]
    constructor
    · intro made
      cases made
    · rintro ⟨valid', _⟩
      exact absurd valid' valid

theorem inside_child (proper : root.Proper) (valid : ValidName name) :
    Inside root (fileName name) (root.child (fileName name)) := by
  have isName := isName_fileName valid
  have properChild := Path.proper_child proper isName
  have names := Path.namesIn_text properChild
  refine ⟨Path.text_child proper isName, Path.ofText_text properChild, ?_, ?_⟩
  · rw [names, Path.namesIn_text proper]
    rfl
  · rw [names]
    intro parent
    exact (properChild ".." parent).notParent rfl

end Paths

/-! ### Operations at a path -/

/-- What a directory that stands at a root holds at a path. -/
def contentAt (directory : Directory) (root path : Path) : Option String :=
  (directory.files.find? fun entry => root.child entry.1 = path).map Prod.snd

/-- The operations for a name use the file at the path. Inserting a decision of the name writes the
file, if it succeeds, and changes nothing at another path; loading the name decodes what stands at
the path, unless the file system cannot hold a file of that name. -/
structure Serves (root : Path) (name : String) (path : Path) : Prop where
  inserted : ∀ fileSystem directory (decision : Decision), decision.name = name →
    ((repository fileSystem).insert directory decision).2 = .ok () →
      ((repository fileSystem).insert directory decision).1.contentAt root path =
        some decision.toJson.pretty
  untouched : ∀ fileSystem directory (decision : Decision), decision.name = name →
    ∀ other, other ≠ path →
      ((repository fileSystem).insert directory decision).1.contentAt root other =
        directory.contentAt root other
  loaded : ∀ (wording : Json.Wording) (fileSystem : FileSystem) (directory : Directory),
    directory.load wording fileSystem name =
      if directory.files?.isSome ∧ ¬fileSystem.Fits (fileName name) then
        .error (.io .nameTooLong)
      else
        match directory.contentAt root path with
        | none => .error (.io .notFound)
        | some content => (Json.decodeText Decision.decoder content).mapError fun why =>
          .serialization (wording content why)

/-- The name is refused, and nothing is created or written for it. -/
structure Refuses (root : Path) (name : String) : Prop where
  path : documentPath root name = .error (.invalidName name)
  insert : ∀ fileSystem directory (decision : Decision), decision.name = name →
    (repository fileSystem).insert directory decision = (directory, .error (.invalidName name))
  load : ∀ (wording : Json.Wording) (fileSystem : FileSystem) (directory : Directory),
    directory.load wording fileSystem name = .error (.invalidName name)

section Operations

variable {root path : Path} {name : String} {directory : Directory}

theorem contentAt_child (directory : Directory) (root : Path) (file : String) :
    directory.contentAt root (root.child file) = directory.read? file := by
  have same : ∀ entry : String × String, root.child entry.1 = root.child file ↔ entry.1 = file := by
    intro entry
    simp [Path.child]
  rw [contentAt, read?]
  simp only [same]
  induction directory.files with
  | nil => rfl
  | cons entry files ih =>
    rw [Entries.get?_cons, List.find?_cons]
    by_cases hit : entry.1 = file
    · simp [hit]
    · simp [hit, Ne.symm hit, ih]

theorem contentAt_eq_none (outside : ∀ file, path ≠ root.child file) :
    directory.contentAt root path = none := by
  rw [contentAt, List.find?_eq_none.mpr fun entry _ => ?_]
  · rfl
  · simpa using Ne.symm (outside entry.1)

theorem contentAt_of_read? {directory' : Directory} {file : String}
    (kept : ∀ other, other ≠ file → directory'.read? other = directory.read? other)
    (apart : path ≠ root.child file) :
    directory'.contentAt root path = directory.contentAt root path := by
  by_cases inside : ∃ other, path = root.child other
  · obtain ⟨other, rfl⟩ := inside
    rw [contentAt_child, contentAt_child]
    exact kept other fun same => apart (same ▸ rfl)
  · rw [contentAt_eq_none (not_exists.mp inside), contentAt_eq_none (not_exists.mp inside)]

theorem serves_child (root : Path) (valid : ValidName name) :
    Serves root name (root.child (fileName name)) := by
  have run : ∀ (fileSystem : FileSystem) (directory : Directory) (decision : Decision),
      decision.name = name → (repository fileSystem).insert directory decision =
        directory.store fileSystem (fileName name) decision.toJson.pretty := by
    rintro fileSystem directory decision rfl
    simp [repository, fileOf, valid]
  refine ⟨?_, ?_, ?_⟩
  · intro fileSystem directory decision named
    rw [run fileSystem directory decision named, store, contentAt_child]
    split
    · intro _
      rw [read?_write, if_pos rfl]
    · intro failed
      cases failed
  · intro fileSystem directory decision named other apart
    rw [run fileSystem directory decision named, store]
    refine contentAt_of_read? (fun file differs => ?_) apart
    split
    · rw [read?_write, if_neg differs]
    · rfl
  · intro wording fileSystem directory
    rw [load, fileOf, if_pos valid, Outcome.ok_bind, read, contentAt_child]
    split
    · rfl
    · cases directory.read? (fileName name) <;> rfl

theorem refuses_of_not_valid (root : Path) (refused : ¬ValidName name) : Refuses root name := by
  refine ⟨?_, ?_, ?_⟩
  · rw [documentPath, fileOf, if_neg refused, Outcome.map_error]
  · rintro fileSystem directory decision rfl
    exact insert_of_not_valid fileSystem refused
  · intro wording fileSystem directory
    exact load_of_not_valid fileSystem refused

/-- What is not empty, not the name of the directory itself, and has none of these in it is a valid
name. -/
theorem validName_iff :
    ValidName name ↔ name ≠ "" ∧ name ≠ "." ∧ '/' ∉ name.toList ∧ '\\' ∉ name.toList ∧
      '\x00' ∉ name.toList ∧ ¬['.', '.'] <:+: name.toList := by
  rw [ValidName, Text.splitOnce?_eq_none_iff]

end Operations

/-- **Documents stay inside of their root.** Whatever the text of the root is, the path of a name
that is accepted is that of the file `<name>.json` directly inside of the root, different names have
different paths, and inserting and loading a name use its path. A name that is empty or has a
separator, two points in a row or NUL in it is refused, and nothing is touched for it. -/
theorem documentPath_confines (rootText : String) :
    let root := Path.ofText rootText
    (∀ name path, documentPath root name = .ok path →
      Inside root (name ++ ".json") path ∧ Serves root name path) ∧
    (∀ name other path, documentPath root name = .ok path → documentPath root other = .ok path →
      name = other) ∧
    ∀ name : String, name = "" ∨ '/' ∈ name.toList ∨ '\\' ∈ name.toList ∨
      ['.', '.'] <:+: name.toList ∨ '\x00' ∈ name.toList → Refuses root name := by
  intro root
  refine ⟨?_, ?_, ?_⟩
  · intro name path made
    obtain ⟨valid, rfl⟩ := documentPath_eq_ok_iff.mp made
    exact ⟨inside_child (Path.proper_ofText rootText) valid, serves_child root valid⟩
  · intro name other path made made'
    obtain ⟨_, rfl⟩ := documentPath_eq_ok_iff.mp made
    obtain ⟨_, same⟩ := documentPath_eq_ok_iff.mp made'
    have files : root.names ++ [fileName name] = root.names ++ [fileName other] :=
      congrArg Path.names same
    exact fileName_injective (List.cons.inj (List.append_cancel_left files)).1
  · intro name leads
    apply refuses_of_not_valid
    intro valid
    obtain ⟨nonempty, _, noSlash, noBackslash, noNul, noParent⟩ := validName_iff.mp valid
    rcases leads with empty | slash | backslash | parent | nul
    · exact nonempty empty
    · exact noSlash slash
    · exact noBackslash backslash
    · exact noParent parent
    · exact noNul nul

/-- A root that is written with a detour, a name with a point in it, and two names that would lead
out of the root or look like it. -/
theorem documentPath_confines_detour :
    let root := Path.ofText "/srv/data/../decisions/"
    let path : Path := ⟨["srv", "decisions", "pricing.v2.json"]⟩
    documentPath root "pricing.v2" = .ok path ∧ Inside root "pricing.v2.json" path ∧
      Serves root "pricing.v2" path ∧ Refuses root "../pricing" ∧ Refuses root "pricing..v2" := by
  intro root path
  obtain ⟨accepts, _, refuses⟩ := documentPath_confines "/srv/data/../decisions/"
  have made : documentPath root "pricing.v2" = .ok path :=
    documentPath_eq_ok_iff.mpr ⟨by decide, by decide +kernel⟩
  obtain ⟨inside, serves⟩ := accepts "pricing.v2" path made
  refine ⟨made, inside, serves, refuses "../pricing" (.inr (.inl (by decide))), ?_⟩
  refine refuses "pricing..v2" (.inr (.inr (.inr (.inl ?_))))
  exact ⟨"pricing".toList, "v2".toList, rfl⟩

end DecisionCompiler.Directory
