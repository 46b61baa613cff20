import DecisionCompiler.Proofs.Text.Split
import DecisionCompiler.Store.Path

/-!
The texts of paths.

In the text of a path, `/` separates names; the empty name and `.` lead nowhere, and `..` leads to
the parent. A path is proper when none of its names is one of these or has a `/` in it, and every
path that is read from a text is (`proper_ofText`). The text of a proper path holds the names of the
path and no others (`namesIn_text`), and leads to the path (`ofText_text`). A name that follows a
proper directory leads to what is directly inside of the directory (`text_child`).
-/

namespace DecisionCompiler.Path

/-- The text names a file or a directory inside of another one. -/
structure IsName (name : String) : Prop where
  nonempty : name ≠ ""
  notSelf : name ≠ "."
  notParent : name ≠ ".."
  single : '/' ∉ name.toList

/-- Every name of the path names something. -/
def Proper (path : Path) : Prop :=
  ∀ name ∈ path.names, IsName name

/-- The names in a text that lead somewhere, that of the parent among them. -/
def namesIn (text : String) : List String :=
  ((Text.splitAll '/' text.toList).map String.ofList).filter fun name => name ≠ "" ∧ name ≠ "."

/-- The text of what a text leads to from a directory. An absolute text stands for itself, any other
one follows the text of the directory. -/
def join (directory : Path) (text : String) : String :=
  if text.toList.head? = some '/' then text
  else if directory.text.toList.getLast? = some '/' then directory.text ++ text
  else directory.text ++ "/" ++ text

/-! ### Reading -/

theorem step_proper {reached : List String} {name : String} (whole : '/' ∉ name.toList)
    (proper : ∀ n ∈ reached, IsName n) : ∀ n ∈ step reached name, IsName n := by
  rw [step]
  by_cases stays : name = "" ∨ name = "."
  · rw [if_pos stays]
    exact proper
  · obtain ⟨nonempty, notSelf⟩ := not_or.mp stays
    rw [if_neg stays]
    by_cases parent : name = ".."
    · rw [if_pos parent]
      intro n mem
      exact proper n (List.mem_of_mem_tail mem)
    · rw [if_neg parent]
      exact List.forall_mem_cons.mpr ⟨⟨nonempty, notSelf, parent, whole⟩, proper⟩

/-- Every path that is read from a text is proper. -/
theorem proper_ofText (text : String) : (ofText text).Proper := by
  have run : ∀ names reached : List String, (∀ n ∈ names, '/' ∉ n.toList) →
      (∀ n ∈ reached, IsName n) → ∀ n ∈ names.foldl step reached, IsName n := by
    intro names
    induction names with
    | nil =>
      intro reached _ proper
      exact proper
    | cons name names ih =>
      intro reached whole proper
      obtain ⟨first, others⟩ := List.forall_mem_cons.mp whole
      exact ih _ others (step_proper first proper)
  intro name mem
  refine run _ [] ?_ (List.forall_mem_nil _) name (List.mem_reverse.mp mem)
  intro part mem
  obtain ⟨chars, split, rfl⟩ := List.mem_map.mp mem
  rw [String.toList_ofList]
  exact Text.not_mem_of_mem_splitAll split

/-! ### Texts of proper paths -/

section Proper

variable {path : Path} {names : List String} {file : String}

theorem flatMap_slash (names : List String) :
    names.flatMap (fun name => '/' :: name.toList) =
      (['/'].intercalate ([] :: names.map String.toList)) := by
  induction names with
  | nil => rfl
  | cons name names ih =>
    rw [List.flatMap_cons, ih]
    cases names with
    | nil => simp [List.intercalate]
    | cons next names => simp [List.intercalate_cons_cons]

theorem toList_text (some : names ≠ []) :
    (text ⟨names⟩).toList = names.flatMap fun name => '/' :: name.toList := by
  cases names with
  | nil => exact absurd rfl some
  | cons name names => simp [Path.text, String.toList_join, List.flatMap_map]

/-- Only the text of the top ends in `/`. -/
theorem getLast?_text (proper : path.Proper) (some : path.names ≠ []) :
    path.text.toList.getLast? ≠ Option.some '/' := by
  obtain ⟨names⟩ := path
  obtain ⟨before, name, rfl⟩ := (List.eq_nil_or_concat' names).resolve_left some
  have isName : IsName name := proper name (List.mem_append_right _ List.mem_cons_self)
  have nonempty : name.toList ≠ [] := by
    intro empty
    exact isName.nonempty (String.toList_eq_nil_iff.mp empty)
  rw [toList_text some, List.flatMap_append, List.flatMap_singleton, List.getLast?_append_cons,
    List.getLast?_cons_of_ne_nil nonempty]
  intro last
  exact isName.single (List.mem_of_getLast? last)

/-- The text of a path is split into an empty name, before the first `/`, and the names of the
path; the top has an empty name behind its `/` as well. -/
theorem splitAll_text (proper : path.Proper) :
    (Text.splitAll '/' path.text.toList).map String.ofList =
      "" :: if path.names = [] then [""] else path.names := by
  obtain ⟨names⟩ := path
  cases names with
  | nil => rfl
  | cons name names =>
    have text := toList_text (List.cons_ne_nil name names)
    rw [flatMap_slash] at text
    have whole : ∀ part ∈ [] :: (name :: names).map String.toList, '/' ∉ part := by
      intro part mem
      rcases List.mem_cons.mp mem with rfl | mem
      · exact List.not_mem_nil
      · obtain ⟨n, among, rfl⟩ := List.mem_map.mp mem
        exact (proper n among).single
    rw [Text.splitAll_eq_iff.mpr ⟨List.cons_ne_nil _ _, whole, text⟩]
    simp [Function.comp_def]

/-- The text of a proper path holds the names of the path and no others. -/
theorem namesIn_text (proper : path.Proper) : namesIn path.text = path.names := by
  have kept : path.names.filter (fun name => name ≠ "" ∧ name ≠ ".") = path.names := by
    refine List.filter_eq_self.mpr fun name mem => ?_
    exact decide_eq_true ⟨(proper name mem).nonempty, (proper name mem).notSelf⟩
  rw [namesIn, splitAll_text proper]
  split
  · rename_i top
    rw [top]
    rfl
  · rw [List.filter_cons_of_neg (by decide), kept]

theorem foldl_step_of_proper (reached : List String) (proper : ∀ name ∈ names, IsName name) :
    names.foldl step reached = names.reverse ++ reached := by
  induction names generalizing reached with
  | nil => rfl
  | cons name names ih =>
    obtain ⟨⟨nonempty, notSelf, notParent, _⟩, others⟩ := List.forall_mem_cons.mp proper
    rw [List.foldl_cons, step, if_neg (not_or.mpr ⟨nonempty, notSelf⟩), if_neg notParent,
      ih _ others, List.reverse_cons, List.append_assoc, List.singleton_append]

/-- The text of a proper path leads to the path. -/
theorem ofText_text (proper : path.Proper) : ofText path.text = path := by
  have followed : ("" :: if path.names = [] then [""] else path.names).foldl step [] =
      path.names.reverse := by
    rw [List.foldl_cons, step, if_pos (.inl rfl)]
    split
    · rename_i top
      rw [top]
      rfl
    · rw [foldl_step_of_proper [] proper, List.append_nil]
  rw [ofText, splitAll_text proper, followed, List.reverse_reverse]

theorem proper_child (proper : path.Proper) (isName : IsName file) : (path.child file).Proper :=
  List.forall_mem_append.mpr ⟨proper, List.forall_mem_singleton.mpr isName⟩

/-- What follows a directory with a name leads to what is directly inside of the directory. -/
theorem text_child (proper : path.Proper) (isName : IsName file) :
    (path.child file).text = path.join file := by
  have relative : file.toList.head? ≠ some '/' := by
    intro head
    exact isName.single (List.mem_of_mem_head? head)
  rw [join, if_neg relative]
  obtain ⟨names⟩ := path
  cases names with
  | nil => rfl
  | cons name names =>
    have some : name :: names ≠ [] := List.cons_ne_nil _ _
    have solid := getLast?_text proper some
    rw [if_neg solid]
    have child : (child ⟨name :: names⟩ file).text =
        String.join ((name :: names).map ("/" ++ ·) ++ [("/" ++ file)]) := by
      simp [Path.child, Path.text]
    rw [child, String.join_append]
    simp [Path.text, String.append_assoc]

end Proper

end DecisionCompiler.Path
