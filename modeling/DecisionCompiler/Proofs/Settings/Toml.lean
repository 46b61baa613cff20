import DecisionCompiler.Settings.Toml

/-!
What is assigned in a TOML file is in the table that is read.

`Node.Holds` says what a table under construction holds, and where: a path leads through the entries
of tables and the items of arrays of tables. Whatever a line does, it keeps what is held
(`readEntry_keeps`), also where it completes the table of an array, as the place of this table in
the array stays the same. A line that assigns puts its value behind the path of the last header and
the key (`readEntry_assigns`), so that every value is found there in the end (`at_of_readLines`),
and nothing else is (`Setting.At.unique`).
-/

namespace DecisionCompiler

/-! ### Places in settings -/

namespace Setting

/-- The steps lead to the setting. -/
inductive At (s : Setting) : List Step → Setting → Prop where
  | here : At s [] s
  | entry {name : String} {steps : List Step} {entries : List (String × Setting)} {inner : Setting}
      (found : Entries.get? name entries = some inner) (inside : At s steps inner) :
      At s (.entry name :: steps) (table entries)
  | item {i : Nat} {steps : List Step} {items : List Setting} {inner : Setting}
      (found : items[i]? = some inner) (inside : At s steps inner) :
      At s (.item i :: steps) (list items)

/-- At a place there is one setting. -/
theorem At.unique {s other whole : Setting} {steps : List Step} (first : At s steps whole)
    (second : At other steps whole) : s = other := by
  induction first with
  | here =>
    cases second
    rfl
  | entry found _ ih =>
    cases second with
    | entry found' inside' =>
      obtain rfl := Option.some.inj (found.symm.trans found')
      exact ih inside'
  | item found _ ih =>
    cases second with
    | item found' inside' =>
      obtain rfl := Option.some.inj (found.symm.trans found')
      exact ih inside'

/-- The names that steps lead through. -/
def namesOf (steps : List Step) : List String :=
  steps.filterMap fun
    | .entry name => some name
    | .item _ => none

theorem namesOf_entry (name : String) (steps : List Step) :
    namesOf (.entry name :: steps) = name :: namesOf steps :=
  rfl

end Setting

namespace Toml

open Setting (Step At namesOf namesOf_entry)

namespace Node

/-! ### What a table under construction holds -/

/-- The steps lead to a value that was assigned. -/
inductive Holds (s : Setting) : List Step → Node → Prop where
  | value : Holds s [] (value s)
  | entry {name : String} {steps : List Step} {origin : Origin} {entries : List (String × Node)}
      {child : Node} (found : Entries.get? name entries = some child)
      (inside : Holds s steps child) :
      Holds s (.entry name :: steps) (table origin entries)
  /-- In a table of an array that is complete. -/
  | complete {i : Nat} {steps : List Step} {complete : List Setting}
      {entries : List (String × Node)} {inner : Setting}
      (found : complete.reverse[i]? = some inner) (inside : At s steps inner) :
      Holds s (.item i :: steps) (tables complete entries)
  /-- In the last table of an array. -/
  | last {steps : List Step} {complete : List Setting} {entries : List (String × Node)}
      (inside : Holds s steps (table .header entries)) :
      Holds s (.item complete.length :: steps) (tables complete entries)

variable {s : Setting} {steps : List Step} {node node' child : Node} {origin origin' : Origin}
  {entries entries' : List (String × Node)} {name : String} {path key : List String}

theorem get?_settingsOf (name : String) (entries : List (String × Node)) :
    Entries.get? name (settingsOf entries) = (Entries.get? name entries).map toSetting := by
  induction entries with
  | nil => rfl
  | cons entry entries ih =>
    obtain ⟨other, node⟩ := entry
    rw [settingsOf, Entries.get?_cons, Entries.get?_cons, ih]
    split <;> rfl

/-- What is held is found in the setting. -/
theorem Holds.at_toSetting (holds : node.Holds s steps) : At s steps node.toSetting := by
  induction holds with
  | value => exact .here
  | entry found _ ih =>
    rw [toSetting]
    refine .entry ?_ ih
    rw [get?_settingsOf, found, Option.map_some]
  | complete found inside =>
    rw [toSetting]
    refine .item ?_ inside
    obtain ⟨inRange, _⟩ := List.getElem?_eq_some_iff.mp found
    rw [List.getElem?_append_left inRange, found]
  | last _ ih =>
    rw [toSetting]
    refine .item ?_ ih
    rw [List.getElem?_append_right (by simp)]
    simp [toSetting]

/-! ### What a step keeps -/

/-- Everything that one node holds the other one holds as well, at the same place. -/
def Keeps (node node' : Node) : Prop :=
  ∀ s steps, node.Holds s steps → node'.Holds s steps

theorem Keeps.refl (node : Node) : Keeps node node :=
  fun _ _ holds => holds

/-- How a table came to be does not matter for what it holds. -/
theorem keeps_origin (origin origin' : Origin) (entries : List (String × Node)) :
    Keeps (table origin entries) (table origin' entries) := by
  intro s steps holds
  cases holds with
  | entry found inside => exact .entry found inside

/-- A new entry, or one that keeps what the one before it holds. -/
theorem keeps_insert
    (kept : ∀ child, Entries.get? name entries = some child → Keeps child node) :
    Keeps (table origin entries) (table origin' (Entries.insert name node entries)) := by
  intro s steps holds
  cases holds with
  | @entry other steps _ _ child found inside =>
    by_cases same : other = name
    · rw [same] at found ⊢
      refine .entry ?_ (kept child found s steps inside)
      rw [Entries.get?_insert, if_pos rfl]
    · refine .entry ?_ inside
      rw [Entries.get?_insert, if_neg same, found]

theorem change_keeps {f : Origin → List (String × Node) → Option (List (String × Node))}
    (keeps : ∀ origin entries entries', f origin entries = some entries' →
      Keeps (table origin entries) (table origin entries'))
    (changed : node.change f = some node') : Keeps node node' := by
  cases node with
  | value s => exact nomatch changed
  | table origin entries =>
    obtain ⟨entries', made, rfl⟩ := Option.map_eq_some_iff.mp changed
    exact keeps origin entries entries' made
  | tables complete entries =>
    obtain ⟨entries', made, rfl⟩ := Option.map_eq_some_iff.mp changed
    intro s steps holds
    cases holds with
    | complete found inside => exact .complete found inside
    | last inside => exact .last (keeps .header entries entries' made s _ inside)

theorem changeAt_keeps {f : Origin → List (String × Node) → Option (List (String × Node))}
    (keeps : ∀ origin entries entries', f origin entries = some entries' →
      Keeps (table origin entries) (table origin entries'))
    (changed : node.changeAt path f = some node') : Keeps node node' := by
  induction path generalizing node node' with
  | nil =>
    rw [changeAt] at changed
    exact change_keeps keeps changed
  | cons name path ih =>
    rw [changeAt] at changed
    refine change_keeps ?_ changed
    intro origin entries entries' made
    obtain ⟨child', changedChild, rfl⟩ := Option.map_eq_some_iff.mp made
    -- A child that is only implied here is new, and nothing was held under its name.
    refine keeps_insert fun child found => ?_
    rw [found] at changedChild
    exact ih changedChild

theorem openTable_keeps (opened : node.openTable path = some node') : Keeps node node' := by
  refine changeAt_keeps ?_ opened
  intro origin entries entries' made
  dsimp only at made
  split at made
  · rename_i absent
    obtain rfl := Option.some.inj made
    refine keeps_insert fun child found => ?_
    exact nomatch absent.symm.trans found
  · rename_i inner implied
    obtain rfl := Option.some.inj made
    refine keeps_insert fun child found => ?_
    obtain rfl := Option.some.inj (implied.symm.trans found)
    exact keeps_origin _ _ inner
  · exact nomatch made

/-- The table that was under construction keeps its place. -/
theorem keeps_next (complete : List Setting) (entries : List (String × Node)) :
    Keeps (tables complete entries) (tables (.table (settingsOf entries) :: complete) []) := by
  intro s steps holds
  cases holds with
  | complete found inside =>
    refine .complete ?_ inside
    obtain ⟨inRange, _⟩ := List.getElem?_eq_some_iff.mp found
    rw [List.reverse_cons, List.getElem?_append_left inRange, found]
  | last inside =>
    refine .complete ?_ inside.at_toSetting
    simp [toSetting]

theorem openItem_keeps (opened : node.openItem path = some node') : Keeps node node' := by
  refine changeAt_keeps ?_ opened
  intro origin entries entries' made
  dsimp only at made
  split at made
  · rename_i absent
    obtain rfl := Option.some.inj made
    refine keeps_insert fun child found => ?_
    exact nomatch absent.symm.trans found
  · rename_i complete inner under
    obtain rfl := Option.some.inj made
    refine keeps_insert fun child found => ?_
    obtain rfl := Option.some.inj (under.symm.trans found)
    exact keeps_next complete inner
  · exact nomatch made

theorem put_eq_some_iff : put name s entries = some entries' ↔
    Entries.get? name entries = none ∧ entries' = Entries.insert name (value s) entries := by
  unfold put
  split
  · rename_i absent
    simp [absent, eq_comm]
  · rename_i taken
    simp [taken]

/-- A key with further names behind the first one changes the child of this name, or a new table. -/
theorem exists_of_assign_cons (further : key ≠ [])
    (assigned : assign (name :: key) s entries = some entries') :
    ∃ child child',
      (Entries.get? name entries = some child ∨
        (Entries.get? name entries = none ∧ child = table .dotted [])) ∧
      (child.change fun origin entries =>
        if key.length = 1 ∧ origin ≠ .dotted then none else assign key s entries) = some child' ∧
      entries' = Entries.insert name child' entries := by
  obtain ⟨second, key, rfl⟩ := List.exists_cons_of_ne_nil further
  rw [assign] at assigned
  · obtain ⟨child, chosen, made⟩ := Option.bind_eq_some_iff.mp assigned
    obtain ⟨child', changed, rfl⟩ := Option.map_eq_some_iff.mp made
    refine ⟨child, child', ?_, changed, rfl⟩
    split at chosen
    · rename_i absent
      exact .inr ⟨absent, (Option.some.inj chosen).symm⟩
    · exact nomatch chosen
    · rename_i found
      obtain rfl := Option.some.inj chosen
      exact .inl found
  · exact nofun

theorem assign_keeps (assigned : assign key s entries = some entries') :
    Keeps (table origin entries) (table origin entries') := by
  induction key generalizing origin entries entries' with
  | nil => exact nomatch assigned
  | cons name key ih =>
    cases key with
    | nil =>
      obtain ⟨fresh, rfl⟩ := put_eq_some_iff.mp assigned
      refine keeps_insert fun child found => ?_
      exact nomatch fresh.symm.trans found
    | cons second key =>
      obtain ⟨child, child', before, changed, rfl⟩ :=
        exists_of_assign_cons (List.cons_ne_nil second key) assigned
      refine keeps_insert fun other found => ?_
      have kept : Keeps child child' := by
        refine change_keeps ?_ changed
        intro origin entries entries' made
        split at made
        · exact nomatch made
        · exact ih made
      rcases before with same | ⟨absent, _⟩
      · obtain rfl := Option.some.inj (same.symm.trans found)
        exact kept
      · exact nomatch absent.symm.trans found

/-! ### What an assignment adds -/

/-- What the table under construction holds the node holds, at a place of the same names. -/
theorem exists_of_change {f : Origin → List (String × Node) → Option (List (String × Node))}
    (changed : node.change f = some node') :
    ∃ origin entries entries', f origin entries = some entries' ∧
      ∀ steps, Holds s steps (table origin entries') →
        ∃ steps', namesOf steps' = namesOf steps ∧ Holds s steps' node' := by
  cases node with
  | value s => exact nomatch changed
  | table origin entries =>
    obtain ⟨entries', made, rfl⟩ := Option.map_eq_some_iff.mp changed
    exact ⟨origin, entries, entries', made, fun steps holds => ⟨steps, rfl, holds⟩⟩
  | tables complete entries =>
    obtain ⟨entries', made, rfl⟩ := Option.map_eq_some_iff.mp changed
    exact ⟨.header, entries, entries', made, fun steps holds =>
      ⟨.item complete.length :: steps, rfl, .last holds⟩⟩

theorem get?_insert_self (name : String) (node : Node) (entries : List (String × Node)) :
    Entries.get? name (Entries.insert name node entries) = some node := by
  rw [Entries.get?_insert, if_pos rfl]

/-- An assignment puts its value behind the names of its key. -/
theorem assign_holds (assigned : assign key s entries = some entries') (origin : Origin) :
    ∃ steps, namesOf steps = key ∧ Holds s steps (table origin entries') := by
  induction key generalizing origin entries entries' with
  | nil => exact nomatch assigned
  | cons name key ih =>
    cases key with
    | nil =>
      obtain ⟨_, rfl⟩ := put_eq_some_iff.mp assigned
      exact ⟨[.entry name], rfl, .entry (get?_insert_self _ _ _) .value⟩
    | cons second key =>
      obtain ⟨child, child', _, changed, rfl⟩ :=
        exists_of_assign_cons (List.cons_ne_nil second key) assigned
      obtain ⟨innerOrigin, _, inner, made, outwards⟩ := exists_of_change changed
      split at made
      · exact nomatch made
      · obtain ⟨steps, names, holds⟩ := ih made innerOrigin
        obtain ⟨steps', names', holds'⟩ := outwards steps holds
        refine ⟨.entry name :: steps', ?_, .entry (get?_insert_self _ _ _) holds'⟩
        rw [namesOf_entry, names', names]

theorem changeAt_holds {f : Origin → List (String × Node) → Option (List (String × Node))}
    (holds : ∀ origin entries entries', f origin entries = some entries' →
      ∃ steps, namesOf steps = key ∧ Holds s steps (table origin entries'))
    (changed : node.changeAt path f = some node') :
    ∃ steps, namesOf steps = path ++ key ∧ Holds s steps node' := by
  induction path generalizing node node' with
  | nil =>
    rw [changeAt] at changed
    obtain ⟨origin, entries, entries', made, outwards⟩ := exists_of_change changed
    obtain ⟨steps, names, inside⟩ := holds origin entries entries' made
    obtain ⟨steps', names', holds'⟩ := outwards steps inside
    exact ⟨steps', names'.trans names, holds'⟩
  | cons name path ih =>
    rw [changeAt] at changed
    obtain ⟨origin, entries, entries', made, outwards⟩ := exists_of_change changed
    obtain ⟨child', changedChild, rfl⟩ := Option.map_eq_some_iff.mp made
    obtain ⟨steps, names, inside⟩ := ih changedChild
    obtain ⟨steps', names', holds'⟩ :=
      outwards (.entry name :: steps) (.entry (get?_insert_self _ _ _) inside)
    refine ⟨steps', names'.trans ?_, holds'⟩
    rw [namesOf_entry, names, List.cons_append]

end Node

/-! ### Lines -/

variable {progress progress' final : Progress} {text rest rest' : List Char}

/-- Every line keeps what is held. -/
theorem readEntry_keeps (read : readEntry progress text = some (progress', rest)) :
    progress.root.Keeps progress'.root := by
  unfold readEntry at read
  split at read
  · obtain ⟨⟨path, behind⟩, _, closed⟩ := Option.bind_eq_some_iff.mp read
    dsimp only at closed
    split at closed
    · obtain ⟨root, opened, made⟩ := Option.bind_eq_some_iff.mp closed
      obtain ⟨rfl, rfl⟩ := Prod.mk.inj (Option.some.inj made)
      exact Node.openItem_keeps opened
    · exact nomatch closed
  · obtain ⟨⟨path, behind⟩, _, closed⟩ := Option.bind_eq_some_iff.mp read
    dsimp only at closed
    split at closed
    · obtain ⟨root, opened, made⟩ := Option.bind_eq_some_iff.mp closed
      obtain ⟨rfl, rfl⟩ := Prod.mk.inj (Option.some.inj made)
      exact Node.openTable_keeps opened
    · exact nomatch closed
  · obtain ⟨⟨key, behind⟩, _, assigns⟩ := Option.bind_eq_some_iff.mp read
    dsimp only at assigns
    split at assigns
    · obtain ⟨⟨value, behind⟩, _, put⟩ := Option.bind_eq_some_iff.mp assigns
      obtain ⟨root, changed, made⟩ := Option.bind_eq_some_iff.mp put
      obtain ⟨rfl, rfl⟩ := Prod.mk.inj (Option.some.inj made)
      exact Node.changeAt_keeps (fun _ _ _ => Node.assign_keeps) changed
    · exact nomatch assigns

/-- A line that is no header puts its value behind the path of the last header and the key. -/
theorem readEntry_assigns (read : readEntry progress text = some (progress', rest))
    (noHeader : text.head? ≠ some '[') :
    ∃ key value more, readKey text = some (key, '=' :: more) ∧
      readValue maxDepth (skipBlanks more) = some (value, rest) ∧
      progress'.path = progress.path ∧
      ∃ steps, namesOf steps = progress.path ++ key ∧ progress'.root.Holds value steps := by
  unfold readEntry at read
  split at read
  · exact absurd rfl noHeader
  · exact absurd rfl noHeader
  · obtain ⟨⟨key, behind⟩, readsKey, assigns⟩ := Option.bind_eq_some_iff.mp read
    dsimp only at assigns
    split at assigns
    · rename_i more
      obtain ⟨⟨value, behind⟩, readsValue, put⟩ := Option.bind_eq_some_iff.mp assigns
      obtain ⟨root, changed, made⟩ := Option.bind_eq_some_iff.mp put
      obtain ⟨rfl, rfl⟩ := Prod.mk.inj (Option.some.inj made)
      refine ⟨key, value, more, readsKey, readsValue, rfl, ?_⟩
      exact Node.changeAt_holds (fun origin _ _ assigned => Node.assign_holds assigned origin)
        changed
    · exact nomatch assigns

/-- Reading on to the end keeps what is held. -/
theorem readLines_keeps {lines : Nat} (read : readLines lines progress text = some final) :
    progress.root.Keeps final.root := by
  induction lines generalizing progress text with
  | zero =>
    unfold readLines at read
    split at read
    · obtain rfl := Option.some.inj read
      exact .refl _
    · exact nomatch read
  | succ lines ih =>
    unfold readLines at read
    split at read
    · obtain rfl := Option.some.inj read
      exact .refl _
    · obtain ⟨⟨next, behind⟩, entry, further⟩ := Option.bind_eq_some_iff.mp read
      obtain ⟨rest, _, later⟩ := Option.bind_eq_some_iff.mp further
      intro s steps holds
      exact ih later s steps (readEntry_keeps entry s steps holds)

/-- **What a line assigns is in the table that is read**, behind the path of its header and its
key. -/
theorem at_of_readLines {lines : Nat} (read : readEntry progress text = some (progress', rest))
    (noHeader : text.head? ≠ some '[')
    (later : readLines lines progress' rest' = some final) :
    ∃ key value more, readKey text = some (key, '=' :: more) ∧
      readValue maxDepth (skipBlanks more) = some (value, rest) ∧
      ∃ steps, namesOf steps = progress.path ++ key ∧ At value steps final.root.toSetting := by
  obtain ⟨key, value, more, readsKey, readsValue, _, steps, names, holds⟩ :=
    readEntry_assigns read noHeader
  have kept := readLines_keeps later value steps holds
  exact ⟨key, value, more, readsKey, readsValue, steps, names, kept.at_toSetting⟩

end Toml

end DecisionCompiler
