import DecisionCompiler.Settings.Load
import DecisionCompiler.Proofs.Json.Numerals
import DecisionCompiler.Proofs.Settings.Environment
import DecisionCompiler.Proofs.Settings.Repository

/-!
Settings that are loaded.

What is loaded is what the layers together state (`load_eq_ok_iff`): a field that no key leads to
has its default, any other is what its setting counts as. So the port is a port
(`port_lt_of_load`), and settings of which nothing is set are the default ones (`load_of_unset`).

A variable of the environment wins over the settings file (`load_of_variable`), such as a port in
decimal (`port_of_load`), and over the file of assignments (`extends_withAssignments`). Settings
that are written as the settings file are loaded again (`load_written`).
-/

namespace DecisionCompiler

open Setting (Layer Leads ofLayers)

/-! ### Settings of variables -/

namespace Environment

/-- The last variable that leads to the name is a variable of the name, and has the text. -/
def Sets (environment : Environment) (name text : String) : Prop :=
  ∃ before owner after, environment.entries = before ++ (owner, text) :: after ∧
    keyOf? owner = some name ∧
    ∀ other ∈ after, ∀ key, keyOf? other.1 = some key → ¬Leads key name

variable {environment : Environment} {name text : String}

/-- A setting of the environment is no table. -/
theorem ofText_ne_table (text : String) (entries : List (String × Setting)) :
    Setting.ofText text ≠ .table entries := by
  unfold Setting.ofText
  split
  · exact nofun
  · exact nofun
  · split <;> exact nofun

/-- A variable wins over every layer before the environment. -/
theorem get?_of_sets (sets : environment.Sets name text) (isName : Setting.IsName name)
    (file : Layer) :
    (ofLayers [file, environment.layer]).get? name = some (Setting.ofText text) := by
  obtain ⟨before, owner, after, entries, keyed, last⟩ := sets
  have assigned : [file, environment.layer].flatten =
      (file ++ (⟨before⟩ : Environment).layer) ++
        (name, Setting.ofText text) :: (⟨after⟩ : Environment).layer := by
    simp [layer, entries, keyed]
  refine Setting.get?_ofLayers_of_last assigned ⟨?_, ofText_ne_table text⟩ ?_ ?_
  · rw [Setting.stepsOf_of_isName isName, List.tail_cons]
  · exact (Setting.leads_iff_of_isName isName).mpr rfl
  · intro other mem leads
    obtain ⟨⟨owner, value⟩, memAfter, made⟩ := List.mem_filterMap.mp mem
    obtain ⟨key, keyed, rfl⟩ := Option.map_eq_some_iff.mp made
    exact last _ memAfter key keyed leads

end Environment

namespace ServerSettings

variable {environment : Environment} {files : List (String × String)} {settings : ServerSettings}
  {tree : Setting} {file : Layer}

/-! ### What settings state -/

/-- The value of a field: the default if the field is not set, and otherwise what its setting counts
as. -/
def Chosen {α : Type} (setting : Option Setting) (read : Setting → Option α) (default value : α) :
    Prop :=
  (setting = none ∧ value = default) ∨ ∃ s, setting = some s ∧ read s = some value

theorem field?_eq_some_iff {α : Type} {name : String} {read : Setting → Option α}
    {default value : α} :
    field? tree name read default = some value ↔ Chosen (tree.get? name) read default value := by
  unfold field?
  cases tree.get? name with
  | none => simp [Chosen, eq_comm]
  | some s => simp [Chosen]

/-- The settings of a server are those that the table states. -/
structure States (tree : Setting) (settings : ServerSettings) : Prop where
  host : Chosen (tree.get? "host") Setting.asText? "127.0.0.1" settings.host
  port : Chosen (tree.get? "port") portOf? 8080 settings.port
  repository : Chosen (tree.get? "repository") choiceOf? (.directory "decisions")
    settings.repository
  logLevel : Chosen (tree.get? "log_level") Setting.asText? "info" settings.logLevel
  compiler : Chosen (tree.get? "compiler") compilerOf? ⟨false⟩ settings.compiler

theorem ofSetting?_eq_some_iff : ofSetting? tree = some settings ↔ States tree settings := by
  simp only [ofSetting?, Option.bind_eq_bind, Option.bind_eq_some_iff, field?_eq_some_iff]
  constructor
  · rintro ⟨host, hostChosen, port, portChosen, repository, repositoryChosen, logLevel,
      logLevelChosen, compiler, compilerChosen, made⟩
    obtain rfl := Option.some.inj made
    exact ⟨hostChosen, portChosen, repositoryChosen, logLevelChosen, compilerChosen⟩
  · rintro ⟨host, port, repository, logLevel, compiler⟩
    exact ⟨_, host, _, port, _, repository, _, logLevel, _, compiler, rfl⟩

/-- **What is loaded is what the layers together state**, if the settings file is well formed. -/
theorem load_eq_ok_iff : load environment files = .ok settings ↔
    ∃ file, fileLayer files = .ok file ∧
      States (ofLayers [file, (withAssignments environment files).layer]) settings := by
  simp only [load, Outcome.bind_eq_ok_iff, ← ofSetting?_eq_some_iff]
  refine exists_congr fun file => and_congr_right fun _ => ?_
  split
  · rename_i loaded stated
    rw [stated]
    simp [Outcome.pure_eq_ok]
  · rename_i unstated
    rw [unstated]
    exact iff_of_false nofun nofun

/-- The port that is loaded is a port. -/
theorem port_lt_of_load (loaded : load environment files = .ok settings) :
    settings.port < portBound := by
  obtain ⟨file, _, states⟩ := load_eq_ok_iff.mp loaded
  rcases states.port with ⟨_, default⟩ | ⟨s, _, read⟩
  · rw [default]
    decide
  · obtain ⟨_, bounded⟩ := Option.filter_eq_some_iff.mp read
    simpa using bounded

/-- What the fields of the settings are called. -/
def fieldNames : List String :=
  ["host", "port", "repository", "log_level", "compiler"]

/-- **Settings of which nothing is set are the default ones**, whatever else the layers assign
to. -/
theorem load_of_unset (read : fileLayer files = .ok file)
    (unset : ∀ name ∈ fieldNames, ∀ entry ∈ file ++ (withAssignments environment files).layer,
      ¬Leads entry.1 name) :
    load environment files = .ok {} := by
  have absent : ∀ name ∈ fieldNames,
      (ofLayers [file, (withAssignments environment files).layer]).get? name = none := by
    intro name mem
    rw [Setting.get?_ofLayers_eq_none_iff]
    simpa using unset name mem
  refine load_eq_ok_iff.mpr ⟨file, read, ?_⟩
  constructor <;> exact .inl ⟨absent _ (by decide), rfl⟩

/-! ### Variables and files -/

/-- The file of assignments changes no variable of the environment. -/
theorem extends_withAssignments (environment : Environment) (files : List (String × String)) :
    Assignments.Extends environment (withAssignments environment files) := by
  unfold withAssignments
  split
  · exact .refl environment
  · exact Assignments.extends_read environment _

/-- A variable wins over the file in what a field is. -/
theorem Chosen.of_sets {α : Type} {name text : String} {read : Setting → Option α}
    {default value : α}
    (chosen : Chosen ((ofLayers [file, environment.layer]).get? name) read default value)
    (sets : environment.Sets name text) (isName : Setting.IsName name) :
    read (Setting.ofText text) = some value := by
  rw [environment.get?_of_sets sets isName] at chosen
  rcases chosen with ⟨unset, _⟩ | ⟨s, same, read⟩
  · exact nomatch unset
  · rw [Option.some.inj same, read]

/-- **A variable wins over the settings file**, whatever the file has. -/
theorem load_of_variable {text : String} (loaded : load environment files = .ok settings) :
    ((withAssignments environment files).Sets "host" text →
      (Setting.ofText text).asText? = some settings.host) ∧
    ((withAssignments environment files).Sets "port" text →
      portOf? (Setting.ofText text) = some settings.port) ∧
    ((withAssignments environment files).Sets "log_level" text →
      (Setting.ofText text).asText? = some settings.logLevel) := by
  obtain ⟨file, _, states⟩ := load_eq_ok_iff.mp loaded
  refine ⟨?_, ?_, ?_⟩
  · intro sets
    exact states.host.of_sets sets (by decide)
  · intro sets
    exact states.port.of_sets sets (by decide)
  · intro sets
    exact states.logLevel.of_sets sets (by decide)

/-! ### A port in decimal -/

theorem exists_digits_toString (n : Nat) : ∃ c rest, (toString n).toList = c :: rest ∧
    Number.Digital (c :: rest) ∧ Number.digitsValue (c :: rest) = n := by
  have chars : (toString n).toList = Number.digitsOf n := String.toList_ofList
  obtain ⟨c, rest, digits⟩ : ∃ c rest, Number.digitsOf n = c :: rest :=
    List.exists_cons_of_ne_nil Nat.toDigits_ne_nil
  refine ⟨c, rest, chars.trans digits, ?_, ?_⟩
  · rw [← digits]
    exact Number.digital_digitsOf n
  · rw [← digits]
    exact Number.digitsValue_digitsOf n

theorem wholeNumber?_toString (n : Nat) : Setting.wholeNumber? (toString n) = some (n : Int) := by
  obtain ⟨c, rest, chars, digital, value⟩ := exists_digits_toString n
  have unsigned : Number.splitSign (c :: rest) = (false, c :: rest) :=
    Number.splitSign_signText false (digital c List.mem_cons_self) rest
  have all : (c :: rest).all Char.isDigit = true := List.all_eq_true.mpr digital
  rw [Setting.wholeNumber?, chars]
  simp only [unsigned, all, List.isEmpty_cons, Bool.not_false, Bool.and_self, if_true,
    Number.signedValue, Bool.false_eq_true, if_false, value]

/-- Digits are no word. -/
theorem toLower_toString_ne (n : Nat) {word : String}
    (letter : word.toList.head?.any Char.isDigit = false) : (toString n).toLower ≠ word := by
  obtain ⟨c, rest, chars, digital, _⟩ := exists_digits_toString n
  have digit : c.isDigit = true := digital c List.mem_cons_self
  have kept : c.toLower = c := by
    obtain ⟨_, below⟩ := Bool.and_eq_true_iff.mp digit
    have small : c.toNat ≤ 57 := of_decide_eq_true below
    exact Text.toLower_of_outside (by omega)
  rintro rfl
  have first : ((toString n).map Char.toLower).toList.head? = some c := by
    rw [String.toList_map, chars, List.map_cons, kept, List.head?_cons]
  change ((toString n).map Char.toLower).toList.head?.any Char.isDigit = false at letter
  rw [first, Option.any_some, digit] at letter
  exact Bool.false_ne_true letter.symm

/-- Digits from the environment are an integer. -/
theorem ofText_toString {n : Nat} (small : n < 2 ^ 63) :
    Setting.ofText (toString n) = .integer n := by
  have fits : -2 ^ 63 ≤ (n : Int) ∧ (n : Int) < 2 ^ 63 := by omega
  unfold Setting.ofText
  split
  · rename_i word
    exact absurd word (toLower_toString_ne n (by decide))
  · rename_i word
    exact absurd word (toLower_toString_ne n (by decide))
  · have filtered : ((Setting.wholeNumber? (toString n)).filter fun m =>
        -2 ^ 63 ≤ m ∧ m < 2 ^ 63) = some (n : Int) := by
      rw [wholeNumber?_toString, Option.filter_some, if_pos (decide_eq_true fits)]
    rw [filtered]

/-- A port that a variable states in decimal is the port that is loaded. -/
theorem port_of_load {n : Nat} (loaded : load environment files = .ok settings)
    (sets : (withAssignments environment files).Sets "port" (toString n)) (small : n < portBound) :
    settings.port = n := by
  have read := (load_of_variable loaded).2.1 sets
  have stated : portOf? (.integer n) = some n := by
    simp [portOf?, Setting.asNat?, small]
  rw [ofText_toString (by unfold portBound at small; omega), stated] at read
  exact (Option.some.inj read).symm

/-! ### Settings that are written -/

/-- What the document of the settings assigns, in its order. -/
def stated (settings : ServerSettings) : Layer :=
  [("host", .text settings.host), ("port", .integer settings.port),
   ("repository", Setting.ofJson settings.repository.toJson),
   ("log_level", .text settings.logLevel),
   ("compiler", .table [("reject_unknown_rules", .bool settings.compiler.rejectUnknownRules)])]

theorem ofJson_toJson (bounded : settings.port < portBound) :
    Setting.ofJson settings.toJson = .table (Entries.ofList settings.stated) := by
  have small : (settings.port : Int) < 2 ^ 63 := by
    unfold portBound at bounded
    omega
  simp only [toJson, Setting.ofJson, Setting.ofMembers, if_pos small]
  rfl

theorem named_of_mem_stated {entry : String × Setting} (mem : entry ∈ settings.stated) :
    Setting.IsName entry.1 ∧ Text.foldCase entry.1 = entry.1 := by
  have names : ∀ name ∈ ["host", "port", "repository", "log_level", "compiler"],
      Setting.IsName name ∧ Text.foldCase name = name := by
    decide
  exact names entry.1 (List.mem_map_of_mem mem)

/-- The document of a variant and its place is filed as a flat table. -/
theorem ofJson_placed {name : String} (below : name < "type") (lower : Text.foldCase name = name)
    (variant place : String) :
    Setting.ofJson (.object [("type", .string variant), (name, .string place)]) =
        .table [(name, .text place), ("type", .text variant)] ∧
      Setting.Flat [(name, .text place), ("type", .text variant)] := by
  have filed : Entries.ofList [("type", .text variant), (name, .text place)] =
      [(name, Setting.text place), ("type", .text variant)] :=
    if_pos below
  have lowerType : Text.foldCase "type" = "type" := by decide
  constructor
  · simp only [Setting.ofJson, Setting.ofMembers, filed]
  · refine ⟨filed ▸ Entries.ascending_ofList _, ?_, ?_⟩
    · simp [lower, lowerType]
    · simp

/-- The document of a choice states the choice. -/
theorem choiceOf?_ofJson (choice : StoreChoice) :
    ∃ entries, Setting.ofJson choice.toJson = .table entries ∧ Setting.Flat entries ∧
      choiceOf? (.table entries) = some choice := by
  cases choice with
  | directory path =>
    have below : "path" < "type" := by decide
    obtain ⟨written, flat⟩ := ofJson_placed below (by decide) "filesystem" path
    exact ⟨_, written, flat, rfl⟩
  | remote url =>
    have below : "base_url" < "type" := by decide
    obtain ⟨written, flat⟩ := ofJson_placed below (by decide) "api" url
    exact ⟨_, written, flat, rfl⟩
  | memory =>
    refine ⟨[("type", .text "memory")], ?_, ?_, rfl⟩
    · simp only [StoreChoice.toJson, Setting.ofJson, Setting.ofMembers]
      rfl
    · have lower : Text.foldCase "type" = "type" := by decide
      refine ⟨List.pairwise_singleton _ _, ?_, ?_⟩
      · simp [lower]
      · simp

/-- The layer that is written states the settings. -/
theorem states_stated {layers : List Layer} (bounded : settings.port < portBound)
    (assigned : layers.flatten = Entries.ofList settings.stated) :
    States (ofLayers layers) settings := by
  have read : ∀ name, Text.foldCase name = name → (ofLayers layers).get? name =
      (settings.stated.reverse.lookup name).map (Setting.mergedInto none) := by
    intro name lower
    rw [← Entries.get?_ofList]
    refine Setting.get?_ofLayers_of_filed assigned (Entries.ascending_ofList _) ?_ lower
    intro entry mem
    exact named_of_mem_stated (Entries.mem_of_mem_ofList mem)
  obtain ⟨choice, written, flatChoice, chosen⟩ := choiceOf?_ofJson settings.repository
  constructor
  · exact .inr ⟨.text settings.host, read "host" (by decide), rfl⟩
  · refine .inr ⟨.integer settings.port, read "port" (by decide), ?_⟩
    simp [portOf?, Setting.asNat?, bounded]
  · refine .inr ⟨.table choice, ?_, chosen⟩
    rw [read "repository" (by decide), ← Setting.mergedInto_none_of_flat flatChoice, ← written]
    rfl
  · exact .inr ⟨.text settings.logLevel, read "log_level" (by decide), rfl⟩
  · let options : Layer := [("reject_unknown_rules", .bool settings.compiler.rejectUnknownRules)]
    have flatOptions : Setting.Flat options := by
      have lower : Text.foldCase "reject_unknown_rules" = "reject_unknown_rules" := by decide
      refine ⟨List.pairwise_singleton _ _, ?_, ?_⟩
      · simp [options, lower]
      · simp [options]
    refine .inr ⟨.table options, ?_, rfl⟩
    rw [read "compiler" (by decide), ← Setting.mergedInto_none_of_flat flatOptions]
    rfl

theorem readable_toJson {style : Json.Style} (bounded : settings.port < portBound) :
    Json.Readable style Json.maxDepth settings.toJson := by
  have fits : Json.fitsInteger settings.port = true := by
    unfold portBound at bounded
    simp [Json.fitsInteger]
    omega
  have choice : ∀ depth, Json.Readable style (depth + 1) settings.repository.toJson := by
    intro depth
    cases settings.repository with
    | directory path | remote url | memory =>
      refine .object fun member mem => ?_
      simp only [List.mem_cons, List.not_mem_nil, or_false] at mem
      rcases mem with rfl | rfl
      all_goals exact .string _
  refine .object fun member mem => ?_
  obtain rfl | rfl | rfl | rfl | rfl := by simpa using mem
  · exact .string _
  · exact .number (Json.reads_integer style fits)
  · exact choice _
  · exact .string _
  · refine .object fun member mem => ?_
    obtain rfl := List.mem_singleton.mp mem
    exact .bool _

/-- **Settings that are written as the settings file are loaded again**, if no variable is a
setting. -/
theorem load_written {style : Json.Style} (lawful : style.Lawful)
    (bounded : settings.port < portBound)
    (unmarked : (withAssignments environment files).layer = [])
    (written : files.lookup "config/server.json" =
      some (String.ofList (settings.toJson.print style 0)))
    (only : files.lookup "config/server" = none ∧ files.lookup "config/server.toml" = none) :
    load environment files = .ok settings := by
  have parsed : ofJsonText? (String.ofList (settings.toJson.print style 0)) =
      some (.table (Entries.ofList settings.stated)) := by
    rw [ofJsonText?, Json.parse_print lawful (readable_toJson bounded), ← ofJson_toJson bounded]
    rfl
  have layer : fileLayer files = .ok (Entries.ofList settings.stated) := by
    obtain ⟨noName, noToml⟩ := only
    simp [fileLayer, formats, fileName, noName, noToml, written, parsed, Setting.entries]
  refine load_eq_ok_iff.mpr ⟨_, layer, ?_⟩
  exact states_stated bounded (by simp [unmarked])

end ServerSettings

end DecisionCompiler
