import DecisionCompiler.Settings.Tree
import DecisionCompiler.Proofs.Entries
import Mathlib.Data.List.TakeWhile

/-!
Settings that are built from layers.

A key leads to one name of the table (`Setting.Leads`), however deep it goes on from there, and
names count without regard to case (`get?_foldCase`). Assigning to a key changes nothing under
another name, and what it makes of a name depends on what was there under this name alone
(`get?_assignKey`). The setting of a name is therefore made by the assignments that lead to it
(`get?_ofLayers`), and among plain ones the last one wins, whatever the layers before it have
(`get?_ofLayers_of_last`). A single layer of names, filed as a document files its members, is kept
as it is (`get?_ofLayers_of_filed`).
-/

namespace DecisionCompiler

/-! ### Names without regard to case -/

namespace Text

/-- The lower case of a character is the character, or a small letter. -/
theorem toLower_eq_or (c : Char) :
    c.toLower = c ∨ (97 ≤ c.toLower.toNat ∧ c.toLower.toNat ≤ 122) := by
  unfold Char.toLower
  split
  · rename_i upper
    right
    have first : 'A'.val.toNat = 65 := rfl
    have last : 'Z'.val.toNat = 90 := rfl
    simp only [Char.toNat, UInt32.le_iff_toNat_le, ge_iff_le] at upper ⊢
    simp only [UInt32.toNat_add]
    simp at *
    omega
  · exact .inl rfl

/-- What is no capital letter is its own lower case. -/
theorem toLower_of_outside {c : Char} (outside : c.toNat < 65 ∨ 90 < c.toNat) : c.toLower = c := by
  unfold Char.toLower
  split
  · rename_i upper
    have inside : 65 ≤ c.toNat ∧ c.toNat ≤ 90 := upper
    omega
  · rfl

theorem foldChar_foldChar (c : Char) : foldChar (foldChar c) = foldChar c := by
  by_cases kelvin : c = '\u212A'
  · rw [kelvin]
    decide
  · have lower : foldChar c = c.toLower := if_neg kelvin
    rw [lower]
    rcases toLower_eq_or c with same | ⟨_, small⟩
    · rw [same, lower, same]
    · have notKelvin : c.toLower ≠ '\u212A' := by
        intro same
        rw [same] at small
        exact absurd small (by decide)
      rw [foldChar, if_neg notKelvin]
      exact toLower_of_outside (by omega)

theorem foldCase_foldCase (name : String) : foldCase (foldCase name) = foldCase name := by
  have same : foldChar ∘ foldChar = foldChar := funext foldChar_foldChar
  simp [foldCase, same]

end Text

namespace Setting

variable {name key first : String} {value target target' : Setting} {steps : List Step}

/-- A name means the same in any case. -/
theorem get?_foldCase (name : String) (target : Setting) :
    target.get? (Text.foldCase name) = target.get? name := by
  rw [get?, get?, Text.foldCase_foldCase]

/-! ### One assignment -/

theorem get?_replace (name key : String) (value target : Setting) :
    (replace key value target).get? name =
      if Text.foldCase name = Text.foldCase key then some value else target.get? name :=
  Entries.get?_insert _ _ _ _

/-- What a value makes of the setting that it is assigned to: the entries of a table are assigned to
it one by one, and anything else takes its place. -/
def mergedInto (before : Option Setting) : Setting → Setting
  | table entries => assignAll entries (before.getD (table []))
  | value => value

/-- What the steps behind the first name of a key and the value make of the setting of the name. -/
def madeOf (steps : List Step) (value : Setting) (before : Option Setting) : Setting :=
  match steps with
  | [] => mergedInto before value
  | steps => assignAt steps value (before.getD null)

theorem mergedInto_of_ne_table (plain : ∀ entries, value ≠ table entries)
    (before : Option Setting) : mergedInto before value = value := by
  cases value with
  | table entries => exact absurd rfl (plain entries)
  | null | bool _ | integer _ | real _ | text _ | list _ => rfl

theorem assign_eq_replace (key : String) (value target : Setting) :
    assign key value target = replace key (mergedInto (target.get? key) value) target := by
  cases value <;> simp only [assign, mergedInto]

theorem assignAt_eq_replace (first : String) (steps : List Step) (value target : Setting) :
    assignAt (.entry first :: steps) value target =
      replace first (madeOf steps value (target.get? first)) target := by
  cases steps with
  | nil => simp only [assignAt, assign_eq_replace, madeOf]
  | cons step steps => simp only [assignAt, madeOf]

theorem exists_stepsOf (key : String) : ∃ first steps, stepsOf key = .entry first :: steps := by
  unfold stepsOf
  cases read : readName? key.toList with
  | none => exact ⟨key, [], rfl⟩
  | some pair =>
    obtain ⟨name, rest⟩ := pair
    cases further : readSteps? rest.length rest with
    | none => exact ⟨key, [], by simp [further]⟩
    | some steps => exact ⟨name, steps, by simp [further]⟩

/-- The first name of a key. -/
def firstOf (key : String) : String :=
  match stepsOf key with
  | .entry first :: _ => first
  | _ => key

/-- The key leads to the name, or into what stands under it. -/
def Leads (key name : String) : Prop :=
  Text.foldCase (firstOf key) = Text.foldCase name

instance (key name : String) : Decidable (Leads key name) :=
  inferInstanceAs (Decidable (_ = _))

/-- **An assignment changes the one setting that its key leads to**, and makes of it what depends on
this setting alone. -/
theorem get?_assignKey (name key : String) (value target : Setting) :
    (assignKey key value target).get? name =
      if Leads key name then some (madeOf (stepsOf key).tail value (target.get? name))
      else target.get? name := by
  obtain ⟨first, steps, stepsOf_eq⟩ := exists_stepsOf key
  have leads_iff : Leads key name ↔ Text.foldCase name = Text.foldCase first := by
    rw [Leads, firstOf, stepsOf_eq]
    exact eq_comm
  rw [assignKey, stepsOf_eq, assignAt_eq_replace, get?_replace, List.tail_cons]
  by_cases leads : Leads key name
  · have same := leads_iff.mp leads
    rw [if_pos same, if_pos leads, ← get?_foldCase first, ← same, get?_foldCase]
  · rw [if_neg fun same => leads (leads_iff.mpr same), if_neg leads]

/-! ### All assignments -/

/-- The setting that a list of assignments makes of one. -/
def settled (assignments : Layer) (before : Option Setting) : Option Setting :=
  assignments.foldl (fun before entry => some (madeOf (stepsOf entry.1).tail entry.2 before)) before

/-- **The setting of a name is made by the assignments that lead to it**, in their order. -/
theorem get?_ofLayers (name : String) (layers : List Layer) :
    (ofLayers layers).get? name =
      settled (layers.flatten.filter fun entry => Leads entry.1 name) none := by
  suffices ∀ (assignments : Layer) (target : Setting),
      (assignments.foldl (fun target entry => assignKey entry.1 entry.2 target) target).get? name =
        settled (assignments.filter fun entry => Leads entry.1 name) (target.get? name) from
    this layers.flatten (table [])
  intro assignments
  induction assignments with
  | nil => intro target; rfl
  | cons entry assignments ih =>
    intro target
    rw [List.foldl_cons, ih, get?_assignKey]
    by_cases leads : Leads entry.1 name
    · rw [if_pos leads, List.filter_cons_of_pos (by simpa using leads)]
      rfl
    · rw [if_neg leads, List.filter_cons_of_neg (by simpa using leads)]

theorem settled_concat (assignments : Layer) (entry : String × Setting) (before : Option Setting) :
    settled (assignments ++ [entry]) before =
      some (madeOf (stepsOf entry.1).tail entry.2 (settled assignments before)) := by
  rw [settled, List.foldl_append]
  rfl

/-- A name has a setting if some key leads to it. -/
theorem get?_ofLayers_eq_none_iff {name : String} {layers : List Layer} :
    (ofLayers layers).get? name = none ↔ ∀ entry ∈ layers.flatten, ¬Leads entry.1 name := by
  have unsettled : ∀ assignments, settled assignments none = none ↔ assignments = [] := by
    intro assignments
    rcases List.eq_nil_or_concat assignments with rfl | ⟨others, entry, rfl⟩
    · exact iff_of_true rfl rfl
    · rw [List.concat_eq_append, settled_concat]
      exact iff_of_false nofun (by simp)
  rw [get?_ofLayers, unsettled, List.filter_eq_nil_iff]
  simp only [decide_eq_true_eq]

/-- The key is a name and goes no deeper, and what is assigned to it is no table. -/
def Plain (entry : String × Setting) : Prop :=
  (stepsOf entry.1).tail = [] ∧ ∀ entries, entry.2 ≠ table entries

/-- **The last plain assignment wins**, whatever was assigned before it. -/
theorem get?_ofLayers_of_last {name : String} {layers : List Layer} {before after : Layer}
    {entry : String × Setting} (assigned : layers.flatten = before ++ entry :: after)
    (plain : Plain entry) (leads : Leads entry.1 name)
    (last : ∀ other ∈ after, ¬Leads other.1 name) :
    (ofLayers layers).get? name = some entry.2 := by
  have behind : (after.filter fun entry => Leads entry.1 name) = [] :=
    List.filter_eq_nil_iff.mpr (by simpa using last)
  have kept : (layers.flatten.filter fun entry => Leads entry.1 name) =
      (before.filter fun entry => Leads entry.1 name) ++ [entry] := by
    rw [assigned, List.filter_append, List.filter_cons_of_pos (by simpa using leads), behind]
  obtain ⟨steps, noTable⟩ := plain
  rw [get?_ofLayers, kept, settled_concat, steps, madeOf, mergedInto_of_ne_table noTable]

/-- A name that one assignment leads to has what this assignment makes of nothing. -/
theorem get?_ofLayers_of_only {name : String} {layers : List Layer} {before after : Layer}
    {entry : String × Setting} (assigned : layers.flatten = before ++ entry :: after)
    (leads : Leads entry.1 name) (alone : ∀ key ∈ (before ++ after).map Prod.fst, ¬Leads key name) :
    (ofLayers layers).get? name = some (madeOf (stepsOf entry.1).tail entry.2 none) := by
  rw [List.map_append, List.forall_mem_append] at alone
  obtain ⟨notBefore, notAfter⟩ := alone
  have ahead : (before.filter fun entry => Leads entry.1 name) = [] :=
    List.filter_eq_nil_iff.mpr (by simpa using notBefore)
  have behind : (after.filter fun entry => Leads entry.1 name) = [] :=
    List.filter_eq_nil_iff.mpr (by simpa using notAfter)
  rw [get?_ofLayers, assigned, List.filter_append, List.filter_cons_of_pos (by simpa using leads),
    ahead, behind]
  rfl

/-! ### Tables that are merged -/

/-- The names ascend and are in lower case, and no entry is a table. -/
structure Flat (entries : Layer) : Prop where
  ascending : Entries.Ascending entries
  lower : ∀ entry ∈ entries, Text.foldCase entry.1 = entry.1
  values : ∀ entry ∈ entries, ∀ inner, entry.2 ≠ table inner

/-- A flat table that is merged into nothing is kept as it is. -/
theorem mergedInto_none_of_flat {entries : Layer} (flat : Flat entries) :
    mergedInto none (table entries) = table entries := by
  obtain ⟨ascending, lower, values⟩ := flat
  suffices ∀ before, Entries.Ascending (before ++ entries) →
      assignAll entries (table before) = table (before ++ entries) from this [] ascending
  clear ascending
  induction entries with
  | nil =>
    intro before _
    rw [assignAll, List.append_nil]
  | cons entry entries ih =>
    intro before ascending
    obtain ⟨name, value⟩ := entry
    obtain ⟨nameLower, othersLower⟩ := List.forall_mem_cons.mp lower
    obtain ⟨plain, othersPlain⟩ := List.forall_mem_cons.mp values
    have past : ∀ entry ∈ before, entry.1 < name := by
      intro entry mem
      exact (List.pairwise_append.mp ascending).2.2 entry mem (name, value) List.mem_cons_self
    have assigned : assign name value (table before) = table (before ++ [(name, value)]) := by
      rw [assign_eq_replace, mergedInto_of_ne_table plain, replace, nameLower]
      exact congrArg table (Entries.insert_of_forall_lt past)
    rw [assignAll, assigned, ih othersLower othersPlain _ (by simpa using ascending)]
    simp

/-! ### Keys that are names -/

/-- The key is a name, without points and brackets. -/
def IsName (key : String) : Prop :=
  key ≠ "" ∧ key.toList.all isNameChar = true

instance (key : String) : Decidable (IsName key) :=
  inferInstanceAs (Decidable (_ ∧ _))

/-- A key that is a name leads to this name. -/
theorem stepsOf_of_isName (isName : IsName key) : stepsOf key = [.entry key] := by
  obtain ⟨nonempty, named⟩ := isName
  have whole : key.toList.takeWhile isNameChar = key.toList :=
    List.takeWhile_eq_self_iff.mpr (List.all_eq_true.mp named)
  have rest : key.toList.dropWhile isNameChar = [] :=
    List.dropWhile_eq_nil_iff.mpr (List.all_eq_true.mp named)
  have read : readName? key.toList = some (key, []) := by
    simp [readName?, whole, rest, nonempty]
  simp [stepsOf, read, readSteps?]

theorem leads_iff_of_isName (isName : IsName key) :
    Leads key name ↔ Text.foldCase key = Text.foldCase name := by
  rw [Leads, firstOf, stepsOf_of_isName isName]

/-- In a layer of names that are filed in lower case, a name has what is filed under it. -/
theorem get?_ofLayers_of_filed {layers : List Layer} {entries : Layer}
    (assigned : layers.flatten = entries) (ascending : Entries.Ascending entries)
    (named : ∀ entry ∈ entries, IsName entry.1 ∧ Text.foldCase entry.1 = entry.1)
    (lower : Text.foldCase name = name) :
    (ofLayers layers).get? name = (Entries.get? name entries).map (mergedInto none) := by
  have leads_iff : ∀ entry ∈ entries, (Leads entry.1 name ↔ entry.1 = name) := by
    intro entry mem
    obtain ⟨isName, entryLower⟩ := named entry mem
    rw [leads_iff_of_isName isName, entryLower, lower]
  cases found : Entries.get? name entries with
  | none =>
    refine get?_ofLayers_eq_none_iff.mpr fun entry mem leads => ?_
    rw [assigned] at mem
    obtain rfl := (leads_iff entry mem).mp leads
    rw [(Entries.get?_eq_some_iff ascending).mpr mem] at found
    exact nomatch found
  | some value =>
    have mem := (Entries.get?_eq_some_iff ascending).mp found
    obtain ⟨before, after, rfl⟩ := List.append_of_mem mem
    have alone : ∀ key ∈ (before ++ after).map Prod.fst, ¬Leads key name := by
      intro key others leads
      have distinct := Entries.nodup_keys ascending
      rw [List.map_append, List.map_cons, List.nodup_middle, ← List.map_append] at distinct
      obtain ⟨entry, memOthers, rfl⟩ := List.mem_map.mp others
      have memEntries : entry ∈ before ++ (name, value) :: after :=
        List.perm_middle.mem_iff.mpr (List.mem_cons_of_mem _ memOthers)
      rw [(leads_iff entry memEntries).mp leads] at others
      exact (List.nodup_cons.mp distinct).1 others
    rw [get?_ofLayers_of_only assigned ((leads_iff _ mem).mpr rfl) alone,
      stepsOf_of_isName (named _ mem).1]
    rfl

end Setting

end DecisionCompiler
