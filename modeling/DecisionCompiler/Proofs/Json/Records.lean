import DecisionCompiler.Json.Decoder
import DecisionCompiler.Proofs.Outcome
import Mathlib.Data.List.Nodup
import Mathlib.Data.List.Perm.Basic

/-!
Records whose fields may be missing, in documents that somebody else wrote.

An object states a record when it has a member for each field that is not blank, whatever the order
of its members, whether blank fields are stated too, and whatever other members stand among them
(`IsRecord`). Such an object is decoded to the record (`record_of_isRecord`). The proof follows the
decoder from member to member: what is filed on the way is the record with the fields met so far and
the others blank, and it does not depend on the order in which they were met.
-/

namespace DecisionCompiler.Json

open Draft Decoder

/-! ### Drafts that state a record -/

/-- A field of a record as a document may state it. -/
structure Slot where
  name : String
  /-- The field has its default, so that it may be left out. -/
  blank : Prop
  /-- The draft states the value of the field. -/
  states : Draft → Prop

/-- A field that is a string, the empty one if it is left out. -/
def Slot.text (name value : String) : Slot :=
  ⟨name, value = "", fun draft => draft = .string value⟩

@[simp] theorem Slot.text_name (name value : String) : (text name value).name = name := rfl

@[simp] theorem Slot.text_blank (name value : String) :
    (text name value).blank = (value = "") := rfl

/-- The members state the fields in order, some of the blank ones left out. -/
inductive Stated : List Slot → List (String × Draft) → Prop where
  | nil : Stated [] []
  | keep {slot : Slot} {slots : List Slot} {draft : Draft} {members : List (String × Draft)}
      (states : slot.states draft) (behind : Stated slots members) :
      Stated (slot :: slots) ((slot.name, draft) :: members)
  | drop {slot : Slot} {slots : List Slot} {members : List (String × Draft)} (blank : slot.blank)
      (behind : Stated slots members) : Stated (slot :: slots) members

/-- The draft is an object that states the fields, in any order and among any other members. -/
def IsRecord (slots : List Slot) (draft : Draft) : Prop :=
  ∃ members stated others, draft = .object members none ∧ Stated slots stated ∧
    (∀ other ∈ others, other.1 ∉ slots.map Slot.name) ∧ members.Perm (stated ++ others)

/-- The draft is an array that states the values in order. -/
def IsList {α : Type} (states : α → Draft → Prop) (values : List α) (draft : Draft) : Prop :=
  ∃ items, draft = .array items none ∧ List.Forall₂ states values items

variable {slots : List Slot} {members : List (String × Draft)}

theorem Stated.names_sublist (stated : Stated slots members) :
    List.Sublist (members.map Prod.fst) (slots.map Slot.name) := by
  induction stated with
  | nil => exact .slnil
  | keep _ _ ih => exact ih.cons_cons _
  | drop _ _ ih => exact ih.cons _

/-- What is stated is the value of a field. -/
theorem Stated.exists_slot (stated : Stated slots members) {member : String × Draft}
    (mem : member ∈ members) : ∃ slot ∈ slots, member.1 = slot.name ∧ slot.states member.2 := by
  induction stated with
  | nil => exact nomatch mem
  | keep states _ ih =>
    rcases List.mem_cons.mp mem with rfl | mem
    · exact ⟨_, List.mem_cons_self, rfl, states⟩
    · obtain ⟨slot, memSlot, found⟩ := ih mem
      exact ⟨slot, List.mem_cons_of_mem _ memSlot, found⟩
  | drop _ _ ih =>
    obtain ⟨slot, memSlot, found⟩ := ih mem
    exact ⟨slot, List.mem_cons_of_mem _ memSlot, found⟩

/-- What is not stated is blank. -/
theorem Stated.mem_or_blank (stated : Stated slots members) {slot : Slot} (mem : slot ∈ slots) :
    slot.name ∈ members.map Prod.fst ∨ slot.blank := by
  induction stated with
  | nil => exact nomatch mem
  | keep _ _ ih =>
    rcases List.mem_cons.mp mem with rfl | mem
    · exact .inl List.mem_cons_self
    · exact (ih mem).imp_left (List.mem_cons_of_mem _)
  | drop blank _ ih =>
    rcases List.mem_cons.mp mem with rfl | mem
    · exact .inr blank
    · exact ih mem

/-- Members that state the fields make a record by themselves. -/
theorem Stated.isRecord (stated : Stated slots members) : IsRecord slots (.object members none) :=
  ⟨members, members, [], rfl, stated, List.forall_mem_nil _, by rw [List.append_nil]⟩

/-- The names of fields that members bear, in the order of the members. -/
def fieldNames (slots : List Slot) (members : List (String × Draft)) : List String :=
  (members.map Prod.fst).filter (· ∈ slots.map Slot.name)

theorem fieldNames_cons_of_mem {member : String × Draft}
    (known : member.1 ∈ slots.map Slot.name) :
    fieldNames slots (member :: members) = member.1 :: fieldNames slots members :=
  List.filter_cons_of_pos (by simpa using known)

theorem fieldNames_cons_of_not_mem {member : String × Draft}
    (foreign : member.1 ∉ slots.map Slot.name) :
    fieldNames slots (member :: members) = fieldNames slots members :=
  List.filter_cons_of_neg (by simpa using foreign)

/-- The members of a record bear the names of the fields that it states. -/
theorem Stated.fieldNames_perm {stated others : List (String × Draft)}
    (states : Stated slots stated) (foreign : ∀ other ∈ others, other.1 ∉ slots.map Slot.name)
    (order : members.Perm (stated ++ others)) :
    (fieldNames slots members).Perm (stated.map Prod.fst) := by
  have kept : fieldNames slots stated = stated.map Prod.fst := by
    refine List.filter_eq_self.mpr fun name mem => ?_
    simpa using states.names_sublist.subset mem
  have dropped : fieldNames slots others = [] := by
    refine List.filter_eq_nil_iff.mpr fun name mem => ?_
    obtain ⟨other, memOther, rfl⟩ := List.mem_map.mp mem
    simpa using foreign other memOther
  have names := (order.map Prod.fst).filter (· ∈ slots.map Slot.name)
  rw [List.map_append, List.filter_append] at names
  rw [← kept, ← List.append_nil (fieldNames slots stated), ← dropped]
  exact names

/-! ### Records on the way -/

/-- The value of a field once its name was met, and the blank one before. -/
def whenMet {α : Type} (met : List String) (name : String) (value blank : α) : α :=
  if name ∈ met then value else blank

section WhenMet

variable {α : Type} {met : List String} {name other : String} {value blank : α}

@[simp] theorem whenMet_cons_self : whenMet (name :: met) name value blank = value :=
  if_pos List.mem_cons_self

theorem whenMet_cons_of_ne (differs : name ≠ other) :
    whenMet (other :: met) name value blank = whenMet met name value blank := by
  simp [whenMet, differs]

theorem whenMet_eq (known : name ∈ met ∨ value = blank) : whenMet met name value blank = value := by
  rcases known with mem | rfl
  · exact if_pos mem
  · exact ite_self _

end WhenMet

/-! ### Decoding -/

section Decoded

variable {σ : Type} {fields : List (Decoder.Field σ)} {partly : List String → σ}

/-- The field files what its slot states. `partly` is the record as far as it is known when the
fields of the given names were met. -/
structure Files (partly : List String → σ) (slot : Slot) (field : Decoder.Field σ) : Prop where
  name : field.name = slot.name
  optional : field.required = false
  file : ∀ met draft, slot.states draft →
    field.file (partly met) draft = .ok (partly (slot.name :: met))

theorem files_optional {α : Type} {slot : Slot} {decode : Decoder α} {set : σ → α → σ} {value : α}
    (decoded : ∀ draft, slot.states draft → decode draft = .ok value)
    (placed : ∀ met, set (partly met) value = partly (slot.name :: met)) :
    Files partly slot (.optional slot.name decode set) where
  name := rfl
  optional := rfl
  file met draft states := by
    have read := decoded draft states
    simp only [Field.optional, read, Outcome.map_ok, placed met]

theorem string_of_eq {s : String} (draft : Draft) (states : draft = .string s) :
    Decoder.string draft = .ok s := by
  rw [states]
  rfl

theorem exists_find?_eq_some (files : List.Forall₂ (Files partly) slots fields)
    (distinct : (slots.map Slot.name).Nodup) {slot : Slot} (mem : slot ∈ slots) :
    ∃ field, fields.find? (fun field => field.name = slot.name) = some field ∧
      Files partly slot field := by
  induction files with
  | nil => exact nomatch mem
  | @cons first field slots fields filed _ ih =>
    obtain ⟨other, distinct⟩ := List.nodup_cons.mp distinct
    rcases List.mem_cons.mp mem with rfl | mem
    · exact ⟨field, by simp [filed.name], filed⟩
    · obtain ⟨field', found, filed'⟩ := ih distinct mem
      have differs : field.name ≠ slot.name := by
        rw [filed.name]
        exact fun same => other (same ▸ List.mem_map_of_mem mem)
      exact ⟨field', by simp [differs, found], filed'⟩

theorem find?_eq_none (files : List.Forall₂ (Files partly) slots fields) {name : String}
    (foreign : name ∉ slots.map Slot.name) :
    fields.find? (fun field => field.name = name) = none := by
  induction files with
  | nil => rfl
  | cons filed _ ih =>
    simp only [List.map_cons, List.mem_cons, not_or] at foreign
    obtain ⟨differs, foreign⟩ := foreign
    simp [filed.name, Ne.symm differs, ih foreign]

/-- The member states a field, or it bears the name of none. -/
def Fits (slots : List Slot) (member : String × Draft) : Prop :=
  (∃ slot ∈ slots, member.1 = slot.name ∧ slot.states member.2) ∨
    member.1 ∉ slots.map Slot.name

/-- Each member that states a field is filed, whichever fields were met before. -/
theorem foldlM_take (files : List.Forall₂ (Files partly) slots fields)
    (distinct : (slots.map Slot.name).Nodup) (fits : ∀ member ∈ members, Fits slots member)
    (progress : Progress σ) (sofar : progress.record = partly progress.met)
    (once : (fieldNames slots members ++ progress.met).Nodup) :
    ∃ after, members.foldlM (Progress.take fields fun _ => .ok ()) progress = .ok after ∧
      after.record = partly after.met ∧
      ∀ name, name ∈ after.met ↔ name ∈ fieldNames slots members ++ progress.met := by
  induction members generalizing progress with
  | nil => exact ⟨progress, rfl, sofar, fun name => Iff.rfl⟩
  | cons member members ih =>
    have fitsBehind : ∀ member ∈ members, Fits slots member := fun member mem =>
      fits member (List.mem_cons_of_mem _ mem)
    rw [List.foldlM_cons]
    rcases fits member List.mem_cons_self with ⟨slot, mem, name, states⟩ | foreign
    · have known : member.1 ∈ slots.map Slot.name := name ▸ List.mem_map_of_mem mem
      rw [fieldNames_cons_of_mem known, List.cons_append] at once ⊢
      have fresh : member.1 ∉ progress.met := fun met =>
        (List.nodup_cons.mp once).1 (List.mem_append_right _ met)
      obtain ⟨field, found, filing⟩ := exists_find?_eq_some files distinct mem
      have filed := filing.file progress.met member.2 states
      rw [← name] at found filed
      rw [← sofar] at filed
      let next : Progress σ :=
        ⟨partly (member.1 :: progress.met), member.1 :: progress.met, progress.others⟩
      obtain ⟨after, folded, record, met⟩ :=
        ih fitsBehind next rfl (List.perm_middle.nodup_iff.mpr once)
      refine ⟨after, ?_, record, fun name => ?_⟩
      · simp [Progress.take, found, fresh, filed, folded, next]
      · rw [met name]
        exact List.perm_middle.mem_iff
    · rw [fieldNames_cons_of_not_mem foreign] at once ⊢
      obtain ⟨after, folded, record, met⟩ :=
        ih fitsBehind ⟨progress.record, progress.met, member :: progress.others⟩ sofar once
      refine ⟨after, ?_, record, met⟩
      simp [Progress.take, find?_eq_none files foreign, folded]

/-- **An object that states a record is decoded to it**, in whatever order its members stand and
whatever other members stand among them. -/
theorem record_of_isRecord (partly : List String → σ)
    (files : List.Forall₂ (Files partly) slots fields) (distinct : (slots.map Slot.name).Nodup)
    {whole : σ}
    (complete : ∀ met, (∀ slot ∈ slots, slot.name ∈ met ∨ slot.blank) → partly met = whole)
    {draft : Draft} (isRecord : IsRecord slots draft) :
    record fields (partly []) draft = .ok whole := by
  obtain ⟨members, stated, others, rfl, states, foreign, order⟩ := isRecord
  have fits : ∀ member ∈ members, Fits slots member := by
    intro member mem
    rcases List.mem_append.mp (order.mem_iff.mp mem) with mem | mem
    · exact .inl (states.exists_slot mem)
    · exact .inr (foreign member mem)
  have names := states.fieldNames_perm foreign order
  have once : (fieldNames slots members ++ []).Nodup := by
    rw [List.append_nil, names.nodup_iff]
    exact states.names_sublist.nodup distinct
  obtain ⟨after, folded, filed, met⟩ :=
    foldlM_take files distinct fits ⟨partly [], [], []⟩ rfl once
  have optional : (fields.all fun field => !field.required || field.name ∈ after.met) = true := by
    refine List.all_eq_true.mpr fun field mem => ?_
    obtain ⟨_, _, filing⟩ := Outcome.exists_of_forall₂ files.flip mem
    simp [filing.optional]
  have completed : partly after.met = whole := by
    refine complete after.met fun slot mem => (states.mem_or_blank mem).imp_left fun stated => ?_
    rw [met, List.append_nil, names.mem_iff]
    exact stated
  unfold record Progress.ofMembers
  simp only [Decoder.members, Outcome.ok_bind, folded, Option.map_none, Problem.raise, optional,
    if_true]
  rw [← completed, ← filed]
  rfl

theorem isList_ofJson {α : Type} {states : α → Draft → Prop} {toJson : α → Json} {values : List α}
    (each : ∀ value ∈ values, states value (ofJson (toJson value))) :
    IsList states values (ofJson (.array (values.map toJson))) := by
  rw [ofJson]
  refine ⟨_, rfl, ?_⟩
  induction values with
  | nil => exact .nil
  | cons value values ih =>
    exact .cons (each value List.mem_cons_self) (ih fun value mem =>
      each value (List.mem_cons_of_mem _ mem))

/-- An array that states values is decoded to them. -/
theorem list_of_isList {α : Type} {states : α → Draft → Prop} {decoder : Decoder α}
    {values : List α} {draft : Draft} (isList : IsList states values draft)
    (decoded : ∀ value ∈ values, ∀ item, states value item → decoder item = .ok value) :
    list decoder draft = .ok values := by
  obtain ⟨items, rfl, stated⟩ := isList
  have all : items.mapM decoder = .ok values := by
    induction stated with
    | nil => rfl
    | @cons value item values items states _ ih =>
      have first := decoded value List.mem_cons_self item states
      have others := ih fun value mem => decoded value (List.mem_cons_of_mem _ mem)
      rw [List.mapM_cons, first, others]
      rfl
  rw [list, all]
  rfl

end Decoded

end DecisionCompiler.Json
