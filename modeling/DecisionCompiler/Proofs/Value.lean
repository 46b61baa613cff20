import DecisionCompiler.Value
import DecisionCompiler.Proofs.Entries
import DecisionCompiler.Proofs.Json.Decoding

/-!
Values whose written form somebody else has rearranged.

A draft is a written form of a value when the entries of its objects stand in any order and all else
stands as the document of the value has it (`Written`). The values that have such a form are decoded
from it (`decoder_of_written`): filing entries under their keys undoes any rearrangement of entries
that ascend (`Entries.ofList_eq_of_perm`).
-/

namespace DecisionCompiler

namespace Value

open Json Json.Draft

/-! ### Items and members -/

theorem ofItems_eq_map (items : List Json) : ofItems items = items.map ofJson := by
  induction items with
  | nil => rfl
  | cons item items ih => rw [ofItems, List.map_cons, ih]

theorem ofMembers_eq_map (members : List (String × Json)) :
    ofMembers members = members.map fun member => (member.1, ofJson member.2) := by
  induction members with
  | nil => rfl
  | cons member members ih => rw [ofMembers, List.map_cons, ih]

theorem toItems_eq_map (items : List Value) : toItems items = items.map toJson := by
  induction items with
  | nil => rfl
  | cons item items ih => rw [toItems, List.map_cons, ih]

theorem toMembers_eq_map (entries : List (String × Value)) :
    toMembers entries = entries.map fun entry => (entry.1, entry.2.toJson) := by
  induction entries with
  | nil => rfl
  | cons entry entries ih => rw [toMembers, List.map_cons, ih]

/-! ### Written forms -/

/-- The numbers of the value are finite, and the entries of its objects ascend. -/
inductive Regular : Value → Prop where
  | null : Regular .null
  | bool (b : Bool) : Regular (.bool b)
  | number (x : Number.Finite) : Regular (.number (.finite x))
  | string (s : String) : Regular (.string s)
  | array {items : List Value} (inside : ∀ item ∈ items, Regular item) : Regular (.array items)
  | object {entries : List (String × Value)} (ascending : Entries.Ascending entries)
      (inside : ∀ entry ∈ entries, Regular entry.2) : Regular (.object entries)

/-- The draft is the document of the value, but for the order in which the entries of objects
stand. -/
inductive Written : Value → Draft → Prop where
  | null : Written .null .null
  | bool (b : Bool) : Written (.bool b) (.bool b)
  | number (x : Number) : Written (.number x) (.ofJson (.ofNumber x))
  | string (s : String) : Written (.string s) (.string s)
  | array {items : List Value} {drafts : List Draft} (length : items.length = drafts.length)
      (inside : ∀ pair ∈ items.zip drafts, Written pair.1 pair.2) :
      Written (.array items) (.array drafts none)
  | object {entries : List (String × Value)} {inOrder members : List (String × Draft)}
      (names : entries.map Prod.fst = inOrder.map Prod.fst)
      (inside : ∀ pair ∈ entries.zip inOrder, Written pair.1.2 pair.2.2)
      (order : members.Perm inOrder) : Written (.object entries) (.object members none)

/-- The draft is read in full, as a document of the value. -/
def Reads (value : Value) (draft : Draft) : Prop :=
  ∃ document, Decoder.json draft = .ok document ∧ ofJson document = value

theorem exists_jsonItems {items : List Value} {drafts : List Draft}
    (read : List.Forall₂ Reads items drafts) :
    ∃ documents, Decoder.jsonItems drafts = .ok documents ∧ ofItems documents = items := by
  induction read with
  | nil => exact ⟨[], rfl, rfl⟩
  | cons first _ ih =>
    obtain ⟨document, decoded, rfl⟩ := first
    obtain ⟨documents, decodedBehind, rfl⟩ := ih
    refine ⟨document :: documents, ?_, rfl⟩
    rw [Decoder.jsonItems, decoded, Outcome.ok_bind, decodedBehind]
    rfl

theorem exists_jsonMembers {entries : List (String × Value)} {members : List (String × Draft)}
    (read : List.Forall₂ (fun entry member => entry.1 = member.1 ∧ Reads entry.2 member.2)
      entries members) :
    ∃ documents, Decoder.jsonMembers members = .ok documents ∧ ofMembers documents = entries := by
  induction read with
  | nil => exact ⟨[], rfl, rfl⟩
  | @cons entry member _ _ first _ ih =>
    obtain ⟨name, draft⟩ := member
    obtain ⟨key, value⟩ := entry
    obtain ⟨rfl, document, decoded, rfl⟩ := first
    obtain ⟨documents, decodedBehind, rfl⟩ := ih
    refine ⟨(key, document) :: documents, ?_, rfl⟩
    rw [Decoder.jsonMembers, decoded, Outcome.ok_bind, decodedBehind]
    rfl

/-- What is written of a value is read as it. -/
theorem Written.reads {value : Value} {draft : Draft} (written : Written value draft)
    (regular : value.Regular) : Reads value draft := by
  induction written with
  | null => exact ⟨.null, rfl, rfl⟩
  | bool b => exact ⟨.bool b, rfl, rfl⟩
  | string s => exact ⟨.string s, rfl, rfl⟩
  | number x =>
    cases regular with
    | number x => exact ⟨.number (.real x), rfl, rfl⟩
  | @array items drafts length inside ih =>
    cases regular with
    | array regular =>
      have read : List.Forall₂ Reads items drafts :=
        List.forall₂_iff_zip.mpr ⟨length, fun mem => ih _ mem (regular _ (List.of_mem_zip mem).1)⟩
      obtain ⟨documents, decoded, rfl⟩ := exists_jsonItems read
      refine ⟨.array documents, ?_, rfl⟩
      rw [Decoder.json, decoded]
      rfl
  | @object entries inOrder members names inside order ih =>
    cases regular with
    | object ascending regular =>
      have named : List.Forall₂ (fun entry member => entry.1 = member.1) entries inOrder := by
        rwa [← List.forall₂_eq_eq_eq, List.forall₂_map_left_iff,
          List.forall₂_map_right_iff] at names
      have read : List.Forall₂ (fun entry member => entry.1 = member.1 ∧ Reads entry.2 member.2)
          entries inOrder :=
        List.forall₂_iff_zip.mpr ⟨named.length_eq, fun mem =>
          ⟨List.forall₂_zip named mem, ih _ mem (regular _ (List.of_mem_zip mem).1)⟩⟩
      -- The entries are read in the order of the members, and filing puts them back.
      obtain ⟨reordered, read', order'⟩ := List.perm_comp_forall₂ order read.flip
      obtain ⟨documents, decoded, rfl⟩ := exists_jsonMembers read'.flip
      refine ⟨.object documents, ?_, ?_⟩
      · rw [Decoder.json, decoded]
        rfl
      · rw [ofJson, Entries.ofList_eq_of_perm ascending order']

theorem decoder_of_written {value : Value} {draft : Draft} (written : Written value draft)
    (regular : value.Regular) : Value.decoder draft = .ok value := by
  obtain ⟨document, decoded, rfl⟩ := written.reads regular
  rw [Value.decoder, decoded]
  rfl

mutual

/-- The document of a value is one of its written forms. -/
theorem written_toJson : ∀ value : Value, Written value (Draft.ofJson value.toJson)
  | .null => .null
  | .bool b => .bool b
  | .number x => .number x
  | .string s => .string s
  | .array items => by
    have inside := List.forall₂_iff_zip.mp (written_toItems items)
    rw [toJson, Draft.ofJson]
    exact .array inside.1 fun _ mem => inside.2 mem
  | .object entries => by
    obtain ⟨names, written⟩ := written_toMembers entries
    have inside := List.forall₂_iff_zip.mp written
    rw [toJson, Draft.ofJson]
    exact .object names (fun _ mem => inside.2 mem) (.refl _)

theorem written_toItems :
    ∀ items : List Value, List.Forall₂ Written items (Draft.ofItems (toItems items))
  | [] => .nil
  | item :: items => .cons (written_toJson item) (written_toItems items)

theorem written_toMembers : ∀ entries : List (String × Value),
    entries.map Prod.fst = (Draft.ofMembers (toMembers entries)).map Prod.fst ∧
      List.Forall₂ (fun entry member => Written entry.2 member.2) entries
        (Draft.ofMembers (toMembers entries))
  | [] => ⟨rfl, .nil⟩
  | (key, value) :: entries => by
    obtain ⟨names, written⟩ := written_toMembers entries
    exact ⟨congrArg (key :: ·) names, .cons (written_toJson value) written⟩

end

end Value

end DecisionCompiler
