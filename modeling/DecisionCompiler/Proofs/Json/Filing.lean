import DecisionCompiler.Json.Basic
import DecisionCompiler.Proofs.Entries
import Mathlib.Data.List.Forall2

/-!
Documents with their objects filed.

`FiledAs document other` says what it is for a document to be another one filed: scalars are the
same, arrays have filed items, and an object has the last member of each name, in ascending order
and with its value filed. Every document has one filed form, which `Json.filed` computes
(`filedAs_iff`).
-/

namespace DecisionCompiler.Json

/-- The second document is the first one with the members of all its objects filed. -/
inductive FiledAs : Json → Json → Prop where
  | null : FiledAs .null .null
  | bool (b : Bool) : FiledAs (.bool b) (.bool b)
  | number (n : Numeral) : FiledAs (.number n) (.number n)
  | string (s : String) : FiledAs (.string s) (.string s)
  | array {items filed : List Json} (length : items.length = filed.length)
      (inside : ∀ pair ∈ items.zip filed, FiledAs pair.1 pair.2) :
      FiledAs (.array items) (.array filed)
  | object {members last filed : List (String × Json)} (counts : Entries.FiledAs members last)
      (names : last.map Prod.fst = filed.map Prod.fst)
      (inside : ∀ pair ∈ last.zip filed, FiledAs pair.1.2 pair.2.2) :
      FiledAs (.object members) (.object filed)

theorem filedItems_eq_map (items : List Json) : filedItems items = items.map filed := by
  induction items with
  | nil => rfl
  | cons item items ih => rw [filedItems, List.map_cons, ih]

theorem filedMembers_eq_map (members : List (String × Json)) :
    filedMembers members = members.map fun member => (member.1, member.2.filed) := by
  induction members with
  | nil => rfl
  | cons member members ih => rw [filedMembers, List.map_cons, ih]

/-- The filed form of an object is made of the members that count. -/
theorem filed_object (members : List (String × Json)) :
    (object members).filed =
      .object ((Entries.ofList members).map fun member => (member.1, member.2.filed)) := by
  rw [filed, filedMembers_eq_map, Entries.ofList_map]

variable {document other : Json}

theorem FiledAs.eq_filed (filedAs : FiledAs document other) : other = document.filed := by
  induction filedAs with
  | null | bool _ | number _ | string _ => rfl
  | @array items filed length _ ih =>
    have same : List.Forall₂ (fun item other => item.filed = other) items filed :=
      List.forall₂_iff_zip.mpr ⟨length, fun mem => (ih _ mem).symm⟩
    rw [Json.filed, filedItems_eq_map]
    rw [← List.forall₂_map_left_iff, List.forall₂_eq_eq_eq] at same
    rw [same]
  | @object members last filed counts names _ ih =>
    have named : List.Forall₂ (fun member other => member.1 = other.1) last filed := by
      rwa [← List.forall₂_eq_eq_eq, List.forall₂_map_left_iff, List.forall₂_map_right_iff] at names
    have same :
        List.Forall₂ (fun member other => (member.1, member.2.filed) = other) last filed := by
      refine List.forall₂_iff_zip.mpr ⟨named.length_eq, fun mem => ?_⟩
      have name := List.forall₂_zip named mem
      exact Prod.ext name (ih _ mem).symm
    rw [filed_object, ← Entries.filedAs_iff.mp counts]
    rw [← List.forall₂_map_left_iff, List.forall₂_eq_eq_eq] at same
    rw [same]

/-- An object is filed if the values of its members are. -/
theorem filedAs_object {members : List (String × Json)}
    (inside : ∀ member ∈ members, FiledAs member.2 member.2.filed) :
    FiledAs (object members) (object members).filed := by
  have counts := Entries.filedAs_iff.mpr (rfl : Entries.ofList members = _)
  have kept : ∀ member ∈ Entries.ofList members, FiledAs member.2 member.2.filed := by
    intro member mem
    obtain ⟨before, after, split, _⟩ := (counts.last member.1 member.2).mp mem
    exact inside member (split ▸ List.mem_append_right _ List.mem_cons_self)
  have related : List.Forall₂ (fun member other : String × Json => FiledAs member.2 other.2)
      (Entries.ofList members)
      ((Entries.ofList members).map fun member => (member.1, member.2.filed)) :=
    List.forall₂_map_right_iff.mpr (List.forall₂_same.mpr kept)
  rw [filed_object]
  exact .object counts (by simp) fun _ mem => (List.forall₂_iff_zip.mp related).2 mem

mutual

theorem filedAs_filed : ∀ document : Json, FiledAs document document.filed
  | .null => .null
  | .bool b => .bool b
  | .number n => .number n
  | .string s => .string s
  | .array items => by
    have inside := List.forall₂_iff_zip.mp (filedAs_filedItems items)
    rw [filed]
    exact .array inside.1 fun _ mem => inside.2 mem
  | .object members => filedAs_object (filedAs_filedMembers members)

theorem filedAs_filedItems : ∀ items : List Json, List.Forall₂ FiledAs items (filedItems items)
  | [] => .nil
  | item :: items => .cons (filedAs_filed item) (filedAs_filedItems items)

theorem filedAs_filedMembers :
    ∀ members : List (String × Json), ∀ member ∈ members, FiledAs member.2 member.2.filed
  | [] => List.forall_mem_nil _
  | (_, document) :: members =>
    List.forall_mem_cons.mpr ⟨filedAs_filed document, filedAs_filedMembers members⟩

end

/-- **A document has one filed form.** -/
theorem filedAs_iff : FiledAs document other ↔ other = document.filed := by
  constructor
  · exact FiledAs.eq_filed
  · rintro rfl
    exact filedAs_filed document

end DecisionCompiler.Json
