import DecisionCompiler.Entries
import Mathlib.Data.List.Induction
import Mathlib.Data.List.Perm.Basic
import Mathlib.Data.List.Sort

/-!
What filing does to entries.

`FiledAs members kept` says what filing is for: the kept entries ascend, and they are the last ones
of their keys among the members. There is exactly one such list, and `Entries.ofList` makes it
(`filedAs_iff`). Entries that ascend are known by what is filed under each key (`eq_of_get?_eq`), so
that filing does not depend on the order of members with distinct keys (`ofList_eq_of_perm`), and
what is done to the values can as well be done after filing (`ofList_map`).
-/

namespace DecisionCompiler.Entries

variable {α β : Type} {members kept entries : List (String × α)} {key : String} {value : α}

/-! ### The last entry of a key -/

theorem lookup_reverse_eq_some_iff :
    members.reverse.lookup key = some value ↔ ∃ before after,
      members = before ++ (key, value) :: after ∧ key ∉ after.map Prod.fst := by
  rw [List.lookup_eq_some_iff]
  constructor
  · rintro ⟨behind, ahead, split, others⟩
    refine ⟨ahead.reverse, behind.reverse, ?_, ?_⟩
    · rw [← List.reverse_reverse members, split]
      simp
    · intro mem
      obtain ⟨member, memBehind, rfl⟩ := List.mem_map.mp mem
      simpa using others member (List.mem_reverse.mp memBehind)
  · rintro ⟨before, after, rfl, others⟩
    refine ⟨after.reverse, before.reverse, by simp, fun member mem => ?_⟩
    have differs : key ≠ member.1 := fun same =>
      others (List.mem_map.mpr ⟨member, List.mem_reverse.mp mem, same.symm⟩)
    simpa using differs

theorem lookup_reverse_eq_none_iff :
    members.reverse.lookup key = none ↔ key ∉ members.map Prod.fst := by
  rw [List.lookup_eq_none_iff]
  constructor
  · intro others mem
    obtain ⟨member, memMember, rfl⟩ := List.mem_map.mp mem
    simpa using others member (List.mem_reverse.mpr memMember)
  · intro others member mem
    have differs : key ≠ member.1 := fun same =>
      others (List.mem_map.mpr ⟨member, List.mem_reverse.mp mem, same.symm⟩)
    simpa using differs

/-- Under a key is filed what its last entry holds. -/
theorem get?_ofList (key : String) (members : List (String × α)) :
    get? key (ofList members) = members.reverse.lookup key := by
  induction members using List.reverseRecOn with
  | nil => rfl
  | append_singleton members member ih =>
    have filed : ofList (members ++ [member]) = insert member.1 member.2 (ofList members) := by
      simp [ofList]
    rw [filed, get?_insert, ih, List.reverse_append, List.reverse_singleton, List.singleton_append]
    exact (get?_cons key member members.reverse).symm

/-! ### Entries that ascend -/

theorem nodup_keys (ascending : Ascending entries) : (entries.map Prod.fst).Nodup := by
  refine List.pairwise_map.mpr (ascending.imp fun below same => ?_)
  exact String.lt_irrefl _ (same ▸ below)

/-- Entries that ascend are equal if they are the same in any order. -/
theorem eq_of_perm (ascending : Ascending entries) (ascending' : Ascending kept)
    (order : entries.Perm kept) : entries = kept := by
  refine List.Perm.eq_of_pairwise (fun a b _ _ below above => ?_) ascending ascending' order
  exact absurd below (String.lt_asymm above)

/-- Entries that ascend are known by what is filed under each key. -/
theorem eq_of_get?_eq (ascending : Ascending entries) (ascending' : Ascending kept)
    (same : ∀ key, get? key entries = get? key kept) : entries = kept := by
  have members : ∀ entry, entry ∈ entries ↔ entry ∈ kept := by
    intro entry
    rw [← get?_eq_some_iff ascending, ← get?_eq_some_iff ascending', same]
  refine eq_of_perm ascending ascending' ?_
  exact (List.perm_ext_iff_of_nodup (nodup_keys ascending).of_map
    (nodup_keys ascending').of_map).mpr members

/-! ### What filing is for -/

/-- The kept entries ascend, and they are the last ones of their keys among the members. -/
structure FiledAs (members kept : List (String × α)) : Prop where
  ascending : Ascending kept
  last : ∀ key value, (key, value) ∈ kept ↔ ∃ before after,
    members = before ++ (key, value) :: after ∧ key ∉ after.map Prod.fst

/-- Filing makes the one list that is filed. -/
theorem filedAs_iff : FiledAs members kept ↔ kept = ofList members := by
  have filed : FiledAs members (ofList members) := by
    refine ⟨ascending_ofList members, fun key value => ?_⟩
    rw [← get?_eq_some_iff (ascending_ofList members), get?_ofList, lookup_reverse_eq_some_iff]
  constructor
  · intro filedAs
    refine eq_of_get?_eq filedAs.ascending filed.ascending fun key => Option.ext fun value => ?_
    rw [get?_eq_some_iff filedAs.ascending, get?_eq_some_iff filed.ascending, filedAs.last,
      filed.last]
  · rintro rfl
    exact filed

theorem mem_of_mem_ofList {entry : String × α} (mem : entry ∈ ofList members) :
    entry ∈ members := by
  obtain ⟨before, after, rfl, _⟩ := ((filedAs_iff.mpr rfl).last entry.1 entry.2).mp mem
  exact List.mem_append_cons_self

/-! ### Filing in any order -/

theorem insert_perm (fresh : key ∉ entries.map Prod.fst) :
    (insert key value entries).Perm ((key, value) :: entries) := by
  induction entries with
  | nil => exact .refl _
  | cons first rest ih =>
    simp only [List.map_cons, List.mem_cons, not_or] at fresh
    obtain ⟨differs, fresh⟩ := fresh
    simp only [insert]
    split
    · exact .refl _
    · split
      · exact ((ih fresh).cons first).trans (.swap _ _ _)
      · rename_i notBelow notPast
        have same := String.le_antisymm (String.not_lt.mp notPast) (String.not_lt.mp notBelow)
        exact absurd same differs

theorem ofList_perm (distinct : (entries.map Prod.fst).Nodup) :
    (ofList entries).Perm entries := by
  suffices ∀ filed : List (String × α), ((filed ++ entries).map Prod.fst).Nodup →
      (entries.foldl (fun filed entry => insert entry.1 entry.2 filed) filed).Perm
        (filed ++ entries) from this [] distinct
  clear distinct
  induction entries with
  | nil => intro filed _; simp
  | cons entry entries ih =>
    intro filed distinct
    have fresh : entry.1 ∉ filed.map Prod.fst := by
      rw [List.map_append, List.map_cons] at distinct
      obtain ⟨_, _, disjoint⟩ := List.nodup_append.mp distinct
      exact fun mem => disjoint _ mem _ List.mem_cons_self rfl
    have moved : (insert entry.1 entry.2 filed ++ entries).Perm (filed ++ entry :: entries) :=
      ((insert_perm fresh).append_right entries).trans List.perm_middle.symm
    exact (ih _ ((moved.map Prod.fst).nodup_iff.mpr distinct)).trans moved

/-- Entries that ascend are filed as they are from any order. -/
theorem ofList_eq_of_perm (ascending : Ascending entries) (order : members.Perm entries) :
    ofList members = entries := by
  have distinct := (order.map Prod.fst).nodup_iff.mpr (nodup_keys ascending)
  exact eq_of_perm (ascending_ofList members) ascending ((ofList_perm distinct).trans order)

/-! ### Changing the values -/

theorem insert_map (f : α → β) (key : String) (value : α) (entries : List (String × α)) :
    insert key (f value) (entries.map fun entry => (entry.1, f entry.2)) =
      (insert key value entries).map fun entry => (entry.1, f entry.2) := by
  induction entries with
  | nil => rfl
  | cons first rest ih =>
    simp only [insert, List.map_cons]
    split
    · rfl
    · split
      · rw [ih, List.map_cons]
      · rfl

theorem ofList_map (f : α → β) (members : List (String × α)) :
    ofList (members.map fun entry => (entry.1, f entry.2)) =
      (ofList members).map fun entry => (entry.1, f entry.2) := by
  induction members using List.reverseRecOn with
  | nil => rfl
  | append_singleton members member ih =>
    simp only [ofList, List.map_append, List.map_cons, List.map_nil, List.foldl_append,
      List.foldl_cons, List.foldl_nil] at ih ⊢
    rw [ih, insert_map]

end DecisionCompiler.Entries
