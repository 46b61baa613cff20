/-!
Entries filed under keys.

A list of entries in strictly ascending key order holds at most one value per key; the order is that
of the code points of the keys. `insert` keeps the order and replaces the value of a key that is
present, so that filing the members of a document one after the other keeps the last value of a key
that is repeated. `get?` is the view through which `insert` is a write (`get?_insert`), and entries
that ascend are filed as they stand (`ofList_eq_self`).
-/

namespace DecisionCompiler.Entries

variable {α β : Type}

/-- The keys ascend strictly. -/
def Ascending (entries : List (String × α)) : Prop :=
  entries.Pairwise fun a b => a.1 < b.1

/-- Files a value under a key. -/
def insert (key : String) (value : α) : List (String × α) → List (String × α)
  | [] => [(key, value)]
  | entry :: rest =>
    if key < entry.1 then (key, value) :: entry :: rest
    else if entry.1 < key then entry :: insert key value rest
    else (key, value) :: rest

/-- Files every entry of a list in turn. -/
def ofList (entries : List (String × α)) : List (String × α) :=
  entries.foldl (fun filed entry => insert entry.1 entry.2 filed) []

/-- The value filed under a key. -/
def get? (key : String) (entries : List (String × α)) : Option α :=
  entries.lookup key

theorem mem_insert {key : String} {value : α} {entries : List (String × α)} {entry : String × α}
    (h : entry ∈ insert key value entries) : entry = (key, value) ∨ entry ∈ entries := by
  induction entries with
  | nil => simpa [insert] using h
  | cons first rest ih =>
    simp only [insert] at h
    split at h
    · simpa using h
    · split at h
      · rcases List.mem_cons.mp h with rfl | h
        · simp
        · rcases ih h with h | h
          · exact .inl h
          · exact .inr (List.mem_cons_of_mem _ h)
      · rcases List.mem_cons.mp h with h | h
        · exact .inl h
        · exact .inr (List.mem_cons_of_mem _ h)

theorem ascending_insert {key : String} {value : α} {entries : List (String × α)}
    (h : Ascending entries) : Ascending (insert key value entries) := by
  induction entries with
  | nil => simp [insert, Ascending]
  | cons first rest ih =>
    obtain ⟨above, h'⟩ := List.pairwise_cons.mp h
    simp only [insert]
    split
    · rename_i below
      refine List.pairwise_cons.mpr ⟨fun entry mem => ?_, h⟩
      rcases List.mem_cons.mp mem with rfl | mem
      · exact below
      · exact String.lt_trans below (above entry mem)
    · split
      · rename_i _ past
        refine List.pairwise_cons.mpr ⟨fun entry mem => ?_, ih h'⟩
        rcases mem_insert mem with rfl | mem
        · exact past
        · exact above entry mem
      · rename_i notBelow notPast
        have same : key = first.1 :=
          String.le_antisymm (String.not_lt.mp notPast) (String.not_lt.mp notBelow)
        exact List.pairwise_cons.mpr ⟨fun entry mem => same ▸ above entry mem, h'⟩

/-- Whatever the members of a document, filing them gives ascending keys. -/
theorem ascending_ofList (entries : List (String × α)) : Ascending (ofList entries) := by
  suffices ∀ filed : List (String × α), Ascending filed →
      Ascending (entries.foldl (fun filed entry => insert entry.1 entry.2 filed) filed) from
    this [] List.Pairwise.nil
  induction entries with
  | nil => exact fun _ h => h
  | cons entry rest ih => exact fun filed h => ih _ (ascending_insert h)

/-! ### The view by keys -/

theorem get?_cons (key : String) (entry : String × α) (entries : List (String × α)) :
    get? key (entry :: entries) = if key = entry.1 then some entry.2 else get? key entries := by
  obtain ⟨k, value⟩ := entry
  by_cases h : key = k
  · simp [get?, h]
  · simp [get?, List.lookup_cons, beq_false_of_ne h, h]

theorem get?_insert (k key : String) (value : α) (entries : List (String × α)) :
    get? k (insert key value entries) = if k = key then some value else get? k entries := by
  induction entries with
  | nil => simp [insert, get?_cons]
  | cons first rest ih =>
    simp only [insert]
    split
    · rw [get?_cons]
    · split
      · rename_i past
        rw [get?_cons, get?_cons, ih]
        by_cases h : k = first.1
        · have other : k ≠ key := fun same => String.lt_irrefl _ (same ▸ h ▸ past)
          simp [h, h ▸ other]
        · simp [h]
      · rename_i notBelow notPast
        obtain rfl : key = first.1 :=
          String.le_antisymm (String.not_lt.mp notPast) (String.not_lt.mp notBelow)
        rw [get?_cons, get?_cons]
        by_cases h : k = first.1 <;> simp [h]

theorem get?_eq_some_iff {entries : List (String × α)} (h : Ascending entries) {key : String}
    {value : α} : get? key entries = some value ↔ (key, value) ∈ entries := by
  induction entries with
  | nil => simp [get?]
  | cons first rest ih =>
    obtain ⟨above, h'⟩ := List.pairwise_cons.mp h
    rw [get?_cons, List.mem_cons]
    split
    · rename_i same
      constructor
      · rintro ⟨⟩
        exact .inl (by rw [same])
      · rintro (hit | mem)
        · rw [← hit]
        · exact absurd (same ▸ above _ mem) (String.lt_irrefl _)
    · rename_i other
      rw [ih h']
      constructor
      · exact .inr
      · rintro (hit | mem)
        · exact absurd (congrArg Prod.fst hit) other
        · exact mem

/-! ### Filing what ascends -/

theorem insert_of_forall_lt {entries : List (String × α)} {key : String} {value : α}
    (h : ∀ entry ∈ entries, entry.1 < key) :
    insert key value entries = entries ++ [(key, value)] := by
  induction entries with
  | nil => rfl
  | cons first rest ih =>
    have below := h first List.mem_cons_self
    simp only [insert, if_neg (String.lt_asymm below), if_pos below, List.cons_append]
    rw [ih fun entry mem => h entry (List.mem_cons_of_mem _ mem)]

theorem ofList_eq_self {entries : List (String × α)} (h : Ascending entries) :
    ofList entries = entries := by
  suffices ∀ filed : List (String × α), Ascending (filed ++ entries) →
      entries.foldl (fun filed entry => insert entry.1 entry.2 filed) filed = filed ++ entries from
    this [] h
  clear h
  induction entries with
  | nil => simp
  | cons first rest ih =>
    intro filed h
    have below : ∀ entry ∈ filed, entry.1 < first.1 := fun entry mem =>
      (List.pairwise_append.mp h).2.2 entry mem first List.mem_cons_self
    rw [List.foldl_cons, insert_of_forall_lt below, ih _ (by simpa using h)]
    simp

end DecisionCompiler.Entries
