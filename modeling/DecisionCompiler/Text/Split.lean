/-!
Splitting texts at marks.

Each way to split is pinned down by what it loses, which is only the marks, and by what the parts
cannot hold.
-/

namespace DecisionCompiler.Text

/-- What remains of a text behind a leading mark. -/
def dropPrefix? : List Char → List Char → Option (List Char)
  | [], text => some text
  | _ :: _, [] => none
  | m :: mark, c :: text => if c = m then dropPrefix? mark text else none

/-- The parts before and after the first occurrence of a mark. -/
def splitOnce? (mark : List Char) : List Char → Option (List Char × List Char)
  | [] => (dropPrefix? mark []).map fun rest => ([], rest)
  | c :: text =>
    match dropPrefix? mark (c :: text) with
    | some rest => some ([], rest)
    | none => (splitOnce? mark text).map fun (before, after) => (c :: before, after)

/-- The parts of a text between the occurrences of a separator. There is always one part more than
there are separators. -/
def splitAll (separator : Char) : List Char → List (List Char)
  | [] => [[]]
  | c :: text =>
    if c = separator then [] :: splitAll separator text
    else
      match splitAll separator text with
      | [] => [[c]]
      | part :: parts => (c :: part) :: parts

theorem dropPrefix?_eq_some_iff {mark text rest : List Char} :
    dropPrefix? mark text = some rest ↔ text = mark ++ rest := by
  induction mark generalizing text with
  | nil => simp [dropPrefix?]
  | cons m mark ih =>
    cases text with
    | nil => simp [dropPrefix?]
    | cons c text => by_cases h : c = m <;> simp [dropPrefix?, h, ih]

theorem eq_append_of_splitOnce? {mark text before rest : List Char}
    (h : splitOnce? mark text = some (before, rest)) : text = before ++ mark ++ rest := by
  induction text generalizing before with
  | nil =>
    simp only [splitOnce?, Option.map_eq_some_iff, Prod.mk.injEq] at h
    obtain ⟨_, found, rfl, rfl⟩ := h
    simpa using dropPrefix?_eq_some_iff.mp found
  | cons c text ih =>
    simp only [splitOnce?] at h
    split at h
    · rename_i found
      simp only [Option.some.injEq, Prod.mk.injEq] at h
      obtain ⟨rfl, rfl⟩ := h
      simpa using dropPrefix?_eq_some_iff.mp found
    · simp only [Option.map_eq_some_iff, Prod.mk.injEq, Prod.exists] at h
      obtain ⟨_, _, found, rfl, rfl⟩ := h
      simp [ih found]

theorem splitAll_ne_nil (separator : Char) (text : List Char) : splitAll separator text ≠ [] := by
  induction text with
  | nil => simp [splitAll]
  | cons c text ih =>
    simp only [splitAll]
    split
    · simp
    · split <;> simp

theorem not_mem_of_mem_splitAll {separator : Char} {text part : List Char}
    (h : part ∈ splitAll separator text) : separator ∉ part := by
  induction text generalizing part with
  | nil => simp_all [splitAll]
  | cons c text ih =>
    simp only [splitAll] at h
    split at h
    · rcases List.mem_cons.mp h with rfl | h
      · simp
      · exact ih h
    · rename_i other
      split at h
      · obtain rfl := List.mem_singleton.mp h
        simpa using Ne.symm other
      · rename_i first rest found
        rcases List.mem_cons.mp h with rfl | h
        · have := ih (found ▸ List.mem_cons_self : first ∈ _)
          simp [this, Ne.symm other]
        · exact ih (found ▸ List.mem_cons_of_mem _ h)

theorem intercalate_splitAll (separator : Char) (text : List Char) :
    [separator].intercalate (splitAll separator text) = text := by
  induction text with
  | nil => rfl
  | cons c text ih =>
    cases found : splitAll separator text with
    | nil => exact absurd found (splitAll_ne_nil separator text)
    | cons part parts =>
      rw [found] at ih
      by_cases same : c = separator
      · simpa [splitAll, same, found, List.intercalate, List.intersperse] using ih
      · cases parts <;>
          simp_all [splitAll, List.intercalate, List.intersperse]

end DecisionCompiler.Text
