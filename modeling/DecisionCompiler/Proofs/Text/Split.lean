import DecisionCompiler.Text.Split
import Mathlib.Data.List.Infix

/-!
Where texts are split.

A text is split once where a mark first occurs in it, and not at all if the mark does not occur
(`splitOnce?_eq_some_iff`, `splitOnce?_eq_none_iff`). A mark that begins with a doubled character is
found right behind a text that neither holds the character twice in a row nor ends in it
(`splitOnce?_of_apart`). Splitting at every separator gives the parts that the text consists of, if
no separator stands in them (`splitAll_eq_iff`).
-/

namespace DecisionCompiler.Text

/-! ### At the first mark -/

/-- The text is split where a mark first occurs in it. -/
structure FirstSplit (mark text before behind : List Char) : Prop where
  joined : text = before ++ mark ++ behind
  first : ∀ earlier later, text = earlier ++ mark ++ later → before.length ≤ earlier.length

section Once

variable {mark text before behind : List Char}

theorem exists_splitOnce? (mark earlier later : List Char) :
    ∃ parts, splitOnce? mark (earlier ++ mark ++ later) = some parts := by
  induction earlier with
  | nil =>
    rw [List.nil_append]
    cases mark with
    | nil => cases later <;> exact ⟨_, rfl⟩
    | cons m mark =>
      have here : dropPrefix? (m :: mark) (m :: (mark ++ later)) = some later :=
        dropPrefix?_eq_some_iff.mpr rfl
      rw [List.cons_append, splitOnce?, here]
      exact ⟨_, rfl⟩
  | cons c earlier ih =>
    obtain ⟨⟨before, behind⟩, found⟩ := ih
    rw [List.cons_append, List.cons_append, splitOnce?]
    split
    · exact ⟨_, rfl⟩
    · rw [found]
      exact ⟨_, rfl⟩

/-- A text is not split exactly when the mark does not occur in it. -/
theorem splitOnce?_eq_none_iff : splitOnce? mark text = none ↔ ¬mark <:+: text := by
  constructor
  · rintro whole ⟨earlier, later, rfl⟩
    obtain ⟨parts, found⟩ := exists_splitOnce? mark earlier later
    rw [found] at whole
    cases whole
  · intro absent
    match found : splitOnce? mark text with
    | none => rfl
    | some (before, behind) =>
      exact absurd ⟨before, behind, (eq_append_of_splitOnce? found).symm⟩ absent

theorem length_le_of_splitOnce? (found : splitOnce? mark text = some (before, behind))
    {earlier later : List Char} (joined : text = earlier ++ mark ++ later) :
    before.length ≤ earlier.length := by
  induction text generalizing before earlier with
  | nil =>
    have empty := eq_append_of_splitOnce? found
    simp only [List.nil_eq, List.append_eq_nil_iff] at empty
    rw [empty.1.1]
    exact Nat.zero_le _
  | cons c text ih =>
    rw [splitOnce?] at found
    split at found
    · obtain ⟨rfl, _⟩ := Prod.mk.inj (Option.some.inj found)
      exact Nat.zero_le _
    · rename_i notHere
      obtain ⟨⟨before', behind'⟩, found', same⟩ := Option.map_eq_some_iff.mp found
      obtain ⟨rfl, rfl⟩ := Prod.mk.inj same
      cases earlier with
      | nil =>
        -- The mark would stand at the beginning, where it was not found.
        rw [List.nil_append] at joined
        have here := dropPrefix?_eq_some_iff.mpr joined
        rw [notHere] at here
        cases here
      | cons d earlier =>
        have shorter := ih found' (List.cons.inj joined).2
        exact Nat.succ_le_succ shorter

theorem splitOnce?_eq_some_iff :
    splitOnce? mark text = some (before, behind) ↔ FirstSplit mark text before behind := by
  constructor
  · intro found
    exact ⟨eq_append_of_splitOnce? found, fun earlier later joined =>
      length_le_of_splitOnce? found joined⟩
  · rintro ⟨joined, first⟩
    obtain ⟨⟨before', behind'⟩, found⟩ := exists_splitOnce? mark before behind
    rw [← joined] at found
    have joined' := eq_append_of_splitOnce? found
    -- Both splits are first, so they are at the same place.
    have length : before.length = before'.length :=
      Nat.le_antisymm (first before' behind' joined') (length_le_of_splitOnce? found joined)
    rw [joined, List.append_assoc, List.append_assoc] at joined'
    obtain ⟨rfl, rest⟩ := List.append_inj joined' length
    rw [found, List.append_cancel_left rest]

/-- A mark that begins with a doubled character is found behind a text in which the character does
not stand twice in a row and not at the end. -/
theorem splitOnce?_of_apart {c : Char} (inside : ¬[c, c] <:+: before) (atEnd : ¬[c] <:+ before)
    (more behind : List Char) :
    splitOnce? (c :: c :: more) (before ++ c :: c :: more ++ behind) = some (before, behind) := by
  refine splitOnce?_eq_some_iff.mpr ⟨rfl, fun earlier later joined => ?_⟩
  rw [List.append_assoc, List.append_assoc, List.append_eq_append_iff] at joined
  rcases joined with ⟨between, rfl, _⟩ | ⟨between, rfl, marks⟩
  · rw [List.length_append]
    exact Nat.le_add_right _ _
  · -- The mark would begin inside of the text.
    match between with
    | [] => rw [List.append_nil]
    | [d] =>
      obtain ⟨rfl, _⟩ := List.cons.inj marks
      exact absurd (List.suffix_append _ _) atEnd
    | d :: e :: between =>
      simp only [List.cons_append, List.cons.injEq] at marks
      obtain ⟨rfl, rfl, _⟩ := marks
      exact absurd ⟨earlier, between, by simp⟩ inside

end Once

/-! ### At every separator -/

section All

variable {separator : Char} {text before rest : List Char} {parts : List (List Char)}

theorem splitAll_of_not_mem (absent : separator ∉ text) : splitAll separator text = [text] := by
  induction text with
  | nil => rfl
  | cons c text ih =>
    obtain ⟨other, absent⟩ := List.ne_and_not_mem_of_not_mem_cons absent
    rw [splitAll, if_neg (Ne.symm other), ih absent]

/-- What stands before the first separator is the first part. -/
theorem splitAll_append_cons (absent : separator ∉ before) :
    splitAll separator (before ++ separator :: rest) = before :: splitAll separator rest := by
  induction before with
  | nil => rw [List.nil_append, splitAll, if_pos rfl]
  | cons c before ih =>
    obtain ⟨other, absent⟩ := List.ne_and_not_mem_of_not_mem_cons absent
    rw [List.cons_append, splitAll, if_neg (Ne.symm other), ih absent]

/-- A text is split into the parts that it consists of, if no separator stands in them. -/
theorem splitAll_eq_iff :
    splitAll separator text = parts ↔
      parts ≠ [] ∧ (∀ part ∈ parts, separator ∉ part) ∧ text = [separator].intercalate parts := by
  constructor
  · rintro rfl
    exact ⟨splitAll_ne_nil _ _, fun part mem => not_mem_of_mem_splitAll mem,
      (intercalate_splitAll _ _).symm⟩
  · rintro ⟨some, absent, rfl⟩
    induction parts with
    | nil => exact absurd rfl some
    | cons part parts ih =>
      obtain ⟨first, later⟩ := List.forall_mem_cons.mp absent
      cases parts with
      | nil => simpa using splitAll_of_not_mem first
      | cons next parts =>
        rw [List.intercalate_cons_cons, List.append_assoc, List.singleton_append,
          splitAll_append_cons first, ih (List.cons_ne_nil _ _) later]

end All

end DecisionCompiler.Text
