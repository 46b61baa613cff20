import DecisionCompiler.Template
import DecisionCompiler.Text.Blank
import DecisionCompiler.Proofs.Number.Layout
import DecisionCompiler.Proofs.Text.Split
import Mathlib.Data.List.Infix
import Mathlib.Tactic.IntervalCases

/-!
Words and actions in the text of a template.

A word has no blanks, braces and parentheses in it, so it ends where one of them stands
(`Word.append_inj`); the names of comparators and the plain forms of finite numbers are words. A
text is unopened when it can stand in front of an action without an action beginning earlier; what
stands before the first action of a text, and what stands inside and behind it, is then found by
looking for the braces (`firstAction?_append`).
-/

namespace DecisionCompiler

/-! ### Words -/

/-- The character is no blank, no brace and no parenthesis. -/
def NameChar (c : Char) : Prop :=
  Text.isBlank c = false ∧ c ∉ ['{', '}', '(', ')']

instance (c : Char) : Decidable (NameChar c) :=
  inferInstanceAs (Decidable (_ ∧ _))

/-- The text has no blanks, braces and parentheses in it. -/
def Word (text : List Char) : Prop :=
  ∀ c ∈ text, NameChar c

instance (text : List Char) : Decidable (Word text) :=
  List.decidableBAll NameChar text

theorem Word.not_mem {text : List Char} (word : Word text) {c : Char} (other : ¬NameChar c) :
    c ∉ text := fun mem =>
  other (word c mem)

/-- A word in front of a character that is no part of it can be split off in only one way. -/
theorem Word.append_inj {first second rest rest' : List Char} (word : Word first)
    (other : Word second) (ended : ∀ c ∈ rest.head?, ¬NameChar c)
    (ended' : ∀ c ∈ rest'.head?, ¬NameChar c) (same : first ++ rest = second ++ rest') :
    first = second ∧ rest = rest' := by
  induction first generalizing second with
  | nil =>
    cases second with
    | nil => exact ⟨rfl, same⟩
    | cons c second =>
      have head : c ∈ rest.head? := by
        rw [show rest = c :: second ++ rest' from same]
        rfl
      exact absurd (other c List.mem_cons_self) (ended c head)
  | cons c first ih =>
    cases second with
    | nil =>
      have head : c ∈ rest'.head? := by
        rw [show rest' = c :: first ++ rest from same.symm]
        rfl
      exact absurd (word c List.mem_cons_self) (ended' c head)
    | cons d second =>
      obtain ⟨rfl, tails⟩ := List.cons.inj same
      have others := ih (List.forall_mem_cons.mp word).2 (List.forall_mem_cons.mp other).2 tails
      exact ⟨by rw [others.1], others.2⟩

theorem nameChar_of_isDigit {c : Char} (digit : c.isDigit = true) : NameChar c := by
  have range : 48 ≤ c.toNat ∧ c.toNat ≤ 57 := Char.isDigit_iff_toNat.mp digit
  rw [← Char.ofNat_toNat c]
  generalize c.toNat = n at range
  obtain ⟨lower, upper⟩ := range
  interval_cases n <;> decide

theorem word_plain (x : Number.Finite) : Word x.plain := by
  intro c mem
  rcases Number.mem_plain mem with digit | rfl | rfl
  · exact nameChar_of_isDigit digit
  · decide
  · decide

theorem word_name (comparator : Comparator) : Word comparator.name.toList := by
  cases comparator <;> decide

theorem head?_blank (text : List Char) : ∀ c ∈ (' ' :: text).head?, ¬NameChar c := by
  intro c head
  obtain rfl : ' ' = c := Option.some.inj head
  decide

/-! ### Splitting at braces -/

/-- A text that can stand in front of an action: it neither holds the two braces that open an action
nor ends in one of them. -/
structure Unopened (text : List Char) : Prop where
  inside : ¬['{', '{'] <:+: text
  atEnd : ¬['{'] <:+ text

theorem splitOnce?_unopened {text rest : List Char} (unopened : Unopened text) :
    Text.splitOnce? ['{', '{'] (text ++ '{' :: '{' :: rest) = some (text, rest) := by
  have found := Text.splitOnce?_of_apart unopened.inside unopened.atEnd [] rest
  rwa [List.append_assoc] at found

theorem splitOnce?_of_not_mem {c : Char} {text : List Char} (apart : c ∉ text)
    (mark rest : List Char) :
    Text.splitOnce? (c :: mark) (text ++ c :: (mark ++ rest)) = some (text, rest) := by
  induction text with
  | nil =>
    have here : Text.dropPrefix? (c :: mark) (c :: (mark ++ rest)) = some rest :=
      Text.dropPrefix?_eq_some_iff.mpr rfl
    rw [List.nil_append, Text.splitOnce?, here]
  | cons d text ih =>
    obtain ⟨other, others⟩ := List.ne_and_not_mem_of_not_mem_cons apart
    rw [List.cons_append, Text.splitOnce?, Text.dropPrefix?, if_neg other.symm, ih others]
    rfl

/-! ### The first action -/

/-- What stands before the first action of a text, what stands inside the action, and what stands
behind it. -/
def firstAction? (text : List Char) : Option (List Char × List Char × List Char) := do
  let (before, rest) ← Text.splitOnce? ['{', '{'] text
  let (inside, behind) ← Text.splitOnce? ['}', '}'] rest
  return (before, inside, behind)

theorem firstAction?_append {before inside rest : List Char} (unopened : Unopened before)
    (apart : '}' ∉ inside) :
    firstAction? (before ++ (action inside ++ rest)) = some (before, inside, rest) := by
  have split := splitOnce?_of_not_mem apart ['}'] rest
  simp only [List.cons_append, List.nil_append] at split
  simp [firstAction?, action, splitOnce?_unopened unopened, split]

theorem firstAction?_eq_none {text : List Char} (apart : ¬['{', '{'] <:+: text) :
    firstAction? text = none := by
  rw [firstAction?, Text.splitOnce?_eq_none_iff.mpr apart]
  rfl

theorem unopened_nil : Unopened [] :=
  ⟨by simp, by simp⟩

theorem action_append_inj {inside inside' rest rest' : List Char} (apart : '}' ∉ inside)
    (apart' : '}' ∉ inside') (same : action inside ++ rest = action inside' ++ rest') :
    inside = inside' ∧ rest = rest' := by
  have found : firstAction? (action inside ++ rest) = some ([], inside, rest) :=
    firstAction?_append unopened_nil apart
  have found' : firstAction? (action inside' ++ rest') = some ([], inside', rest') :=
    firstAction?_append unopened_nil apart'
  rw [same] at found
  simpa using found.symm.trans found'

/-- The text up to its first blank. -/
def firstWord (text : List Char) : List Char :=
  text.takeWhile (· ≠ ' ')

theorem firstWord_append {word rest : List Char} (solid : ' ' ∉ word)
    (ended : ∀ c ∈ rest.head?, c = ' ') : firstWord (word ++ rest) = word := by
  have nothing : rest.takeWhile (· ≠ ' ') = [] := by
    cases rest with
    | nil => rfl
    | cons c rest =>
      obtain rfl := ended c rfl
      rfl
  have all : ∀ c ∈ word, decide (c ≠ ' ') = true := fun c mem =>
    decide_eq_true fun blank => solid (blank ▸ mem)
  rw [firstWord, List.takeWhile_append_of_pos all, nothing, List.append_nil]

end DecisionCompiler
