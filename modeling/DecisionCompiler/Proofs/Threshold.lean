import DecisionCompiler.Threshold
import DecisionCompiler.Proofs.Outcome
import DecisionCompiler.Proofs.Template.Selection
import Mathlib.Data.List.Infix
import Mathlib.Data.List.Permutation
import Mathlib.Tactic.Linarith

/-!
Thresholds split the line.

What a label stands for is stated apart from the way it is read: `Compares` asks for a symbol, the
longest that leads the label, and for a finite number behind it, and a label is read as a half
exactly when it compares so (`HalfLine.ofLabel_eq_ok_iff`). Two halves are accepted in either
order, and the threshold they make is the one of which they are the halves
(`Threshold.ofHalves_eq_ok_iff`).

The test for that looks at symbols and pivots alone. It is exact because two halves of the rational
line share no number and leave none out only if they are complementary at one pivot
(`Comparator.forall_holds_iff_not_holds`); labels therefore make a threshold exactly when each
number satisfies one of the two and not the other (`Threshold.exists_ofLabels_iff`).
-/

namespace DecisionCompiler

/-! ### Halves of the line -/

namespace Comparator

variable {c d : Comparator} {p q : ℚ}

theorem complement_holds_rat (c : Comparator) (x p : ℚ) :
    c.complement.Holds x p ↔ ¬c.Holds x p := by
  cases c <;> simp [complement, Holds]

/-- Above the pivot, the comparisons with the upper half hold. -/
theorem holds_iff_of_lt {x : ℚ} (above : p < x) : c.Holds x p ↔ c.isUpper = true := by
  cases c <;> simp [Holds, isUpper, above, above.le]

/-- Below the pivot, the comparisons with the lower half hold. -/
theorem holds_iff_of_gt {x : ℚ} (below : x < p) : c.Holds x p ↔ c.isUpper = false := by
  cases c <;> simp [Holds, isUpper, below, below.le]

theorem not_lt_of_forall_holds_iff (same : ∀ x : ℚ, c.Holds x p ↔ d.Holds x q) : ¬p < q := by
  intro lt
  have far := same (q + 1)
  rw [holds_iff_of_lt (by linarith), holds_iff_of_lt (by linarith)] at far
  have between := same ((p + q) / 2)
  rw [holds_iff_of_lt (by linarith), holds_iff_of_gt (by linarith), far] at between
  simp at between

/-- Two comparisons that hold of the same numbers are the same. -/
theorem forall_holds_iff : (∀ x : ℚ, c.Holds x p ↔ d.Holds x q) ↔ c = d ∧ p = q := by
  constructor
  · intro same
    have notLt := not_lt_of_forall_holds_iff same
    have notGt := not_lt_of_forall_holds_iff fun x => (same x).symm
    obtain rfl : p = q := le_antisymm (not_lt.mp notGt) (not_lt.mp notLt)
    have above := same (p + 1)
    rw [holds_iff_of_lt (by linarith), holds_iff_of_lt (by linarith)] at above
    -- The comparisons with one half differ at the pivot alone.
    have atPivot := same p
    refine ⟨?_, rfl⟩
    cases c <;> cases d <;> simp_all [Holds, isUpper]
  · rintro ⟨rfl, rfl⟩ x
    exact Iff.rfl

/-- Two comparisons of which exactly one holds of each number are complementary, at one pivot. -/
theorem forall_holds_iff_not_holds :
    (∀ x : ℚ, c.Holds x p ↔ ¬d.Holds x q) ↔ c = d.complement ∧ p = q := by
  simp only [← complement_holds_rat]
  exact forall_holds_iff

/-! ### Symbols -/

theorem symbol_injective (same : c.symbol.toList = d.symbol.toList) : c = d := by
  cases c <;> cases d <;> simp_all [symbol]

/-- The symbol leads the text, and no longer one does. -/
def Leads (c : Comparator) (text : List Char) : Prop :=
  c.symbol.toList <+: text ∧
    ∀ other : Comparator, other.symbol.toList <+: text → other.symbol.length ≤ c.symbol.length

theorem mem_all (c : Comparator) : c ∈ all := by
  cases c <;> decide

theorem all_pairwise :
    all.Pairwise fun first second => second.symbol.length ≤ first.symbol.length := by
  decide

variable {text rest : List Char}

theorem leads_of_split? (split : split? text = some (c, rest)) :
    text = c.symbol.toList ++ rest ∧ c.Leads text := by
  obtain ⟨before, found, behind, listed, hit, missed⟩ := List.findSome?_eq_some_iff.mp split
  obtain ⟨_, dropped, same⟩ := Option.map_eq_some_iff.mp hit
  obtain ⟨rfl, rfl⟩ := Prod.mk.inj same
  have text_eq := Text.dropPrefix?_eq_some_iff.mp dropped
  refine ⟨text_eq, ⟨_, text_eq.symm⟩, fun other leads => ?_⟩
  have mem := mem_all other
  have shorter := all_pairwise
  rw [listed] at mem shorter
  rcases List.mem_append.mp mem with mem | mem
  · -- The symbols that stand before it in the list do not lead the text.
    obtain ⟨rest', text_eq'⟩ := leads
    have none := missed other mem
    rw [Text.dropPrefix?_eq_some_iff.mpr text_eq'.symm] at none
    exact nomatch none
  · rcases List.mem_cons.mp mem with rfl | mem
    · exact Nat.le_refl _
    · exact (List.pairwise_cons.mp (List.pairwise_append.mp shorter).2.1).1 other mem

/-- The symbol that is split off is the longest one that leads the text. -/
theorem split?_eq_some_iff :
    split? text = some (c, rest) ↔ text = c.symbol.toList ++ rest ∧ c.Leads text := by
  constructor
  · exact leads_of_split?
  · rintro ⟨text_eq, leads⟩
    cases split : split? text with
    | none =>
      have none := List.findSome?_eq_none_iff.mp split c (mem_all c)
      rw [Text.dropPrefix?_eq_some_iff.mpr text_eq] at none
      exact nomatch none
    | some found =>
      obtain ⟨d, rest'⟩ := found
      obtain ⟨text_eq', leads'⟩ := leads_of_split? split
      have long : d.symbol.toList.length = c.symbol.toList.length :=
        Nat.le_antisymm (leads.2 d leads'.1) (leads'.2 c leads.1)
      obtain ⟨symbols, rests⟩ := List.append_inj (text_eq'.symm.trans text_eq) long
      rw [symbol_injective symbols, rests]

end Comparator

/-! ### What labels stand for -/

/-- The label compares with a pivot: a symbol leads it, and a finite number stands behind the
symbol, blanks around the number aside. -/
structure Compares (label : String) (c : Comparator) (pivot : Number.Finite) : Prop where
  leads : c.Leads label.toList
  number : ∃ text, label.toList = c.symbol.toList ++ text ∧
    Number.read? (Text.trim text) = some (.finite pivot)

/-- The number satisfies the comparison of the label. -/
def Satisfies (label : String) (x : ℚ) : Prop :=
  ∃ c pivot, Compares label c pivot ∧ c.Holds x pivot.toRat

namespace HalfLine

theorem readPivot_eq_ok_iff {label : String} {text : List Char} {pivot : Number.Finite} :
    readPivot label text = .ok pivot ↔ Number.read? (Text.trim text) = some (.finite pivot) := by
  unfold readPivot
  split <;> simp_all

/-- A label is read as the half of the comparison it stands for. -/
theorem ofLabel_eq_ok_iff {label : String} {half : HalfLine} :
    ofLabel label = .ok half ↔ half.label = label ∧ Compares label half.comparator half.pivot := by
  constructor
  · intro read
    unfold ofLabel at read
    split at read
    · exact nomatch read
    · rename_i c rest split
      obtain ⟨text_eq, leads⟩ := Comparator.leads_of_split? split
      cases pivot : readPivot label rest with
      | error defect =>
        rw [pivot] at read
        exact nomatch read
      | ok pivot' =>
        rw [pivot] at read
        cases read
        exact ⟨rfl, leads, rest, text_eq, readPivot_eq_ok_iff.mp pivot⟩
  · obtain ⟨text, c, pivot⟩ := half
    rintro ⟨rfl, leads, rest, text_eq, number⟩
    have split := Comparator.split?_eq_some_iff.mpr ⟨text_eq, leads⟩
    simp only [ofLabel, split, readPivot_eq_ok_iff.mpr number]
    rfl

end HalfLine

/-- A label stands for one comparison only. -/
theorem Compares.unique {label : String} {c d : Comparator} {pivot other : Number.Finite}
    (compares : Compares label c pivot) (compares' : Compares label d other) :
    c = d ∧ pivot = other := by
  have read : HalfLine.ofLabel label = .ok ⟨label, c, pivot⟩ :=
    HalfLine.ofLabel_eq_ok_iff.mpr ⟨rfl, compares⟩
  have read' : HalfLine.ofLabel label = .ok ⟨label, d, other⟩ :=
    HalfLine.ofLabel_eq_ok_iff.mpr ⟨rfl, compares'⟩
  simpa using Except.ok.inj (read.symm.trans read')

theorem Compares.satisfies_iff {label : String} {c : Comparator} {pivot : Number.Finite}
    (compares : Compares label c pivot) (x : ℚ) : Satisfies label x ↔ c.Holds x pivot.toRat := by
  constructor
  · rintro ⟨d, other, compares', holds⟩
    obtain ⟨rfl, rfl⟩ := compares.unique compares'
    exact holds
  · exact fun holds => ⟨c, pivot, compares, holds⟩

/-- The label is a condition. -/
def IsCondition (label : String) : Prop :=
  ∃ c pivot, Compares label c pivot

/-! ### Thresholds -/

namespace Threshold

variable {first second : HalfLine} {threshold : Threshold}

/-- Two halves are accepted as the threshold of which they are the halves. -/
theorem ofHalves_eq_ok_iff :
    ofHalves first second = .ok threshold ↔
      threshold.upper = first ∧ threshold.lower = second ∨
        threshold.upper = second ∧ threshold.lower = first := by
  constructor
  · intro accepted
    unfold ofHalves at accepted
    split at accepted
    case isFalse => exact nomatch accepted
    split at accepted
    case isFalse => exact nomatch accepted
    split at accepted
    · cases accepted
      exact .inl ⟨rfl, rfl⟩
    · cases accepted
      exact .inr ⟨rfl, rfl⟩
  · obtain ⟨upper, lower, isUpper, complementary, samePivot⟩ := threshold
    rintro (⟨rfl, rfl⟩ | ⟨rfl, rfl⟩)
    · unfold ofHalves
      rw [dif_pos samePivot, dif_pos complementary, dif_pos isUpper]
    · have complementary' : upper.comparator = lower.comparator.complement := by
        rw [complementary, Comparator.complement_complement]
      have isLower : ¬lower.comparator.isUpper = true := by
        rw [complementary, Comparator.isUpper_complement, isUpper]
        exact Bool.false_ne_true
      have samePivot' : lower.pivot.Same upper.pivot := Eq.symm samePivot
      unfold ofHalves
      rw [dif_pos samePivot', dif_pos complementary', dif_neg isLower]

/-- Two halves make a threshold exactly if they are complementary at one point. -/
theorem exists_ofHalves_iff :
    (∃ threshold, ofHalves first second = .ok threshold) ↔
      first.comparator = second.comparator.complement ∧ first.pivot.Same second.pivot := by
  constructor
  · rintro ⟨threshold, accepted⟩
    have complementary := threshold.complementary
    rcases ofHalves_eq_ok_iff.mp accepted with ⟨rfl, rfl⟩ | ⟨rfl, rfl⟩
    · rw [complementary, Comparator.complement_complement]
      exact ⟨rfl, threshold.samePivot⟩
    · exact ⟨complementary, Eq.symm threshold.samePivot⟩
  · rintro ⟨complementary, samePivot⟩
    have complementary' : second.comparator = first.comparator.complement := by
      rw [complementary, Comparator.complement_complement]
    unfold ofHalves
    rw [dif_pos samePivot, dif_pos complementary']
    split
    · exact ⟨_, rfl⟩
    · exact ⟨_, rfl⟩

variable {labels : List String}

theorem ofLabels_eq_ok_iff_exists :
    ofLabels labels = .ok threshold ↔
      ∃ first second, labels = [first.label, second.label] ∧
        Compares first.label first.comparator first.pivot ∧
        Compares second.label second.comparator second.pivot ∧
        ofHalves first second = .ok threshold := by
  have mapError_iff : ofLabels labels = .ok threshold ↔ ofConditions labels = .ok threshold := by
    unfold ofLabels
    cases ofConditions labels <;> simp [Except.mapError]
  rw [mapError_iff]
  constructor
  · intro accepted
    unfold ofConditions at accepted
    split at accepted
    · simp only [Outcome.bind_eq_ok_iff, HalfLine.ofLabel_eq_ok_iff] at accepted
      obtain ⟨first, ⟨rfl, comparesFirst⟩, second, ⟨rfl, comparesSecond⟩, accepted⟩ := accepted
      exact ⟨first, second, rfl, comparesFirst, comparesSecond, accepted⟩
    · exact nomatch accepted
  · rintro ⟨first, second, rfl, comparesFirst, comparesSecond, accepted⟩
    have readFirst := HalfLine.ofLabel_eq_ok_iff.mpr ⟨rfl, comparesFirst⟩
    have readSecond := HalfLine.ofLabel_eq_ok_iff.mpr ⟨rfl, comparesSecond⟩
    simp only [ofConditions, readFirst, readSecond, Outcome.ok_bind, accepted]

/-- Labels are accepted as a threshold exactly if they are the labels of its halves, in any
order. -/
theorem ofLabels_eq_ok_iff :
    ofLabels labels = .ok threshold ↔
      labels.Perm [threshold.upper.label, threshold.lower.label] ∧
        Compares threshold.upper.label threshold.upper.comparator threshold.upper.pivot ∧
        Compares threshold.lower.label threshold.lower.comparator threshold.lower.pivot := by
  simp only [ofLabels_eq_ok_iff_exists, ofHalves_eq_ok_iff, List.perm_pair]
  constructor
  · rintro ⟨first, second, rfl, comparesFirst, comparesSecond, ⟨rfl, rfl⟩ | ⟨rfl, rfl⟩⟩
    · exact ⟨.inl rfl, comparesFirst, comparesSecond⟩
    · exact ⟨.inr rfl, comparesSecond, comparesFirst⟩
  · rintro ⟨rfl | rfl, comparesUpper, comparesLower⟩
    · exact ⟨_, _, rfl, comparesUpper, comparesLower, .inl ⟨rfl, rfl⟩⟩
    · exact ⟨_, _, rfl, comparesLower, comparesUpper, .inr ⟨rfl, rfl⟩⟩

/-- Labels make a threshold exactly if they are two conditions of which every number satisfies
one and not the other. -/
theorem exists_ofLabels_iff :
    (∃ threshold, ofLabels labels = .ok threshold) ↔
      ∃ first second, labels = [first, second] ∧ IsCondition first ∧ IsCondition second ∧
        ∀ x : ℚ, Xor (Satisfies first x) (Satisfies second x) := by
  simp only [xor_iff_iff_not]
  constructor
  · rintro ⟨threshold, accepted⟩
    obtain ⟨first, second, rfl, comparesFirst, comparesSecond, accepted⟩ :=
      ofLabels_eq_ok_iff_exists.mp accepted
    refine ⟨_, _, rfl, ⟨_, _, comparesFirst⟩, ⟨_, _, comparesSecond⟩, fun x => ?_⟩
    have halves := exists_ofHalves_iff.mp ⟨threshold, accepted⟩
    rw [← Number.Finite.toRat_eq_toRat_iff, ← Comparator.forall_holds_iff_not_holds] at halves
    rw [comparesFirst.satisfies_iff, comparesSecond.satisfies_iff]
    exact halves x
  · rintro ⟨first, second, rfl, ⟨c, p, comparesFirst⟩, ⟨d, q, comparesSecond⟩, opposed⟩
    simp only [comparesFirst.satisfies_iff, comparesSecond.satisfies_iff] at opposed
    rw [Comparator.forall_holds_iff_not_holds, Number.Finite.toRat_eq_toRat_iff] at opposed
    have made : ∃ threshold, ofHalves ⟨first, c, p⟩ ⟨second, d, q⟩ = .ok threshold :=
      exists_ofHalves_iff.mpr opposed
    obtain ⟨threshold, accepted⟩ := made
    exact ⟨threshold, ofLabels_eq_ok_iff_exists.mpr
      ⟨⟨first, c, p⟩, ⟨second, d, q⟩, rfl, comparesFirst, comparesSecond, accepted⟩⟩

/-- The order of the labels does not matter. -/
theorem ofLabels_eq_ok_of_perm {reordered : List String} (perm : reordered.Perm labels)
    (accepted : ofLabels labels = .ok threshold) : ofLabels reordered = .ok threshold := by
  obtain ⟨listed, compares⟩ := ofLabels_eq_ok_iff.mp accepted
  exact ofLabels_eq_ok_iff.mpr ⟨perm.trans listed, compares⟩

/-- A number satisfies the comparison of the upper half exactly if it satisfies the label of the
upper half, and exactly if it does not satisfy the label of the lower half. -/
theorem satisfies_iff_of_ofLabels (accepted : ofLabels labels = .ok threshold) (x : ℚ) :
    (threshold.upper.comparator.Holds x threshold.upper.pivot.toRat ↔
        Satisfies threshold.upper.label x) ∧
      (Satisfies threshold.upper.label x ↔ ¬Satisfies threshold.lower.label x) := by
  obtain ⟨_, comparesUpper, comparesLower⟩ := ofLabels_eq_ok_iff.mp accepted
  rw [comparesUpper.satisfies_iff, comparesLower.satisfies_iff, threshold.complementary,
    Comparator.complement_holds_rat, not_not,
    Number.Finite.toRat_eq_toRat_iff.mpr threshold.samePivot]
  exact ⟨Iff.rfl, Iff.rfl⟩

end Threshold

end DecisionCompiler
