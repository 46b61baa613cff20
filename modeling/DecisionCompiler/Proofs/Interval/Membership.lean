import DecisionCompiler.Interval.Basic
import DecisionCompiler.Proofs.Number.Rational
import Mathlib.Tactic.Linarith

/-!
Which numbers an interval contains.

`Above` and `Below` read a bound as a half of the rational line, and an interval contains what is in
both of its halves. The tests that look at bounds alone are exact for this reading:

* `isEmpty_iff` — an interval is empty exactly when it contains no number;
* `opens_iff` — an interval opens at a bound exactly when both leave the same numbers below them;
* `above_adjacent_iff` — the opening that a closed or open end asks of its neighbour starts where
  the end stops.
-/

namespace DecisionCompiler

/-- The number is on the upper side of a lower bound. -/
def Above (bound : Option Endpoint) (x : ℚ) : Prop :=
  match bound with
  | none => True
  | some e => if e.closed then e.value.toRat ≤ x else e.value.toRat < x

/-- The number is on the lower side of an upper bound. -/
def Below (bound : Option Endpoint) (x : ℚ) : Prop :=
  match bound with
  | none => True
  | some e => if e.closed then x ≤ e.value.toRat else x < e.value.toRat

instance (bound : Option Endpoint) (x : ℚ) : Decidable (Above bound x) :=
  match bound with
  | none => inferInstanceAs (Decidable True)
  | some e =>
    inferInstanceAs (Decidable (if e.closed then e.value.toRat ≤ x else e.value.toRat < x))

instance (bound : Option Endpoint) (x : ℚ) : Decidable (Below bound x) :=
  match bound with
  | none => inferInstanceAs (Decidable True)
  | some e =>
    inferInstanceAs (Decidable (if e.closed then x ≤ e.value.toRat else x < e.value.toRat))

namespace Interval

/-- The number lies between the bounds. -/
def Contains (i : Interval) (x : ℚ) : Prop :=
  Above i.lower x ∧ Below i.upper x

instance (i : Interval) (x : ℚ) : Decidable (i.Contains x) :=
  inferInstanceAs (Decidable (_ ∧ _))

/-- Some number lies between the bounds. -/
def Inhabited (i : Interval) : Prop :=
  ∃ x, i.Contains x

end Interval

/-! ### Halves of the line -/

section Halves

variable {bound other : Option Endpoint} {e : Endpoint} {x y : ℚ}

@[simp] theorem above_none : Above none x :=
  trivial

@[simp] theorem below_none : Below none x :=
  trivial

theorem above_some_iff :
    Above (some e) x ↔ if e.closed then e.value.toRat ≤ x else e.value.toRat < x :=
  Iff.rfl

theorem below_some_iff :
    Below (some e) x ↔ if e.closed then x ≤ e.value.toRat else x < e.value.toRat :=
  Iff.rfl

/-- What is on the upper side stays there when it grows. -/
theorem Above.mono (h : Above bound x) (le : x ≤ y) : Above bound y := by
  cases bound with
  | none => exact above_none
  | some e =>
    cases closed : e.closed <;> simp only [above_some_iff, closed] at h ⊢
    · exact h.trans_le le
    · exact h.trans le

/-- What is on the lower side stays there when it shrinks. -/
theorem Below.anti (h : Below bound y) (le : x ≤ y) : Below bound x := by
  cases bound with
  | none => exact below_none
  | some e =>
    cases closed : e.closed <;> simp only [below_some_iff, closed] at h ⊢
    · exact le.trans_lt h
    · exact le.trans h

/-- The neighbour of an end takes what the end leaves. -/
theorem above_adjacent_iff : Above (some e.adjacent) x ↔ ¬Below (some e) x := by
  rw [above_some_iff, below_some_iff]
  cases closed : e.closed <;> simp [Endpoint.adjacent, closed]

/-- Every bound leaves numbers on its upper side. -/
theorem exists_above (bound : Option Endpoint) : ∃ x, Above bound x := by
  cases bound with
  | none => exact ⟨0, above_none⟩
  | some e =>
    refine ⟨e.value.toRat + 1, ?_⟩
    rw [above_some_iff]
    split <;> linarith

/-- An endpoint leaves numbers below it. -/
theorem exists_not_above (e : Endpoint) : ∃ x, ¬Above (some e) x := by
  refine ⟨e.value.toRat - 1, ?_⟩
  rw [above_some_iff]
  split <;> linarith

/-- An endpoint that keeps no more than another one does not lie below it. -/
theorem toRat_le_of_above {a b : Endpoint} (h : ∀ x, Above (some a) x → Above (some b) x) :
    b.value.toRat ≤ a.value.toRat := by
  -- A number between the two would be kept by `a` alone.
  by_contra lt
  have between : Above (some a) ((a.value.toRat + b.value.toRat) / 2) := by
    rw [above_some_iff]
    split <;> linarith
  have kept := h _ between
  rw [above_some_iff] at kept
  split at kept <;> linarith

/-- Two lower bounds keep the same numbers only if they are the same bound, up to the sign of
zero. -/
theorem same_of_above_iff {a b : Endpoint} (h : ∀ x, Above (some a) x ↔ Above (some b) x) :
    a.closed = b.closed ∧ a.value.Same b.value := by
  have same : a.value.toRat = b.value.toRat :=
    le_antisymm (toRat_le_of_above fun x => (h x).mpr) (toRat_le_of_above fun x => (h x).mp)
  refine ⟨?_, Number.Finite.toRat_eq_toRat_iff.mp same⟩
  have point := h a.value.toRat
  rw [above_some_iff, above_some_iff, same] at point
  cases ha : a.closed <;> cases hb : b.closed <;> simp [ha, hb] at point ⊢

end Halves

/-! ### The tests on bounds -/

namespace Interval

variable {i : Interval} {bound : Option Endpoint}

/-- An interval opens at a bound exactly when it starts with the numbers that the bound keeps. -/
theorem opens_iff : i.Opens bound ↔ ∀ x, Above bound x ↔ Above i.lower x := by
  cases bound with
  | none =>
    cases lower : i.lower with
    | none => simp [Opens, lower]
    | some b =>
      obtain ⟨x, out⟩ := exists_not_above b
      simp only [Opens, lower]
      exact iff_of_false id fun h => out ((h x).mp above_none)
  | some a =>
    cases lower : i.lower with
    | none =>
      obtain ⟨x, out⟩ := exists_not_above a
      simp only [Opens, lower]
      exact iff_of_false id fun h => out ((h x).mpr above_none)
    | some b =>
      simp only [Opens, lower]
      constructor
      · rintro ⟨closed, same⟩ x
        rw [above_some_iff, above_some_iff, closed, Number.Finite.toRat_eq_toRat_iff.mpr same]
      · exact same_of_above_iff

/-- Between two endpoints lies a number exactly when they are in order, or meet in a point that both
of them keep. -/
theorem exists_between_iff {a b : Endpoint} :
    (∃ x, Above (some a) x ∧ Below (some b) x) ↔
      a.value.toRat < b.value.toRat ∨
        a.value.toRat = b.value.toRat ∧ a.closed = true ∧ b.closed = true := by
  constructor
  · rintro ⟨x, above, below⟩
    rw [above_some_iff] at above
    rw [below_some_iff] at below
    rcases lt_trichotomy a.value.toRat b.value.toRat with lt | same | gt
    · exact .inl lt
    · refine .inr ⟨same, ?_⟩
      split at above <;> split at below <;> first | exact ⟨‹_›, ‹_›⟩ | linarith
    · split at above <;> split at below <;> linarith
  · rintro (lt | ⟨same, ha, hb⟩)
    · refine ⟨(a.value.toRat + b.value.toRat) / 2, ?_, ?_⟩
      · rw [above_some_iff]
        split <;> linarith
      · rw [below_some_iff]
        split <;> linarith
    · refine ⟨a.value.toRat, ?_, ?_⟩
      · simp [above_some_iff, ha]
      · simp [below_some_iff, hb, same]

/-- An interval is empty exactly when no number lies between its bounds. -/
theorem isEmpty_iff : i.IsEmpty ↔ ¬i.Inhabited := by
  unfold IsEmpty Inhabited Contains
  cases lower : i.lower with
  | none =>
    cases upper : i.upper with
    | none => simp
    | some b =>
      obtain ⟨x, out⟩ := exists_not_above b.adjacent
      rw [above_adjacent_iff, not_not] at out
      simpa using ⟨x, out⟩
  | some a =>
    cases upper : i.upper with
    | none => simpa using exists_above (some a)
    | some b =>
      simp only [exists_between_iff, ← Number.Finite.toRat_lt_toRat_iff,
        ← Number.Finite.toRat_eq_toRat_iff]
      rcases lt_trichotomy a.value.toRat b.value.toRat with lt | same | gt
      · simp [lt, lt.not_gt, lt.ne']
      · simp [same]
      · simp [gt, gt.not_gt, gt.ne']

end Interval

end DecisionCompiler
