import DecisionCompiler.Comparator
import DecisionCompiler.CompileError
import DecisionCompiler.Number.Numeral
import DecisionCompiler.Text.Blank

/-!
Thresholds: the line cut in two at one point.

A condition label such as `>=18` describes a half of the line. Two labels make a threshold when
their halves are complementary, so that every number satisfies exactly one of them. The upper half
is the one that is tested for, whichever label stands first.
-/

namespace DecisionCompiler

/-- A half of the line and the label that describes it. -/
structure HalfLine where
  label : String
  comparator : Comparator
  pivot : Number.Finite
deriving DecidableEq

/-- Two complementary halves of the line. -/
structure Threshold where
  upper : HalfLine
  lower : HalfLine
  isUpper : upper.comparator.isUpper = true
  complementary : lower.comparator = upper.comparator.complement
  samePivot : upper.pivot.Same lower.pivot

/-- Reads the pivot behind a comparator; blanks around it do not matter. -/
def HalfLine.readPivot (label : String) (text : List Char) :
    Except ThresholdDefect Number.Finite :=
  match Number.read? (Text.trim text) with
  | none => .error (.notNumeric label)
  | some (.finite pivot) => .ok pivot
  | some _ => .error (.notFinite label)

/-- The half that a label describes. -/
def HalfLine.ofLabel (label : String) : Except ThresholdDefect HalfLine :=
  match Comparator.split? label.toList with
  | none => .error (.noComparator label)
  | some (comparator, rest) =>
    (readPivot label rest).map fun pivot => ⟨label, comparator, pivot⟩

/-- The threshold between two halves. -/
def Threshold.ofHalves (first second : HalfLine) : Except ThresholdDefect Threshold :=
  if same : first.pivot.Same second.pivot then
    if complementary : second.comparator = first.comparator.complement then
      if isUpper : first.comparator.isUpper = true then
        .ok ⟨first, second, isUpper, complementary, same⟩
      else
        .ok ⟨second, first,
          by rw [complementary, Comparator.isUpper_complement]; simpa using isUpper,
          by rw [complementary, Comparator.complement_complement], same.symm⟩
    else .error (.notComplementary first.label second.label)
  else .error (.differentPivots first.label second.label)

/-- The threshold that two labels describe; the first label is read first. -/
def Threshold.ofConditions : List String → Except ThresholdDefect Threshold
  | [first, second] => do
    let first ← HalfLine.ofLabel first
    let second ← HalfLine.ofLabel second
    ofHalves first second
  | labels => .error (.count labels.length)

/-- The threshold that labels describe. -/
def Threshold.ofLabels (labels : List String) : Except CompileError Threshold :=
  (ofConditions labels).mapError .invalidThreshold

end DecisionCompiler
