import DecisionCompiler.Number.Basic

/-!
Intervals of the line.

An interval has two bounds, each an endpoint or none, where none means that the interval runs on
without end. An endpoint is *closed* when it belongs to the interval. `Interval.Opens` and
`Interval.IsEmpty` compare endpoints as points of the line, so that zero and negative zero are the
same endpoint.
-/

namespace DecisionCompiler

/-- Where an interval ends, and whether the point belongs to it. -/
structure Endpoint where
  value : Number.Finite
  closed : Bool
deriving DecidableEq

/-- The endpoint that an adjacent interval has at the same point: it owns the point exactly if this
one does not. -/
def Endpoint.adjacent (e : Endpoint) : Endpoint :=
  ⟨e.value, !e.closed⟩

/-- An interval and the label that it was written as. -/
structure Interval where
  label : String
  lower : Option Endpoint
  upper : Option Endpoint
deriving DecidableEq

namespace Interval

/-- The interval starts at the given bound. -/
def Opens (bound : Option Endpoint) (i : Interval) : Prop :=
  match bound, i.lower with
  | none, none => True
  | some a, some b => a.closed = b.closed ∧ a.value.Same b.value
  | _, _ => False

instance (bound : Option Endpoint) (i : Interval) : Decidable (i.Opens bound) := by
  unfold Opens
  split <;> infer_instance

/-- No number lies between the bounds. -/
def IsEmpty (i : Interval) : Prop :=
  match i.lower, i.upper with
  | some lower, some upper =>
    upper.value < lower.value ∨
      upper.value.Same lower.value ∧ ¬(lower.closed = true ∧ upper.closed = true)
  | _, _ => False

instance (i : Interval) : Decidable i.IsEmpty := by
  unfold IsEmpty
  split <;> infer_instance

end Interval

end DecisionCompiler
