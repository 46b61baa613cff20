import DecisionCompiler.Interval.Label

/-!
Partitions of the line into intervals.

Intervals partition the line when each of them, from the lowest one up, starts where the one before
it stops, with the point between them owned by exactly one of the two, and the last one runs on
without end. `Partition.climb` follows the intervals upwards from a bound; an interval that nothing
leads to is left over. A partition of one interval, the whole line, is refused, since a lookup that
always gives the same answer is taken for a mistake.
-/

namespace DecisionCompiler

/-- An interval that has an upper endpoint. -/
structure Cell where
  interval : Interval
  upper : Endpoint
  bounded : interval.upper = some upper

/-- A partition of the line: intervals with an upper endpoint, ascending, and the one above them,
which has none. -/
structure Partition where
  cells : List Cell
  top : Interval
  unbounded : top.upper = none

namespace Partition

/-- All intervals of a partition, ascending. -/
def intervals (partition : Partition) : List Interval :=
  partition.cells.map Cell.interval ++ [partition.top]

/-- What one item is set apart from is shorter than the whole. -/
theorem length_lt_of_partition {α : Type} {p : α → Bool} {items rest : List α} {item : α}
    (h : items.partition p = ([item], rest)) : rest.length < items.length := by
  rw [List.partition_eq_filter_filter, Prod.mk.injEq] at h
  have mem := List.mem_singleton.mpr (rfl : item = item)
  rw [← h.1, List.mem_filter] at mem
  rw [← h.2]
  exact List.length_filter_lt_length_iff_exists.mpr ⟨item, mem.1, by simp [mem.2]⟩

/-- Follows intervals upwards from a bound to one without an upper endpoint. The result are the
intervals met and those left over. -/
def climb (bound : Option Endpoint) (remaining : List Interval) :
    Except CompileError (Partition × List Interval) :=
  match split : remaining.partition fun interval => interval.Opens bound with
  | ([], _) => .error .nonExhaustiveIntervals
  | (_ :: _ :: _, _) => .error .overlappingIntervals
  | ([interval], others) =>
    match bounded : interval.upper with
    | none => .ok (⟨[], interval, bounded⟩, others)
    | some upper => do
      have _shorter := length_lt_of_partition split
      let (partition, rest) ← climb (some upper.adjacent) others
      return ({ partition with cells := ⟨interval, upper, bounded⟩ :: partition.cells }, rest)
termination_by remaining.length

/-- The partition that intervals form. -/
def ofIntervals : List Interval → Except CompileError Partition
  | [interval] => .error (.invalidInterval interval.label .alone)
  | intervals => do
    let (partition, others) ← climb none intervals
    if partition.cells.isEmpty then
      throw (.invalidInterval partition.top.label .wholeLine)
    if others.isEmpty then return partition else throw .overlappingIntervals

/-- The partition that labels describe. Every label is read before the first two are compared. -/
def ofLabels (labels : List String) : Except CompileError Partition := do
  let intervals ← labels.mapM Interval.ofLabel
  ofIntervals intervals

end Partition

end DecisionCompiler
