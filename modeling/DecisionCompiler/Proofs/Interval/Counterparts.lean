import DecisionCompiler.Proofs.Counterparts
import DecisionCompiler.Proofs.Interval.Tiling

/-!
Walks over intervals that have the same bounds.

Where a walk goes depends on the bounds of the intervals and on nothing else: neither on their
order nor on how their labels spell them. Of two lists whose intervals correspond one to one with
the same bounds, both walks fail alike, or both meet corresponding intervals and leave corresponding
intervals over (`climb_alike`); the same holds of the partition that the intervals form
(`ofIntervals_alike`). Errors are compared by their kind, since their texts quote labels.
-/

namespace DecisionCompiler

/-- What kind of failure an error is, apart from the texts that it is about. -/
inductive CompileError.Kind where
  | missingOperand
  | wrongPayload
  | invalidInterval
  | nonExhaustiveIntervals
  | overlappingIntervals
  | invalidThreshold
  | unrecognizedSource
  | unsupportedRule
deriving DecidableEq

/-- The kind of an error. -/
def CompileError.kind : CompileError → CompileError.Kind
  | missingOperand .. => .missingOperand
  | wrongPayload .. => .wrongPayload
  | invalidInterval .. => .invalidInterval
  | nonExhaustiveIntervals => .nonExhaustiveIntervals
  | overlappingIntervals => .overlappingIntervals
  | invalidThreshold .. => .invalidThreshold
  | unrecognizedSource .. => .unrecognizedSource
  | unsupportedRule .. => .unsupportedRule

/-- Two errors are of one kind. -/
def CompileError.SameKind (e e' : CompileError) : Prop :=
  e.kind = e'.kind

theorem CompileError.SameKind.refl (e : CompileError) : e.SameKind e :=
  rfl

theorem CompileError.SameKind.eq_overlapping {e : CompileError}
    (same : e.SameKind overlappingIntervals) : e = overlappingIntervals := by
  cases e with
  | overlappingIntervals => rfl
  | _ => cases same

/-- Two intervals have the same bounds, down to the sign of zero. -/
def Interval.SameBounds (i j : Interval) : Prop :=
  i.lower = j.lower ∧ i.upper = j.upper

theorem Interval.SameBounds.of_eq {i j : Interval} (same : i = j) : i.SameBounds j :=
  same ▸ ⟨rfl, rfl⟩

namespace Partition

/-- The intervals of two partitions are related in their order. -/
structure Related (R : Interval → Interval → Prop) (partition other : Partition) : Prop where
  cells : List.Forall₂ (fun c d => R c.interval d.interval) partition.cells other.cells
  top : R partition.top other.top

/-- What a finished walk is worth: the partition that it met, unless that is one interval alone or
something is left over. -/
def settle (partition : Partition) (left : List Interval) : Except CompileError Partition :=
  if partition.cells.isEmpty then .error (.invalidInterval partition.top.label .wholeLine)
  else if left.isEmpty then .ok partition
  else .error .overlappingIntervals

section Walk

variable {bound : Option Endpoint} {remaining others left rivals : List Interval}
  {interval i j : Interval}

theorem climb_of_none
    (none : (remaining.partition fun i => i.Opens bound) = ([], others)) :
    climb bound remaining = .error .nonExhaustiveIntervals := by
  rw [climb]
  split
  · rfl
  · rename_i found
    cases none.symm.trans found
  · rename_i found
    cases none.symm.trans found

theorem climb_of_rivals
    (several : (remaining.partition fun i => i.Opens bound) = (i :: j :: rivals, others)) :
    climb bound remaining = .error .overlappingIntervals := by
  rw [climb]
  split
  · rename_i found
    cases several.symm.trans found
  · rfl
  · rename_i found
    cases several.symm.trans found

/-- Unless there is one alone, intervals are worth what their walk is. -/
theorem ofIntervals_of_several {intervals : List Interval} (several : intervals.length ≠ 1) :
    ofIntervals intervals =
      climb none intervals >>= fun walk => settle walk.1 walk.2 := by
  unfold ofIntervals
  split
  · exact absurd rfl several
  · refine congrArg _ (funext fun walk => ?_)
    unfold settle
    by_cases cells : walk.1.cells.isEmpty = true <;> simp only [cells] <;> rfl

end Walk

section Counterparts

variable {R : Interval → Interval → Prop} {bound : Option Endpoint}
  {remaining others left rivals : List Interval} {interval i j : Interval}
  {partition other : Partition}

/-- What opens at a bound corresponds to what opens there in the other list, and the rest to the
rest. -/
theorem counterparts_partition (bounds : ∀ i j, R i j → i.SameBounds j)
    (h : Counterparts R remaining others) (bound : Option Endpoint) :
    Counterparts R (remaining.partition fun i => i.Opens bound).1
        (others.partition fun i => i.Opens bound).1 ∧
      Counterparts R (remaining.partition fun i => i.Opens bound).2
        (others.partition fun i => i.Opens bound).2 := by
  have opens_iff (i j : Interval) (related : R i j) : i.Opens bound ↔ j.Opens bound := by
    unfold Interval.Opens
    rw [(bounds i j related).1]
  simp only [List.partition_eq_filter_filter]
  exact ⟨h.filter fun i j related => by simpa using opens_iff i j related,
    h.filter fun i j related => by simpa using not_congr (opens_iff i j related)⟩

/-- A single interval that opens at a bound has a single counterpart there. -/
theorem exists_only_of_counterparts (bounds : ∀ i j, R i j → i.SameBounds j)
    (h : Counterparts R remaining others)
    (only : (remaining.partition fun i => i.Opens bound) = ([interval], left)) :
    ∃ j rest, (others.partition fun i => i.Opens bound) = ([j], rest) ∧ R interval j ∧
      Counterparts R left rest := by
  obtain ⟨opening, rest⟩ := counterparts_partition bounds h bound
  rw [only] at opening rest
  obtain ⟨j, alone, related⟩ := opening.exists_of_singleton
  exact ⟨j, _, Prod.ext alone rfl, related, rest⟩

/-- Rivals at a bound have rivals as their counterparts there. -/
theorem exists_rivals_of_counterparts (bounds : ∀ i j, R i j → i.SameBounds j)
    (h : Counterparts R remaining others)
    (several : (remaining.partition fun i => i.Opens bound) = (i :: j :: rivals, left)) :
    ∃ i' j' rivals' rest,
      (others.partition fun i => i.Opens bound) = (i' :: j' :: rivals', rest) := by
  obtain ⟨opening, _⟩ := counterparts_partition bounds h bound
  rw [several] at opening
  obtain ⟨i', j', rivals', found⟩ := opening.exists_of_cons_cons
  exact ⟨i', j', rivals', _, Prod.ext found rfl⟩

/-- **Walks over counterparts.** They fail alike, or meet related intervals in the same order and
leave counterparts over. -/
theorem climb_alike (bounds : ∀ i j, R i j → i.SameBounds j)
    (h : Counterparts R remaining others) :
    Outcome.Alike CompileError.SameKind
      (fun walk walk' => walk.1.Related R walk'.1 ∧ Counterparts R walk.2 walk'.2)
      (climb bound remaining) (climb bound others) := by
  fun_induction climb bound remaining generalizing others with
  | case1 bound remaining _ none =>
    obtain ⟨opening, _⟩ := counterparts_partition bounds h bound
    rw [none] at opening
    have nothing := List.length_eq_zero_iff.mp opening.length_eq.symm
    rw [climb_of_none (Prod.ext nothing rfl)]
    exact .error rfl
  | case2 bound remaining first second rivals _ several =>
    obtain ⟨_, _, _, _, several'⟩ := exists_rivals_of_counterparts bounds h several
    rw [climb_of_rivals several']
    exact .error rfl
  | case3 bound remaining interval left only unbounded =>
    obtain ⟨j, rest, only', related, later⟩ := exists_only_of_counterparts bounds h only
    have unbounded' : j.upper = none := (bounds _ _ related).2 ▸ unbounded
    rw [(climb_of_only only').1 unbounded']
    exact .ok ⟨⟨.nil, related⟩, later⟩
  | case4 bound remaining interval left only upper bounded _ ih =>
    obtain ⟨j, rest, only', related, later⟩ := exists_only_of_counterparts bounds h only
    have bounded' : j.upper = some upper := (bounds _ _ related).2 ▸ bounded
    rw [(climb_of_only only').2 upper bounded']
    refine (ih later).bind ?_
    rintro walk walk' ⟨same, leftOver⟩
    exact .ok ⟨⟨.cons related same.cells, same.top⟩, leftOver⟩

theorem settle_alike (same : partition.Related R other)
    (leftOver : Counterparts R remaining others) :
    Outcome.Alike CompileError.SameKind (Partition.Related R) (settle partition remaining)
      (settle other others) := by
  have cells : partition.cells = [] ↔ other.cells = [] := by
    rw [← List.length_eq_zero_iff, same.cells.length_eq, List.length_eq_zero_iff]
  have left : remaining = [] ↔ others = [] := by
    rw [← List.length_eq_zero_iff, leftOver.length_eq, List.length_eq_zero_iff]
  simp only [settle, List.isEmpty_iff, cells, left]
  split
  · exact .error rfl
  · split
    · exact .ok same
    · exact .error rfl

/-- Intervals and their counterparts form related partitions, or are refused alike. -/
theorem ofIntervals_alike (bounds : ∀ i j, R i j → i.SameBounds j)
    (h : Counterparts R remaining others) :
    Outcome.Alike CompileError.SameKind (Partition.Related R) (ofIntervals remaining)
      (ofIntervals others) := by
  by_cases several : remaining.length = 1
  · obtain ⟨i, rfl⟩ := List.length_eq_one_iff.mp several
    obtain ⟨j, rfl, _⟩ := h.exists_of_singleton
    exact .error rfl
  · rw [ofIntervals_of_several several, ofIntervals_of_several (h.length_eq ▸ several)]
    exact (climb_alike bounds h).bind fun walk walk' ⟨same, leftOver⟩ => settle_alike same leftOver

/-- A partition is related to no other one by equality. -/
theorem Related.eq (same : partition.Related Eq other) : partition = other := by
  obtain ⟨cells, top, _⟩ := partition
  obtain ⟨cells', top', _⟩ := other
  obtain rfl : top = top' := same.top
  have cell_eq (c d : Cell) (h : c.interval = d.interval) : c = d := by
    obtain ⟨interval, upper, bounded⟩ := c
    obtain ⟨_, upper', bounded'⟩ := d
    obtain rfl : interval = _ := h
    obtain rfl : upper = upper' := Option.some.inj (bounded.symm.trans bounded')
    rfl
  have cells_eq : List.Forall₂ Eq cells cells' := same.cells.imp cell_eq
  rw [List.forall₂_eq_eq_eq] at cells_eq
  cases cells_eq
  rfl

/-! ### Labels in another order -/

variable {labels reordered : List String} {intervals : List Interval}

/-- Labels in another order are read as the same intervals in another order. -/
theorem ReadAs.perm (read : ReadAs labels intervals) (perm : reordered.Perm labels) :
    ∃ intervals', ReadAs reordered intervals' ∧ intervals'.Perm intervals :=
  List.perm_comp_forall₂ perm read

/-- Labels of which each is read are read together. -/
theorem exists_readAs (readable : ∀ label ∈ labels, ∃ i, Interval.ofLabel label = .ok i) :
    ∃ intervals, ReadAs labels intervals := by
  obtain ⟨intervals, read⟩ := Outcome.exists_mapM_eq_ok readable
  exact ⟨intervals, Outcome.mapM_eq_ok_iff.mp read⟩

theorem ofLabels_of_readAs (read : ReadAs labels intervals) :
    ofLabels labels = ofIntervals intervals := by
  rw [ofLabels, Outcome.mapM_eq_ok_iff.mpr read, Outcome.ok_bind]

/-- **The order of labels does not matter.** Labels that are all read are accepted as the same
partition in any order, or are refused with an error of the same kind. -/
theorem ofLabels_alike_of_perm (read : ReadAs labels intervals) (perm : reordered.Perm labels) :
    Outcome.Alike CompileError.SameKind Eq (ofLabels reordered) (ofLabels labels) := by
  obtain ⟨intervals', read', perm'⟩ := read.perm perm
  rw [ofLabels_of_readAs read, ofLabels_of_readAs read']
  have counterparts := Counterparts.of_perm perm'
  have alike := ofIntervals_alike (fun _ _ => Interval.SameBounds.of_eq) counterparts
  exact alike.imp fun _ _ => Related.eq

theorem ofLabels_eq_ok_of_perm (read : ReadAs labels intervals) (perm : reordered.Perm labels)
    (accepted : ofLabels labels = .ok partition) : ofLabels reordered = .ok partition :=
  (ofLabels_alike_of_perm read perm).eq_ok_iff.mpr accepted

theorem ofLabels_eq_overlapping_of_perm (read : ReadAs labels intervals)
    (perm : reordered.Perm labels) (overlaps : ofLabels labels = .error .overlappingIntervals) :
    ofLabels reordered = .error .overlappingIntervals := by
  have alike := ofLabels_alike_of_perm read perm
  rw [overlaps] at alike
  generalize ofLabels reordered = outcome at alike ⊢
  cases alike with
  | error same => rw [same.eq_overlapping]

end Counterparts

end Partition

end DecisionCompiler
