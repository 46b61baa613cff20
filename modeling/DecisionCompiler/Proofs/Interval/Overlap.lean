import DecisionCompiler.Proofs.Interval.Counterparts

/-!
What is wrong with intervals that form no partition.

That intervals overlap is found by two signs, a bound at which more than one of them opens and an
interval that the walk leaves over. Both are right: an overlap is reported only if some number lies
in two of the intervals (`exists_twice_of_ofIntervals`), so that disjoint intervals can only be
refused for what they leave out. The converse fails, since a walk that breaks off looks no further;
of a partition with one interval more it never breaks off (`Climbs.insert`).

* `ofLabels_overlapping_sound` — an overlap that is reported is one;
* `ofLabels_of_one_changed` — a partition with one label less leaves numbers out, and one with one
  label more overlaps.
-/

namespace DecisionCompiler

/-- No number lies in both intervals. -/
def Interval.Disjoint (i j : Interval) : Prop :=
  ∀ x, i.Contains x → ¬j.Contains x

section Coverage

variable {x : ℚ} {intervals : List Interval}

/-- A number lies in one interval at most exactly when no two intervals contain it. -/
theorem coverage_le_one_iff :
    coverage x intervals ≤ 1 ↔ intervals.Pairwise fun i j => i.Contains x → ¬j.Contains x := by
  induction intervals with
  | nil => simp
  | cons i intervals ih =>
    rw [coverage_cons, List.pairwise_cons, ← ih]
    by_cases inside : i.Contains x
    · have none_iff : (∀ j ∈ intervals, i.Contains x → ¬j.Contains x) ↔
          coverage x intervals = 0 := by
        simp [coverage_eq_zero_iff, inside]
      rw [if_pos inside, none_iff]
      omega
    · simp [inside]

/-- Of disjoint intervals one at most contains a number. -/
theorem coverage_le_one_of_disjoint (disjoint : intervals.Pairwise Interval.Disjoint) (x : ℚ) :
    coverage x intervals ≤ 1 :=
  coverage_le_one_iff.mpr (disjoint.imp fun apart => apart x)

/-- A number that is covered twice lies in two intervals of the list. -/
theorem exists_two_of_twice (twice : 2 ≤ coverage x intervals) :
    ∃ first second : Fin intervals.length, first ≠ second ∧
      (intervals.get first).Contains x ∧ (intervals.get second).Contains x := by
  have shared : ¬intervals.Pairwise fun i j => i.Contains x → ¬j.Contains x := by
    rw [← coverage_le_one_iff]
    omega
  rw [List.pairwise_iff_get] at shared
  push Not at shared
  obtain ⟨first, second, before, inside⟩ := shared
  exact ⟨first, second, before.ne, inside⟩

end Coverage

namespace Partition

section Walk

variable {bound : Option Endpoint} {remaining left rivals intervals : List Interval}
  {partition : Partition} {i j : Interval} {e : CompileError}

/-- Two intervals that open at one bound share a number. -/
theorem exists_twice_of_rivals (inhabited : ∀ i ∈ remaining, i.Inhabited)
    (several : (remaining.partition fun i => i.Opens bound) = (i :: j :: rivals, left)) :
    ∃ x, 2 ≤ coverage x remaining := by
  rw [List.partition_eq_filter_filter, Prod.mk.injEq] at several
  have opening (k : Interval) (mem : k ∈ i :: j :: rivals) : k ∈ remaining ∧ k.Opens bound := by
    rw [← several.1, List.mem_filter, decide_eq_true_eq] at mem
    exact mem
  obtain ⟨memI, opensI⟩ := opening i (by simp)
  obtain ⟨memJ, opensJ⟩ := opening j (by simp)
  obtain ⟨x, inI, inJ⟩ := exists_shared opensI opensJ (inhabited i memI) (inhabited j memJ)
  have kept : coverage x (i :: j :: rivals) ≤ coverage x remaining :=
    several.1 ▸ (List.filter_sublist).countP_le
  rw [coverage_cons, coverage_cons, if_pos inI, if_pos inJ] at kept
  exact ⟨x, by omega⟩

/-- A walk breaks off where nothing opens, or where some number lies in two intervals. -/
theorem exists_twice_of_climb (inhabited : ∀ i ∈ remaining, i.Inhabited)
    (fails : climb bound remaining = .error e) :
    e = .nonExhaustiveIntervals ∨ ∃ x, 2 ≤ coverage x remaining := by
  fun_induction climb bound remaining generalizing e with
  | case1 => exact .inl (Except.error.inj fails).symm
  | case2 bound remaining i j rivals others several =>
    exact .inr (exists_twice_of_rivals inhabited several)
  | case3 => cases fails
  | case4 bound remaining interval others only upper bounded _ ih =>
    obtain ⟨_, perm⟩ := perm_of_only only
    have later : ∀ i ∈ others, i.Inhabited := fun i mem =>
      inhabited i (perm.subset (List.mem_cons_of_mem _ mem))
    rcases Outcome.bind_eq_error_iff.mp fails with fails | ⟨_, _, absurd⟩
    · refine (ih later fails).imp_right ?_
      rintro ⟨x, twice⟩
      refine ⟨x, ?_⟩
      rw [← coverage_perm perm, coverage_cons]
      omega
    · cases absurd

/-- What a walk from below all numbers leaves over overlaps what it meets. -/
theorem Climbs.exists_twice (walk : Climbs none intervals partition left)
    (inhabited : ∀ i ∈ intervals, i.Inhabited) (leftOver : left ≠ []) :
    ∃ x, 2 ≤ coverage x intervals := by
  obtain ⟨i, mem⟩ := List.exists_mem_of_ne_nil left leftOver
  obtain ⟨x, inside⟩ := inhabited i (walk.perm.subset (List.mem_append_right _ mem))
  refine ⟨x, ?_⟩
  have met := covers_above_none_iff.mp (walk.covers inhabited) x
  have again := coverage_pos_of_mem mem inside
  rw [← coverage_perm walk.perm, coverage_append]
  omega

/-- Unless there is one alone, intervals are refused for what they leave out, or some number lies
in two of them. -/
theorem exists_twice_of_ofIntervals (inhabited : ∀ i ∈ intervals, i.Inhabited)
    (several : intervals.length ≠ 1) (fails : ofIntervals intervals = .error e) :
    e = .nonExhaustiveIntervals ∨ ∃ x, 2 ≤ coverage x intervals := by
  rw [ofIntervals_of_several several] at fails
  rcases Outcome.bind_eq_error_iff.mp fails with fails | ⟨⟨partition, left⟩, walk, fails⟩
  · exact exists_twice_of_climb inhabited fails
  · have walk := climb_eq_ok_iff.mp walk
    refine .inr (walk.exists_twice inhabited fun nothing => ?_)
    -- With nothing left over, only an interval that is alone is refused.
    subst nothing
    have size := walk.perm.length_eq
    rw [List.append_nil, Partition.intervals, List.length_append, List.length_map,
      List.length_singleton] at size
    have cells : partition.cells ≠ [] := by
      intro none
      rw [none] at size
      exact several size.symm
    simp [settle, cells] at fails

/-- One interval more opens at the bound as well, or is left for later. -/
theorem partition_cons_of_only {interval : Interval} (i : Interval)
    (only : (remaining.partition fun i => i.Opens bound) = ([interval], left)) :
    ((i :: remaining).partition fun i => i.Opens bound) = ([i, interval], left) ∨
      ((i :: remaining).partition fun i => i.Opens bound) = ([interval], i :: left) := by
  rw [List.partition_eq_filter_filter, Prod.mk.injEq] at only
  simp only [List.partition_eq_filter_filter, Prod.mk.injEq]
  by_cases opens : i.Opens bound
  · exact .inl ⟨by simp [opens, only.1], by simpa [opens] using only.2⟩
  · exact .inr ⟨by simpa [opens] using only.1, by simpa [opens] using only.2⟩

/-- A walk with one interval more meets two rivals, or leaves the interval over. -/
theorem Climbs.insert (walk : Climbs bound remaining partition left) (i : Interval) :
    climb bound (i :: remaining) = .error .overlappingIntervals ∨
      climb bound (i :: remaining) = .ok (partition, i :: left) := by
  induction walk with
  | top only unbounded =>
    rcases partition_cons_of_only i only with several | only'
    · exact .inl (climb_of_rivals several)
    · exact .inr ((climb_of_only only').1 unbounded)
  | step only bounded _ ih =>
    rcases partition_cons_of_only i only with several | only'
    · exact .inl (climb_of_rivals several)
    · rw [(climb_of_only only').2 _ bounded]
      rcases ih with ih | ih <;> rw [ih]
      · exact .inl rfl
      · exact .inr rfl

end Walk

section Labels

variable {labels : List String} {intervals : List Interval} {partition : Partition}

/-- A partition without one of its labels leaves numbers out. -/
theorem ofLabels_of_removed {label : String} (accepted : ofLabels (label :: labels) = .ok partition)
    (several : 2 ≤ labels.length) : ofLabels labels = .error .nonExhaustiveIntervals := by
  obtain ⟨intervals, read, walk, perm⟩ := walk_of_ofLabels accepted
  have tiles := tiles_of_ofLabels accepted
  obtain ⟨i, rest, first, read', rfl⟩ := List.forall₂_cons_left_iff.mp read
  have read' : ReadAs labels rest := read'
  have single (x : ℚ) : coverage x rest + (if i.Contains x then 1 else 0) = 1 := by
    rw [← coverage_cons, ← coverage_perm perm]
    exact tiles x
  have size := List.Forall₂.length_eq read'
  rw [ofLabels_of_readAs read']
  cases formed : ofIntervals rest with
  | ok partition' =>
    -- The numbers of the removed interval lie in no other one.
    obtain ⟨x, inside⟩ := read.inhabited i List.mem_cons_self
    have still := ((exists_ofIntervals_iff read'.inhabited).mp ⟨_, formed⟩).2 x
    have single := single x
    rw [if_pos inside] at single
    omega
  | error e =>
    rcases exists_twice_of_ofIntervals read'.inhabited (by omega) formed with rfl | ⟨x, twice⟩
    · rfl
    · have single := single x
      omega

/-- A partition with one label more overlaps. -/
theorem ofLabels_of_added {label : String} {i : Interval}
    (accepted : ofLabels labels = .ok partition) (readable : Interval.ofLabel label = .ok i) :
    ofLabels (label :: labels) = .error .overlappingIntervals := by
  obtain ⟨intervals, read, formed⟩ := ofLabels_eq_ok_iff.mp accepted
  obtain ⟨_, walk, cells⟩ := ofIntervals_eq_ok_iff.mp formed
  obtain ⟨several, _⟩ := (exists_ofIntervals_iff read.inhabited).mp ⟨_, formed⟩
  have notOne : (i :: intervals).length ≠ 1 := by
    rw [List.length_cons]
    omega
  have read' : ReadAs (label :: labels) (i :: intervals) := .cons readable read
  rw [ofLabels_of_readAs read', ofIntervals_of_several notOne]
  rcases walk.insert i with rivals | leftOver
  · rw [rivals, Outcome.error_bind]
  · rw [leftOver, Outcome.ok_bind]
    simp [settle, cells]

/-- **A partition does not bear a change of one label.** Without any one of its labels, two or more
being left, it leaves numbers out; with any label more, wherever it is put, it overlaps. -/
theorem ofLabels_of_one_changed (accepted : ofLabels labels = .ok partition) :
    (∀ before label after, labels = before ++ label :: after → 2 ≤ (before ++ after).length →
        ofLabels (before ++ after) = .error .nonExhaustiveIntervals) ∧
      ∀ before label after, labels = before ++ after →
        (∃ i, Interval.ofLabel label = .ok i) →
          ofLabels (before ++ label :: after) = .error .overlappingIntervals := by
  obtain ⟨intervals, read, _⟩ := ofLabels_eq_ok_iff.mp accepted
  constructor
  · rintro before label after rfl several
    have first : ofLabels (label :: (before ++ after)) = .ok partition :=
      ofLabels_eq_ok_of_perm read List.perm_middle.symm accepted
    exact ofLabels_of_removed first several
  · rintro before label after rfl ⟨i, readable⟩
    have first := ofLabels_of_added accepted readable
    exact ofLabels_eq_overlapping_of_perm (.cons readable read) List.perm_middle first

/-- Three labels, one of them taken away or a single point put between them. -/
theorem ofLabels_of_one_changed_by_point :
    (∃ partition, ofLabels ["[10...)", "(...0]", "(0...1e1)"] = .ok partition) ∧
      ofLabels ["[10...)", "(0...1e1)"] = .error .nonExhaustiveIntervals ∧
        ofLabels ["[10...)", "(...0]", "[5...5]", "(0...1e1)"] = .error .overlappingIntervals := by
  have isAccepted : (ofLabels ["[10...)", "(...0]", "(0...1e1)"]).toOption.isSome = true := by
    decide +kernel
  have isRead : (Interval.ofLabel "[5...5]").toOption.isSome = true := by
    decide +kernel
  obtain ⟨partition, accepted⟩ := Outcome.exists_eq_ok_of_isSome isAccepted
  obtain ⟨removed, added⟩ := ofLabels_of_one_changed accepted
  exact ⟨⟨partition, accepted⟩, removed ["[10...)"] _ ["(0...1e1)"] rfl (by decide),
    added ["[10...)", "(...0]"] _ ["(0...1e1)"] rfl (Outcome.exists_eq_ok_of_isSome isRead)⟩

/-- **An overlap that is reported is one.** If labels that are all read are refused because they
overlap, some number lies in two of the intervals. Disjoint intervals, unless there is one alone,
are therefore accepted or refused for what they leave out. -/
theorem ofLabels_overlapping_sound (read : ReadAs labels intervals) :
    (ofLabels labels = .error .overlappingIntervals →
        ∃ first second : Fin intervals.length, first ≠ second ∧
          ∃ x, (intervals.get first).Contains x ∧ (intervals.get second).Contains x) ∧
      (labels.length ≠ 1 → intervals.Pairwise Interval.Disjoint →
        (∃ partition, ofLabels labels = .ok partition) ∨
          ofLabels labels = .error .nonExhaustiveIntervals) := by
  have size := List.Forall₂.length_eq read
  rw [ofLabels_of_readAs read]
  constructor
  · intro overlaps
    have several : intervals.length ≠ 1 := by
      intro one
      obtain ⟨i, rfl⟩ := List.length_eq_one_iff.mp one
      exact nomatch overlaps
    obtain absurd | ⟨x, twice⟩ := exists_twice_of_ofIntervals read.inhabited several overlaps
    · exact nomatch absurd
    · obtain ⟨first, second, apart, inside⟩ := exists_two_of_twice twice
      exact ⟨first, second, apart, x, inside⟩
  · intro several disjoint
    cases formed : ofIntervals intervals with
    | ok partition => exact .inl ⟨partition, rfl⟩
    | error e =>
      obtain rfl | ⟨x, twice⟩ := exists_twice_of_ofIntervals read.inhabited (size ▸ several) formed
      · exact .inr rfl
      · have single := coverage_le_one_of_disjoint disjoint x
        omega

/-- A single point is left over that lies in another interval as well; two intervals that leave the
point out are disjoint, and refused for that. -/
theorem ofLabels_overlapping_sound_at_zero :
    let zero (closed : Bool) : Option Endpoint := some ⟨.zero false, closed⟩
    let intervals : List Interval := [⟨"(...0]", none, zero true⟩, ⟨"(0...)", zero false, none⟩,
      ⟨"[0.0...0]", zero true, zero true⟩]
    (ofLabels ["(...0]", "(0...)", "[0.0...0]"] = .error .overlappingIntervals ∧
        ReadAs ["(...0]", "(0...)", "[0.0...0]"] intervals ∧
        ∃ first second : Fin intervals.length, first ≠ second ∧
          ∃ x, (intervals.get first).Contains x ∧ (intervals.get second).Contains x) ∧
      ofLabels ["(...0)", "(0...)"] = .error .nonExhaustiveIntervals := by
  intro zero intervals
  constructor
  · have read : ReadAs ["(...0]", "(0...)", "[0.0...0]"] intervals :=
      .cons (by decide +kernel) (.cons (by decide +kernel) (.cons (by decide +kernel) .nil))
    have overlaps : ofLabels ["(...0]", "(0...)", "[0.0...0]"] = .error .overlappingIntervals := by
      have refused : ((ofLabels ["(...0]", "(0...)", "[0.0...0]"]).map fun _ => ()) =
          .error .overlappingIntervals := by decide +kernel
      cases formed : ofLabels ["(...0]", "(0...)", "[0.0...0]"] with
      | ok partition => rw [formed] at refused; cases refused
      | error e => rw [formed] at refused; cases refused; rfl
    exact ⟨overlaps, read, (ofLabels_overlapping_sound read).1 overlaps⟩
  · have read : ReadAs ["(...0)", "(0...)"]
        [⟨"(...0)", none, zero false⟩, ⟨"(0...)", zero false, none⟩] :=
      .cons (by decide +kernel) (.cons (by decide +kernel) .nil)
    have disjoint : [⟨"(...0)", none, zero false⟩, ⟨"(0...)", zero false, none⟩].Pairwise
        Interval.Disjoint := by
      refine List.pairwise_pair.mpr fun x below above => ?_
      have less := below_some_iff.mp below.2
      have greater := above_some_iff.mp above.1
      exact lt_asymm (by simpa using less) (by simpa using greater)
    obtain ⟨partition, accepted⟩ | refused :=
      (ofLabels_overlapping_sound read).2 (by decide) disjoint
    · have notAccepted : (ofLabels ["(...0)", "(0...)"]).toOption.isSome = false := by
        decide +kernel
      rw [accepted] at notAccepted
      cases notAccepted
    · exact refused

end Labels

end Partition

end DecisionCompiler
