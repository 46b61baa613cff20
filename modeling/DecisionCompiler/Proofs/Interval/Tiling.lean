import DecisionCompiler.Interval.Partition
import DecisionCompiler.Proofs.Interval.Membership
import DecisionCompiler.Proofs.Outcome

/-!
Intervals that tile the line.

`Tiles` says that every number lies in exactly one interval of a list, counted by position. The walk
from one interval to the next is kept apart from what it achieves: `Climbs` is the walk as a
relation, `Covers` is what is true of the intervals that it has not met yet, and `covers_cons_iff`
is the one step that both directions rest on. Intervals are not empty throughout, since a label that
describes an empty interval is refused when it is read.

* `Climbs.covers` — the intervals that a walk meets cover what lies above the bound it starts from;
* `exists_climbs` — intervals that cover what lies above a bound are met by a walk, all of them;
* `ofLabels_ok_iff_tiles` — labels are accepted exactly when they are at least two, each of them is
  read, and the intervals tile the line; accepted ones are put into ascending order.
-/

namespace DecisionCompiler

/-- How many of the intervals contain a number, counted by position. -/
def coverage (x : ℚ) (intervals : List Interval) : Nat :=
  intervals.countP fun i => i.Contains x

/-- Every number lies in exactly one of the intervals. -/
def Tiles (intervals : List Interval) : Prop :=
  ∀ x, coverage x intervals = 1

/-- Every number of a region lies in exactly one of the intervals, every other one in none. -/
def Covers (region : ℚ → Prop) (intervals : List Interval) : Prop :=
  ∀ x, (region x → coverage x intervals = 1) ∧ (¬region x → coverage x intervals = 0)

/-- All numbers of an earlier interval are less than all numbers of a later one. -/
def Ascends (intervals : List Interval) : Prop :=
  intervals.Pairwise fun i j => ∀ x y, i.Contains x → j.Contains y → x < y

section Coverage

variable {x : ℚ} {i j : Interval} {intervals others : List Interval} {region : ℚ → Prop}
  {bound : Option Endpoint}

@[simp] theorem coverage_nil : coverage x [] = 0 :=
  rfl

theorem coverage_append :
    coverage x (intervals ++ others) = coverage x intervals + coverage x others :=
  List.countP_append

theorem coverage_cons :
    coverage x (i :: intervals) = coverage x intervals + if i.Contains x then 1 else 0 := by
  simp [coverage, List.countP_cons]

theorem coverage_perm (perm : intervals.Perm others) : coverage x intervals = coverage x others :=
  perm.countP_eq _

theorem coverage_eq_zero_iff : coverage x intervals = 0 ↔ ∀ i ∈ intervals, ¬i.Contains x := by
  simp [coverage, List.countP_eq_zero]

theorem coverage_pos_of_mem (mem : i ∈ intervals) (inside : i.Contains x) :
    0 < coverage x intervals :=
  List.countP_pos_iff.mpr ⟨i, mem, by simpa using inside⟩

/-- To cover the whole line is to tile it. -/
theorem covers_above_none_iff : Covers (Above none) intervals ↔ Tiles intervals := by
  simp [Covers, Tiles]

theorem Covers.perm (h : Covers region intervals) (perm : intervals.Perm others) :
    Covers region others := by
  intro x
  rw [← coverage_perm perm]
  exact h x

theorem Covers.mem_region (h : Covers region intervals) (mem : i ∈ intervals)
    (inside : i.Contains x) : region x := by
  by_contra out
  have none := (h x).2 out
  exact absurd (coverage_pos_of_mem mem inside) (by omega)

/-- What lies past the end of an interval that opens at a bound lies above the bound. -/
theorem above_of_not_below (opens : i.Opens bound) (inhabited : i.Inhabited)
    (past : ¬Below i.upper x) : Above bound x := by
  obtain ⟨y, above, below⟩ := inhabited
  have le : y ≤ x := by
    by_contra lt
    exact past (below.anti (not_le.mp lt).le)
  exact ((Interval.opens_iff.mp opens y).mpr above).mono le

/-- **The step.** An interval that opens at a bound, with others, covers what lies above the bound
exactly when the others cover what lies past its end. -/
theorem covers_cons_iff (opens : i.Opens bound) (inhabited : i.Inhabited) :
    Covers (Above bound) (i :: others) ↔ Covers (fun x => ¬Below i.upper x) others := by
  have contains_iff (x : ℚ) : i.Contains x ↔ Above bound x ∧ Below i.upper x := by
    rw [Interval.Contains, Interval.opens_iff.mp opens x]
  have above (x : ℚ) (past : ¬Below i.upper x) : Above bound x :=
    above_of_not_below opens inhabited past
  refine forall_congr' fun x => ?_
  rw [coverage_cons, if_congr (contains_iff x) rfl rfl]
  by_cases below : Below i.upper x <;> by_cases up : Above bound x <;>
    simp_all

/-- The step at an interval that ends: the others cover what lies above the opening that the end
asks for. -/
theorem covers_step_iff {upper : Endpoint} (opens : i.Opens bound) (inhabited : i.Inhabited)
    (bounded : i.upper = some upper) :
    Covers (Above bound) (i :: others) ↔ Covers (Above (some upper.adjacent)) others := by
  rw [covers_cons_iff opens inhabited, bounded]
  refine forall_congr' fun x => ?_
  rw [above_adjacent_iff]

/-- The step at an interval without end: the others contain nothing. -/
theorem covers_top_iff (opens : i.Opens bound) (inhabited : i.Inhabited)
    (unbounded : i.upper = none) :
    Covers (Above bound) (i :: others) ↔ ∀ x, coverage x others = 0 := by
  rw [covers_cons_iff opens inhabited, unbounded]
  simp [Covers]

/-- A bound leaves a number above it that no interval starts under, unless that interval starts
with everything above the bound. -/
theorem exists_lowest (bound : Option Endpoint) (intervals : List Interval) :
    ∃ x, Above bound x ∧
      ∀ i ∈ intervals, Above i.lower x → ∀ y, Above bound y → Above i.lower y := by
  induction intervals with
  | nil =>
    obtain ⟨x, above⟩ := exists_above bound
    exact ⟨x, above, by simp⟩
  | cons first rest ih =>
    obtain ⟨x, above, low⟩ := ih
    by_cases starts : ∀ y, Above bound y → Above first.lower y
    · exact ⟨x, above, List.forall_mem_cons.mpr ⟨fun _ => starts, low⟩⟩
    · -- A number that the first interval leaves out is taken if it is lower.
      obtain ⟨z, aboveZ, under⟩ : ∃ z, Above bound z ∧ ¬Above first.lower z := by
        simpa using starts
      refine ⟨min x z, ?_, List.forall_mem_cons.mpr ⟨?_, ?_⟩⟩
      · rcases min_choice x z with h | h <;> rw [h] <;> assumption
      · exact fun h => absurd (h.mono (min_le_right x z)) under
      · exact fun i mem h => low i mem (h.mono (min_le_left x z))

/-- Of intervals that cover what lies above a bound, one opens at the bound. -/
theorem Covers.exists_opens (h : Covers (Above bound) intervals) :
    ∃ i ∈ intervals, i.Opens bound := by
  obtain ⟨x, above, low⟩ := exists_lowest bound intervals
  obtain ⟨i, mem, inside⟩ : ∃ i ∈ intervals, i.Contains x := by
    have one := (h x).1 above
    by_contra none
    rw [coverage_eq_zero_iff.mpr (by simpa using none)] at one
    omega
  refine ⟨i, mem, Interval.opens_iff.mpr fun y => ⟨low i mem inside.1 y, fun start => ?_⟩⟩
  -- A number of the interval that is not above the bound would be below `x`, hence inside.
  by_contra out
  have le : y ≤ x := by
    by_contra lt
    exact out (above.mono (not_le.mp lt).le)
  exact out (h.mem_region mem ⟨start, inside.2.anti le⟩)

/-- Two intervals that open at one bound share a number. -/
theorem exists_shared (opensI : i.Opens bound) (opensJ : j.Opens bound) (hi : i.Inhabited)
    (hj : j.Inhabited) : ∃ x, i.Contains x ∧ j.Contains x := by
  have same (x : ℚ) : Above i.lower x ↔ Above j.lower x := by
    rw [← Interval.opens_iff.mp opensI x, Interval.opens_iff.mp opensJ x]
  obtain ⟨x, aboveX, belowX⟩ := hi
  obtain ⟨y, aboveY, belowY⟩ := hj
  rcases le_total x y with le | le
  · exact ⟨x, ⟨aboveX, belowX⟩, (same x).mp aboveX, belowY.anti le⟩
  · exact ⟨y, ⟨(same y).mpr aboveY, belowX.anti le⟩, aboveY, belowY⟩

end Coverage

/-! ### The walk -/

namespace Partition

/-- A walk upwards from a bound: at each bound exactly one of the remaining intervals opens, and the
walk goes on at its end until an interval has none. -/
inductive Climbs : Option Endpoint → List Interval → Partition → List Interval → Prop where
  | top {bound : Option Endpoint} {remaining others : List Interval} {interval : Interval}
      (only : (remaining.partition fun i => i.Opens bound) = ([interval], others))
      (unbounded : interval.upper = none) :
      Climbs bound remaining ⟨[], interval, unbounded⟩ others
  | step {bound : Option Endpoint} {remaining others left : List Interval} {interval : Interval}
      {upper : Endpoint} {partition : Partition}
      (only : (remaining.partition fun i => i.Opens bound) = ([interval], others))
      (bounded : interval.upper = some upper)
      (rest : Climbs (some upper.adjacent) others partition left) :
      Climbs bound remaining
        { partition with cells := ⟨interval, upper, bounded⟩ :: partition.cells } left

section Walk

variable {bound : Option Endpoint} {remaining others left : List Interval} {interval : Interval}
  {partition : Partition}

/-- What a walk sets apart at a bound opens there, and the others are what remains. -/
theorem perm_of_only (only : (remaining.partition fun i => i.Opens bound) = ([interval], others)) :
    interval.Opens bound ∧ (interval :: others).Perm remaining := by
  rw [List.partition_eq_filter_filter, Prod.mk.injEq] at only
  constructor
  · have mem : interval ∈ remaining.filter fun i => i.Opens bound := by simp [only.1]
    simpa using (List.mem_filter.mp mem).2
  · rw [← only.2, ← List.singleton_append, ← only.1]
    exact List.filter_append_perm _ remaining

/-- A walk goes on with the only interval that opens at the bound. -/
theorem climb_of_only (only : (remaining.partition fun i => i.Opens bound) = ([interval], others)) :
    (∀ unbounded : interval.upper = none,
        climb bound remaining = .ok (⟨[], interval, unbounded⟩, others)) ∧
      ∀ (upper : Endpoint) (bounded : interval.upper = some upper),
        climb bound remaining = do
          let (partition, rest) ← climb (some upper.adjacent) others
          return ({ partition with cells := ⟨interval, upper, bounded⟩ :: partition.cells },
            rest) := by
  rw [climb]
  split
  · rename_i found
    cases only.symm.trans found
  · rename_i found
    cases only.symm.trans found
  · rename_i found
    cases only.symm.trans found
    constructor
    · intro unbounded
      split
      · rfl
      · rename_i upper bounded
        cases unbounded.symm.trans bounded
    · intro upper bounded
      split
      · rename_i unbounded
        cases bounded.symm.trans unbounded
      · rename_i other found
        cases bounded.symm.trans found
        rfl

theorem climb_eq_ok_iff :
    climb bound remaining = .ok (partition, left) ↔ Climbs bound remaining partition left := by
  constructor
  · intro h
    fun_induction climb bound remaining generalizing partition left with
    | case1 => exact nomatch h
    | case2 => exact nomatch h
    | case3 bound remaining interval others only unbounded =>
      cases h
      exact .top only unbounded
    | case4 bound remaining interval others only upper bounded _ ih =>
      obtain ⟨⟨partition', left'⟩, h', same⟩ := Outcome.bind_eq_ok_iff.mp h
      cases same
      exact .step only bounded (ih h')
  · intro h
    induction h with
    | top only unbounded => exact (climb_of_only only).1 unbounded
    | step only bounded _ ih =>
      rw [(climb_of_only only).2 _ bounded, ih]
      rfl

/-- A walk loses none of the intervals. -/
theorem Climbs.perm (h : Climbs bound remaining partition left) :
    (partition.intervals ++ left).Perm remaining := by
  induction h with
  | top only _ => exact (perm_of_only only).2
  | step only _ _ ih => exact (ih.cons _).trans (perm_of_only only).2

/-- The intervals that a walk meets cover what lies above the bound that it starts from. -/
theorem Climbs.covers (h : Climbs bound remaining partition left)
    (inhabited : ∀ i ∈ remaining, i.Inhabited) :
    Covers (Above bound) partition.intervals := by
  induction h with
  | top only unbounded =>
    obtain ⟨opens, perm⟩ := perm_of_only only
    have here := inhabited _ (perm.subset List.mem_cons_self)
    exact (covers_top_iff opens here unbounded).mpr fun x => rfl
  | step only bounded _ ih =>
    obtain ⟨opens, perm⟩ := perm_of_only only
    have here := inhabited _ (perm.subset List.mem_cons_self)
    have later := ih fun i mem => inhabited i (perm.subset (List.mem_cons_of_mem _ mem))
    exact (covers_step_iff opens here bounded).mpr later

/-- The intervals that a walk meets ascend. -/
theorem Climbs.ascends (h : Climbs bound remaining partition left)
    (inhabited : ∀ i ∈ remaining, i.Inhabited) : Ascends partition.intervals := by
  induction h with
  | top => exact List.pairwise_singleton _ _
  | @step _ _ others _ _ _ _ only bounded rest ih =>
    obtain ⟨_, perm⟩ := perm_of_only only
    have later : ∀ i ∈ others, i.Inhabited := fun i mem =>
      inhabited i (perm.subset (List.mem_cons_of_mem _ mem))
    refine List.pairwise_cons.mpr ⟨fun j mem x y hx hy => ?_, ih later⟩
    -- The walk goes on past the end of the first interval.
    have past := (rest.covers later).mem_region mem hy
    rw [above_adjacent_iff, ← bounded] at past
    by_contra le
    exact past (hx.2.anti (not_lt.mp le))

/-- Of intervals that cover what lies above a bound, exactly one opens at the bound. -/
theorem exists_only (inhabited : ∀ i ∈ remaining, i.Inhabited)
    (covers : Covers (Above bound) remaining) :
    ∃ interval others,
      (remaining.partition fun i => i.Opens bound) = ([interval], others) := by
  rw [List.partition_eq_filter_filter]
  generalize found : (remaining.filter fun i => i.Opens bound) = opening
  have mem_opening (i : Interval) : i ∈ opening ↔ i ∈ remaining ∧ i.Opens bound := by
    rw [← found, List.mem_filter, decide_eq_true_eq]
  match opening with
  | [] =>
    obtain ⟨i, mem, opens⟩ := covers.exists_opens
    exact nomatch (mem_opening i).mpr ⟨mem, opens⟩
  | [interval] => exact ⟨interval, _, rfl⟩
  | i :: j :: rest =>
    -- Two of them would share a number, which then lies in two intervals.
    obtain ⟨memI, opensI⟩ := (mem_opening i).mp (by simp)
    obtain ⟨memJ, opensJ⟩ := (mem_opening j).mp (by simp)
    obtain ⟨x, hi, hj⟩ := exists_shared opensI opensJ (inhabited i memI) (inhabited j memJ)
    have one := (covers x).1 (covers.mem_region memI hi)
    have sub : (i :: j :: rest).Sublist remaining := found ▸ List.filter_sublist
    have two : coverage x (i :: j :: rest) ≤ coverage x remaining := sub.countP_le
    rw [coverage_cons, coverage_cons, if_pos hi, if_pos hj] at two
    omega

/-- Intervals that cover what lies above a bound are all met by a walk from the bound. -/
theorem exists_climbs (inhabited : ∀ i ∈ remaining, i.Inhabited)
    (covers : Covers (Above bound) remaining) :
    ∃ partition, Climbs bound remaining partition [] := by
  induction size : remaining.length using Nat.strongRecOn generalizing bound remaining with
  | ind n ih =>
    obtain ⟨interval, others, only⟩ := exists_only inhabited covers
    obtain ⟨opens, perm⟩ := perm_of_only only
    have here := inhabited interval (perm.subset List.mem_cons_self)
    have later : ∀ i ∈ others, i.Inhabited := fun i mem =>
      inhabited i (perm.subset (List.mem_cons_of_mem _ mem))
    have covers := covers.perm perm.symm
    cases stop : interval.upper with
    | none =>
      -- Whatever is left over would have to contain a number.
      have nothing := (covers_top_iff opens here stop).mp covers
      obtain rfl : others = [] := by
        refine List.eq_nil_iff_forall_not_mem.mpr fun i mem => ?_
        obtain ⟨x, inside⟩ := later i mem
        exact coverage_eq_zero_iff.mp (nothing x) i mem inside
      exact ⟨_, .top only stop⟩
    | some upper =>
      have covers := (covers_step_iff opens here stop).mp covers
      obtain ⟨partition, rest⟩ := ih _ (size ▸ length_lt_of_partition only) later covers rfl
      exact ⟨_, .step only stop rest⟩

end Walk

/-! ### Intervals and labels -/

/-- Every label is read, as the interval at its place. -/
def ReadAs (labels : List String) (intervals : List Interval) : Prop :=
  List.Forall₂ (fun label i => Interval.ofLabel label = .ok i) labels intervals

section Labels

variable {labels : List String} {intervals : List Interval} {partition : Partition}

/-- A label is read as its bounds, unless no number lies between them. -/
theorem ofLabel_eq_ok_iff {label : String} {i : Interval} :
    Interval.ofLabel label = .ok i ↔
      Interval.readBounds label.toList = .ok (i.lower, i.upper) ∧ i.label = label ∧
        i.Inhabited := by
  have inhabited_iff : i.Inhabited ↔ ¬i.IsEmpty := by rw [Interval.isEmpty_iff, not_not]
  rw [inhabited_iff, Interval.ofLabel]
  obtain ⟨iLabel, iLower, iUpper⟩ := i
  split
  · rename_i unread
    simp [unread]
  · rename_i lower upper read
    rw [read]
    by_cases empty : (⟨label, lower, upper⟩ : Interval).IsEmpty
    · simp only [if_pos empty]
      constructor
      · exact nofun
      · rintro ⟨same, rfl, inhabited⟩
        cases same
        exact absurd empty inhabited
    · simp only [if_neg empty]
      constructor
      · rintro ⟨⟩
        exact ⟨rfl, rfl, empty⟩
      · rintro ⟨same, rfl, _⟩
        cases same
        rfl

theorem ReadAs.inhabited (read : ReadAs labels intervals) : ∀ i ∈ intervals, i.Inhabited := by
  induction read with
  | nil => simp
  | cons first _ ih => exact List.forall_mem_cons.mpr ⟨(ofLabel_eq_ok_iff.mp first).2.2, ih⟩

theorem ReadAs.labels_eq (read : ReadAs labels intervals) :
    intervals.map Interval.label = labels := by
  induction read with
  | nil => rfl
  | cons first _ ih => rw [List.map_cons, ih, (ofLabel_eq_ok_iff.mp first).2.1]

theorem ofLabels_eq_ok_iff :
    ofLabels labels = .ok partition ↔
      ∃ intervals, ReadAs labels intervals ∧ ofIntervals intervals = .ok partition := by
  rw [ofLabels, Outcome.bind_eq_ok_iff]
  simp only [Outcome.mapM_eq_ok_iff, ReadAs]

/-- Intervals are accepted when there is not one alone and a walk meets them all, more than one. -/
theorem ofIntervals_eq_ok_iff :
    ofIntervals intervals = .ok partition ↔
      intervals.length ≠ 1 ∧ Climbs none intervals partition [] ∧ partition.cells ≠ [] := by
  unfold ofIntervals
  split
  · simp
  · rename_i several
    have notOne : intervals.length ≠ 1 := by
      intro one
      obtain ⟨i, rfl⟩ := List.length_eq_one_iff.mp one
      exact several i rfl
    simp only [Outcome.bind_eq_ok_iff, Prod.exists, climb_eq_ok_iff]
    constructor
    · rintro ⟨p, left, walk, h⟩
      split at h <;> rename_i cells
      · exact nomatch h
      · split at h <;> rename_i rest
        · cases h
          rw [List.isEmpty_iff] at cells rest
          exact ⟨notOne, rest ▸ walk, cells⟩
        · exact nomatch h
    · rintro ⟨_, walk, cells⟩
      refine ⟨partition, [], walk, ?_⟩
      simp [cells]

/-- An accepted partition comes of a walk that meets the intervals of all labels. -/
theorem walk_of_ofLabels (h : ofLabels labels = .ok partition) :
    ∃ intervals, ReadAs labels intervals ∧ Climbs none intervals partition [] ∧
      partition.intervals.Perm intervals := by
  obtain ⟨intervals, read, h⟩ := ofLabels_eq_ok_iff.mp h
  obtain ⟨_, walk, _⟩ := ofIntervals_eq_ok_iff.mp h
  have perm := walk.perm
  rw [List.append_nil] at perm
  exact ⟨intervals, read, walk, perm⟩

/-- Every number lies in exactly one interval of an accepted partition. -/
theorem tiles_of_ofLabels (h : ofLabels labels = .ok partition) : Tiles partition.intervals := by
  obtain ⟨intervals, read, walk, _⟩ := walk_of_ofLabels h
  exact covers_above_none_iff.mp (walk.covers read.inhabited)

/-- The intervals of an accepted partition carry the labels that were given. -/
theorem label_mem_of_ofLabels (h : ofLabels labels = .ok partition) {i : Interval}
    (mem : i ∈ partition.intervals) : i.label ∈ labels := by
  obtain ⟨intervals, read, _, perm⟩ := walk_of_ofLabels h
  rw [← read.labels_eq]
  exact List.mem_map_of_mem (perm.subset mem)

/-- Intervals that are not empty are accepted exactly when they are at least two and tile the
line. -/
theorem exists_ofIntervals_iff (inhabited : ∀ i ∈ intervals, i.Inhabited) :
    (∃ partition, ofIntervals intervals = .ok partition) ↔
      2 ≤ intervals.length ∧ Tiles intervals := by
  simp only [ofIntervals_eq_ok_iff, ← covers_above_none_iff]
  constructor
  · rintro ⟨partition, _, walk, cells⟩
    have perm := walk.perm
    rw [List.append_nil] at perm
    refine ⟨?_, (walk.covers inhabited).perm perm⟩
    have some := List.length_pos_iff.mpr cells
    rw [← perm.length_eq]
    simp only [Partition.intervals, List.length_append, List.length_map, List.length_singleton]
    omega
  · rintro ⟨several, covers⟩
    obtain ⟨partition, walk⟩ := exists_climbs inhabited covers
    refine ⟨partition, by omega, walk, fun none => ?_⟩
    have size := walk.perm.length_eq
    simp only [Partition.intervals, none, List.map_nil, List.nil_append, List.append_nil,
      List.length_singleton] at size
    omega

/-- **Labels are accepted exactly when they describe a partition.** They are accepted if and only if
they are at least two, each of them is read, and every number lies in exactly one of the intervals;
the accepted partition holds the intervals of the labels in ascending order. -/
theorem ofLabels_ok_iff_tiles (labels : List String) :
    ((∃ partition, ofLabels labels = .ok partition) ↔
        2 ≤ labels.length ∧ ∃ intervals, ReadAs labels intervals ∧ Tiles intervals) ∧
      ∀ partition, ofLabels labels = .ok partition →
        ∃ intervals, ReadAs labels intervals ∧ partition.intervals.Perm intervals ∧
          Ascends partition.intervals := by
  constructor
  · simp only [ofLabels_eq_ok_iff]
    constructor
    · rintro ⟨partition, intervals, read, h⟩
      obtain ⟨several, tiles⟩ := (exists_ofIntervals_iff read.inhabited).mp ⟨partition, h⟩
      exact ⟨List.Forall₂.length_eq read ▸ several, intervals, read, tiles⟩
    · rintro ⟨several, intervals, read, tiles⟩
      have several := List.Forall₂.length_eq read ▸ several
      obtain ⟨partition, h⟩ := (exists_ofIntervals_iff read.inhabited).mpr ⟨several, tiles⟩
      exact ⟨partition, intervals, read, h⟩
  · intro partition h
    obtain ⟨intervals, read, walk, perm⟩ := walk_of_ofLabels h
    exact ⟨intervals, read, perm, walk.ascends read.inhabited⟩

/-- Three labels in no order, one bound spelled in two ways. -/
theorem ofLabels_three_labels :
    ∃ partition intervals, ofLabels ["[10...)", "(...0]", "(0...1e1)"] = .ok partition ∧
      ReadAs ["[10...)", "(...0]", "(0...1e1)"] intervals ∧
        partition.intervals.Perm intervals ∧ Ascends partition.intervals := by
  have accepted : (ofLabels ["[10...)", "(...0]", "(0...1e1)"]).toOption.isSome = true := by
    decide +kernel
  cases h : ofLabels ["[10...)", "(...0]", "(0...1e1)"] with
  | error e => simp [h, Except.toOption] at accepted
  | ok partition =>
    obtain ⟨intervals, facts⟩ := (ofLabels_ok_iff_tiles _).2 partition h
    exact ⟨partition, intervals, rfl, facts⟩

end Labels

end Partition

end DecisionCompiler
