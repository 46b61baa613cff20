import Mathlib.Data.List.Forall2

/-!
Computations that may fail.

A result is read back to the results of the steps: a sequence of two steps has a result exactly when
both have theirs (`bind_eq_ok_iff`), a step taken on each item of a list exactly when it has one for
every item (`mapM_eq_ok_iff`), and such a step fails exactly at its first item that fails
(`mapM_eq_error_iff`, and by position `mapM_eq_error_iff_failsAt`).

Two computations are compared by how they end. `Alike` relates the results of one to those of the
other and the failures likewise; `Follows` says that one does what the other does unless it stops
earlier, with a failure of a given sort. Both are preserved by sequencing and by steps on lists.
-/

namespace DecisionCompiler.Outcome

variable {ε α β : Type}

@[simp] theorem ok_bind (a : α) (f : α → Except ε β) : (Except.ok a >>= f) = f a :=
  rfl

@[simp] theorem error_bind (e : ε) (f : α → Except ε β) : (Except.error e >>= f) = .error e :=
  rfl

@[simp] theorem pure_eq_ok (a : α) : (pure a : Except ε α) = .ok a :=
  rfl

@[simp] theorem map_ok (f : α → β) (a : α) : (Except.ok a : Except ε α).map f = .ok (f a) :=
  rfl

@[simp] theorem map_error (f : α → β) (e : ε) : (Except.error e).map f = .error e :=
  rfl

/-- A computation that is seen to have a result has one. -/
theorem exists_eq_ok_of_isSome {x : Except ε α} (seen : x.toOption.isSome = true) :
    ∃ a, x = .ok a := by
  cases x with
  | ok a => exact ⟨a, rfl⟩
  | error e => exact nomatch seen

theorem bind_eq_ok_iff {x : Except ε α} {f : α → Except ε β} {b : β} :
    (x >>= f) = .ok b ↔ ∃ a, x = .ok a ∧ f a = .ok b := by
  cases x <;> simp

theorem bind_eq_error_iff {x : Except ε α} {f : α → Except ε β} {e : ε} :
    (x >>= f) = .error e ↔ x = .error e ∨ ∃ a, x = .ok a ∧ f a = .error e := by
  cases x <;> simp

theorem map_eq_ok_iff {f : α → β} {x : Except ε α} {b : β} :
    x.map f = .ok b ↔ ∃ a, x = .ok a ∧ f a = b := by
  cases x <;> simp

theorem map_eq_error_iff {f : α → β} {x : Except ε α} {e : ε} :
    x.map f = .error e ↔ x = .error e := by
  cases x <;> simp

theorem mapM_eq_ok_iff {f : α → Except ε β} {items : List α} {results : List β} :
    items.mapM f = .ok results ↔
      List.Forall₂ (fun item result => f item = .ok result) items results := by
  induction items generalizing results with
  | nil => simp [List.forall₂_nil_left_iff, eq_comm]
  | cons item items ih =>
    rw [List.mapM_cons, List.forall₂_cons_left_iff]
    simp only [bind_eq_ok_iff, pure_eq_ok, ih, Except.ok.injEq]
    refine exists_congr fun first => ⟨?_, ?_⟩
    · rintro ⟨passes, rest, passed, rfl⟩
      exact ⟨rest, passes, passed, rfl⟩
    · rintro ⟨rest, passes, passed, rfl⟩
      exact ⟨passes, rest, passed, rfl⟩

/-- Items that all pass have their results together. -/
theorem exists_mapM_eq_ok {f : α → Except ε β} {items : List α}
    (pass : ∀ item ∈ items, ∃ b, f item = .ok b) : ∃ results, items.mapM f = .ok results := by
  simp only [mapM_eq_ok_iff]
  induction items with
  | nil => exact ⟨[], .nil⟩
  | cons item items ih =>
    obtain ⟨⟨result, passes⟩, later⟩ := List.forall_mem_cons.mp pass
    obtain ⟨results, passed⟩ := ih later
    exact ⟨result :: results, .cons passes passed⟩

/-- The failure of the first item that fails is the failure of them all. -/
theorem mapM_eq_error_iff {f : α → Except ε β} {items : List α} {e : ε} :
    items.mapM f = .error e ↔
      ∃ before results item after, items = before ++ item :: after ∧
        List.Forall₂ (fun item result => f item = .ok result) before results ∧
          f item = .error e := by
  induction items with
  | nil => simp
  | cons first rest ih =>
    rw [List.mapM_cons, bind_eq_error_iff]
    constructor
    · rintro (fails | ⟨result, passes, h⟩)
      · exact ⟨[], [], first, rest, rfl, .nil, fails⟩
      · rw [bind_eq_error_iff, ih] at h
        obtain ⟨before, results, item, after, rfl, passed, fails⟩ | ⟨_, _, absurd⟩ := h
        · exact ⟨first :: before, result :: results, item, after, rfl, .cons passes passed, fails⟩
        · exact nomatch absurd
    · rintro ⟨before, results, item, after, split, passed, fails⟩
      cases passed with
      | nil =>
        obtain ⟨rfl, rfl⟩ := List.cons.inj split
        exact .inl fails
      | cons passes passed =>
        obtain ⟨rfl, rfl⟩ := List.cons.inj split
        refine .inr ⟨_, passes, bind_eq_error_iff.mpr (.inl (ih.mpr ?_))⟩
        exact ⟨_, _, item, after, rfl, passed, fails⟩

/-- Each item has its result. -/
theorem exists_of_forall₂ {R : α → β → Prop} {items : List α} {results : List β}
    (h : List.Forall₂ R items results) {item : α} (mem : item ∈ items) :
    ∃ result ∈ results, R item result := by
  induction h with
  | nil => exact nomatch mem
  | @cons _ result _ _ first _ ih =>
    rcases List.mem_cons.mp mem with rfl | mem
    · exact ⟨result, List.mem_cons_self, first⟩
    · obtain ⟨result, mem, related⟩ := ih mem
      exact ⟨result, List.mem_cons_of_mem _ mem, related⟩

theorem exists_mapM_eq_ok_iff {f : α → Except ε β} {items : List α} :
    (∃ results, items.mapM f = .ok results) ↔ ∀ item ∈ items, ∃ b, f item = .ok b := by
  refine ⟨?_, exists_mapM_eq_ok⟩
  rintro ⟨results, passed⟩ item mem
  obtain ⟨b, _, passes⟩ := exists_of_forall₂ (mapM_eq_ok_iff.mp passed) mem
  exact ⟨b, passes⟩

/-- A step on each item fails at the item of a position: the items before it pass. -/
def FailsAt (f : α → Except ε β) (items : List α) (n : ℕ) (e : ε) : Prop :=
  (∀ item ∈ items.take n, ∃ b, f item = .ok b) ∧ ∃ item, items[n]? = some item ∧ f item = .error e

theorem mapM_eq_error_iff_failsAt {f : α → Except ε β} {items : List α} {e : ε} :
    items.mapM f = .error e ↔ ∃ n, FailsAt f items n e := by
  rw [mapM_eq_error_iff]
  constructor
  · rintro ⟨before, results, item, after, rfl, passed, fails⟩
    refine ⟨before.length, fun passing mem => ?_, item, by simp, fails⟩
    rw [List.take_left] at mem
    obtain ⟨result, _, passes⟩ := exists_of_forall₂ passed mem
    exact ⟨result, passes⟩
  · rintro ⟨n, passed, item, found, fails⟩
    obtain ⟨results, passed⟩ := exists_mapM_eq_ok passed
    refine ⟨items.take n, results, item, items.drop (n + 1), ?_, mapM_eq_ok_iff.mp passed, fails⟩
    obtain ⟨short, rfl⟩ := List.getElem?_eq_some_iff.mp found
    rw [List.getElem_cons_drop, List.take_append_drop]

/-- Where two steps do the same up to a position, they fail there alike. -/
theorem failsAt_congr {f g : α → Except ε β} {items : List α} {n : ℕ} {e : ε}
    (same : ∀ item ∈ items.take (n + 1), f item = g item) :
    FailsAt f items n e ↔ FailsAt g items n e := by
  have before (item : α) (mem : item ∈ items.take n) : f item = g item :=
    same item (List.take_subset_take_left items (Nat.le_succ n) mem)
  have here (item : α) (found : items[n]? = some item) : f item = g item := by
    refine same item (List.mem_of_getElem? (?_ : (items.take (n + 1))[n]? = some item))
    rw [List.getElem?_take_of_lt (Nat.lt_succ_self n), found]
  refine and_congr (forall₂_congr fun item mem => ?_) (exists_congr fun item => ?_)
  · rw [before item mem]
  · exact and_congr_right fun found => by rw [here item found]

section Map

variable {γ : Type} {f : α → Except ε β} {g : α → β → γ} {items : List α}

/-- What is made of the results does not matter to whether there are any. -/
theorem exists_mapM_map_iff :
    (∃ results, items.mapM (fun item => (f item).map (g item)) = .ok results) ↔
      ∀ item ∈ items, ∃ b, f item = .ok b := by
  rw [exists_mapM_eq_ok_iff]
  simp [map_eq_ok_iff]

/-- What is made of the results does not matter to where a step fails. -/
theorem mapM_map_eq_error_iff {e : ε} :
    items.mapM (fun item => (f item).map (g item)) = .error e ↔ ∃ n, FailsAt f items n e := by
  rw [mapM_eq_error_iff_failsAt]
  simp [FailsAt, map_eq_error_iff, map_eq_ok_iff]

end Map

/-- If an item before a position fails, the step fails at an earlier position. -/
theorem exists_failsAt_of_mem_take {f : α → Except ε β} {items : List α} {n : ℕ} {item : α} {e : ε}
    (mem : item ∈ items.take n) (fails : f item = .error e) :
    ∃ k < n, ∃ e, FailsAt f items k e := by
  cases result : (items.take n).mapM f with
  | ok results =>
    obtain ⟨b, _, passes⟩ := exists_of_forall₂ (mapM_eq_ok_iff.mp result) mem
    exact nomatch fails.symm.trans passes
  | error e' =>
    obtain ⟨k, passed, failing, found, fails'⟩ := mapM_eq_error_iff_failsAt.mp result
    obtain ⟨below, found⟩ : k < n ∧ items[k]? = some failing := by
      rw [List.getElem?_take] at found
      split at found
      · exact ⟨‹_›, found⟩
      · exact nomatch found
    rw [List.take_take, Nat.min_eq_left (Nat.le_of_lt below)] at passed
    exact ⟨k, below, e', passed, failing, found, fails'⟩

/-! ### Two computations -/

/-- Two computations end alike: both with results that are related, or both with failures that
are. -/
inductive Alike (failures : ε → ε → Prop) (results : α → β → Prop) :
    Except ε α → Except ε β → Prop where
  | ok {a : α} {b : β} (related : results a b) : Alike failures results (.ok a) (.ok b)
  | error {e e' : ε} (related : failures e e') : Alike failures results (.error e) (.error e')

section Alike

variable {failures : ε → ε → Prop} {γ δ : Type} {results : α → β → Prop} {ends : γ → δ → Prop}

theorem Alike.of_eq {x y : Except ε α} (reflexive : ∀ e, failures e e) (same : x = y) :
    Alike failures Eq x y := by
  subst same
  cases x with
  | ok a => exact .ok rfl
  | error e => exact .error (reflexive e)

theorem alike_map (x : Except ε α) (f : α → β) : Alike Eq (fun _ _ => True) x (x.map f) := by
  cases x with
  | ok a => exact .ok trivial
  | error e => exact .error rfl

/-- A computation that has a result exactly where another one has it, and fails as that one does. -/
theorem alike_of_map {x : Except ε α} {y : Except ε β} {f : α → γ}
    (failures : ∀ e, x = .error e → y = .error e) (results : ∀ a, x = .ok a → ∃ b, y = .ok b) :
    Alike Eq (fun _ _ => True) y (x.map f) := by
  cases x with
  | ok a =>
    obtain ⟨b, passes⟩ := results a rfl
    rw [passes]
    exact .ok trivial
  | error e =>
    rw [failures e rfl]
    exact .error rfl

theorem Alike.imp {results' : α → β → Prop} {x : Except ε α} {y : Except ε β}
    (h : Alike failures results x y) (weaker : ∀ a b, results a b → results' a b) :
    Alike failures results' x y := by
  cases h with
  | ok related => exact .ok (weaker _ _ related)
  | error related => exact .error related

theorem Alike.bind {x : Except ε α} {y : Except ε β} {f : α → Except ε γ} {g : β → Except ε δ}
    (first : Alike failures results x y)
    (rest : ∀ a b, results a b → Alike failures ends (f a) (g b)) :
    Alike failures ends (x >>= f) (y >>= g) := by
  cases first with
  | ok related => exact rest _ _ related
  | error related => exact .error related

theorem Alike.map {x : Except ε α} {y : Except ε β} {f : α → γ} {g : β → δ}
    (first : Alike failures results x y) (rest : ∀ a b, results a b → ends (f a) (g b)) :
    Alike failures ends (x.map f) (y.map g) := by
  cases first with
  | ok related => exact .ok (rest _ _ related)
  | error related => exact .error related

theorem Alike.mapM {R : γ → δ → Prop} {f : γ → Except ε α} {g : δ → Except ε β} {items : List γ}
    {others : List δ} (related : List.Forall₂ R items others)
    (each : ∀ c d, R c d → Alike failures results (f c) (g d)) :
    Alike failures (List.Forall₂ results) (items.mapM f) (others.mapM g) := by
  induction related with
  | nil => exact .ok .nil
  | cons first _ ih =>
    rw [List.mapM_cons, List.mapM_cons]
    exact (each _ _ first).bind fun a b here => ih.bind fun as bs later => .ok (.cons here later)

theorem Alike.eq_ok_iff {x y : Except ε α} (h : Alike failures Eq x y) {a : α} :
    x = .ok a ↔ y = .ok a := by
  cases h with
  | ok same => rw [same]
  | error _ => exact iff_of_false nofun nofun

/-- Computations that end alike have results together. -/
theorem Alike.exists_ok_iff {x : Except ε α} {y : Except ε β} (h : Alike failures results x y) :
    (∃ a, x = .ok a) ↔ ∃ b, y = .ok b := by
  cases h with
  | ok _ => simp
  | error _ => simp

/-- A result is related to one of the other computation. -/
theorem Alike.exists_of_ok {x : Except ε α} {y : Except ε β} {a : α}
    (h : Alike failures results x y) (result : x = .ok a) : ∃ b, y = .ok b ∧ results a b := by
  cases h with
  | ok related =>
    obtain rfl := Except.ok.inj result
    exact ⟨_, rfl, related⟩
  | error _ => exact nomatch result

/-- Computations that end alike with the same failures fail together. -/
theorem Alike.eq_error_iff {x : Except ε α} {y : Except ε β} (h : Alike Eq results x y) {e : ε} :
    x = .error e ↔ y = .error e := by
  cases h with
  | ok _ => exact iff_of_false nofun nofun
  | error same => simp only [same, Except.error.injEq]

end Alike

/-- One computation does what the other one does, or stops with a failure of a given sort. -/
def Follows (stops : ε → Prop) (x y : Except ε α) : Prop :=
  x = y ∨ ∃ e, stops e ∧ x = .error e

section Follows

variable {stops : ε → Prop} {x y : Except ε α} {a : α}

theorem Follows.refl (x : Except ε α) : Follows stops x x :=
  .inl rfl

/-- A result is never another one. -/
theorem Follows.eq_ok (h : Follows stops x y) (result : x = .ok a) : y = .ok a := by
  rcases h with same | ⟨e, _, fails⟩
  · exact same ▸ result
  · exact nomatch result.symm.trans fails

theorem Follows.bind {f g : α → Except ε β} (first : Follows stops x y)
    (rest : ∀ a, Follows stops (f a) (g a)) : Follows stops (x >>= f) (y >>= g) := by
  rcases first with rfl | ⟨e, stop, rfl⟩
  · cases x with
    | ok a => exact rest a
    | error e => exact .refl _
  · exact .inr ⟨e, stop, rfl⟩

theorem Follows.mapM {f g : α → Except ε β} (each : ∀ a, Follows stops (f a) (g a))
    (items : List α) : Follows stops (items.mapM f) (items.mapM g) := by
  induction items with
  | nil => exact .refl _
  | cons item items ih =>
    rw [List.mapM_cons, List.mapM_cons]
    exact (each item).bind fun b => ih.bind fun bs => .refl _

end Follows

/-- Steps that do the same on each pair of items do the same on both lists. -/
theorem mapM_congr {γ : Type} {f : α → Except ε γ} {g : β → Except ε γ} {items : List α}
    {others : List β} (same : List.Forall₂ (fun a b => f a = g b) items others) :
    items.mapM f = others.mapM g := by
  induction same with
  | nil => rfl
  | cons first _ ih => rw [List.mapM_cons, List.mapM_cons, first, ih]

end DecisionCompiler.Outcome
