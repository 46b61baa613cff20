import Mathlib.Data.List.Forall2
import Mathlib.Data.List.Perm.Basic

/-!
Lists that correspond item by item, in any order.

Two lists are `Counterparts` when the items of one can be put into an order in which they are
related to the items of the other, one to one. What is read off a list without regard to its order
is the same for both, up to the relation: how many items pass a test, which ones do, and the only
item if there is just one.
-/

namespace DecisionCompiler

/-- The items of two lists are related one to one, in some order. -/
def Counterparts {α β : Type} (R : α → β → Prop) (items : List α) (others : List β) : Prop :=
  ∃ reordered, List.Forall₂ R items reordered ∧ reordered.Perm others

namespace Counterparts

variable {α β : Type} {R : α → β → Prop} {items fewer : List α} {others : List β}

theorem of_forall₂ (related : List.Forall₂ R items others) : Counterparts R items others :=
  ⟨others, related, .refl _⟩

theorem of_perm {more : List α} (perm : items.Perm more) : Counterparts Eq items more :=
  ⟨items, List.forall₂_same.mpr fun _ _ => rfl, perm⟩

theorem imp {S : α → β → Prop} (h : Counterparts R items others) (weaker : ∀ a b, R a b → S a b) :
    Counterparts S items others := by
  obtain ⟨reordered, related, perm⟩ := h
  exact ⟨reordered, related.imp weaker, perm⟩

theorem perm_left (h : Counterparts R items others) (perm : fewer.Perm items) :
    Counterparts R fewer others := by
  obtain ⟨reordered, related, perm'⟩ := h
  obtain ⟨again, related', perm''⟩ := List.perm_comp_forall₂ perm related
  exact ⟨again, related', perm''.trans perm'⟩

theorem perm_right {more : List β} (h : Counterparts R items others) (perm : others.Perm more) :
    Counterparts R items more := by
  obtain ⟨reordered, related, perm'⟩ := h
  exact ⟨reordered, related, perm'.trans perm⟩

theorem symm (h : Counterparts R items others) : Counterparts (fun b a => R a b) others items := by
  obtain ⟨reordered, related, perm⟩ := h
  exact perm_left (of_forall₂ (List.Forall₂.flip related)) perm.symm

theorem filter {p : α → Bool} {q : β → Bool} (h : Counterparts R items others)
    (same : ∀ a b, R a b → (p a = true ↔ q b = true)) :
    Counterparts R (items.filter p) (others.filter q) := by
  obtain ⟨reordered, related, perm⟩ := h
  exact ⟨reordered.filter q, List.rel_filter (fun a b => same a b) related, perm.filter q⟩

theorem length_eq (h : Counterparts R items others) : items.length = others.length := by
  obtain ⟨reordered, related, perm⟩ := h
  rw [related.length_eq, perm.length_eq]

/-- The counterpart of a single item is a single item. -/
theorem exists_of_singleton {a : α} (h : Counterparts R [a] others) :
    ∃ b, others = [b] ∧ R a b := by
  obtain ⟨reordered, related, perm⟩ := h
  obtain ⟨b, rest, first, nothing, rfl⟩ := List.forall₂_cons_left_iff.mp related
  obtain rfl := List.forall₂_nil_left_iff.mp nothing
  exact ⟨b, (List.singleton_perm.mp perm).symm, first⟩

/-- A list with two items or more has two counterparts or more. -/
theorem exists_of_cons_cons {a b : α} (h : Counterparts R (a :: b :: items) others) :
    ∃ c d rest, others = c :: d :: rest := by
  have size := h.length_eq
  rw [List.length_cons, List.length_cons] at size
  cases others with
  | nil => cases size
  | cons c others =>
    cases others with
    | nil => cases size
    | cons d rest => exact ⟨c, d, rest, rfl⟩

/-- The counterparts of two items alone are two items, in one of the orders. -/
theorem exists_of_pair {a b : α} (h : Counterparts R [a, b] others) :
    ∃ c d, R a c ∧ R b d ∧ [c, d].Perm others := by
  obtain ⟨reordered, related, perm⟩ := h
  match reordered, related with
  | [c, d], .cons first (.cons second .nil) => exact ⟨c, d, first, second, perm⟩

end Counterparts

end DecisionCompiler
