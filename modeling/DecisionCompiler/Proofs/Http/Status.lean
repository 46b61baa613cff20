import DecisionCompiler.Http.Status
import Mathlib.Data.List.Basic

/-!
What the line of a status says.

A line states a code (`States`) if it is the code in decimal digits, followed by a blank and the
reason that is listed for the code where one is listed. No code is listed twice
(`reasons_ascending`), so that a code has exactly one line (`states_iff`).
-/

namespace DecisionCompiler.Http

variable {code : Nat} {line reason : String}

/-- The line is the code in decimal, with its reason behind it if it has one. -/
inductive States (code : Nat) : String → Prop where
  | reasoned {reason : String} (listed : (code, reason) ∈ reasons) :
      States code (toString code ++ " " ++ reason)
  | bare (unlisted : ∀ reason, (code, reason) ∉ reasons) : States code (toString code)

theorem reasons_ascending : reasons.Pairwise fun entry later => entry.1 < later.1 := by
  decide +kernel

theorem lookup_reasons_eq_some_iff :
    reasons.lookup code = some reason ↔ (code, reason) ∈ reasons := by
  rw [List.lookup_eq_some_iff]
  constructor
  · rintro ⟨before, after, split, _⟩
    rw [split]
    exact List.mem_append_right _ List.mem_cons_self
  · intro listed
    obtain ⟨before, after, split⟩ := List.append_of_mem listed
    have ascending := reasons_ascending
    rw [split] at ascending
    refine ⟨before, after, split, fun entry mem => ?_⟩
    have below := (List.pairwise_append.mp ascending).2.2 entry mem _ List.mem_cons_self
    simpa using Nat.ne_of_gt below

theorem statusLine_of_mem (listed : (code, reason) ∈ reasons) :
    statusLine code = toString code ++ " " ++ reason := by
  unfold statusLine
  rw [lookup_reasons_eq_some_iff.mpr listed]
  rfl

theorem statusLine_of_forall_not_mem (unlisted : ∀ reason, (code, reason) ∉ reasons) :
    statusLine code = toString code := by
  have absent : reasons.lookup code = none := by
    cases found : reasons.lookup code with
    | none => rfl
    | some reason => exact absurd (lookup_reasons_eq_some_iff.mp found) (unlisted reason)
  simp only [statusLine, absent]

/-- A status has one line. -/
theorem states_iff : States code line ↔ line = statusLine code := by
  constructor
  · rintro (listed | unlisted)
    · exact (statusLine_of_mem listed).symm
    · exact (statusLine_of_forall_not_mem unlisted).symm
  · rintro rfl
    by_cases registered : ∃ reason, (code, reason) ∈ reasons
    · obtain ⟨reason, listed⟩ := registered
      rw [statusLine_of_mem listed]
      exact .reasoned listed
    · have unlisted := not_exists.mp registered
      rw [statusLine_of_forall_not_mem unlisted]
      exact .bare unlisted

example : statusLine 400 = "400 Bad Request" := by decide +kernel

example : statusLine 599 = "599" := by decide +kernel

end DecisionCompiler.Http
