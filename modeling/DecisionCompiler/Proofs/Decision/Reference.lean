import DecisionCompiler.Decision.Reference
import DecisionCompiler.Proofs.Text.Split

/-!
What references are resolved to.

A text is resolved to a link exactly when the link is written as the text, and both of its parts can
be read back from it: they are not empty, and no point stands in them
(`ChainLink.ofReference_eq_ok_some_iff`). The empty text is the only one that is resolved to no
link, and any other text is refused with an error that carries it. So resolving and writing undo
each other (`ChainLink.ofReference_undoes_writing`).
-/

namespace DecisionCompiler

namespace ChainLink

/-- The text can stand as a part of a reference. -/
def IsPart (part : String) : Prop :=
  part ≠ "" ∧ '.' ∉ part.toList

variable {destination reference : String} {link : ChainLink} {e : CompileError}

/-- The parts of the text that a link is written as. -/
theorem toList_reference (link : ChainLink) :
    link.reference.toList =
      ['.'].intercalate [root.toList, link.decision.toList, link.source.toList] := by
  simp [reference, List.intercalate]

theorem reference_ne_empty (link : ChainLink) : link.reference ≠ "" := by
  intro empty
  have nothing := congrArg String.toList empty
  rw [toList_reference] at nothing
  exact nomatch nothing

/-- **What a link is resolved from.** A text names a link exactly when the link is written as it and
its parts can stand in a reference. -/
theorem ofReference_eq_ok_some_iff :
    ofReference destination reference = .ok (some link) ↔
      link.destination = destination ∧ link.reference = reference ∧
        IsPart link.decision ∧ IsPart link.source := by
  constructor
  · intro resolved
    unfold ofReference at resolved
    split at resolved
    · cases resolved
    · split at resolved
      · rename_i word decision source found
        split at resolved
        · rename_i named
          obtain ⟨rfl, decisionSome, sourceSome⟩ := named
          cases resolved
          obtain ⟨_, absent, text⟩ := Text.splitAll_eq_iff.mp found
          simp only [List.mem_cons, List.not_mem_nil, or_false, forall_eq_or_imp, forall_eq]
            at absent
          refine ⟨rfl, String.toList_inj.mp ?_, ?_, ?_⟩
          · simp [toList_reference, text]
          · simp [IsPart, decisionSome, absent]
          · simp [IsPart, sourceSome, absent]
        · cases resolved
      · cases resolved
  · rintro ⟨rfl, rfl, ⟨decisionSome, decisionWhole⟩, sourceSome, sourceWhole⟩
    have split : Text.splitAll '.' link.reference.toList =
        [root.toList, link.decision.toList, link.source.toList] := by
      refine Text.splitAll_eq_iff.mpr ⟨List.cons_ne_nil _ _, ?_, toList_reference link⟩
      simp only [List.mem_cons, List.not_mem_nil, or_false, forall_eq_or_imp, forall_eq]
      exact ⟨by decide, decisionWhole, sourceWhole⟩
    rw [ofReference, if_neg (reference_ne_empty link), split]
    simp [decisionSome, sourceSome]

/-- The empty text alone names no link. -/
theorem ofReference_eq_ok_none_iff :
    ofReference destination reference = .ok none ↔ reference = "" := by
  unfold ofReference
  constructor
  · intro resolved
    split at resolved
    · assumption
    · split at resolved
      · split at resolved <;> cases resolved
      · cases resolved
  · intro empty
    rw [if_pos empty]

/-- A text that names nothing is refused by its text. -/
theorem eq_of_ofReference_eq_error (refused : ofReference destination reference = .error e) :
    e = .unrecognizedSource reference := by
  unfold ofReference at refused
  split at refused
  · cases refused
  · split at refused
    · split at refused <;> cases refused
      rfl
    · cases refused
      rfl

/-! ### Writing and resolving -/

/-- The text refers to an output of a decision: it is the word that begins every reference and the
two names, with points between them. -/
structure Names (text decision source : String) : Prop where
  ofDecision : IsPart decision
  ofSource : IsPart source
  text : text = "Decision." ++ decision ++ "." ++ source

theorem names_iff {decision source : String} :
    Names reference decision source ↔
      ofReference destination reference = .ok (some ⟨decision, source, destination⟩) := by
  have written : ChainLink.reference ⟨decision, source, destination⟩ =
      "Decision." ++ decision ++ "." ++ source := rfl
  rw [ofReference_eq_ok_some_iff, written]
  constructor
  · rintro ⟨isDecision, isSource, rfl⟩
    exact ⟨rfl, rfl, isDecision, isSource⟩
  · rintro ⟨_, rfl, isDecision, isSource⟩
    exact ⟨isDecision, isSource, rfl⟩

/-- A text is refused exactly when it is not empty and refers to nothing, and always by itself. -/
theorem ofReference_eq_error_iff :
    ofReference destination reference = .error e ↔
      reference ≠ "" ∧ (∀ decision source, ¬Names reference decision source) ∧
        e = .unrecognizedSource reference := by
  constructor
  · intro refused
    refine ⟨fun empty => ?_, fun decision source names => ?_, eq_of_ofReference_eq_error refused⟩
    · rw [ofReference_eq_ok_none_iff.mpr empty] at refused
      cases refused
    · rw [names_iff.mp names] at refused
      cases refused
  · rintro ⟨nonempty, nothing, rfl⟩
    match resolved : ofReference destination reference with
    | .ok none => exact absurd (ofReference_eq_ok_none_iff.mp resolved) nonempty
    | .ok (some link) =>
      obtain ⟨rfl, _⟩ := ofReference_eq_ok_some_iff.mp resolved
      exact absurd (names_iff.mpr resolved) (nothing link.decision link.source)
    | .error e => rw [eq_of_ofReference_eq_error resolved]

/-- **Resolving undoes writing.** The empty text alone is resolved to no link, a text that refers to
an output to the link that names this output and the destination, and any other text is refused by
itself. So for one destination, a link is written as the text that it was resolved from and resolved
from the text that it is written as, and different texts are resolved to different links. -/
theorem ofReference_undoes_writing (destination : String) :
    (∀ reference, ofReference destination reference = .ok none ↔ reference = "") ∧
      (∀ reference link, ofReference destination reference = .ok (some link) ↔
        ∃ decision source, Names reference decision source ∧
          link = ⟨decision, source, destination⟩) ∧
      (∀ reference e, ofReference destination reference = .error e ↔
        reference ≠ "" ∧ (∀ decision source, ¬Names reference decision source) ∧
          e = .unrecognizedSource reference) ∧
      (∀ reference link, ofReference destination reference = .ok (some link) →
        link.reference = reference) ∧
      (∀ link : ChainLink, link.destination = destination → IsPart link.decision →
        IsPart link.source → ofReference destination link.reference = .ok (some link)) ∧
      ∀ first second link, ofReference destination first = .ok (some link) →
        ofReference destination second = .ok (some link) → first = second := by
  refine ⟨fun reference => ofReference_eq_ok_none_iff, fun reference link => ?_,
    fun reference e => ofReference_eq_error_iff, fun reference link resolved => ?_,
    fun link same isDecision isSource => ?_, fun first second link resolved resolved' => ?_⟩
  · constructor
    · intro resolved
      obtain ⟨rfl, _⟩ := ofReference_eq_ok_some_iff.mp resolved
      exact ⟨link.decision, link.source, names_iff.mpr resolved, rfl⟩
    · rintro ⟨decision, source, names, rfl⟩
      exact names_iff.mp names
  · exact (ofReference_eq_ok_some_iff.mp resolved).2.1
  · exact ofReference_eq_ok_some_iff.mpr ⟨same, rfl, isDecision, isSource⟩
  · have written := (ofReference_eq_ok_some_iff.mp resolved).2.1
    have written' := (ofReference_eq_ok_some_iff.mp resolved').2.1
    exact written.symm.trans written'

/-- Parts with blanks in them are parts; a part that is empty and a point too many refer to
nothing. -/
theorem ofReference_undoes_writing_blanks :
    let link : ChainLink := ⟨" my decision", "risk score", "base"⟩
    ofReference "base" "Decision. my decision.risk score" = .ok (some link) ∧
      ofReference "base" link.reference = .ok (some link) ∧
      (∀ decision source, ¬Names "Decision..score" decision source) ∧
      ∀ decision source, ¬Names "Decision.pricing.score." decision source := by
  intro link
  obtain ⟨_, links, errors, _, written, _⟩ := ofReference_undoes_writing "base"
  have parts : IsPart " my decision" ∧ IsPart "risk score" := by
    unfold IsPart
    decide
  have names : Names "Decision. my decision.risk score" " my decision" "risk score" :=
    ⟨parts.1, parts.2, by decide⟩
  refine ⟨(links _ _).mpr ⟨_, _, names, rfl⟩, written link rfl parts.1 parts.2, ?_, ?_⟩
  · exact ((errors _ (.unrecognizedSource "Decision..score")).mp rfl).2.1
  · exact ((errors _ (.unrecognizedSource "Decision.pricing.score.")).mp rfl).2.1

end ChainLink

end DecisionCompiler
