import DecisionCompiler.Decision.Basic

/-!
References to the outputs of other decisions.

A reference is a text of three parts with points between them: the word `Decision`, the name of a
decision and the key of one of its outputs, neither of them empty. The empty text refers to nothing.
-/

namespace DecisionCompiler.ChainLink

/-- The word that every reference begins with. -/
def root : String := "Decision"

/-- The link of a field with the given key to what a reference names. -/
def ofReference (destination reference : String) : Except CompileError (Option ChainLink) :=
  if reference = "" then .ok none
  else
    match Text.splitAll '.' reference.toList with
    | [word, decision, source] =>
      if word = root.toList ∧ decision ≠ [] ∧ source ≠ [] then
        .ok (some ⟨String.ofList decision, String.ofList source, destination⟩)
      else .error (.unrecognizedSource reference)
    | _ => .error (.unrecognizedSource reference)

/-- The reference that a link is written as. -/
def reference (link : ChainLink) : String :=
  root ++ "." ++ link.decision ++ "." ++ link.source

end DecisionCompiler.ChainLink
