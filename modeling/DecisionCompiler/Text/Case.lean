/-!
Names without regard to case.

Names are compared by their lower case where every name asked for is ASCII. The lower case of a
character is an ASCII letter for the ASCII capitals and for one character beside them, the Kelvin
sign; the lower case of any other character can be told from no name that is asked for, so it is
left as it is.
-/

namespace DecisionCompiler.Text

/-- The lower case of a character as far as it is an ASCII letter. -/
def foldChar (c : Char) : Char :=
  if c = '\u212A' then 'k' else c.toLower

/-- A name with its characters in lower case. -/
def foldCase (name : String) : String :=
  String.ofList (name.toList.map foldChar)

/-- In ASCII the lower case is the usual one. -/
theorem foldChar_of_lt {c : Char} (h : c.toNat < 0x80) : foldChar c = c.toLower := by
  refine if_neg ?_
  rintro rfl
  revert h
  decide

example : foldCase "Repository_\u212AIND" = "repository_kind" := by decide +kernel

end DecisionCompiler.Text
