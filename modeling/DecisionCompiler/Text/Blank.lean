/-!
Blank characters and the trimming of texts.

A character is blank when the Unicode property `White_Space` says so; the property has been the same
25 characters since version 6.3.
-/

namespace DecisionCompiler.Text

/-- The characters of the property `White_Space` as closed ranges of code points, ascending. -/
def blankRanges : List (Nat × Nat) :=
  [(0x09, 0x0D), (0x20, 0x20), (0x85, 0x85), (0xA0, 0xA0), (0x1680, 0x1680), (0x2000, 0x200A),
   (0x2028, 0x2029), (0x202F, 0x202F), (0x205F, 0x205F), (0x3000, 0x3000)]

/-- The character is blank. -/
def isBlank (c : Char) : Bool :=
  blankRanges.any fun range => range.1 ≤ c.toNat && c.toNat ≤ range.2

/-- The text without the blanks at its end. -/
def trimRight (text : List Char) : List Char :=
  (text.reverse.dropWhile isBlank).reverse

/-- The text without the blanks around it. -/
def trim (text : List Char) : List Char :=
  trimRight (text.dropWhile isBlank)

example : (blankRanges.map fun range => range.2 + 1 - range.1).sum = 25 := by decide

end DecisionCompiler.Text
