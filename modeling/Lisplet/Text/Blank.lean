import Lisplet.Text.Range

/-!
# Blank code points

The code points that separate words: the control characters `U+0009`–`U+000D` and
`U+001C`–`U+001F`, the next-line control, and the space separators of Unicode 14.
-/

namespace Lisplet.CodePoint

/-- The blank code points, as ascending ranges. -/
def blankRanges : List (Nat × Nat) :=
  [(9, 13), (28, 32), (133, 133), (160, 160), (5760, 5760), (8192, 8202), (8232, 8233),
   (8239, 8239), (8287, 8287), (12288, 12288)]

/-- A code point that separates words and prints as nothing. -/
def isBlank (c : CodePoint) : Bool := inRanges blankRanges c.val

/-- Every character that core counts as whitespace is blank. -/
example : [' ', '\t', '\n', '\r'].all (fun c => (CodePoint.ofChar c).isBlank) = true := by decide

/-- Twenty-nine code points are blank. -/
example : (blankRanges.map fun r => r.2 - r.1 + 1).sum = 29 := by decide

end Lisplet.CodePoint
