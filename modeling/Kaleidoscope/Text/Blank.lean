/-
  Blanks: the white space that separates tokens and that makes a line empty.

  - `blankRanges`: the table;
  - `isBlank`: whether a character is white space.
-/
import Kaleidoscope.Text.Ranges

namespace Kaleidoscope.Text

/-- The ranges of white space: the ASCII blanks, the next-line control, and the separators. -/
def blankRanges : Ranges :=
  [(0x09, 0x0D), (0x20, 0x20), (0x85, 0x85), (0xA0, 0xA0), (0x1680, 0x1680), (0x2000, 0x200A),
   (0x2028, 0x2029), (0x202F, 0x202F), (0x205F, 0x205F), (0x3000, 0x3000)]

/-- White space. -/
def isBlank (c : Char) : Bool := blankRanges.holds c.toNat

end Kaleidoscope.Text
