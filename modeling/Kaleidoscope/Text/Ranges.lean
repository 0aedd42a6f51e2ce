/-
  Sets of code points as sorted lists of ranges.

  - `Ranges`: the ranges of a property of the Unicode character database, in ascending order;
  - `Ranges.holds`: membership, which stops at the first range that starts above the code point.
-/
namespace Kaleidoscope.Text

/-- Inclusive ranges of code points, written in ascending order. -/
abbrev Ranges := List (Nat × Nat)

namespace Ranges

/-- Whether the code point `n` lies in one of the ranges. -/
def holds : Ranges → Nat → Bool
  | [], _ => false
  | (first, last) :: rest, n =>
    if n < first then false else if n ≤ last then true else holds rest n

end Ranges

end Kaleidoscope.Text
