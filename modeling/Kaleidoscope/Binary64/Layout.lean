/-
  The decimal text of a number.

  - `Layout`: the decisions of a decimal notation: which powers of ten are written out, and whether
    a whole number keeps a point;
  - `Layout.write`: digits and a power of ten in a layout;
  - `Binary64.digits`: the shortest digits of a finite number and the power of ten of the first.
-/
import Kaleidoscope.Binary64.Shortest
import Kaleidoscope.Text.Quoted

namespace Kaleidoscope

/-- The decisions of a decimal notation. -/
structure Layout where
  /-- The least power of ten of a first digit that is written without an exponent. -/
  least : Int
  /-- The first power of ten above it that is written with one again. -/
  bound : Int
  /-- Whether a text without a point gets `.0`. -/
  pointed : Bool

namespace Layout

/-- A sign and at least two digits. -/
def exponent (x : Int) : String :=
  let digits := Nat.toDigits 10 x.natAbs
  String.ofList ((if x < 0 then '-' else '+') ::
    (List.replicate (2 - digits.length) '0' ++ digits))

/-- The digits with a point after the first `k`. -/
def point (layout : Layout) (k : Nat) (digits : List Char) : String :=
  let padded := digits ++ List.replicate (k - digits.length) '0'
  let fraction := padded.drop k
  String.ofList (padded.take k) ++
    (if fraction.isEmpty then (if layout.pointed then ".0" else "")
     else "." ++ String.ofList fraction)

/-- The digits, of which the first stands for the power `x` of ten. -/
def write (layout : Layout) (digits : List Char) (x : Int) : String :=
  if x < layout.least ∨ layout.bound ≤ x then layout.point 1 digits ++ "e" ++ exponent x
  else if x < 0 then "0." ++ String.ofList (List.replicate (-x - 1).toNat '0' ++ digits)
  else layout.point (x.toNat + 1) digits

end Layout

namespace Binary64

/-- The shortest digits of a finite rank, without zeros at the end, and the power of ten of the
first digit. Zero is written with one digit. -/
def digits (rank : Nat) : List Char × Int :=
  if rank = 0 then (['0'], 0)
  else
    let x := shortest rank
    let all := Nat.toDigits 10 x.coefficient
    ((all.reverse.dropWhile (· == '0')).reverse, x.exponent + all.length - 1)

/-- The sign of a number in front of a text. -/
def signed (x : Binary64) (text : String) : String := if x.negative then "-" ++ text else text

end Binary64

end Kaleidoscope
