/-
  Reading a decimal: the double-precision number nearest to a fraction.

  - `roundHalfEven`: a quotient to the nearest whole number, a tie to the even one;
  - `Binary64.nearestRank`: the rank nearest to the fraction `n / d`, a tie to the even rank;
  - `Decimal`: a whole number times a power of ten, as a fraction of whole numbers;
  - `Binary64.ofRun?`: the number that a run of digits and at most one dot stands for; there is
    none without a digit, or beyond the largest finite number.
-/
import Kaleidoscope.Binary64.Basic

namespace Kaleidoscope

/-- `n / d` to the nearest whole number, a tie to the even one. -/
def roundHalfEven (n d : Nat) : Nat :=
  let q := n / d
  let r := n % d
  if 2 * r < d then q else if d < 2 * r then q + 1 else q + q % 2

/-- The number `coefficient * 10 ^ exponent`. -/
structure Decimal where
  coefficient : Nat
  exponent : Int
  deriving DecidableEq, Repr

namespace Decimal

/-- The upper part of the decimal, as a fraction of whole numbers. -/
def numerator (x : Decimal) : Nat := x.coefficient * Nat.pow 10 x.exponent.toNat

/-- The lower part of the decimal, as a fraction of whole numbers. -/
def denominator (x : Decimal) : Nat := Nat.pow 10 (-x.exponent).toNat

/-- The decimal that the digits `whole`, a dot and the digits `fraction` stand for. -/
def ofDigits (whole fraction : List Char) : Decimal :=
  ⟨(whole ++ fraction).foldl (fun n c => 10 * n + (c.toNat - '0'.toNat)) 0, -fraction.length⟩

end Decimal

namespace Binary64

/-- The rank nearest to `n / d`, a tie to the even one. The scale is the least one whose
significands reach the fraction; a significand rounded up to the next power of two carries into
the scale by itself. -/
def nearestRank (n d : Nat) : Nat :=
  let s := Nat.log2 (n * unitsPerOne / d) - fractionBits
  s * fractionSize + roundHalfEven (n * unitsPerOne) (d * Nat.pow 2 s)

/-- The rank nearest to a decimal. -/
def rankOf (x : Decimal) : Nat := nearestRank x.numerator x.denominator

/-- The number that a run of digits with at most one dot stands for. A run without a digit stands
for none, and so does one whose nearest rank is not finite. -/
def ofRun? (run : List Char) : Option Binary64 :=
  let whole := run.takeWhile (· != '.')
  let fraction := (run.dropWhile (· != '.')).drop 1
  if whole.isEmpty && fraction.isEmpty then none
  else
    let rank := rankOf (Decimal.ofDigits whole fraction)
    if rank < infinityRank then some (ofRank rank) else none

end Binary64

end Kaleidoscope
