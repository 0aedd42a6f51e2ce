/-
  Writing a double-precision number with the fewest decimal digits that read back.

  - `leadingExponent`: the power of ten of the first digit;
  - `neighbours`: the two decimals of `k` digits around the value;
  - `select?`, `closest?`: that one of them which reads back, the nearer one if both do, the even one
    if they are equally near;
  - `shortest`: the first such decimal, from one digit to seventeen;
  - `isExact`: whether a decimal is the very value and not only nearest to it.
-/
import Kaleidoscope.Binary64.Nearest

namespace Kaleidoscope.Binary64

/-- How many decimal digits `n` has. -/
def digitCount (n : Nat) : Nat := (Nat.toDigits 10 n).length

/-- The power of ten of the first digit of the value of a positive rank. No positive number is
below 10^-400, so the value times 10^400 has a first digit. -/
def leadingExponent (rank : Nat) : Int :=
  (digitCount (units rank * Nat.pow 10 400 / unitsPerOne) : Int) - 401

/-- The decimal of at most `k` digits next below the value of a rank, and the one next above. -/
def neighbours (rank k : Nat) : Decimal × Decimal :=
  let e := leadingExponent rank + 1 - k
  let below := units rank * Nat.pow 10 (-e).toNat / (unitsPerOne * Nat.pow 10 e.toNat)
  (⟨below, e⟩, ⟨below + 1, e⟩)

/-- How far a decimal of exponent `e` lies from the value of a rank, up to a factor that `e`
alone fixes. -/
def distance (rank : Nat) (x : Decimal) : Nat :=
  let value := units rank * x.denominator
  let written := x.numerator * unitsPerOne
  (value - written) + (written - value)

/-- Of two decimals the one that reads back. Of two that do it is the nearer one, and of two that are
equally near the one with an even coefficient. -/
def select? (reads : Decimal → Bool) (distance : Decimal → Nat) (below above : Decimal) :
    Option Decimal :=
  match reads below, reads above with
  | true, true =>
    if distance below < distance above then some below
    else if distance above < distance below then some above
    else some (if below.coefficient % 2 = 0 then below else above)
  | true, false => some below
  | false, true => some above
  | false, false => none

/-- The decimal of at most `k` digits that reads back as the rank, nearest to its value. -/
def closest? (rank k : Nat) : Option Decimal :=
  let pair := neighbours rank k
  select? (rankOf · == rank) (distance rank) pair.1 pair.2

/-- The decimal with the fewest digits that reads back as the rank. Seventeen digits are always
enough, so the fallback is never taken. -/
def shortest (rank : Nat) : Decimal :=
  ((List.range' 1 17).findSome? (closest? rank)).getD (neighbours rank 17).1

/-- Whether a decimal is the value of a rank and not only nearest to it. -/
def isExact (rank : Nat) (x : Decimal) : Bool := distance rank x == 0

end Kaleidoscope.Binary64
