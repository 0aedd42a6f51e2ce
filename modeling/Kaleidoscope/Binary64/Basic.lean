/-
  Double-precision numbers, by their bits.

  The finite numbers with a clear sign bit are numbered in ascending order by their bits read as a
  natural number, the *rank*. A rank decodes to a significand and a scale, and so to a whole number
  of the least positive number 2^-1074.

  - `Binary64`: a number; `rank` and `negative` split it;
  - `significand`, `scale`, `units`: the value of a rank, in units of 2^-1074, of which
    `unitsPerOne` make one;
  - `infinityRank`: the rank of infinity; the ranks above it are not numbers.
-/
namespace Kaleidoscope

/-- A double-precision number. Two zeros, or two values that are not numbers, are told apart by
their bits. -/
structure Binary64 where
  bits : UInt64
  deriving DecidableEq, Inhabited, Repr

namespace Binary64

/-- How many bits of a rank hold the fraction. -/
def fractionBits : Nat := 52

/-- How many ranks share a scale. -/
def fractionSize : Nat := Nat.pow 2 fractionBits

/-- The least positive number is 2 to the power of minus this. -/
def unitBits : Nat := 1074

/-- How often the least positive number goes into one. -/
def unitsPerOne : Nat := Nat.pow 2 unitBits

/-- The bit of the sign. -/
def signBit : Nat := 0x8000000000000000

/-- The rank of infinity. -/
def infinityRank : Nat := 0x7FF0000000000000

/-- Whether the sign bit is set. -/
def negative (x : Binary64) : Bool := signBit ≤ x.bits.toNat

/-- The bits below the sign, as a number. -/
def rank (x : Binary64) : Nat := x.bits.toNat % signBit

/-- The number of a rank, with the sign bit clear. -/
def ofRank (rank : Nat) : Binary64 := ⟨UInt64.ofNat rank⟩

/-- By how many powers of two the significand of a rank is scaled. -/
def scale (rank : Nat) : Nat := rank / fractionSize - 1

/-- The significand of a rank, the leading bit of a normal number included. -/
def significand (rank : Nat) : Nat := rank - scale rank * fractionSize

/-- The value of a finite rank, in units of the least positive number. -/
def units (rank : Nat) : Nat := significand rank * Nat.pow 2 (scale rank)

/-- Not a number. -/
def isNaN (x : Binary64) : Bool := infinityRank < x.rank

/-- Positive or negative infinity. -/
def isInfinite (x : Binary64) : Bool := x.rank == infinityRank

end Binary64

end Kaleidoscope
