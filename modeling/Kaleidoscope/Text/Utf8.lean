/-
  Source bytes as characters.

  - `leading?`: the character that a sequence of bytes starts with, and how many bytes it takes
    after the first;
  - `charOfCode`: the character of a code point given as a number;
  - `decode`: all characters of a text; a byte that starts no character stands for `replacement`,
    on its own, so that reading goes on at the very next byte;
  - `decode_ascii`: an ASCII byte is a character of its own, whatever stands around it.
-/
namespace Kaleidoscope.Text

/-- What a byte that starts no character is read as. -/
def replacement : Char := '\uFFFD'

/-- The code point `n`, if it needs no fewer bytes than it was written with and is a character. -/
def scalar? (least n : Nat) : Option Char :=
  if least ≤ n ∧ (n < 0xD800 ∨ (0xDFFF < n ∧ n < 0x110000)) then some (Char.ofNat n) else none

/-- The character of a code, or the replacement if the code is none of a character. -/
def charOfCode (n : Int) : Char :=
  if n < 0 then replacement else (scalar? 0 n.toNat).getD replacement

/-- The six bits that a byte of the form `10xxxxxx` adds to a character. -/
def tail? (b : UInt8) : Option Nat :=
  if 0x80 ≤ b.toNat ∧ b.toNat < 0xC0 then some (b.toNat - 0x80) else none

/-- The character that starts with the byte `a` and goes on in `rest`, and how many bytes of
`rest` belong to it. -/
def leading? (a : UInt8) (rest : List UInt8) : Option (Char × Nat) :=
  let n := a.toNat
  if n < 0x80 then some (Char.ofNat n, 0)
  else if n < 0xC0 then none
  else if n < 0xE0 then
    match rest with
    | b :: _ => do
      let x ← tail? b
      let c ← scalar? 0x80 ((n - 0xC0) * 0x40 + x)
      return (c, 1)
    | _ => none
  else if n < 0xF0 then
    match rest with
    | b :: c :: _ => do
      let x ← tail? b
      let y ← tail? c
      let c ← scalar? 0x800 (((n - 0xE0) * 0x40 + x) * 0x40 + y)
      return (c, 2)
    | _ => none
  else if n < 0xF8 then
    match rest with
    | b :: c :: d :: _ => do
      let x ← tail? b
      let y ← tail? c
      let z ← tail? d
      let c ← scalar? 0x10000 ((((n - 0xF0) * 0x40 + x) * 0x40 + y) * 0x40 + z)
      return (c, 3)
    | _ => none
  else none

/-- The characters of a text. -/
def decode : List UInt8 → List Char
  | [] => []
  | a :: rest =>
    match leading? a rest with
    | some (c, k) => c :: decode (rest.drop k)
    | none => replacement :: decode rest
termination_by bytes => bytes.length
decreasing_by all_goals simp; try omega

theorem leading?_ascii {a : UInt8} (h : a.toNat < 0x80) (rest : List UInt8) :
    leading? a rest = some (Char.ofNat a.toNat, 0) := by
  simp [leading?, h]

/-- An ASCII byte is a character of its own. -/
theorem decode_ascii {a : UInt8} (h : a.toNat < 0x80) (rest : List UInt8) :
    decode (a :: rest) = Char.ofNat a.toNat :: decode rest := by
  rw [decode, leading?_ascii h]
  simp

end Kaleidoscope.Text
