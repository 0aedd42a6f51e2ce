/-
  Characters and texts in quotes, for messages.

  - `escaped`: how a character is written between quotes: a printable one as itself, the quote and
    the backslash behind a backslash, the rest by a letter or by its number;
  - `quotedChar`, `quoted`: a character in single quotes, a text in double quotes.
-/
import Kaleidoscope.Text.Printable

namespace Kaleidoscope.Text

/-- The lower-case hexadecimal digits of `n`, at least `width` of them. -/
def hexadecimal (width n : Nat) : String :=
  let digits := Nat.toDigits 16 n
  String.ofList (List.replicate (width - digits.length) '0' ++ digits)

/-- The letter that stands for a control character behind a backslash. -/
def controlLetter? (n : Nat) : Option Char :=
  match n with
  | 0x07 => some 'a'
  | 0x08 => some 'b'
  | 0x09 => some 't'
  | 0x0A => some 'n'
  | 0x0B => some 'v'
  | 0x0C => some 'f'
  | 0x0D => some 'r'
  | _ => none

/-- How `c` is written between two quotes `mark`. -/
def escaped (mark c : Char) : String :=
  if c = mark ∨ c = '\\' then String.ofList ['\\', c]
  else if isPrintable c then String.singleton c
  else
    match controlLetter? c.toNat with
    | some letter => String.ofList ['\\', letter]
    | none =>
      if c.toNat < 0x20 ∨ c.toNat = 0x7F then "\\x" ++ hexadecimal 2 c.toNat
      else if c.toNat < 0x10000 then "\\u" ++ hexadecimal 4 c.toNat
      else "\\U" ++ hexadecimal 8 c.toNat

/-- A character in single quotes. -/
def quotedChar (c : Char) : String := "'" ++ escaped '\x27' c ++ "'"

/-- A text in double quotes. -/
def quoted (s : String) : String :=
  "\x22" ++ String.join (s.toList.map (escaped '\x22')) ++ "\x22"

end Kaleidoscope.Text
