/-
  Lines of text, and the lines that were typed before.

  - `Line`, `lines`: the lines of a text; a carriage return before a line feed belongs to the line
    end, and a line that is too long is cut;
  - `History`: lines, oldest first;
  - `History.add`: a new line, unless it repeats the last one; only the newest are kept;
  - `History.ofBytes`, `History.toBytes`: a file of lines; reading stops at a line that is too long
    or not UTF-8.
-/
import Kaleidoscope.Text.Blank
import Kaleidoscope.Text.Utf8

namespace Kaleidoscope.CommandLine

/-- How long a line can get, its end included. One that goes on is cut there. -/
def lineLimit : Nat := 4096

/-- A line without its end. -/
structure Line where
  bytes : List UInt8
  /-- Whether it was cut, so that the next line goes on with it. -/
  cut : Bool
  deriving DecidableEq, Repr

/-- A line that a line feed ends, without a carriage return at its end. -/
def chomp (line : List UInt8) : List UInt8 :=
  if line.getLast? = some 0x0D then line.dropLast else line

/-- How much of a line that is too long is taken: a carriage return at the limit is left, since it
may belong to the line end. -/
def cutLength (line : List UInt8) : Nat :=
  if line.getLast? = some 0x0D then lineLimit - 1 else lineLimit

theorem cutLength_pos (line : List UInt8) : 0 < cutLength line := by
  unfold cutLength
  split <;> decide

/-- The lines of a text. The last one need not end. -/
def lines (bytes : List UInt8) : List Line :=
  if _h : bytes = [] then []
  else
    let line := (bytes.take lineLimit).takeWhile (· != 0x0A)
    if line.length = lineLimit then
      ⟨line.take (cutLength line), true⟩ :: lines (bytes.drop (cutLength line))
    else if line.length = bytes.length then [⟨line, false⟩]
    else ⟨chomp line, false⟩ :: lines (bytes.drop (line.length + 1))
termination_by bytes.length
decreasing_by
  all_goals
    have := List.length_pos_iff.2 _h
    have := cutLength_pos ((bytes.take lineLimit).takeWhile (· != 0x0A))
    simp only [List.length_drop]
    omega

/-- Whether a line is nothing but white space. -/
def isBlankLine (line : List UInt8) : Bool := (Text.decode line).all Text.isBlank

/-- Lines that were typed, oldest first. -/
structure History where
  entries : List (List UInt8)

namespace History

/-- How many lines are kept. -/
def limit : Nat := 1000

/-- No line. -/
def empty : History := ⟨[]⟩

/-- Adds a line; beyond the limit the oldest one goes. -/
def push (h : History) (line : List UInt8) : History :=
  let entries := h.entries ++ [line]
  ⟨if limit < entries.length then entries.drop 1 else entries⟩

/-- Adds a line, unless it repeats the last one. -/
def add (h : History) (line : List UInt8) : History :=
  if h.entries.getLast? = some line then h else h.push line

/-- Whether a line is UTF-8. -/
def isUtf8 (line : List UInt8) : Bool := line.toByteArray.validateUTF8

/-- Whether a line of a file can be taken over. -/
def accepts (line : Line) : Bool := !line.cut && isUtf8 line.bytes

/-- The lines of a file, up to the first that cannot be taken over. -/
def ofBytes (bytes : ByteArray) : History :=
  (((lines bytes.toList).takeWhile accepts).map (·.bytes)).foldl push empty

/-- The lines as a file. -/
def toBytes (h : History) : ByteArray :=
  (h.entries.flatMap (· ++ [0x0A])).toByteArray

end History

end Kaleidoscope.CommandLine
