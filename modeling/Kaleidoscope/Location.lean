/-
  Places in a source text.

  - `Location`: a line and a column;
  - `Location.start`, `Location.advance`: where a text starts, and where it goes on after a
    character;
  - `Location.text`, `Location.text?`: how a place is written in a message.
-/
namespace Kaleidoscope

/-- A line and a column, both counted from one in a text that the lexer reads. Tokens from
elsewhere may bring any numbers. -/
structure Location where
  line : Int
  column : Int
  deriving DecidableEq, Repr, Inhabited

namespace Location

/-- Where a text starts. -/
def start : Location := ⟨1, 1⟩

/-- The place of a token that has none. -/
def nowhere : Location := ⟨0, 0⟩

/-- The place after the character `c`: only a line feed starts a line. -/
def advance (loc : Location) (c : Char) : Location :=
  if c = '\n' then ⟨loc.line + 1, 1⟩ else ⟨loc.line, loc.column + 1⟩

/-- The place after a run of characters. -/
def advanceAll (loc : Location) (cs : List Char) : Location := cs.foldl advance loc

/-- Line and column, a colon between them. -/
def text (loc : Location) : String := toString loc.line ++ ":" ++ toString loc.column

/-- A place that may be missing. -/
def text? : Option Location → String
  | some loc => loc.text
  | none => "?:?"

@[simp] theorem advanceAll_nil (loc : Location) : loc.advanceAll [] = loc := rfl

@[simp] theorem advanceAll_cons (loc : Location) (c : Char) (cs : List Char) :
    loc.advanceAll (c :: cs) = (loc.advance c).advanceAll cs := rfl

@[simp] theorem advanceAll_append (loc : Location) (as bs : List Char) :
    loc.advanceAll (as ++ bs) = (loc.advanceAll as).advanceAll bs := by
  simp [advanceAll]

end Location

end Kaleidoscope
