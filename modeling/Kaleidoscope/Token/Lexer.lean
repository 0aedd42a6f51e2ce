/-
  From characters to tokens.

  - `Lexer`: the characters still to be read and the place of the first of them;
  - `Lexer.skipGap`: past blanks and comments;
  - `Lexer.next`: one token; at the end of the text it is the end of input, again and again;
  - `Lexer.tokens`: all tokens before the end of input;
  - `next_length_lt`: a token other than the end of input takes at least one character.
-/
import Kaleidoscope.Binary64.Nearest
import Kaleidoscope.Text.Blank
import Kaleidoscope.Text.Letter
import Kaleidoscope.Token.Basic

namespace Kaleidoscope

/-- The characters still to be read, and the place of the first of them. -/
structure Lexer where
  rest : List Char
  loc : Location

namespace Lexer

/-- The lexer at the start of a text. -/
def ofChars (cs : List Char) : Lexer := ⟨cs, .start⟩

/-- The lexer at the start of a text given as bytes. -/
def ofBytes (bytes : ByteArray) : Lexer := ofChars (Text.decode bytes.toList)

/-- The longest run of characters that satisfy `p`. -/
def run (p : Char → Bool) (l : Lexer) : List Char := l.rest.takeWhile p

/-- The lexer after that run. -/
def afterRun (p : Char → Bool) (l : Lexer) : Lexer :=
  ⟨l.rest.dropWhile p, l.loc.advanceAll (l.run p)⟩

/-- The characters of a comment, which ends before a line feed or a carriage return. -/
def inComment (c : Char) : Bool := c != '\n' && c != '\r'

/-- The characters of a name after its first. -/
def inName (c : Char) : Bool := Text.isLetter c || c.isDigit

/-- The characters of a number. -/
def inNumber (c : Char) : Bool := c.isDigit || c == '.'

theorem length_dropWhile_le {α : Type} (p : α → Bool) (l : List α) :
    (l.dropWhile p).length ≤ l.length :=
  (List.dropWhile_sublist p).length_le

theorem length_afterRun_le (p : Char → Bool) (l : Lexer) :
    (l.afterRun p).rest.length ≤ l.rest.length :=
  length_dropWhile_le p l.rest

theorem length_afterRun_lt {p : Char → Bool} {l : Lexer} {c : Char} {cs : List Char}
    (h : l.rest = c :: cs) (hc : p c = true) : (l.afterRun p).rest.length < l.rest.length := by
  have := length_dropWhile_le p cs
  simp only [afterRun, h, List.dropWhile_cons, hc, if_true, List.length_cons]
  omega

/-- Past blanks and comments, to the next token or the end of the text. -/
def skipGap (l : Lexer) : Lexer :=
  let l' := l.afterRun Text.isBlank
  match _h : l'.rest with
  | '#' :: _ => (l'.afterRun inComment).skipGap
  | _ => l'
termination_by l.rest.length
decreasing_by
  exact Nat.lt_of_lt_of_le (length_afterRun_lt _h (by decide)) (length_afterRun_le _ l)

/-- The token of a name: a keyword if it is spelled so. -/
def nameToken (text : String) (loc : Location) : Token :=
  if text = "def" then ⟨.define, text, some loc⟩
  else if text = "extern" then ⟨.declare, text, some loc⟩
  else ⟨.identifier, text, some loc⟩

/-- The token of a run of digits and dots. -/
def numberToken (run : List Char) (loc : Location) : Token :=
  let text := String.ofList run
  let malformed (problem : LexicalProblem) : Token :=
    ⟨.malformed (some (.lexical loc problem text)), text, some loc⟩
  if 1 < run.count '.' then malformed .numberFormat
  else
    match Binary64.ofRun? run with
    | some value => ⟨.number value, text, some loc⟩
    | none => malformed .numberValue

/-- The token at the first character that is neither blank nor in a comment, and the lexer after
it. -/
def read (l : Lexer) : Token × Lexer :=
  match l.rest with
  | [] => (Token.finish (some l.loc), l)
  | c :: cs =>
    if Text.isLetter c then (nameToken (String.ofList (l.run inName)) l.loc, l.afterRun inName)
    else if inNumber c then (numberToken (l.run inNumber) l.loc, l.afterRun inNumber)
    else (⟨.symbol c, String.singleton c, some l.loc⟩, ⟨cs, l.loc.advance c⟩)

/-- The next token, and the lexer after it. -/
def next (l : Lexer) : Token × Lexer := l.skipGap.read

theorem length_skipGap_le (l : Lexer) : l.skipGap.rest.length ≤ l.rest.length := by
  fun_induction skipGap l with
  | case1 l l' cs h ih =>
    exact Nat.le_trans ih (Nat.le_trans (length_afterRun_le _ l') (length_afterRun_le _ l))
  | case2 l l' h => exact length_afterRun_le _ l

theorem length_read_lt {l : Lexer} (h : l.rest ≠ []) :
    l.read.2.rest.length < l.rest.length := by
  unfold read
  split
  · contradiction
  · rename_i c cs hl
    split
    · rename_i hc
      exact length_afterRun_lt hl (by simp [inName, hc])
    · split
      · rename_i hc
        exact length_afterRun_lt hl hc
      · simp [hl]

theorem read_nil {l : Lexer} (h : l.rest = []) : l.read.1.kind = .endOfInput := by
  unfold read
  split
  · rfl
  · simp_all

/-- A token other than the end of input takes at least one character. -/
theorem next_length_lt {l : Lexer} (h : l.next.1.kind ≠ .endOfInput) :
    l.next.2.rest.length < l.rest.length := by
  refine Nat.lt_of_lt_of_le (length_read_lt fun nil => h (read_nil nil)) (length_skipGap_le l)

/-- The tokens up to and including the first end of input, and the lexer there. -/
def drain (l : Lexer) : List Token × Lexer :=
  match _h : l.next with
  | (t, l') =>
    if _ht : t.kind = .endOfInput then ([t], l')
    else
      let (tokens, last) := l'.drain
      (t :: tokens, last)
termination_by l.rest.length
decreasing_by
  have step := next_length_lt (l := l)
  rw [_h] at step
  exact step _ht

/-- The tokens before the first end of input. -/
def tokens (l : Lexer) : List Token := l.drain.1.dropLast

/-- The tokens of the text, as the parser reads them: after the last one the end of input comes
at the end of the text. -/
def stream (l : Lexer) : TokenStream :=
  let (tokens, last) := l.drain
  ⟨tokens.dropLast, some last.loc⟩

end Lexer

end Kaleidoscope
