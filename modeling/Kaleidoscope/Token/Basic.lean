/-
  Tokens.

  - `Token.Kind`: the control tokens, and the symbols, which are their own character;
  - `Token`: a kind, the text it was read from and the place where it starts;
  - `Kind.code`, `Kind.ofCode`: kinds as numbers, control tokens below zero;
  - `Kind.name`: a kind in a message;
  - `TokenStream`: the tokens of a source, after which the end of input comes for ever.
-/
import Kaleidoscope.Binary64.Basic
import Kaleidoscope.Error
import Kaleidoscope.Text.Quoted

namespace Kaleidoscope

/-- What a token is. -/
inductive Token.Kind where
  /-- The end of input. -/
  | endOfInput
  /-- The keyword of a definition. -/
  | define
  /-- The keyword of a declaration. -/
  | declare
  /-- A name; it is the token's text. -/
  | identifier
  /-- A number and its value. -/
  | number (value : Binary64)
  /-- A token that cannot be read, and what is wrong with it if its source says so. -/
  | malformed (cause : Option Error)
  /-- A character that stands for itself. -/
  | symbol (c : Char)
  /-- A number that tags none of the others. -/
  | other (code : Int)
  deriving DecidableEq, Repr

/-- A token of the source. -/
structure Token where
  kind : Token.Kind
  /-- The characters it was read from. -/
  text : String
  /-- Where it starts, if that is known. -/
  loc : Option Location
  deriving DecidableEq, Repr

namespace Token

namespace Kind

/-- The number of a kind: a control tag below zero, or a code point. -/
def code : Kind → Int
  | endOfInput => -1
  | define => -2
  | declare => -3
  | identifier => -4
  | number _ => -5
  | malformed _ => -6
  | symbol c => c.toNat
  | other code => code

/-- The kind of a number; `value` is the value of a number token. -/
def ofCode (code : Int) (value : Binary64) : Kind :=
  if code = -1 then endOfInput
  else if code = -2 then define
  else if code = -3 then declare
  else if code = -4 then identifier
  else if code = -5 then number value
  else if code = -6 then malformed none
  else if code < 0 then other code
  else
    match Text.scalar? 0 code.toNat with
    | some c => symbol c
    | none => other code

/-- The name of a kind in a message. A code point is quoted; of a larger number the low 32 bits
are. -/
def name : Kind → String
  | endOfInput => "EOF"
  | define => "Def"
  | declare => "Extern"
  | identifier => "Identifier"
  | number _ => "Number"
  | malformed _ => "Error"
  | symbol c => Text.quotedChar c
  | other code =>
    if code < 0 then "TokenType(" ++ toString code ++ ")"
    else Text.quotedChar (Text.charOfCode (Int32.ofInt code).toInt)

end Kind

/-- The end of input at a place. -/
def finish (loc : Option Location) : Token := ⟨.endOfInput, "", loc⟩

/-- Whether the token is the character `c`. -/
def is (t : Token) (c : Char) : Bool := t.kind = .symbol c

/-- The operator that the token spells. -/
def operator? (t : Token) : Option Operator :=
  match t.kind with
  | .symbol c => Operator.ofSymbol? c
  | _ => none

/-- The token as its source hands it over together with an error: whatever it is tagged, it
counts as malformed. -/
def withError (t : Token) (cause : Error) : Token := { t with kind := .malformed (some cause) }

end Token

/-- The tokens of a source. When they are used up, the end of input at `finish` comes for ever. -/
structure TokenStream where
  tokens : List Token
  finish : Option Location

namespace TokenStream

/-- The next token. -/
def peek (s : TokenStream) : Token :=
  match s.tokens with
  | [] => Token.finish s.finish
  | t :: _ => t

end TokenStream

end Kaleidoscope
