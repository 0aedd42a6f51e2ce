/-
  A whole program, piece by piece.

  - `Parser`: the stream of the tokens that have not been read yet;
  - `Parser.errorAt`: the error that a failed recognizer leaves behind;
  - `Parser.events`: reads all pieces. One that cannot be read is reported, the token at which it
    failed is skipped, and reading goes on;
  - `Parser.recognize`: runs a single recognizer.
-/
import Kaleidoscope.Parser.Grammar
import Kaleidoscope.Token.Lexer

namespace Kaleidoscope

/-- A parser is the stream of the tokens that it has not read yet. -/
abbrev Parser := TokenStream

namespace Parser

/-- The error at the first unread token: its own, if it carries one, and else the expectation that
it fails, at its place. -/
def errorAt (finish : Option Location) (expected : Expectation) (ts : List Token) : Error :=
  let t := (TokenStream.mk ts finish).peek
  match t.kind with
  | .malformed (some cause) => cause
  | _ => .syntactic (t.loc.getD .nowhere) expected

/-- One thing that parsing brings about. -/
inductive Event where
  /-- A construct was read. -/
  | construct (c : Construct)
  /-- A construct could not be read. -/
  | report (e : Error)
  deriving DecidableEq

/-- Reads to the end of input: what happens on the way, and the tokens that are left, the end of
input in front. Semicolons between constructs mean nothing. -/
def eventsFrom (finish : Option Location) (ts : List Token) : List Event × List Token :=
  match ts with
  | [] => ([], [])
  | t :: us =>
    if t.kind = .endOfInput then ([], t :: us)
    else if t.is ';' then eventsFrom finish us
    else
      match construct (t :: us) with
      | .accept c rest _ =>
        let (events, left) := eventsFrom finish rest
        (.construct c :: events, left)
      | .reject expected rest _ =>
        let (events, left) := eventsFrom finish (rest.drop 1)
        (.report (errorAt finish expected rest) :: events, left)
termination_by ts.length
decreasing_by all_goals simp_all; try omega

/-- Reads to the end of input, and stops in front of it. -/
def events (p : Parser) : List Event × Parser :=
  let (events, left) := eventsFrom p.finish p.tokens
  (events, { p with tokens := left })

/-- Runs one recognizer. It stops in front of the token at which it fails, if it fails. -/
def recognize {α : Type} (recognizer : (ts : List Token) → Reading α ts.length) (p : Parser) :
    Except Error α × Parser :=
  match recognizer p.tokens with
  | .accept value rest _ => (.ok value, { p with tokens := rest })
  | .reject expected rest _ =>
    (.error (errorAt p.finish expected rest), { p with tokens := rest })

/-- The parser at the start of a text given as bytes. -/
def ofBytes (bytes : ByteArray) : Parser := (Lexer.ofBytes bytes).stream

end Parser

end Kaleidoscope
