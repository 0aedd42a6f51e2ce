/-
  A session: texts are read one after another, while declarations and the module grow.

  - `Session`: what has been declared, and the module so far;
  - `Event`: a message, or a text of the output;
  - `Session.process`: checks a node, and only then emits it. A node that is wrong is reported and
    leaves no output;
  - `Session.evaluate`: all constructs of a source text;
  - `Turn`: what comes of it. Writing a function with an incomplete block ends a turn at once.
-/
import Kaleidoscope.Checker.Backend
import Kaleidoscope.Diagnostic
import Kaleidoscope.Ir.Backend
import Kaleidoscope.Ir.Text
import Kaleidoscope.Parser.Events
import Kaleidoscope.SExpr

namespace Kaleidoscope

/-- What is written for each construct. -/
inductive EmitMode where
  /-- The function that it adds to the module. -/
  | ir
  /-- The tree. -/
  | tree
  deriving DecidableEq, Repr

/-- What has been declared, and the module so far. -/
structure Session where
  mode : EmitMode
  checker : Checker
  builder : Ir.Builder

/-- The kinds of construct, as a session tells them apart. -/
inductive ConstructKind where
  | definition
  | declaration
  | evaluation
  deriving DecidableEq, Repr

/-- The message of a construct that was accepted. -/
def ConstructKind.message : ConstructKind → String
  | definition => "parsed a function definition"
  | declaration => "parsed an extern"
  | evaluation => "parsed a top-level expression"

/-- The kind of a construct. -/
def Construct.kind : Construct → ConstructKind
  | definition .. => .definition
  | declaration .. => .declaration
  | evaluation .. => .evaluation

namespace Session

/-- A session at its start. -/
def initial (mode : EmitMode) : Session := ⟨mode, .initial, .initial⟩

/-- One thing that a session brings about. -/
inductive Event where
  /-- A message. -/
  | diagnostic (d : Diagnostic)
  /-- A line of output. -/
  | output (text : String)
  deriving DecidableEq, Repr

/-- What comes of a request. -/
structure Turn where
  session : Session
  events : List Event
  /-- Why the turn ended before its time. -/
  broken : Option Ir.Unwritable

/-- The message of an error. -/
def Event.ofError (e : Error) : Event := .diagnostic (.ofError e)

/-- How emitting a node ends. -/
inductive Emission where
  /-- With a text. -/
  | text (text : String)
  /-- With an error. -/
  | error (e : Error)
  /-- With a function that cannot be written. -/
  | broken (u : Ir.Unwritable)

/-- Writes a node as a tree. -/
def emitTree : Node → String
  | .prototype p => p.toSExpr
  | n => n.toSExpr

/-- Adds a node to the module, and writes the function that it stands for. -/
def emitIr (n : Node) (b : Ir.Builder) : Emission × Ir.Builder :=
  match n.lowerFresh Ir.Builder.backend b with
  | (.error e, b) => (.error e, b)
  | (.ok (.function serial), b) =>
    match b.write serial with
    | (.ok text, b) => (.text text, b)
    | (.error (.clash function c), b) =>
      let detail := (Ir.Unwritable.clash function c).message
      (.error (.numbering (Ir.listedName function) detail), b)
    | (.error u, b) => (.broken u, b)
  | (.ok _, b) => (.error .noFunction, b)

/-- Writes a checked node. -/
def emit (s : Session) (n : Node) : Emission × Session :=
  match s.mode with
  | .tree => (.text (emitTree n), s)
  | .ir =>
    let (emission, b) := emitIr n s.builder
    (emission, { s with builder := b })

/-- Checks a node, and emits it if it is right. -/
def process (s : Session) (kind : ConstructKind) (n : Node) : Turn :=
  match n.lowerFresh Checker.backend s.checker with
  | (.error e, checker) => ⟨{ s with checker := checker }, [.ofError e], none⟩
  | (.ok _, checker) =>
    match emit { s with checker := checker } n with
    | (.text text, s) => ⟨s, [.diagnostic ⟨.info, kind.message⟩, .output text], none⟩
    | (.error e, s) => ⟨s, [.ofError e], none⟩
    | (.broken u, s) => ⟨s, [], some u⟩

/-- Deals with what the parser brings about, piece by piece. -/
def follow (s : Session) : List Parser.Event → Turn
  | [] => ⟨s, [], none⟩
  | .report e :: rest =>
    let turn := s.follow rest
    { turn with events := .diagnostic ⟨.error, e.message⟩ :: turn.events }
  | .construct c :: rest =>
    let first := s.process c.kind (c.toNode NodeId.first).1
    match first.broken with
    | some _ => first
    | none =>
      let turn := first.session.follow rest
      { turn with events := first.events ++ turn.events }

/-- Deals with all constructs of a source text. -/
def evaluate (s : Session) (source : ByteArray) : Turn :=
  s.follow (Parser.ofBytes source).events.1

/-- The text of the module, and the session after writing it. -/
def writeModule (s : Session) : Except Ir.Unwritable String × Session :=
  let (text, b) := s.builder.writeModule
  (text, { s with builder := b })

end Session

end Kaleidoscope
