/-
  Messages to the user.

  - `Severity`: how bad it is;
  - `Diagnostic`: a message and its severity;
  - `Sink`: where messages go: information to one channel, everything else to another;
  - `Sink.report`: the channel and the line of a message, if it is shown at all.
-/
import Kaleidoscope.Error

namespace Kaleidoscope

/-- How bad it is. -/
inductive Severity where
  /-- A success. -/
  | info
  /-- A mistake in the program. -/
  | error
  /-- A failure of the tool. -/
  | fatal
  /-- None of these. -/
  | unknown
  deriving DecidableEq, Repr

namespace Severity

/-- The name of a severity. -/
def text : Severity → String
  | info => "info"
  | error => "error"
  | fatal => "fatal"
  | unknown => "unknown"

/-- The severity of a number. -/
def ofInt (n : Int) : Severity :=
  if n = 0 then info else if n = 1 then error else if n = 2 then fatal else unknown

/-- Mistakes in the program are errors; all else is fatal. -/
def ofError (e : Error) : Severity := if e.isMistake then error else fatal

end Severity

/-- A message. -/
structure Diagnostic where
  severity : Severity
  message : String
  deriving DecidableEq, Repr

/-- The message of an error. -/
def Diagnostic.ofError (e : Error) : Diagnostic := ⟨Severity.ofError e, e.message⟩

/-- The two channels of a sink. -/
inductive Channel where
  /-- For information. -/
  | info
  /-- For everything else. -/
  | error
  deriving DecidableEq, Repr

/-- A sink writes each message on a line. A channel may be missing, and information may be
suppressed. -/
structure Sink where
  hasInfo : Bool
  hasError : Bool
  quiet : Bool

namespace Sink

/-- A message on a line, behind its severity. -/
def line (severity : Severity) (message : ByteArray) : ByteArray :=
  (severity.text ++ ": ").toUTF8 ++ message ++ "\n".toUTF8

/-- The channel that messages of a severity go to. -/
def channel? (sink : Sink) (severity : Severity) : Option Channel :=
  if severity = .info then (if sink.quiet ∨ ¬sink.hasInfo then none else some .info)
  else if sink.hasError then some .error else none

/-- The channel and the line of a message, if it is shown. -/
def report (sink : Sink) (severity : Severity) (message : ByteArray) :
    Option (Channel × ByteArray) :=
  (sink.channel? severity).map fun channel => (channel, line severity message)

end Sink

end Kaleidoscope
