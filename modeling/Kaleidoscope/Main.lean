/-
  The program on the real surroundings.

  - `host`: files, input and output of the operating system;
  - `main`: runs the program.
-/
import Kaleidoscope.CommandLine.Run

namespace Kaleidoscope.CommandLine

/-- Whether the operating system gives `code` as its reason. It is reported with either sign. -/
def isReason (code reason : UInt32) : Bool := reason = code || reason = -code

/-- Why the operating system refuses a file. -/
def fileError : IO.Error → FileError
  | .noFileOrDirectory .. => .missing
  | .permissionDenied .. => .worded "permission denied"
  | .inappropriateType _ reason _ => if isReason 20 reason then .notDirectory else .isDirectory
  | .invalidArgument _ reason _ => if isReason 36 reason then .nameTooLong else .invalid
  | .resourceExhausted _ reason text =>
    if isReason 28 reason then .noSpace else .worded text
  | e => .worded (toString e)

/-- What an action on files gives, or why it is refused. -/
def attempt {α : Type} (action : IO α) : IO (Except FileError α) := do
  try
    let value ← action
    return .ok value
  catch e => return .error (fileError e)

/-- Files, input and output of the operating system. -/
def host (home : String) : Host IO where
  read path := attempt (IO.FS.readBinFile path)
  write path content := attempt <| IO.FS.withFile path .write fun h => do
    h.write content
    h.flush
  input := do (← IO.getStdin).readBinToEnd
  put channel bytes := do
    let stream ← match channel with
      | .info => IO.getStdout
      | .error => IO.getStderr
    stream.write bytes
    stream.flush
  historyFile := if home.isEmpty then historyName else home ++ "/" ++ historyName

end Kaleidoscope.CommandLine

/-- Runs the program on the arguments. -/
def main (args : List String) : IO UInt32 := do
  let home ← IO.getEnv "HOME"
  Kaleidoscope.CommandLine.run (Kaleidoscope.CommandLine.host (home.getD "")) args
