/-
  The program.

  - `run`: reads the options, then compiles the files, or reads lines if there are none;
  - `compileFiles`: one session over all files; at the end the module is written. A file that
    cannot be read ends the run;
  - `readLines`: one session over the lines of the input, with a prompt before each. The lines are
    kept for the next time.
-/
import Kaleidoscope.CommandLine.History
import Kaleidoscope.CommandLine.Host
import Kaleidoscope.CommandLine.Options

namespace Kaleidoscope.CommandLine

variable {m : Type → Type} [Monad m]

/-- The name of the file that keeps the lines. -/
def historyName : String := ".kscope_history"

/-- What is written before a line is read. -/
def prompt : String := "ready> "

/-- A run: where it writes, and which messages it shows. -/
structure Console (m : Type → Type) where
  host : Host m
  sink : Sink

namespace Console

/-- Shows a message. -/
def report (c : Console m) (d : Diagnostic) : m Unit :=
  match c.sink.report d.severity d.message.toUTF8 with
  | some (channel, line) => c.host.put channel line
  | none => pure ()

/-- Writes to the standard output. -/
def print (c : Console m) (text : String) : m Unit := c.host.put .info text.toUTF8

/-- Shows what a turn brought about. Output is written only if it is `shown`. -/
def follow (c : Console m) (shown : Bool) : List Session.Event → m Unit
  | [] => pure ()
  | .diagnostic d :: rest => do
    c.report d
    c.follow shown rest
  | .output text :: rest => do
    if shown then c.print (text ++ "\n") else pure ()
    c.follow shown rest

end Console

/-- Writes the module to a file, or to the standard output if the name is empty and `shown` says
so. The exit code is zero if all went well. -/
def writeModule (c : Console m) (s : Session) (name : String) (shown : Bool) : m UInt32 :=
  if name.isEmpty ∧ ¬shown then pure 0
  else
    match s.writeModule.1 with
    | .error u => do
      c.report ⟨.fatal, u.moduleMessage⟩
      return 1
    | .ok text =>
      if name.isEmpty then do
        c.print text
        return 0
      else do
        match ← c.host.write name text.toUTF8 with
        | .ok () => return 0
        | .error e =>
          c.report (.ofError (e.writing name))
          return 1

/-- Compiles the files one after another, and then writes the module unless trees are written. -/
def compileFiles (c : Console m) (output : String) (s : Session) : List String → m UInt32
  | [] =>
    match s.mode with
    | .tree => pure 0
    | .ir => writeModule c s output true
  | file :: files => do
    match ← c.host.read file with
    | .error e =>
      c.report (.ofError (e.reading file))
      return 1
    | .ok source =>
      let turn := s.evaluate source
      c.follow (s.mode = .tree) turn.events
      compileFiles c output turn.session files

/-- Evaluates the lines one after another. Lines of white space are passed over. -/
def readEach (c : Console m) (s : Session) (h : History) :
    List Line → m (Session × History)
  | [] => do
    c.print prompt
    return (s, h)
  | line :: rest => do
    c.print prompt
    if isBlankLine line.bytes then readEach c s h rest
    else
      let turn := s.evaluate line.bytes.toByteArray
      c.follow true turn.events
      readEach c turn.session (h.add line.bytes) rest

/-- Evaluates the lines of the input. The module is written only if a file is named. -/
def readLines (c : Console m) (output : String) (s : Session) : m UInt32 := do
  let kept ← c.host.read c.host.historyFile
  let h := match kept with
    | .ok bytes => History.ofBytes bytes
    | .error _ => History.empty
  let input ← c.host.input
  let (s, h) ← readEach c s h (lines input.toList)
  c.print "\n"
  let code ← writeModule c s output false
  let _ ← c.host.write c.host.historyFile h.toBytes
  return code

/-- Runs the program on arguments, and gives the exit code. -/
def run (host : Host m) (args : List String) : m UInt32 :=
  match Options.initial.parse args with
  | .problem p => do
    host.put .error (p.message ++ "\n" ++ usage).toUTF8
    return 2
  | .help => do
    host.put .error usage.toUTF8
    return 0
  | .run options files =>
    match emitMode? options.emit with
    | none => do
      host.put .error (unknownMode options.emit ++ "\n").toUTF8
      return 2
    | some mode =>
      let c : Console m := ⟨host, ⟨true, true, options.quiet⟩⟩
      match files with
      | [] => readLines c options.output (.initial mode)
      | files => compileFiles c options.output (.initial mode) files

end Kaleidoscope.CommandLine
