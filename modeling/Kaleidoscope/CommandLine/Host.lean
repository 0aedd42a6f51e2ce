/-
  What the command line needs from its surroundings.

  - `FileError`: why a file cannot be read or written, and the wording;
  - `Host`: files, the input and the two output channels, over any monad.
-/
import Kaleidoscope.Diagnostic

namespace Kaleidoscope.CommandLine

/-- Why a file cannot be read or written. -/
inductive FileError where
  /-- There is no such file, or no directory to put it in. -/
  | missing
  /-- It is a directory. -/
  | isDirectory
  /-- A part of its path is a file. -/
  | notDirectory
  /-- Its path, or a name in it, is longer than any can be. -/
  | nameTooLong
  /-- Its path is none: it has a zero byte. -/
  | invalid
  /-- There is no room for what is written. -/
  | noSpace
  /-- Another reason, in words. -/
  | worded (text : String)

namespace FileError

/-- The reason in words. -/
def text : FileError → String
  | missing => "no such file or directory"
  | isDirectory => "is a directory"
  | notDirectory => "not a directory"
  | nameTooLong => "file name too long"
  | invalid => "invalid argument"
  | noSpace => "no space left on device"
  | worded text => text

/-- Why `name` cannot be read. A directory can be opened, but not read. -/
def reading (e : FileError) (name : String) : Error :=
  let step := match e with
    | isDirectory => "read "
    | _ => "open "
  .reading name (step ++ name ++ ": " ++ e.text)

/-- Why `name` cannot be written. That there is no room shows only after it is opened. -/
def writing (e : FileError) (name : String) : Error :=
  let step := match e with
    | noSpace => "write "
    | _ => "open "
  .writing name (step ++ name ++ ": " ++ e.text)

end FileError

/-- Files, input and output. -/
structure Host (m : Type → Type) where
  /-- The content of a file. -/
  read : String → m (Except FileError ByteArray)
  /-- Gives a file a content. -/
  write : String → ByteArray → m (Except FileError Unit)
  /-- Takes all that is left of the standard input. -/
  input : m ByteArray
  /-- Writes to the standard output, the channel of information, or to the standard error. -/
  put : Channel → ByteArray → m Unit
  /-- The file that keeps the lines that were typed. -/
  historyFile : String

end Kaleidoscope.CommandLine
