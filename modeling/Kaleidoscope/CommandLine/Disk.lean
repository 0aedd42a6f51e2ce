/-
  A file system held in memory, to run the program without touching anything.

  - `Disk`: directories, files, the input, and what was written to the two output channels;
  - `Device`: the files under `/dev` that stand for the channels, or for nothing;
  - `Disk.walk`: what a list of names leads to, from a directory;
  - `Disk.read`, `Disk.write`: files by their path. A slash at the end of a path asks for a
    directory;
  - `Disk.host`: the surroundings of the command line on a disk.
-/
import Kaleidoscope.CommandLine.Host

namespace Kaleidoscope.CommandLine

/-- A place in the file system: names from the root down. -/
abbrev Path := List String

/-- Directories, files, input and output. -/
structure Disk where
  directories : List Path
  files : List (Path × ByteArray)
  /-- What is left of the standard input. -/
  input : ByteArray
  output : ByteArray
  errors : ByteArray

/-- A file that keeps nothing. -/
inductive Device where
  /-- Takes everything and gives nothing. -/
  | null
  /-- Has no room. -/
  | full
  /-- The standard input. -/
  | input
  /-- The standard output or the standard error. -/
  | channel (c : Channel)

/-- What a path leads to. -/
inductive Place where
  /-- A directory. -/
  | directory
  /-- A file and its content. -/
  | file (path : Path) (content : ByteArray)
  /-- A device. -/
  | device (dev : Device)
  /-- Nothing yet, in a directory that exists. -/
  | free (path : Path)

namespace Disk

/-! ## Paths -/

/-- Where a path starts that does not start at the root. -/
def workingDirectory : Path := ["home", "user"]

/-- The directories under the root that are always there. -/
def standing : List String :=
  ["bin", "dev", "etc", "home", "lib", "media", "mnt", "opt", "proc", "root", "run", "sbin", "srv",
    "sys", "tmp", "usr", "var"]

/-- The devices, by their place. -/
def devices : List (Path × Device) :=
  [(["dev", "null"], .null), (["dev", "full"], .full), (["dev", "stdin"], .input),
    (["dev", "stdout"], .channel .info), (["dev", "stderr"], .channel .error),
    (["dev", "fd", "0"], .input), (["dev", "fd", "1"], .channel .info),
    (["dev", "fd", "2"], .channel .error)]

/-- How many bytes a name can have. -/
def nameLimit : Nat := 255

/-- How many bytes a path can have. -/
def pathLimit : Nat := 4095

/-- The names between the slashes of a path. -/
def names (path : String) : List String := (path.splitOn "/").filter (!·.isEmpty)

/-- The directory where a path starts, and the names to follow from there. -/
def route (path : String) : Except FileError (Path × List String) :=
  if '\x00' ∈ path.toList then .error .invalid
  else if path.isEmpty then .error .missing
  else if pathLimit < path.utf8ByteSize then .error .nameTooLong
  else .ok (if path.startsWith "/" then [] else workingDirectory, names path)

/-! ## Places -/

/-- Whether there is a directory at a place. Every directory above a file or a directory exists. -/
def hasDirectory (d : Disk) (path : Path) : Bool :=
  path.isPrefixOf workingDirectory || standing.any ([·] == path) ||
    d.directories.any (path.isPrefixOf ·) ||
    d.files.any (fun (file, _) => path.isPrefixOf file.dropLast) ||
    devices.any fun (dev, _) => path.isPrefixOf dev.dropLast

/-- What is at a place in a directory. -/
def lookup (d : Disk) (path : Path) : Place :=
  if d.hasDirectory path then .directory
  else
    match devices.lookup path, d.files.lookup path with
    | some dev, _ => .device dev
    | none, some content => .file path content
    | none, none => .free path

/-- Follows names from a directory. One dot stays there, two dots lead up, and nothing is above the
root. -/
def walk (d : Disk) (here : Path) : List String → Except FileError Place
  | [] => .ok .directory
  | name :: rest =>
    if name = "." then d.walk here rest
    else if name = ".." then d.walk here.dropLast rest
    else if nameLimit < name.utf8ByteSize then .error .nameTooLong
    else
      match d.lookup (here ++ [name]), rest with
      | .directory, rest => d.walk (here ++ [name]) rest
      | place, [] => .ok place
      | .free _, _ :: _ => .error .missing
      | _, _ :: _ => .error .notDirectory

/-- What is there to read at a path. With a slash at the end it can only be a directory. -/
def source (d : Disk) (path : String) : Except FileError Place := do
  let (start, names) ← route path
  match ← d.walk start names with
  | .file place content =>
    if path.endsWith "/" then throw .notDirectory else return .file place content
  | .device dev => if path.endsWith "/" then throw .notDirectory else return .device dev
  | place => return place

/-- What is there to write to at a path. With a slash at the end nothing is, whatever the name
before it: a directory cannot be written. -/
def target (d : Disk) (path : String) : Except FileError Place := do
  let (start, names) ← route path
  if path.endsWith "/" then
    match ← d.walk start names.dropLast with
    | .directory => throw .isDirectory
    | .free _ => throw .missing
    | _ => throw .notDirectory
  else d.walk start names

/-! ## Reading and writing -/

/-- Takes all that is left of the standard input. -/
def takeInput (d : Disk) : ByteArray × Disk := (d.input, { d with input := .empty })

/-- Adds to an output channel. -/
def put (d : Disk) (channel : Channel) (bytes : ByteArray) : Disk :=
  match channel with
  | .info => { d with output := d.output ++ bytes }
  | .error => { d with errors := d.errors ++ bytes }

/-- Gives the file at a place a content. -/
def store (d : Disk) (path : Path) (content : ByteArray) : Disk :=
  { d with files := (path, content) :: d.files.filter (·.1 != path) }

/-- Reads a file. Of the devices only the standard input has a content, and only once. -/
def read (d : Disk) (path : String) : Except FileError (ByteArray × Disk) := do
  match ← d.source path with
  | .directory => throw .isDirectory
  | .file _ content => return (content, d)
  | .device .input => return d.takeInput
  | .device _ => return (.empty, d)
  | .free _ => throw .missing

/-- Writes a file, which need not exist. -/
def write (d : Disk) (path : String) (content : ByteArray) : Except FileError Disk := do
  match ← d.target path with
  | .directory => throw .isDirectory
  | .file place _ => return d.store place content
  | .device .full => throw .noSpace
  | .device (.channel c) => return d.put c content
  | .device _ => return d
  | .free place => return d.store place content

/-- A disk with directories and files in the working directory. -/
def ofFiles (directories : List String) (files : List (String × ByteArray)) (input : ByteArray) :
    Disk where
  directories := directories.map (workingDirectory ++ names ·)
  files := files.map fun (name, content) => (workingDirectory ++ names name, content)
  input := input
  output := .empty
  errors := .empty

/-- The files in the working directory that are new or have another content than before. -/
def changes (before after : Disk) : List (String × ByteArray) :=
  after.files.filterMap fun (path, content) =>
    if workingDirectory.isPrefixOf path && before.files.lookup path != some content then
      some ("/".intercalate (path.drop workingDirectory.length), content)
    else none

/-- The surroundings of the command line on a disk; the working directory is also the home. -/
def host (historyFile : String) : Host (StateM Disk) where
  read path := do
    match (← get).read path with
    | .ok (content, d) =>
      set d
      return .ok content
    | .error e => return .error e
  write path content := do
    match (← get).write path content with
    | .ok d =>
      set d
      return .ok ()
    | .error e => return .error e
  input := modifyGet takeInput
  put channel bytes := modify (·.put channel bytes)
  historyFile := historyFile

end Disk

end Kaleidoscope.CommandLine
