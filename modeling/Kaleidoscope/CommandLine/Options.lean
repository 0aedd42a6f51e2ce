/-
  The options of the command line.

  - `Options`: what the options say;
  - `Options.parse`: reads options up to the first argument that is none, up to a lone `-`, or up
    to and including `--`; the rest are files;
  - `Options.Problem`: what can be wrong with them, and its wording;
  - `usage`: the help text.
-/
import Kaleidoscope.Session
import Kaleidoscope.Text.Quoted

namespace Kaleidoscope.CommandLine

/-- What the options say. -/
structure Options where
  /-- What to write for each construct. -/
  emit : String
  /-- The file that the module goes to; empty for none. -/
  output : String
  /-- No information. -/
  quiet : Bool

/-- What holds if no option is given. -/
def Options.initial : Options := ⟨"ir", "", false⟩

/-- What can be wrong with an option. -/
inductive Options.Problem where
  /-- An argument that only looks like an option. -/
  | form (arg : String)
  /-- An option that does not exist. -/
  | unknown (name : String)
  /-- An option without its value at the end of the arguments. -/
  | missingValue (name : String)
  /-- A value that is neither true nor false. -/
  | notBoolean (value name : String)

/-- The wording of a problem. -/
def Options.Problem.message : Options.Problem → String
  | form arg => "bad flag syntax: " ++ arg
  | unknown name => "flag provided but not defined: -" ++ name
  | missingValue name => "flag needs an argument: -" ++ name
  | notBoolean value name =>
    "invalid boolean value " ++ Text.quoted value ++ " for -" ++ name ++ ": parse error"

/-- How reading the arguments ends. -/
inductive Request where
  /-- With options and files. -/
  | run (options : Options) (files : List String)
  /-- With a request for help. -/
  | help
  /-- With a problem. -/
  | problem (p : Options.Problem)

/-- One argument on its own. -/
inductive Argument where
  /-- No option; the options end before it. -/
  | operand
  /-- The options end with it. -/
  | terminator
  /-- An option with a wrong name. -/
  | malformed
  /-- An option, and its value if it is given in the same argument. -/
  | option (name : String) (value : Option String)

/-- What follows the dashes: a name, and a value after an equals sign. -/
def Argument.named : List Char → Argument
  | [] => malformed
  | c :: cs =>
    if c = '-' ∨ c = '=' then malformed
    else
      let name := (c :: cs).takeWhile (· != '=')
      match (c :: cs).dropWhile (· != '=') with
      | [] => option (String.ofList name) none
      | _ :: value => option (String.ofList name) (some (String.ofList value))

/-- Reads one argument: an option starts with one dash or two. -/
def Argument.ofString (arg : String) : Argument :=
  match arg.toList with
  | ['-', '-'] => terminator
  | '-' :: '-' :: cs => named cs
  | '-' :: c :: cs => named (c :: cs)
  | _ => operand

/-- The spellings of truth values. -/
def boolean? (value : String) : Option Bool :=
  if value ∈ ["1", "t", "T", "TRUE", "true", "True"] then some true
  else if value ∈ ["0", "f", "F", "FALSE", "false", "False"] then some false
  else none

/-- How an option that takes a value is set. -/
def Options.setter? (name : String) : Option (Options → String → Options) :=
  if name = "emit" then some fun options value => { options with emit := value }
  else if name = "o" then some fun options value => { options with output := value }
  else none

/-- Reads the arguments. -/
def Options.parse (options : Options) : List String → Request
  | [] => .run options []
  | arg :: rest =>
    match Argument.ofString arg with
    | .operand => .run options (arg :: rest)
    | .terminator => .run options rest
    | .malformed => .problem (.form arg)
    | .option name value =>
      if name = "q" then
        match boolean? (value.getD "true") with
        | some quiet => Options.parse { options with quiet := quiet } rest
        | none => .problem (.notBoolean (value.getD "true") name)
      else
        match Options.setter? name with
        | none => if name = "h" ∨ name = "help" then .help else .problem (.unknown name)
        | some set =>
          match value with
          | some value => Options.parse (set options value) rest
          | none =>
            match rest with
            | [] => .problem (.missingValue name)
            | value :: rest => Options.parse (set options value) rest

/-- The lower-case form of a character, as far as the names of the modes can meet it. The capital I
with a dot is a capital I. -/
def lowered (c : Char) : Char := if c = '\u0130' then 'i' else c.toLower

/-- The mode of a name, upper or lower case. -/
def emitMode? (name : String) : Option EmitMode :=
  let name := String.ofList (name.toList.map lowered)
  if name = "ir" then some .ir else if name = "ast" then some .tree else none

/-- The message for a mode that does not exist. -/
def unknownMode (name : String) : String := "unknown emit mode " ++ Text.quoted name

/-- The help text. -/
def usage : String :=
  "Usage:\n" ++
  "  kscope [flags]              Start the REPL.\n" ++
  "  kscope [flags] file.ks ...  Compile the given files into one module.\n" ++
  "\n" ++
  "Flags:\n" ++
  "  -emit string\n" ++
  "    \twhat to print for each construct: ir or ast (default \x22ir\x22)\n" ++
  "  -o string\n" ++
  "    \twrite the final LLVM module to this file\n" ++
  "  -q\tsuppress info diagnostics\n"

end Kaleidoscope.CommandLine
