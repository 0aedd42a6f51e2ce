/-
  What every program can rely on.

  - `LibraryFunction`: the functions of the C library that the built-in functions call. They live
    in the module under their own names, so a program may neither declare nor define them;
  - `Builtin`: the functions that every program may call;
  - `Prototype.validate`: the rules that a prototype obeys on its own.
-/
import Kaleidoscope.Construct
import Kaleidoscope.Error

namespace Kaleidoscope

/-- The functions of the C library that the built-in functions call. -/
inductive LibraryFunction where
  /-- Formatted output. -/
  | printf
  /-- Output of one character. -/
  | putchar
  deriving DecidableEq, Repr

/-- The name of a library function. -/
def LibraryFunction.name : LibraryFunction → String
  | printf => "printf"
  | putchar => "putchar"

/-- The names that programs may not use. -/
def LibraryFunction.reserved : List String := [printf.name, putchar.name]

/-- The functions that every program may call. -/
inductive Builtin where
  /-- Prints its argument on a line, and returns zero. -/
  | printd
  /-- Prints its argument as a character, and returns zero. -/
  | putchard
  deriving DecidableEq, Repr

/-- The prototype of a built-in function. -/
def Builtin.proto : Builtin → Prototype
  | printd => ⟨"printd", ["x"]⟩
  | putchard => ⟨"putchard", ["c"]⟩

/-- The first of the names that occurs in `seen` or before itself. -/
def firstRepeated? (seen : List String) : List String → Option String
  | [] => none
  | name :: names => if name ∈ seen then some name else firstRepeated? (name :: seen) names

/-- A prototype may not have a reserved name, and not two parameters of one name. -/
def Prototype.validate (p : Prototype) : Except Error Unit :=
  if p.name ∈ LibraryFunction.reserved then .error (.reservedName p.name)
  else
    match firstRepeated? [] p.params with
    | some param => .error (.duplicateParameter p.name param)
    | none => .ok ()

end Kaleidoscope
