/-
  Types.

  - `Signature`: the parameters of a function, and whether it has a body yet;
  - `Ty`: a basic type, or that of a function with a signature;
  - `Ty.text`: a type in words;
  - `Ty.agrees`: when two types count as equal: the names of parameters do not matter.
-/
namespace Kaleidoscope

/-- What is known of a function. All parameters and the result are doubles. -/
structure Signature where
  params : List String
  defined : Bool
  deriving DecidableEq, Repr

/-- A type. -/
inductive Ty where
  /-- A basic type, by its name. -/
  | basic (name : String)
  /-- A function. -/
  | function (signature : Signature)
  deriving DecidableEq, Repr

namespace Ty

/-- The name of the type of all values. -/
def doubleName : String := "double"

/-- The type of all values. -/
def double : Ty := basic doubleName

/-- A type in words. -/
def text : Ty → String
  | basic name => name
  | function signature =>
    "func(" ++ ", ".intercalate (signature.params.map fun _ => doubleName) ++ ") " ++ doubleName

/-- Basic types agree if they have one name, functions if they take equally many arguments. -/
def agrees : Ty → Ty → Bool
  | basic a, basic b => a == b
  | function a, function b => a.params.length == b.params.length
  | _, _ => false

end Ty

end Kaleidoscope
