/-
  What the parser delivers.

  - `Expr`: expressions, as trees;
  - `Prototype`: the name and the parameters of a function;
  - `Construct`: a definition, a declaration, or an expression at top level.
-/
import Kaleidoscope.Binary64.Basic
import Kaleidoscope.Operator

namespace Kaleidoscope

/-- An expression. -/
inductive Expr where
  /-- A number. -/
  | number (value : Binary64)
  /-- A parameter, by its name. -/
  | identifier (name : String)
  /-- An operator between two operands. -/
  | binary (op : Operator) (left right : Expr)
  /-- A function, by its name, on arguments. -/
  | call (callee : String) (args : List Expr)
  deriving Repr

namespace Expr

mutual

/-- Whether two expressions are the same. -/
def decEq : (e e' : Expr) → Decidable (e = e')
  | .number x, .number y => decidable_of_iff (x = y) (by rw [number.injEq])
  | .identifier x, .identifier y => decidable_of_iff (x = y) (by rw [identifier.injEq])
  | .binary op left right, .binary op' left' right' =>
    let := left.decEq left'
    let := right.decEq right'
    decidable_of_iff (op = op' ∧ left = left' ∧ right = right') (by rw [binary.injEq])
  | .call callee args, .call callee' args' =>
    let := decEqAll args args'
    decidable_of_iff (callee = callee' ∧ args = args') (by rw [call.injEq])
  | .number _, .identifier _ | .number _, .binary .. | .number _, .call ..
  | .identifier _, .number _ | .identifier _, .binary .. | .identifier _, .call ..
  | .binary .., .number _ | .binary .., .identifier _ | .binary .., .call ..
  | .call .., .number _ | .call .., .identifier _ | .call .., .binary .. => .isFalse nofun

/-- Whether the expressions of two lists are the same. -/
def decEqAll : (es es' : List Expr) → Decidable (es = es')
  | [], [] => .isTrue rfl
  | e :: es, e' :: es' =>
    let := e.decEq e'
    let := decEqAll es es'
    decidable_of_iff (e = e' ∧ es = es') (by rw [List.cons.injEq])
  | [], _ :: _ | _ :: _, [] => .isFalse nofun

end

instance : DecidableEq Expr := decEq

end Expr

/-- The name and the parameters of a function. A prototype without a name is that of an
expression at top level. -/
structure Prototype where
  name : String
  params : List String
  deriving DecidableEq, Repr

namespace Prototype

/-- Whether the prototype has no name. -/
def isAnonymous (p : Prototype) : Bool := p.name.isEmpty

/-- The prototype of an expression at top level. -/
def anonymous : Prototype := ⟨"", []⟩

end Prototype

/-- One top-level piece of a program. -/
inductive Construct where
  /-- A function and its body. -/
  | definition (proto : Prototype) (body : Expr)
  /-- A function that is defined elsewhere. -/
  | declaration (proto : Prototype)
  /-- An expression, which becomes the body of a function without name and parameters. -/
  | evaluation (body : Expr)
  deriving DecidableEq, Repr

end Kaleidoscope
