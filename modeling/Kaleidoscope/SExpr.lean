/-
  Trees as S-expressions.

  - `SExpr.literal`: a number with the fewest digits that read back;
  - `SExpr.backend`: the text of each kind of node; a function without a name is written as its
    body;
  - `Node.toSExpr`: the text of a node, empty if the tree cannot be written;
  - `ProtoNode.toSExpr`: the text of a declaration.
-/
import Kaleidoscope.Binary64.Layout
import Kaleidoscope.Lowering.Pass

namespace Kaleidoscope

namespace SExpr

/-- Powers of ten from -4 to 5 are written out, and whole numbers have no point. -/
def layout : Layout := ⟨-4, 6, false⟩

/-- A number. -/
def literal (x : Binary64) : String :=
  if x.isNaN then "NaN"
  else if x.isInfinite then (if x.negative then "-Inf" else "+Inf")
  else
    let (digits, exponent) := Binary64.digits x.rank
    x.signed (layout.write digits exponent)

/-- An operator in front of its operands. -/
def binary (op left right : String) : String := "(" ++ op ++ " " ++ left ++ " " ++ right ++ ")"

/-- A call: the function, then the arguments. -/
def call (callee : String) (args : List String) : String :=
  "(call " ++ callee ++ String.join (args.map (" " ++ ·)) ++ ")"

/-- A prototype. -/
def prototype (p : Prototype) : String := p.name ++ "(" ++ " ".intercalate p.params ++ ")"

/-- A definition. -/
def definition (proto body : String) : String := "(def " ++ proto ++ " " ++ body ++ ")"

/-- A declaration. -/
def declaration (proto : String) : String := "(extern " ++ proto ++ ")"

/-- The text of each kind of node. The body of a function is written before its prototype is
looked at. -/
def backend : Backend Unit String where
  number
    | some value => .done (literal value)
    | none => .abort blankRead
  identifier name := .done name
  binary op := do
    let left ← Plan.lower 0
    let right ← Plan.lower 1
    return binary op.text left right
  call callee count := do
    let args ← Plan.lowerFrom 0 count
    return call callee args
  prototype
    | some p => .done (prototype p)
    | none => .abort blankRead
  function
    | some p => do
      let body ← Plan.lower 1
      if p.isAnonymous then return body
      else
        let proto ← Plan.lower 0
        return definition proto body
    | none => do
      let _ ← Plan.lower 1
      Plan.abort blankRead
  hollow _ := .abort blankRead
  blankFunction := .abort blankRead

end SExpr

/-- The text of a node, empty if the tree cannot be written. -/
def Node.toSExpr (n : Node) : String :=
  match (n.lowerFresh SExpr.backend ()).1 with
  | .ok text => text
  | .error _ => ""

/-- The text of a declaration. -/
def ProtoNode.toSExpr (p : ProtoNode) : String := SExpr.declaration (Node.prototype p).toSExpr

/-- The text of a construct. -/
def Construct.toSExpr (c : Construct) : String :=
  match c with
  | .declaration proto => (ProtoNode.proto NodeId.first proto).toSExpr
  | _ => (c.toNode NodeId.first).1.toSExpr

/-- The text of an expression. -/
def Expr.toSExpr (e : Expr) : String := (Node.term (e.toTerm NodeId.first).1).toSExpr

end Kaleidoscope
