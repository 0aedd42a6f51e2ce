/-
  Trees as lowering meets them.

  A node has an identity, so that a node that occurs twice is known to be the same one. A tree that
  was built by hand may have holes, nodes of a foreign kind, and nodes of any kind that lack their
  content.

  - `Hollow`: the kinds of expression, numbers apart, that may lack their content;
  - `NodeId`: identities; the nodes without content have one for each kind;
  - `Term`, `ProtoNode`, `FunctionNode`, `Node`: expressions, prototypes, functions, and any of
    them;
  - `Expr.toTerm`, `Construct.toNode`: what the parser delivers, every node with an identity of
    its own.
-/
import Kaleidoscope.Construct

namespace Kaleidoscope

/-- What an expression without content would be, a number apart. -/
inductive Hollow where
  /-- A parameter without a name. -/
  | identifier
  /-- An operator without operands. -/
  | binary
  /-- A call of nothing. -/
  | call
  deriving DecidableEq, Repr

/-- The identity of a node. -/
abbrev NodeId := Nat

namespace NodeId

/-- All numbers without a value are one node. -/
def blankNumber : NodeId := 0

/-- All prototypes without content are one node. -/
def blankPrototype : NodeId := 1

/-- All expressions of one kind without content are one node. -/
def hollow : Hollow → NodeId
  | .identifier => 2
  | .binary => 3
  | .call => 4

/-- All functions without content are one node. -/
def blankFunction : NodeId := 5

/-- The first identity of an ordinary node. -/
def first : NodeId := 6

end NodeId

/-- An expression as a node. -/
inductive Term where
  /-- A hole. -/
  | absent
  /-- A node of a kind that the language does not have. -/
  | foreign (kind : String)
  /-- A number without a value. -/
  | blank
  /-- A parameter, an operator or a call without content. -/
  | hollow (kind : Hollow)
  /-- A number. -/
  | number (id : NodeId) (value : Binary64)
  /-- A parameter, by its name. -/
  | identifier (id : NodeId) (name : String)
  /-- An operator between two operands. -/
  | binary (id : NodeId) (op : OpCode) (left right : Term)
  /-- A function, by its name, on arguments. -/
  | call (id : NodeId) (callee : String) (args : List Term)

/-- A prototype as a node. -/
inductive ProtoNode where
  /-- A prototype without content. -/
  | blank
  /-- A prototype. -/
  | proto (id : NodeId) (content : Prototype)

/-- The prototype of a node, if it has content. -/
def ProtoNode.content? : ProtoNode → Option Prototype
  | blank => none
  | proto _ content => some content

/-- A function as a node. -/
structure FunctionNode where
  id : NodeId
  proto : ProtoNode
  body : Term

/-- Any node. -/
inductive Node where
  /-- An expression. -/
  | term (t : Term)
  /-- A prototype. -/
  | prototype (p : ProtoNode)
  /-- A function. -/
  | function (f : FunctionNode)
  /-- A function without content. -/
  | blankFunction

/-! ## Identities -/

/-- The identity of an expression by which its result is recorded. A hole has none. A foreign node
is taken to be one that can be looked up; the look-up never finds a result, for none is ever
recorded for it, so it needs no identity here. -/
def Term.id? : Term → Option NodeId
  | absent | foreign _ => none
  | blank => some NodeId.blankNumber
  | hollow kind => some (NodeId.hollow kind)
  | number id _ | identifier id _ | binary id _ _ _ | call id _ _ => some id

/-- The identity of a prototype. -/
def ProtoNode.id : ProtoNode → NodeId
  | blank => NodeId.blankPrototype
  | proto id _ => id

/-- The identity of a node. -/
def Node.id? : Node → Option NodeId
  | term t => t.id?
  | prototype p => some p.id
  | function f => some f.id
  | blankFunction => some NodeId.blankFunction

/-! ## Nodes of what the parser delivers -/

mutual

/-- The expression as a node, its identities counted from `n`, and the next free identity. -/
def Expr.toTerm : Expr → NodeId → Term × NodeId
  | .number value, n => (.number n value, n + 1)
  | .identifier name, n => (.identifier n name, n + 1)
  | .binary op left right, n =>
    let (l, n) := left.toTerm n
    let (r, n) := right.toTerm n
    (.binary n (OpCode.ofOperator op) l r, n + 1)
  | .call callee args, n =>
    let (ts, n) := Expr.toTerms args n
    (.call n callee ts, n + 1)

/-- The expressions as nodes, one after another. -/
def Expr.toTerms : List Expr → NodeId → List Term × NodeId
  | [], n => ([], n)
  | e :: es, n =>
    let (t, n) := e.toTerm n
    let (ts, n) := Expr.toTerms es n
    (t :: ts, n)

end

/-- The construct as a node, its identities counted from `n`, and the next free identity. -/
def Construct.toNode : Construct → NodeId → Node × NodeId
  | .definition proto body, n =>
    let (t, n) := body.toTerm n
    (.function ⟨n + 1, .proto n proto, t⟩, n + 2)
  | .declaration proto, n => (.prototype (.proto n proto), n + 1)
  | .evaluation body, n =>
    let (t, n) := body.toTerm n
    (.function ⟨n + 1, .proto n Prototype.anonymous, t⟩, n + 2)

end Kaleidoscope
