/-
  A pass of a backend over nodes.

  - `Pass`: the results recorded so far, by node, and how many nodes are being lowered;
  - `Plan.run`: carries out a plan, given what lowers the children;
  - `visit`: lowers a node unless its result is recorded, and records a result;
  - `Term.action`, `ProtoNode.action`, `FunctionNode.action`: what lowers a node within a pass;
  - `Node.lower`: an outermost call, where a lowering that gave up becomes an error.
-/
import Kaleidoscope.Lowering.Plan
import Std.Data.ExtTreeMap

namespace Kaleidoscope

/-- The results of one pass. -/
structure Pass (ρ : Type) where
  /-- The result of each node that was lowered without error. -/
  results : Std.ExtTreeMap NodeId ρ
  /-- How many nodes are being lowered, one inside the other. -/
  depth : Nat

namespace Pass

variable {ρ : Type}

/-- A pass that has lowered nothing. -/
def empty : Pass ρ := ⟨∅, 0⟩

/-- The result recorded for a node. -/
def result? (p : Pass ρ) (id : NodeId) : Option ρ := p.results[id]?

/-- How many nodes were lowered without error. -/
def size (p : Pass ρ) : Nat := p.results.size

/-- Records the result of a node. -/
def record (p : Pass ρ) (id : NodeId) (r : ρ) : Pass ρ :=
  { p with results := p.results.insert id r }

/-- One more node is being lowered. -/
def enter (p : Pass ρ) : Pass ρ := { p with depth := p.depth + 1 }

/-- One node less is being lowered. -/
def leave (p : Pass ρ) : Pass ρ := { p with depth := p.depth - 1 }

end Pass

/-- How lowering ends. -/
inductive Outcome (α : Type) where
  /-- With a value. -/
  | ok (value : α)
  /-- With an error. -/
  | error (e : Error)
  /-- It was given up. -/
  | abort (reason : String)

/-- Something done on the state of the backend and on the pass. -/
def Action (σ ρ α : Type) := σ → Pass ρ → Outcome α × σ × Pass ρ

namespace Action

variable {σ ρ α : Type}

/-- Fails. -/
def fail (e : Error) : Action σ ρ α := fun s p => (.error e, s, p)

end Action

variable {σ ρ α : Type}

/-- Carries out a plan; `children` lower the children of the node. A child that the node does not
have is a hole. -/
def Plan.run (children : List (Action σ ρ ρ)) : Plan σ ρ α → Action σ ρ α
  | done value, s, p => (.ok value, s, p)
  | fail e, s, p => (.error e, s, p)
  | abort reason, s, p => (.abort reason, s, p)
  | read next, s, p => (next s).run children s p
  | write s next, _, p => next.run children s p
  | child i unwind next, s, p =>
    match (children[i]?.getD (Action.fail .absentNode)) s p with
    | (.ok r, s, p) => (next (.ok r)).run children s p
    | (.error e, s, p) => (next (.error e)).run children s p
    | (.abort reason, s, p) => (.abort reason, unwind s, p)

/-- Lowers a node by a plan, unless its result is recorded. A result is recorded; an error is
not. -/
def visit (id : NodeId) (plan : Plan σ ρ ρ) (children : List (Action σ ρ ρ)) : Action σ ρ ρ :=
  fun s p =>
    match p.result? id with
    | some r => (.ok r, s, p)
    | none =>
      match plan.run children s p.enter with
      | (.ok r, s, p) => (.ok r, s, (p.record id r).leave)
      | (.error e, s, p) => (.error e, s, p.leave)
      | (.abort reason, s, p) => (.abort reason, s, p.leave)

mutual

/-- What lowers an expression. -/
def Term.action (b : Backend σ ρ) : Term → Action σ ρ ρ
  | .absent => Action.fail .absentNode
  | .foreign kind => Action.fail (.foreignNode kind)
  | .blank => visit NodeId.blankNumber (b.number none) []
  | .hollow kind => visit (NodeId.hollow kind) (b.hollow kind) []
  | .number id value => visit id (b.number (some value)) []
  | .identifier id name => visit id (b.identifier name) []
  | .binary id op left right => visit id (b.binary op) [left.action b, right.action b]
  | .call id callee args => visit id (b.call callee args.length) (Term.actions b args)

/-- What lowers each of some expressions. -/
def Term.actions (b : Backend σ ρ) : List Term → List (Action σ ρ ρ)
  | [] => []
  | t :: ts => t.action b :: Term.actions b ts

end

/-- What lowers a prototype. -/
def ProtoNode.action (b : Backend σ ρ) (p : ProtoNode) : Action σ ρ ρ :=
  visit p.id (b.prototype p.content?) []

/-- What lowers a function. -/
def FunctionNode.action (b : Backend σ ρ) (f : FunctionNode) : Action σ ρ ρ :=
  visit f.id (b.function f.proto.content?) [f.proto.action b, f.body.action b]

/-- What lowers a node. -/
def Node.action (b : Backend σ ρ) : Node → Action σ ρ ρ
  | .term t => t.action b
  | .prototype p => p.action b
  | .function f => f.action b
  | .blankFunction => visit NodeId.blankFunction b.blankFunction []

/-- Lowers a node from outside: a lowering that was given up is an error like others. -/
def Node.lower (b : Backend σ ρ) (n : Node) (s : σ) (p : Pass ρ) : Except Error ρ × σ × Pass ρ :=
  match n.action b s p with
  | (.ok r, s, p) => (.ok r, s, p)
  | (.error e, s, p) => (.error e, s, p)
  | (.abort reason, s, p) => (.error (.aborted reason), s, { p with depth := 0 })

/-- Lowers a node in a pass of its own. -/
def Node.lowerFresh (b : Backend σ ρ) (n : Node) (s : σ) : Except Error ρ × σ :=
  let (r, s, _) := n.lower b s Pass.empty
  (r, s)

end Kaleidoscope
