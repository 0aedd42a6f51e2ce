/-
  What has been declared so far.

  Every declaration gets a serial number and stays in a ledger, while the table of names says which
  declaration a name stands for now. A declaration whose name was withdrawn is still known to the
  passes that have met it.

  - `Checker`: the ledger, the table, and the parameters in scope;
  - `Checker.initial`: the built-in functions;
  - `declare`, `withdraw`, `define`: the changes;
  - `global?`: what is known under a name.
-/
import Kaleidoscope.Builtin
import Kaleidoscope.Checker.Type
import Kaleidoscope.SymbolTable

namespace Kaleidoscope

/-- What has been declared so far. -/
structure Checker where
  /-- All declarations, by their serial numbers. -/
  ledger : Array Signature
  /-- The declaration that a name stands for. -/
  globals : SymbolTable Nat
  /-- The parameters of the function that is being checked. -/
  scope : List String

namespace Checker

/-- A new declaration, which no name stands for yet, and its serial number. -/
def enroll (c : Checker) (signature : Signature) : Nat × Checker :=
  (c.ledger.size, { c with ledger := c.ledger.push signature })

/-- A new declaration under a name, and its serial number. -/
def declare (c : Checker) (name : String) (signature : Signature) : Nat × Checker :=
  let (serial, c) := c.enroll signature
  (serial, { c with globals := c.globals.add name serial })

/-- The name stands for nothing any more. -/
def withdraw (c : Checker) (name : String) : Checker := { c with globals := c.globals.remove name }

/-- The declaration has a body from now on. -/
def define (c : Checker) (serial : Nat) : Checker :=
  { c with ledger := c.ledger.modify serial fun s => { s with defined := true } }

/-- Other parameters are in scope. -/
def withScope (c : Checker) (scope : List String) : Checker := { c with scope := scope }

/-- The declaration that a name stands for. -/
def find? (c : Checker) (name : String) : Option (Nat × Signature) := do
  let serial ← c.globals.get? name
  let signature ← c.ledger[serial]?
  return (serial, signature)

/-- What is known under a name. -/
def global? (c : Checker) (name : String) : Option Signature := (c.find? name).map (·.2)

/-- Only the built-in functions are known, and no parameter is in scope. -/
def initial : Checker :=
  [Builtin.printd, Builtin.putchard].foldl
    (fun c b => (c.declare b.proto.name ⟨b.proto.params, true⟩).2) ⟨#[], .empty, []⟩

end Checker

end Kaleidoscope
