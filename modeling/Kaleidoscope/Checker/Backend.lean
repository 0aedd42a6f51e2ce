/-
  The rules of the language.

  - `Judgement`: what checking finds out about a node: an expression is a double, a prototype or a
    function is a declaration;
  - `Checker.backend`: the rule of each kind of node. A definition that fails withdraws its name,
    unless the name was declared before; the scope is restored in any case;
  - `Checker.typeOf`: a judgement as a type.
-/
import Kaleidoscope.Checker.Basic
import Kaleidoscope.Lowering.Pass

namespace Kaleidoscope

/-- What checking finds out about a node. -/
inductive Judgement where
  /-- An expression. -/
  | double
  /-- A prototype or a function, by the serial number of its declaration. -/
  | declared (serial : Nat)
  deriving DecidableEq, Repr

namespace Checker

/-- The type behind a judgement, as it stands. -/
def typeOf (c : Checker) : Judgement → Ty
  | .double => .double
  | .declared serial => .function (c.ledger[serial]?.getD ⟨[], false⟩)

/-- A parameter in scope. -/
def identifier (name : String) : Plan Checker Judgement Judgement := do
  let c ← Plan.get
  if name ∈ c.scope then return .double else Plan.fail (.undefinedVariable name)

/-- Two doubles under a known operator. -/
def binary (op : OpCode) : Plan Checker Judgement Judgement := do
  let left ← Plan.lower 0
  let right ← Plan.lower 1
  if op.operator?.isNone then Plan.fail (.operation op)
  else if left = .double ∧ right = .double then return .double
  else Plan.fail (.operation op)

/-- A known function on as many arguments as it takes. -/
def call (callee : String) (count : Nat) : Plan Checker Judgement Judgement := do
  let c ← Plan.get
  match c.global? callee with
  | none => Plan.fail (.undefinedFunction callee)
  | some signature =>
    if signature.params.length ≠ count then
      Plan.fail (.arity callee signature.params.length count)
    else
      let _ ← Plan.lowerFrom 0 count
      return .double

/-- A function of that name and arity, which is declared unless it is known. A prototype without a
name declares nothing that a program could use. -/
def prototype (p : Prototype) : Plan Checker Judgement Judgement := do
  Plan.ofExcept p.validate
  let c ← Plan.get
  if p.isAnonymous then
    let (serial, c) := c.enroll ⟨[], false⟩
    Plan.write c (Plan.done (.declared serial))
  else
    match c.find? p.name with
    | some (serial, signature) =>
      if signature.params.length ≠ p.params.length then
        Plan.fail (.arity p.name signature.params.length p.params.length)
      else return .declared serial
    | none =>
      let (serial, c) := c.declare p.name ⟨p.params, false⟩
      Plan.write c (Plan.done (.declared serial))

/-- A named function that has a body may not get another one, nor one with another arity. -/
def permits (c : Checker) (p : Prototype) : Except Error Unit :=
  if p.isAnonymous then .ok ()
  else
    match c.global? p.name with
    | none => .ok ()
    | some signature =>
      if signature.defined then .error (.redefinition p.name)
      else if signature.params.length ≠ p.params.length then
        .error (.arity p.name signature.params.length p.params.length)
      else .ok ()

/-- A function that may get a body, whose body is right with its parameters in scope. -/
def function (p : Prototype) : Plan Checker Judgement Judgement := do
  Plan.ofExcept p.validate
  let c ← Plan.get
  Plan.ofExcept (c.permits p)
  let isNew := (c.global? p.name).isNone
  let declared ← Plan.lower 0
  match declared with
  | .double => Plan.abort blankRead
  | .declared serial =>
    let c ← Plan.get
    let outer := c.scope
    Plan.modify (·.withScope p.params)
    let body ← Plan.child 1 (·.withScope outer) Plan.done
    Plan.modify (·.withScope outer)
    match body with
    | .error e =>
      Plan.modify fun c => if isNew ∧ ¬p.isAnonymous then c.withdraw p.name else c
      Plan.fail e
    | .ok _ =>
      Plan.modify (·.define serial)
      return .declared serial

/-- The rule of each kind of node. Numbers are doubles, blank ones too. -/
def backend : Backend Checker Judgement where
  number _ := .done .double
  identifier := identifier
  binary := binary
  call := call
  prototype
    | some p => prototype p
    | none => .abort blankRead
  function
    | some p => function p
    | none => .abort blankRead
  hollow _ := .abort blankRead
  blankFunction := .abort blankRead

end Checker

end Kaleidoscope
