/-
  From trees to instructions.

  - `Builder.backend`: what each kind of node adds to the module. An expression adds instructions
    to the function that is being built; a prototype adds a function, unless it is known; a function
    gets a block, with its parameters in scope;
  - a definition that fails takes a function that it created out of the module again, and takes the
    block back from one that was declared before; the function being built and the parameters in
    scope are restored in any case.
-/
import Kaleidoscope.Ir.Builder
import Kaleidoscope.Lowering.Pass

namespace Kaleidoscope.Ir.Builder

/-- Adds an instruction to the function that is being built. -/
def append (i : Instr) : Plan Builder Value Value := do
  let b ← Plan.get
  match b.current with
  | none => Plan.fail .noBlock
  | some serial =>
    let (value, b) := b.emit serial i
    Plan.write b (Plan.done value)

/-- What stands for a parameter. -/
def identifier (name : String) : Plan Builder Value Value := do
  let b ← Plan.get
  match b.values.get? name with
  | some value => return value
  | none => Plan.fail (.undefinedVariable name)

/-- The instructions of an operator; a comparison is made a double again. -/
def operator (op : Operator) (left right : Value) : Plan Builder Value Value :=
  match op with
  | .add => append (.arithmetic .add left right)
  | .subtract => append (.arithmetic .subtract left right)
  | .multiply => append (.arithmetic .multiply left right)
  | .divide => append (.arithmetic .divide left right)
  | .less => do
    let bit ← append (.compare .less left right)
    append (.widen bit)
  | .greater => do
    let bit ← append (.compare .greater left right)
    append (.widen bit)

/-- An operator on two values. That a function is being built is looked at first. -/
def binary (op : OpCode) : Plan Builder Value Value := do
  let left ← Plan.lower 0
  let right ← Plan.lower 1
  let b ← Plan.get
  if b.current.isNone then Plan.fail .noBlock
  else
    match op.operator? with
    | some op => operator op left right
    | none => Plan.fail (.operation op)

/-- A known function on as many arguments as it takes. -/
def call (callee : String) (count : Nat) : Plan Builder Value Value := do
  let b ← Plan.get
  match b.find? callee with
  | none => Plan.fail (.undefinedFunction callee)
  | some (_, f) =>
    if f.params.length ≠ count then Plan.fail (.arity callee f.params.length count)
    else
      let args ← Plan.lowerFrom 0 count
      append (.call f.name args)

/-- The name of the `k`-th function without a name. -/
def anonymousName (k : Nat) : String := "__anon_expr" ++ toString k

/-- A function of that name and arity, which is created unless it is known. -/
def prototype (p : Prototype) : Plan Builder Value Value := do
  Plan.ofExcept p.validate
  let b ← Plan.get
  if p.isAnonymous then
    let (serial, b) := b.create (.declared (anonymousName b.anonymous) p.params)
    Plan.write { b with anonymous := b.anonymous + 1 } (Plan.done (.function serial))
  else
    match b.find? p.name with
    | some (serial, f) =>
      if f.params.length ≠ p.params.length then
        Plan.fail (.arity p.name f.params.length p.params.length)
      else return .function serial
    | none =>
      let (serial, b) := b.create (.declared p.name p.params)
      Plan.write b (Plan.done (.function serial))

/-- The parameters of a function as values. -/
def parameters (serial : Nat) (params : List String) : SymbolTable Value :=
  params.zipIdx.foldl (fun t (name, i) => t.add name (.param serial i)) .empty

/-- Starts the body of a function: a block, the parameters under their new names, and these in
scope. -/
def enterBody (b : Builder) (serial : Nat) (params : List String) : Builder :=
  { b.modifyFunction serial fun f => { f.openBlock with params := params } with
    current := some serial
    values := parameters serial params }

/-- Goes back to the function that was being built, and to its parameters. -/
def leaveBody (b : Builder) (current : Option Nat) (values : SymbolTable Value) : Builder :=
  { b with current := current, values := values }

/-- Undoes a body that failed. -/
def giveUpBody (b : Builder) (serial : Nat) (created : Bool) : Builder :=
  if created then b.remove serial else b.modifyFunction serial (·.dropBlocks)

/-- The body of a function, in a block of its own. -/
def body (p : Prototype) (serial : Nat) (created : Bool) : Plan Builder Value Value := do
  let outer ← Plan.get
  Plan.modify (·.enterBody serial p.params)
  let result ← Plan.child 1 (·.leaveBody outer.current outer.values) Plan.done
  match result with
  | .error e =>
    Plan.modify fun b => (b.giveUpBody serial created).leaveBody outer.current outer.values
    Plan.fail e
  | .ok value =>
    Plan.modify fun b =>
      (b.modifyFunction serial (·.finishWith value)).leaveBody outer.current outer.values
    return .function serial

/-- A function that may get a body, and its body. A function without a name is always a new one. -/
def function (p : Prototype) : Plan Builder Value Value := do
  Plan.ofExcept p.validate
  let b ← Plan.get
  match if p.isAnonymous then none else b.find? p.name with
  | some (serial, f) =>
    if !f.blocks.isEmpty then Plan.fail (.redefinition p.name)
    else if f.params.length ≠ p.params.length then
      Plan.fail (.arity p.name f.params.length p.params.length)
    else body p serial false
  | none =>
    let value ← Plan.lower 0
    match value with
    | .function serial => body p serial true
    | _ => Plan.abort blankRead

/-- What each kind of node adds to the module. -/
def backend : Backend Builder Value where
  number
    | some value => .done (.constant value)
    | none => .abort blankRead
  identifier := identifier
  binary := binary
  call := call
  prototype
    | some p => prototype p
    | none => .abort blankRead
  function
    | some p => function p
    | none => .abort blankRead
  hollow _ := .abort blankRead
  blankFunction := .abort blankRead

end Kaleidoscope.Ir.Builder
