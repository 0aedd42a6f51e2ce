/-
  A module under construction.

  - `Entry`: what a module lists: functions, and the library functions that the built-in ones call;
  - `Builder`: all functions ever created, the module's list, the table of names, and where
    instructions go at present;
  - `create`, `remove`, `emit`: the changes;
  - `Builder.initial`: the built-in functions with their bodies.
-/
import Kaleidoscope.Builtin
import Kaleidoscope.Ir.Basic
import Kaleidoscope.SymbolTable

namespace Kaleidoscope.Ir

/-- What a module lists. -/
inductive Entry where
  /-- A function, by its serial number. -/
  | function (serial : Nat)
  /-- A function of the C library, which is only declared. -/
  | library (f : LibraryFunction)
  deriving DecidableEq, Repr

/-- A module under construction. -/
structure Builder where
  /-- All functions ever created, by their serial numbers. -/
  store : Array Function
  /-- What the module lists, in order. -/
  entries : List Entry
  /-- The function that a name stands for in a program. -/
  names : SymbolTable Nat
  /-- How many functions without a name were created. -/
  anonymous : Nat
  /-- The function to whose last block instructions go. -/
  current : Option Nat
  /-- What the parameters in scope stand for. -/
  values : SymbolTable Value

/-- Whether the characters are digits, at least one of them. -/
def isDigits (cs : List Char) : Bool := !cs.isEmpty && cs.all Char.isDigit

/-- The number that digits stand for. -/
def digitsValue (cs : List Char) : Nat := cs.foldl (fun n c => 10 * n + (c.toNat - '0'.toNat)) 0

/-- The signed 64-bit number that a name spells. -/
def signedNumber? (name : String) : Option Int :=
  let (negative, digits) := match name.toList with
    | '-' :: cs => (true, cs)
    | '+' :: cs => (false, cs)
    | cs => (false, cs)
  if isDigits digits then
    let n := digitsValue digits
    if negative then (if n ≤ 0x8000000000000000 then some (-n) else none)
    else if n < 0x8000000000000000 then some n else none
  else none

/-- A function's name as the module lists it: a number is written in its plain form, in quotes. -/
def listedName (name : String) : String :=
  match signedNumber? name with
  | some n => "\x22" ++ toString n ++ "\x22"
  | none => name

namespace Builder

/-- The function of a serial number. -/
def function? (b : Builder) (serial : Nat) : Option Function := b.store[serial]?

/-- Changes a function. -/
def modifyFunction (b : Builder) (serial : Nat) (change : Function → Function) : Builder :=
  { b with store := b.store.modify serial change }

/-- A new function at the end of the module, under its name, and its serial number. -/
def create (b : Builder) (f : Function) : Nat × Builder :=
  (b.store.size,
    { b with
      store := b.store.push f
      entries := b.entries ++ [.function b.store.size]
      names := b.names.add f.name b.store.size })

/-- Takes a function out of the module and out of the table of names. The table is searched for
the name as the module lists it. -/
def remove (b : Builder) (serial : Nat) : Builder :=
  match b.function? serial with
  | none => b
  | some f =>
    { b with
      entries := b.entries.erase (.function serial)
      names := b.names.remove (listedName f.name) }

/-- The function that a name stands for, and its serial number. -/
def find? (b : Builder) (name : String) : Option (Nat × Function) := do
  let serial ← b.names.get? name
  let f ← b.function? serial
  return (serial, f)

/-- Adds an instruction to the last block of a function, and gives its result. -/
def emit (b : Builder) (serial : Nat) (i : Instr) : Value × Builder :=
  let value := match b.function? serial with
    | some f => .result serial f.lastBlock f.lastSize
    | none => .result serial 0 0
  (value, b.modifyFunction serial (·.append i))

/-- Lists a library function at the end of the module. -/
def list (b : Builder) (f : LibraryFunction) : Builder :=
  { b with entries := b.entries ++ [.library f] }

/-- Puts a built-in function into the module, and the library function that it calls after it. -/
def addBuiltin (b : Builder) (builtin : Builtin) : Builder :=
  let (serial, b) := b.create (.declared builtin.proto.name builtin.proto.params)
  let b := b.modifyFunction serial (·.openBlock)
  let b := match builtin with
    | .printd => (b.emit serial (.printLine (.param serial 0))).2.list .printf
    | .putchard =>
      let (c, b) := b.emit serial (.toInteger (.param serial 0))
      (b.emit serial (.printCharacter c)).2.list .putchar
  b.modifyFunction serial (·.finishWith (.constant (Binary64.ofRank 0)))

/-- The module that every program starts from. -/
def initial : Builder :=
  (Builder.mk #[] [] .empty 0 none .empty).addBuiltin .printd |>.addBuiltin .putchard

end Builder

end Kaleidoscope.Ir
