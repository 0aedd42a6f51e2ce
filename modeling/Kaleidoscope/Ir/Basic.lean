/-
  Functions in single-assignment form.

  - `Value`: what an instruction can take: a constant, a parameter, the result of an instruction, or
    a function;
  - `Instr`: the instructions;
  - `Block`: instructions, the value that is returned after them once the block is complete, and
    the numbers by which the results are written;
  - `Function`: a name, parameters, and blocks; a function without a block is only declared.
-/
import Kaleidoscope.Binary64.Basic
import Kaleidoscope.Operator

namespace Kaleidoscope.Ir

/-- What an instruction can take. A function is named by its serial number, and a block by its
place among all blocks that its function ever had. -/
inductive Value where
  /-- A number. -/
  | constant (x : Binary64)
  /-- A parameter of a function, by its position. -/
  | param (function index : Nat)
  /-- The result of an instruction of a block, by its position. -/
  | result (function block index : Nat)
  /-- A function. -/
  | function (serial : Nat)
  deriving DecidableEq, Repr

/-- The arithmetic instructions. -/
inductive Arithmetic where
  | add
  | subtract
  | multiply
  | divide
  deriving DecidableEq, Repr

/-- The comparisons, which hold also if an operand is not a number. -/
inductive Comparison where
  | less
  | greater
  deriving DecidableEq, Repr

/-- An instruction. Every instruction has a result. -/
inductive Instr where
  /-- Arithmetic on two doubles. -/
  | arithmetic (op : Arithmetic) (left right : Value)
  /-- A comparison of two doubles; the result is a bit. -/
  | compare (op : Comparison) (left right : Value)
  /-- A bit as a double. -/
  | widen (bit : Value)
  /-- A call of a function of the program or of a built-in one, by its name. -/
  | call (callee : String) (args : List Value)
  /-- A double as an integer. -/
  | toInteger (x : Value)
  /-- A call of the library that prints a double on a line. -/
  | printLine (x : Value)
  /-- A call of the library that prints an integer as a character. -/
  | printCharacter (x : Value)
  deriving DecidableEq, Repr

/-- Instructions in a row. A block without a returned value is not complete. -/
structure Block where
  instrs : Array Instr
  returned : Option Value
  /-- The numbers of the results, as far as they were numbered. -/
  numbers : List Nat
  deriving DecidableEq, Repr

/-- A block without instructions. -/
def Block.empty : Block := ⟨#[], none, []⟩

/-- The number of the result at a position; a result without one counts as the first. -/
def Block.number (b : Block) (index : Nat) : Nat := b.numbers[index]?.getD 0

/-- A function. -/
structure Function where
  name : String
  /-- The names of the parameters; one without a name is written by its number. -/
  params : List String
  blocks : List Block
  /-- How many blocks were thrown away before these. -/
  dropped : Nat
  deriving DecidableEq, Repr

namespace Function

/-- A function without a body. -/
def declared (name : String) (params : List String) : Function := ⟨name, params, [], 0⟩

/-- The function with one more block, which is empty. -/
def openBlock (f : Function) : Function := { f with blocks := f.blocks ++ [Block.empty] }

/-- Throws away all blocks. -/
def dropBlocks (f : Function) : Function :=
  { f with blocks := [], dropped := f.dropped + f.blocks.length }

/-- Changes the last block. -/
def modifyLast (f : Function) (change : Block → Block) : Function :=
  { f with blocks := f.blocks.modify (f.blocks.length - 1) change }

/-- Adds an instruction to the last block. -/
def append (f : Function) (i : Instr) : Function :=
  f.modifyLast fun b => { b with instrs := b.instrs.push i }

/-- Completes the last block. -/
def finishWith (f : Function) (v : Value) : Function :=
  f.modifyLast fun b => { b with returned := some v }

/-- The place of the last block among all blocks that the function ever had. -/
def lastBlock (f : Function) : Nat := f.dropped + (f.blocks.length - 1)

/-- How many instructions the last block has. -/
def lastSize (f : Function) : Nat := (f.blocks.getLast?.map (·.instrs.size)).getD 0

/-- How many parameters have no name; they are numbered before the results. -/
def unnamed (f : Function) : Nat := f.params.count ""

/-- The number of the result at `index` of the `block`-th of all blocks. Of a block that was thrown
away nothing was numbered. -/
def number (f : Function) (block index : Nat) : Nat :=
  if f.dropped ≤ block then
    (f.blocks[block - f.dropped]?.map (·.number index)).getD 0
  else 0

end Function

end Kaleidoscope.Ir
