/-
  The binary operators.

  - `Operator`: the six operators of the language, with their symbols and precedences;
  - `OpCode`: an operator as a node carries it, a 32-bit code that need not be one of the six;
  - `OpCode.operator?`: the operator behind a code.
-/
import Kaleidoscope.Text.Utf8

namespace Kaleidoscope

/-- The binary operators. All associate to the left. -/
inductive Operator where
  /-- Less than, one or zero. -/
  | less
  /-- Greater than, one or zero. -/
  | greater
  /-- Sum. -/
  | add
  /-- Difference. -/
  | subtract
  /-- Product. -/
  | multiply
  /-- Quotient. -/
  | divide
  deriving DecidableEq, Repr

namespace Operator

/-- All operators. -/
def all : List Operator := [less, greater, add, subtract, multiply, divide]

/-- The character that spells the operator. -/
def symbol : Operator → Char
  | less => '<'
  | greater => '>'
  | add => '+'
  | subtract => '-'
  | multiply => '*'
  | divide => '/'

/-- How tightly the operator binds; division binds tighter than multiplication. -/
def precedence : Operator → Nat
  | less => 1
  | greater => 1
  | add => 2
  | subtract => 2
  | multiply => 3
  | divide => 4

/-- The operator that a character spells. -/
def ofSymbol? (c : Char) : Option Operator := all.find? (·.symbol == c)

@[simp] theorem ofSymbol?_symbol (op : Operator) : ofSymbol? op.symbol = some op := by
  cases op <;> decide

theorem symbol_of_ofSymbol? {c : Char} {op : Operator} (h : ofSymbol? c = some op) :
    op.symbol = c := by
  simpa using List.find?_some h

end Operator

/-- The code of an operator in a node. A node built by hand may carry any code. -/
structure OpCode where
  code : Int32
  deriving DecidableEq, Repr

namespace OpCode

/-- The code of an operator is that of its symbol. -/
def ofOperator (op : Operator) : OpCode := ⟨Int32.ofNat op.symbol.toNat⟩

/-- The operator behind a code. -/
def operator? (c : OpCode) : Option Operator := Operator.all.find? (ofOperator · == c)

/-- A code as a text of one character. -/
def text (c : OpCode) : String := String.singleton (Text.charOfCode c.code.toInt)

@[simp] theorem operator?_ofOperator (op : Operator) : operator? (ofOperator op) = some op := by
  cases op <;> decide

end OpCode

end Kaleidoscope
