/-
  The text of functions and of the module.

  - `constant`: a number; one that has no exact short decimal is written by its bits;
  - `identifier`: a name behind `@` or `%`, in quotes if it has other than plain characters;
  - `Builder.write`: the text of a function. Writing numbers the results of its instructions;
  - `Builder.writeModule`: the text of the whole module;
  - `Unwritable`: why a function cannot be written: one of its results cannot be numbered, or one of
    its blocks is not complete.
-/
import Kaleidoscope.Binary64.Layout
import Kaleidoscope.Ir.Builder
import Kaleidoscope.Ir.Numbering

namespace Kaleidoscope.Ir

/-! ## Numbers and names -/

/-- Powers of ten from -4 to 5 are written out, and whole numbers have a point. -/
def layout : Layout := ⟨-4, 6, true⟩

/-- The upper-case hexadecimal digits of a number, at least `width` of them. -/
def upperHexadecimal (width n : Nat) : String := (Text.hexadecimal width n).toUpper

/-- A number. Infinity, and what is not a number, are written by their bits, the latter always by
the same ones; and so is a finite number that differs from the decimal with the fewest digits. -/
def constant (x : Binary64) : String :=
  if x.isNaN then (if x.negative then "0xFFF8000000000000" else "0x7FF8000000000000")
  else if x.isInfinite ∨ (x.rank ≠ 0 ∧ ¬Binary64.isExact x.rank (Binary64.shortest x.rank)) then
    "0x" ++ upperHexadecimal 1 x.bits.toNat
  else
    let (digits, exponent) := Binary64.digits x.rank
    x.signed (layout.write digits exponent)

/-- The bytes that need no quotes in a name. -/
def isPlain (b : UInt8) : Bool :=
  let c := Char.ofNat b.toNat
  c.isAlphanum || c == '$' || c == '-' || c == '.' || c == '_'

/-- A byte between quotes. -/
def quotedByte (b : UInt8) : String :=
  if b.toNat < 0x20 ∨ 0x7E < b.toNat ∨ b.toNat = 0x22 ∨ b.toNat = 0x5C then
    "\\" ++ upperHexadecimal 2 b.toNat
  else String.singleton (Char.ofNat b.toNat)

/-- Whether a name could be mistaken for a number of the machine's width. -/
def looksNumbered (name : String) : Bool :=
  isDigits name.toList && digitsValue name.toList ≤ 0xFFFFFFFFFFFFFFFF

/-- A name behind its sign. -/
def identifier (sign name : String) : String :=
  let bytes := name.toUTF8.toList
  if looksNumbered name then sign ++ "\x22" ++ name ++ "\x22"
  else if bytes.all isPlain then sign ++ name
  else sign ++ "\x22" ++ String.join (bytes.map quotedByte) ++ "\x22"

/-- A parameter. One without a name is the only such, and so has the first number. -/
def paramText (name : String) : String := if name.isEmpty then "%0" else identifier "%" name

/-! ## Values and instructions -/

/-- A value, as an instruction names it. -/
def Builder.valueText (b : Builder) : Value → String
  | .constant x => constant x
  | .param serial index =>
    paramText (((b.function? serial).bind fun f => f.params[index]?).getD "")
  | .result serial block index =>
    "%" ++ toString (((b.function? serial).map fun f => f.number block index).getD 0)
  | .function serial => identifier "@" (((b.function? serial).map (·.name)).getD "")

/-- A value behind its type. -/
def Builder.typedText (b : Builder) (v : Value) : String := "double " ++ b.valueText v

/-- The keyword of an arithmetic instruction. -/
def Arithmetic.keyword : Arithmetic → String
  | add => "fadd"
  | subtract => "fsub"
  | multiply => "fmul"
  | divide => "fdiv"

/-- The keyword of a comparison. -/
def Comparison.keyword : Comparison → String
  | less => "ult"
  | greater => "ugt"

/-- The format of a printed double, as a constant of the module. -/
def formatGlobal : String := "@._printd_fmt = constant [4 x i8] c\x22%f\\0A\\00\x22"

/-- The address of the format. -/
def formatAddress : String :=
  "i8* getelementptr ([4 x i8], [4 x i8]* @._printd_fmt, i32 0, i32 0)"

/-- What an instruction computes. -/
def Builder.instrText (b : Builder) : Instr → String
  | .arithmetic op left right =>
    op.keyword ++ " double " ++ b.valueText left ++ ", " ++ b.valueText right
  | .compare op left right =>
    "fcmp " ++ op.keyword ++ " double " ++ b.valueText left ++ ", " ++ b.valueText right
  | .widen bit => "uitofp i1 " ++ b.valueText bit ++ " to double"
  | .call callee args =>
    "call double " ++ identifier "@" callee ++ "(" ++ ", ".intercalate (args.map b.typedText) ++ ")"
  | .toInteger x => "fptoui double " ++ b.valueText x ++ " to i32"
  | .printLine x =>
    "call i32 (i8*, ...) @printf(" ++ formatAddress ++ ", " ++ b.typedText x ++ ")"
  | .printCharacter x => "call i32 @putchar(i32 " ++ b.valueText x ++ ")"

/-! ## Functions -/

/-- Why a function cannot be written. -/
inductive Unwritable where
  /-- One of its results cannot be numbered. -/
  | clash (function : String) (c : Clash)
  /-- One of its blocks is not complete; `lines` are the instructions of that block. -/
  | unterminated (lines : String)
  deriving DecidableEq, Repr

/-- A function in a message about its numbers. -/
def messageName (function : String) : String := Text.quoted (identifier "@" function)

/-- The wording, where a single function is to be written. -/
def Unwritable.message : Unwritable → String
  | clash function c =>
    "invalid local ID in function " ++ messageName function ++ ", expected %" ++ toString c.due ++
      ", got %" ++ toString c.has
  | unterminated lines =>
    "missing terminator in basic block \x22entry\x22.\ncurrent instructions:\nentry:\n" ++ lines

/-- The wording, where the whole module is to be written. -/
def Unwritable.moduleMessage (u : Unwritable) : String :=
  match u with
  | clash function _ =>
    "unable to assign IDs of function " ++ messageName function ++ "; " ++ u.message
  | unterminated _ => u.message

/-- A block whose results are numbered. -/
def Builder.blockText (b : Builder) (block : Block) : Except Unwritable String :=
  let lines := String.join (block.instrs.toList.zipIdx.map fun (i, k) =>
    "\t%" ++ toString (block.number k) ++ " = " ++ b.instrText i ++ "\n")
  match block.returned with
  | some v => .ok ("entry:\n" ++ lines ++ "\tret " ++ b.typedText v)
  | none => .error (.unterminated lines)

/-- The name and the parameters of a function. -/
def headerText (f : Function) : String :=
  "double " ++ identifier "@" f.name ++ "(" ++
    ", ".intercalate (f.params.map ("double " ++ paramText ·)) ++ ")"

/-- The text of a function whose results are numbered. -/
def Builder.functionText (b : Builder) (f : Function) : Except Unwritable String :=
  if f.blocks.isEmpty then .ok ("declare " ++ headerText f)
  else do
    let blocks ← f.blocks.mapM b.blockText
    return "define " ++ headerText f ++ " \x7b\n" ++ "\n\n".intercalate blocks ++ "\n\x7d"

/-- The text of a function, and the module in which its results are numbered as far as they can
be. -/
def Builder.write (b : Builder) (serial : Nat) : Except Unwritable String × Builder :=
  match b.function? serial with
  | none => (.ok "", b)
  | some f =>
    let (f, clash) := f.renumber
    let b := b.modifyFunction serial fun _ => f
    match clash with
    | some c => (.error (.clash f.name c), b)
    | none => (b.functionText f, b)

/-! ## The module -/

/-- The declaration of a library function. -/
def libraryText : LibraryFunction → String
  | .printf => "declare i32 @printf(i8* %format, ...)"
  | .putchar => "declare i32 @putchar(i32 %c)"

/-- The text of an entry, and the module in which its results are numbered. -/
def Builder.writeEntry (b : Builder) : Entry → Except Unwritable String × Builder
  | .function serial => b.write serial
  | .library f => (.ok (libraryText f), b)

/-- The texts of entries, up to the first that cannot be written. -/
def Builder.writeEntries (b : Builder) : List Entry → Except Unwritable (List String) × Builder
  | [] => (.ok [], b)
  | e :: es =>
    match b.writeEntry e with
    | (.error u, b) => (.error u, b)
    | (.ok text, b) =>
      match b.writeEntries es with
      | (.error u, b) => (.error u, b)
      | (.ok texts, b) => (.ok (text :: texts), b)

/-- The text of the module, and the module in which all results are numbered. -/
def Builder.writeModule (b : Builder) : Except Unwritable String × Builder :=
  match b.writeEntries b.entries with
  | (.error u, b) => (.error u, b)
  | (.ok texts, b) => (.ok ("\n\n".intercalate (formatGlobal :: texts) ++ "\n"), b)

/-- Each entry of the module: its name as listed, how many parameters it takes, and how many
blocks it has. -/
def Builder.summary (b : Builder) : List (String × Nat × Nat) :=
  b.entries.filterMap fun
    | .library f => some (f.name, 1, 0)
    | .function serial =>
      (b.function? serial).map fun f => (listedName f.name, f.params.length, f.blocks.length)

end Kaleidoscope.Ir
