/-
  The numbers by which results are written.

  Results are numbered in order, after the parameters that have no name. A number stays once it is
  given, so a function whose parameters lose or gain a name between two numberings may not be
  numbered again. The number zero is as good as none.

  - `Clash`: a result that has another number than the one that is due;
  - `Block.renumber`: numbers the results of a block, up to a clash;
  - `Function.renumber`: numbers the results of all blocks, up to a clash.
-/
import Kaleidoscope.Ir.Basic

namespace Kaleidoscope.Ir

/-- A result that cannot be numbered: the number that is due, and the one that it has. -/
structure Clash where
  due : Nat
  has : Nat
  deriving DecidableEq, Repr

/-- The numbers of `count` results from `next` on, given those that they have so far. From a clash
on, the numbers stay as they are. -/
def renumber (next : Nat) : Nat → List Nat → List Nat × Option Clash
  | 0, _ => ([], none)
  | count + 1, old =>
    let has := old.headD 0
    if has ≠ 0 ∧ has ≠ next then (old, some ⟨next, has⟩)
    else
      let (numbers, clash) := renumber (next + 1) count old.tail
      (next :: numbers, clash)

/-- Numbers the results of a block. -/
def Block.renumber (b : Block) (next : Nat) : Block × Option Clash :=
  let (numbers, clash) := Ir.renumber next b.instrs.size b.numbers
  ({ b with numbers := numbers }, clash)

/-- Numbers the results of blocks, one after another. -/
def Block.renumberAll (next : Nat) : List Block → List Block × Option Clash
  | [] => ([], none)
  | b :: rest =>
    match b.renumber next with
    | (b, some clash) => (b :: rest, some clash)
    | (b, none) =>
      let (rest, clash) := renumberAll (next + b.instrs.size) rest
      (b :: rest, clash)

/-- Numbers the results of a function. -/
def Function.renumber (f : Function) : Function × Option Clash :=
  let (blocks, clash) := Block.renumberAll f.unnamed f.blocks
  ({ f with blocks := blocks }, clash)

end Kaleidoscope.Ir
