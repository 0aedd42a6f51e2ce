/-
  What a backend does with one node.

  - `Plan`: a computation on the backend's state that may ask for the results of the node's
    children, by their position, in any order and any number of times, and that ends with a value,
    with an error, or by giving up altogether;
  - `Plan.lower`: the result of a child, or its error as one's own;
  - `Backend`: the plan for each kind of node.
-/
import Kaleidoscope.Error
import Kaleidoscope.Node

namespace Kaleidoscope

/-- What is to be done for a node, over states `σ` and results `ρ`. -/
inductive Plan (σ ρ α : Type) where
  /-- A value. -/
  | done (value : α)
  /-- An error, which the parent is told. -/
  | fail (e : Error)
  /-- The end of the whole lowering. -/
  | abort (reason : String)
  /-- Looks at the state. -/
  | read (next : σ → Plan σ ρ α)
  /-- Replaces the state. -/
  | write (s : σ) (next : Plan σ ρ α)
  /-- Asks for the result of the `i`-th child. If lowering it gives up, `unwind` is all that is
  still done for this node. -/
  | child (i : Nat) (unwind : σ → σ) (next : Except Error ρ → Plan σ ρ α)

namespace Plan

variable {σ ρ α β : Type}

/-- Goes on with the value. -/
def bind : Plan σ ρ α → (α → Plan σ ρ β) → Plan σ ρ β
  | done value, f => f value
  | fail e, _ => fail e
  | abort reason, _ => abort reason
  | read next, f => read fun s => (next s).bind f
  | write s next, f => write s (next.bind f)
  | child i unwind next, f => child i unwind fun r => (next r).bind f

instance : Monad (Plan σ ρ) where
  pure := done
  bind := bind

/-- The state. -/
def get : Plan σ ρ σ := read done

/-- Changes the state. -/
def modify (f : σ → σ) : Plan σ ρ Unit := read fun s => write (f s) (done ())

/-- A result, or an error as one's own. -/
def ofExcept : Except Error α → Plan σ ρ α
  | .ok value => done value
  | .error e => fail e

/-- The result of the `i`-th child, or its error as one's own. -/
def lower (i : Nat) : Plan σ ρ ρ := child i id ofExcept

/-- The results of `count` children from the `i`-th on. -/
def lowerFrom (i : Nat) : Nat → Plan σ ρ (List ρ)
  | 0 => done []
  | count + 1 => do
    let r ← lower i
    let rs ← lowerFrom (i + 1) count
    return r :: rs

end Plan

/-- Why a plan gives up that needs the content of a node that has none. -/
def blankRead : String := "runtime error: invalid memory address or nil pointer dereference"

/-- The plan for each kind of node. The children of an operator are its operands, those of a call
its arguments, those of a function its prototype and its body; a node without content has no
children, and a plan that reads its content gives up. -/
structure Backend (σ ρ : Type) where
  /-- A number; a blank one has no value. -/
  number : Option Binary64 → Plan σ ρ ρ
  /-- A parameter, by its name. -/
  identifier : String → Plan σ ρ ρ
  /-- An operator. -/
  binary : OpCode → Plan σ ρ ρ
  /-- A call of a function, by its name, with so many arguments. -/
  call : String → Nat → Plan σ ρ ρ
  /-- A prototype; a blank one has no content. -/
  prototype : Option Prototype → Plan σ ρ ρ
  /-- A function with that prototype. -/
  function : Option Prototype → Plan σ ρ ρ
  /-- A parameter, an operator or a call without content. -/
  hollow : Hollow → Plan σ ρ ρ := fun _ => .abort blankRead
  /-- A function without content. -/
  blankFunction : Plan σ ρ ρ := .abort blankRead

end Kaleidoscope
