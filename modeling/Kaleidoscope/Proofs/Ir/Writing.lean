/-
  Functions that can be written.

  - `Function.Complete`: a function without a block, or with one complete block, whose results have
    no numbers yet or those that are due;
  - `Function.numbered`: the function with the numbers that are due;
  - `Builder.write_of_complete`: a complete function is written, and numbered by that. Nothing else
    happens to it.
-/
import Kaleidoscope.Ir.Text
import Kaleidoscope.Proofs.Ir.Machine

namespace Kaleidoscope.Ir

universe u

/-! ## Numbers -/

/-- The results have no numbers, or those that are due from `next` on. -/
def Block.Due (b : Block) (next : Nat) : Prop :=
  b.numbers = [] ∨ b.numbers = List.range' next b.instrs.size

theorem renumber_nil (next count : Nat) :
    renumber next count [] = (List.range' next count, none) := by
  induction count generalizing next with
  | zero => rfl
  | succ count ih =>
    have hfree : ¬(([] : List Nat).headD 0 ≠ 0 ∧ ([] : List Nat).headD 0 ≠ next) := fun h => h.1 rfl
    simp only [renumber, hfree, if_false, List.tail_nil, ih, List.range'_succ]

theorem renumber_range' (next count : Nat) :
    renumber next count (List.range' next count) = (List.range' next count, none) := by
  induction count generalizing next with
  | zero => rfl
  | succ count ih =>
    have hsame : ¬((next :: List.range' (next + 1) count).headD 0 ≠ 0 ∧
        (next :: List.range' (next + 1) count).headD 0 ≠ next) := fun h => h.2 rfl
    simp only [List.range'_succ, renumber, hsame, if_false, List.tail_cons, ih]

/-- The block with the numbers that are due. -/
def Block.numbered (b : Block) (next : Nat) : Block :=
  { b with numbers := List.range' next b.instrs.size }

theorem Block.Due.renumber {b : Block} {next : Nat} (h : b.Due next) :
    b.renumber next = (b.numbered next, none) := by
  rcases h with h | h
  · simp only [Block.renumber, h, renumber_nil, Block.numbered]
  · simp only [Block.renumber, h, renumber_range', Block.numbered]

/-! ## Functions -/

namespace Function

/-- The function has no block, or one that is complete and whose results can be numbered. -/
def Complete (f : Function) : Prop :=
  f.blocks = [] ∨ ∃ block v, f.blocks = [block] ∧ block.returned = some v ∧ block.Due f.unnamed

/-- The function with the numbers that are due. -/
def numbered (f : Function) : Function :=
  { f with blocks := f.blocks.map (·.numbered f.unnamed) }

theorem numbered_numbered (f : Function) : f.numbered.numbered = f.numbered := by
  simp only [numbered, List.map_map]
  rfl

@[simp] theorem signature_numbered (f : Function) : f.numbered.signature = f.signature := by
  simp [signature, numbered]

theorem Complete.renumber {f : Function} (h : f.Complete) : f.renumber = (f.numbered, none) := by
  rcases h with h | ⟨block, v, h, -, hdue⟩
  · simp only [Function.renumber, h, Block.renumberAll, numbered, List.map_nil]
  · simp only [Function.renumber, h, Block.renumberAll, hdue.renumber, numbered, List.map_cons,
      List.map_nil]

theorem Complete.numbered {f : Function} (h : f.Complete) : f.numbered.Complete := by
  rcases h with h | ⟨block, v, h, hreturned, -⟩
  · exact Or.inl (by rw [Function.numbered, h]; rfl)
  · refine Or.inr ⟨block.numbered f.unnamed, v, ?_, hreturned, Or.inr rfl⟩
    rw [Function.numbered, h]; rfl

theorem complete_withBody (f : Function) (code : List Instr) (v : Value) :
    (f.withBody code (some v)).Complete :=
  Or.inr ⟨_, v, rfl, rfl, Or.inl rfl⟩

/-- Numbers mean nothing to execution. -/
theorem execute_numbered {α β : Type u} (m : Machine α β) (serial : Nat) (args : List α)
    (calls : List (Call α)) (f : Function) :
    f.numbered.execute m serial args calls = f.execute m serial args calls := by
  unfold execute
  cases hblocks : f.blocks with
  | nil => simp only [numbered, hblocks, List.map_nil]
  | cons block rest =>
    cases rest with
    | nil => simp only [numbered, hblocks, List.map_cons, List.map_nil]; rfl
    | cons second rest => simp only [numbered, hblocks, List.map_cons]

end Function

/-! ## Writing -/

namespace Builder

theorem functionText_of_complete (b : Builder) {f : Function} (h : f.Complete) :
    ∃ text, b.functionText f = .ok text := by
  unfold functionText
  rcases h with h | ⟨block, v, h, hreturned, -⟩
  · rw [h]
    exact ⟨_, rfl⟩
  · have htext : ∃ text, b.blockText block = .ok text := by
      unfold blockText
      rw [hreturned]
      exact ⟨_, rfl⟩
    obtain ⟨text, htext⟩ := htext
    refine ⟨"define " ++ headerText f ++ " \x7b\n" ++ "\n\n".intercalate [text] ++ "\n\x7d", ?_⟩
    simp only [h, List.isEmpty_cons, Bool.false_eq_true, if_false, List.mapM_cons, List.mapM_nil,
      htext]
    rfl

/-- **A complete function is written**, and all that changes is that it is numbered. -/
theorem write_of_complete {b : Builder} {serial : Nat} {f : Function}
    (hf : b.function? serial = some f) (h : f.Complete) :
    ∃ text, b.write serial = (.ok text, b.put serial f.numbered) := by
  obtain ⟨text, htext⟩ := functionText_of_complete (b.put serial f.numbered) h.numbered
  refine ⟨text, ?_⟩
  simp only [write, hf, h.renumber]
  show ((b.put serial f.numbered).functionText f.numbered, b.put serial f.numbered) = _
  rw [htext]

end Builder

end Kaleidoscope.Ir
