/-
  The instructions that the builder emits for an expression.

  - `Frame`: the function and the block that instructions go to, and the parameters in scope;
  - `Expr.code`: the instructions of an expression and its value, without a builder or a pass;
  - `Builder.Emits`, `Builder.computes`: the builder emits exactly these for an expression, after
    those of its parts;
  - `Builder.lowerFresh_body`: what a definition without a fault makes of the builder.
-/
import Kaleidoscope.Proofs.Ir.Statics
import Kaleidoscope.Proofs.Lowering.Fresh

namespace Kaleidoscope

namespace Ir

/-- The function and the block that instructions go to, and the parameters in scope. -/
structure Frame where
  serial : Nat
  block : Nat
  params : List String

/-- The result of the instruction at a position of the block. -/
def Frame.result (F : Frame) (index : Nat) : Value := .result F.serial F.block index

/-- The frame of the first block of a function. -/
def Function.frame (f : Function) (serial : Nat) : Frame := ⟨serial, f.dropped, f.params⟩

end Ir

open Ir (Frame Instr Value)
open Ir.Builder (instrs)

mutual

/-- The instructions of an expression, if `start` instructions come before them, and its value. -/
def Expr.code (F : Frame) : Expr → Nat → List Instr × Value
  | .number value, _ => ([], .constant value)
  | .identifier name, _ => ([], .param F.serial (F.params.idxOf name))
  | .binary op left right, start =>
    let (before, l) := left.code F start
    let (between, r) := right.code F (start + before.length)
    let next := start + before.length + between.length
    let own := instrs op l r (F.result next)
    (before ++ between ++ own, F.result (next + (own.length - 1)))
  | .call callee args, start =>
    let (before, values) := Expr.codes F args start
    (before ++ [.call callee values], F.result (start + before.length))

/-- The instructions of expressions, one after another, and their values. -/
def Expr.codes (F : Frame) : List Expr → Nat → List Instr × List Value
  | [], _ => ([], [])
  | e :: es, start =>
    let (first, value) := e.code F start
    let (rest, values) := Expr.codes F es (start + first.length)
    (first ++ rest, value :: values)

end

namespace Ir.Builder

/-- The frame of the body of a prototype's function. -/
def frame (b : Builder) (p : Prototype) : Frame := ⟨(b.declared p).1, (b.target p).dropped, p.params⟩

@[simp] theorem frame_result (b : Builder) (p : Prototype) (index : Nat) :
    (b.frame p).result index = b.resultAt p index := rfl

theorem backend_binary (op : OpCode) : backend.binary op = binary op := rfl

theorem backend_call (callee : String) (count : Nat) : backend.call callee count = call callee count :=
  rfl

theorem Sound.entered {b : Builder} (h : b.Sound) (p : Prototype) (code : List Instr) :
    (b.entered p code).Sound :=
  ⟨((h.declared p).put (function?_declared b p) (g := b.withCode p code none) rfl).known⟩

/-- Nothing but the expression can be wrong with a definition of that prototype. -/
structure Opens (b : Builder) (p : Prototype) : Prop where
  sound : b.Sound
  proto : p.fault? = none
  conflict : Directory.definitionConflict? b.signature? p = none

section
variable {b : Builder} {p : Prototype}

/-- The state is inside the body, and the instructions of the expression come after those that are
there. The nodes of the expression have no fault, from whatever identity they are counted. -/
def Emits (b : Builder) (p : Prototype) (e : Expr) (s : Builder) (v : Value) (s' : Builder) : Prop :=
  ∃ (n : Nat) (code : List Instr), (e.toTerm n).1.fault? (b.bodyScope p) = none ∧
    s = b.entered p code ∧ v = (e.code (b.frame p) code.length).2 ∧
    s' = b.entered p (code ++ (e.code (b.frame p) code.length).1)

theorem chain_emits : ∀ (es : List Expr) (n : Nat) (code : List Instr),
    firstFault? (Term.faults (b.bodyScope p) (Expr.toTerms es n).1) = none →
    Chain (b.Emits p) es (b.entered p code) (Expr.codes (b.frame p) es code.length).2
      (b.entered p (code ++ (Expr.codes (b.frame p) es code.length).1))
  | [], n, code, _ => by
    rw [Expr.codes, List.append_nil]
    exact .nil
  | e :: es, n, code, hfault => by
    simp only [Expr.toTerms, Term.faults, firstFault?, List.foldr_cons,
      Option.or_eq_none_iff] at hfault
    have hlater := chain_emits es (e.toTerm n).2 (code ++ (e.code (b.frame p) code.length).1)
      hfault.2
    simp only [Expr.codes]
    rw [← List.append_assoc, ← List.length_append]
    exact .cons ⟨n, code, hfault.1, rfl, rfl, rfl⟩ hlater

/-- A call without a fault finds its callee under its own name, with as many parameters. -/
theorem exists_callee (h : b.Opens p) (code : List Instr) {callee : String} {count : Nat}
    (hcall : (b.bodyScope p).callFault? callee count = none) :
    ∃ serial f, (b.entered p code).find? callee = some (serial, f) ∧ f.params.length = count ∧
      f.name = callee := by
  have harity := arity?_entered h.conflict code callee
  simp only [Scope.callFault?, ← harity] at hcall
  cases hfind : (b.entered p code).find? callee with
  | none => rw [hfind] at hcall; cases hcall
  | some found =>
    obtain ⟨serial, f⟩ := found
    refine ⟨serial, f, rfl, ?_, ?_⟩
    · rw [hfind] at hcall
      by_contra hne
      simp [hne] at hcall
    · obtain ⟨hget, hf⟩ := find?_eq_some.1 hfind
      obtain ⟨g, hg, hgn⟩ := (h.sound.entered p code).known hget
      rw [hf] at hg
      injection hg with hg
      rw [hg, hgn]

/-- **The builder emits the code of each expression** after that of its parts. -/
theorem computes (h : b.Opens p) : backend.Computes (b.Emits p) where
  number hemits _ := by
    obtain ⟨n, code, -, rfl, rfl, rfl⟩ := hemits
    simp only [backend, Plan.run_done, Expr.code, List.append_nil]
  identifier {name _ _ _} hemits pass := by
    obtain ⟨n, code, hfault, rfl, rfl, rfl⟩ := hemits
    have hname : name ∈ p.params := by
      by_contra hname
      simp only [Expr.toTerm, Term.fault?, Scope.variableFault?, bodyScope, hname, if_false] at hfault
      cases hfault
    have hrun := run_identifier (b := b) h.proto code [] pass name
    rw [if_pos hname] at hrun
    simp only [backend, hrun, Expr.code, List.append_nil, frame]
  binary {op left right _ _ _} hemits := by
    obtain ⟨n, code, hfault, rfl, rfl, rfl⟩ := hemits
    simp only [Expr.toTerm, Term.fault?, Option.or_eq_none_iff] at hfault
    obtain ⟨hfaultLeft, hfaultRight, -⟩ := hfault
    have hcurrent : ∀ more, (b.entered p more).current.isNone = false := fun _ => rfl
    refine ⟨_, _, _, _, ⟨n, code, hfaultLeft, rfl, rfl, rfl⟩, ⟨_, _, hfaultRight, rfl, rfl, rfl⟩,
      fun a c pass pass₁ pass₂ hleft hright => ?_⟩
    rw [List.length_append] at hright
    simp only [backend_binary, binary, Plan.run_bind, Plan.run_lower [a, c] _ _ (i := 0) rfl, hleft,
      Action.andThen_ok, Plan.run_lower [a, c] _ _ (i := 1) rfl, hright, Plan.run_get, hcurrent,
      Bool.false_eq_true, if_false, OpCode.operator?_ofOperator, run_operator, Expr.code,
      List.length_append, List.append_assoc, frame_result, Nat.add_assoc]
  call {callee args _ _ _} hemits := by
    obtain ⟨n, code, hfault, rfl, rfl, rfl⟩ := hemits
    simp only [Expr.toTerm, Term.fault?, Option.or_eq_none_iff, Expr.length_toTerms] at hfault
    obtain ⟨hcall, hfaultArgs⟩ := hfault
    obtain ⟨serial, f, hfind, hlength, hname⟩ := exists_callee h code hcall
    refine ⟨_, _, chain_emits args n code hfaultArgs, fun actions pass pass₁ hactions hargs => ?_⟩
    simp only [backend_call, call, Plan.run_bind, Plan.run_get, Action.andThen_ok, hfind, hlength,
      ne_eq, not_true_eq_false, if_false]
    rw [← hactions, Plan.run_lowerFrom_zero, hargs]
    simp only [Action.andThen_ok, run_append, Expr.code, hname, List.length_append,
      List.append_assoc, frame_result]

/-- **A definition without a fault builds the code of its expression.** -/
theorem lowerFresh_body (h : b.Opens p) (e : Expr) (n : Nat)
    (hfault : (e.toTerm n).1.fault? (b.bodyScope p) = none) :
    (Node.function ⟨(e.toTerm n).2 + 1, .proto (e.toTerm n).2 p, (e.toTerm n).1⟩).lowerFresh backend b =
      (.ok (.function (b.declared p).1),
        b.built p (e.code (b.frame p) 0).1 (e.code (b.frame p) 0).2) := by
  have hemits : b.Emits p e (b.entered p []) (e.code (b.frame p) 0).2
      (b.entered p (e.code (b.frame p) 0).1) := ⟨n, [], hfault, rfl, rfl, rfl⟩
  obtain ⟨pass, hrun, -⟩ := (computes h).run_toTerm e n (b.bodyPass p (e.toTerm n).2) hemits
    fun id _ hto => result?_bodyPass b p (Nat.ne_of_lt hto)
  exact lowerFresh_of_body h.proto h.conflict hrun

end

end Ir.Builder

end Kaleidoscope
