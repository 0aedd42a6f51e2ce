/-
  What expressions and instructions mean, over any machine.

  - `Machine`: what the instructions do on some type of values. A call may do anything with the name
    of the function, the arguments, and all calls before it;
  - `Expr.evaluate`: evaluates an expression from left to right, and keeps a list of the calls;
  - `Function.execute`: executes the block of a function, instruction by instruction. It stops
    without a result if an operand is not there;
  - `Expr.execute_code`: the code of an expression computes what the expression means, and makes the
    same calls in the same order.
-/
import Kaleidoscope.Proofs.Ir.Code

namespace Kaleidoscope

universe u

/-! ## Machines -/

/-- A call that was made. -/
structure Call (α : Type u) where
  callee : String
  args : List α
  result : α

/-- What the instructions do: `α` are the doubles, `β` the bits. -/
structure Machine (α β : Type u) where
  constant : Binary64 → α
  arithmetic : Ir.Arithmetic → α → α → α
  compare : Ir.Comparison → α → α → β
  widen : β → α
  /-- The result of a call, given the calls before it. -/
  call : String → List α → List (Call α) → α

variable {α β : Type u}

/-- What an operator does. -/
def Machine.operate (m : Machine α β) : Operator → α → α → α
  | .add, x, y => m.arithmetic .add x y
  | .subtract, x, y => m.arithmetic .subtract x y
  | .multiply, x, y => m.arithmetic .multiply x y
  | .divide, x, y => m.arithmetic .divide x y
  | .less, x, y => m.widen (m.compare .less x y)
  | .greater, x, y => m.widen (m.compare .greater x y)

/-! ## Expressions -/

mutual

/-- The value of an expression and the calls after it, from left to right: operands before their
operator, arguments before their call. -/
def Expr.evaluate (m : Machine α β) (env : String → Option α) :
    Expr → List (Call α) → Option (α × List (Call α))
  | .number value, calls => some (m.constant value, calls)
  | .identifier name, calls => (env name).map fun x => (x, calls)
  | .binary op left right, calls =>
    (left.evaluate m env calls).bind fun (x, calls) =>
      (right.evaluate m env calls).map fun (y, calls) => (m.operate op x y, calls)
  | .call callee args, calls =>
    (Expr.evaluateAll m env args calls).map fun (xs, calls) =>
      let result := m.call callee xs calls
      (result, calls ++ [⟨callee, xs, result⟩])

/-- The values of expressions, one after another. -/
def Expr.evaluateAll (m : Machine α β) (env : String → Option α) :
    List Expr → List (Call α) → Option (List α × List (Call α))
  | [], calls => some ([], calls)
  | e :: es, calls =>
    (e.evaluate m env calls).bind fun (x, calls) =>
      (Expr.evaluateAll m env es calls).map fun (xs, calls) => (x :: xs, calls)

end

/-- The `i`-th parameter is bound to the `i`-th argument. -/
def bindParams (params : List String) (args : List α) (name : String) : Option α :=
  (params.zip args).lookup name

namespace Ir

/-! ## Instructions -/

/-- The result of an instruction. -/
inductive Datum (α β : Type u) where
  | double (x : α)
  | bit (x : β)

/-- The results of the instructions so far, and the calls that were made. -/
structure Store (α β : Type u) where
  results : List (Datum α β)
  calls : List (Call α)

/-- What a value stands for in a frame with those arguments. Only parameters of the own function and
results of the own block are there. -/
def Value.datum (m : Machine α β) (F : Frame) (args : List α) (results : List (Datum α β)) :
    Value → Option (Datum α β)
  | .constant x => some (.double (m.constant x))
  | .param serial index => if serial = F.serial then args[index]?.map .double else none
  | .result serial block index =>
    if serial = F.serial ∧ block = F.block then results[index]? else none
  | .function _ => none

/-- The double that a value stands for. -/
def Value.double (m : Machine α β) (F : Frame) (args : List α) (results : List (Datum α β))
    (v : Value) : Option α :=
  match v.datum m F args results with
  | some (.double x) => some x
  | _ => none

/-- The bit that a value stands for. -/
def Value.bit (m : Machine α β) (F : Frame) (args : List α) (results : List (Datum α β))
    (v : Value) : Option β :=
  match v.datum m F args results with
  | some (.bit x) => some x
  | _ => none

/-- The doubles that values stand for. -/
def Value.doubles (m : Machine α β) (F : Frame) (args : List α) (results : List (Datum α β)) :
    List Value → Option (List α)
  | [] => some []
  | v :: vs =>
    (v.double m F args results).bind fun x => (Value.doubles m F args results vs).map (x :: ·)

/-- The result of an instruction, and the calls after it. The instructions of the built-in functions
are not interpreted. -/
def Instr.perform (m : Machine α β) (F : Frame) (args : List α) (s : Store α β) :
    Instr → Option (Datum α β × List (Call α))
  | .arithmetic op left right =>
    (left.double m F args s.results).bind fun x =>
      (right.double m F args s.results).map fun y => (.double (m.arithmetic op x y), s.calls)
  | .compare op left right =>
    (left.double m F args s.results).bind fun x =>
      (right.double m F args s.results).map fun y => (.bit (m.compare op x y), s.calls)
  | .widen bit => (bit.bit m F args s.results).map fun x => (.double (m.widen x), s.calls)
  | .call callee operands =>
    (Value.doubles m F args s.results operands).map fun xs =>
      let result := m.call callee xs s.calls
      (.double result, s.calls ++ [⟨callee, xs, result⟩])
  | .toInteger _ | .printLine _ | .printCharacter _ => none

/-- Instructions one after another. -/
def perform (m : Machine α β) (F : Frame) (args : List α) :
    List Instr → Store α β → Option (Store α β)
  | [], s => some s
  | i :: rest, s =>
    (i.perform m F args s).bind fun (d, calls) =>
      perform m F args rest ⟨s.results ++ [d], calls⟩

/-- The value that a block returns, and the calls after it. -/
def Block.execute (m : Machine α β) (F : Frame) (args : List α) (calls : List (Call α))
    (b : Block) : Option (α × List (Call α)) :=
  (perform m F args b.instrs.toList ⟨[], calls⟩).bind fun s =>
    b.returned.bind fun v => (v.double m F args s.results).map fun x => (x, s.calls)

/-- The value that a function with one block returns for arguments, and the calls after it. -/
def Function.execute (m : Machine α β) (serial : Nat) (args : List α) (calls : List (Call α))
    (f : Function) : Option (α × List (Call α)) :=
  match f.blocks with
  | [block] => block.execute m (f.frame serial) args calls
  | _ => none

/-! ## Results stay where they are -/

section
variable (m : Machine α β) (F : Frame) (args : List α)

theorem perform_append (first rest : List Instr) (s : Store α β) :
    perform m F args (first ++ rest) s =
      (perform m F args first s).bind (perform m F args rest) := by
  induction first generalizing s with
  | nil => rfl
  | cons i first ih =>
    rw [List.cons_append, perform, perform]
    cases i.perform m F args s with
    | none => rfl
    | some ended => exact ih _

/-- The value stands for that double, whatever comes after the results. -/
def Value.Holds (results : List (Datum α β)) (v : Value) (x : α) : Prop :=
  ∀ later, v.double m F args (results ++ later) = some x

variable {m F args}

theorem Value.Holds.double {results : List (Datum α β)} {v : Value} {x : α}
    (h : v.Holds m F args results x) : v.double m F args results = some x := by
  have := h []
  rwa [List.append_nil] at this

theorem Value.Holds.append {results : List (Datum α β)} {v : Value} {x : α}
    (h : v.Holds m F args results x) (more : List (Datum α β)) :
    v.Holds m F args (results ++ more) x := by
  intro later
  rw [List.append_assoc]
  exact h (more ++ later)

/-- The result of the last instruction. -/
theorem Frame.result_holds {results : List (Datum α β)} {index : Nat} (h : results.length = index)
    (x : α) : (F.result index).Holds m F args (results ++ [.double x]) x := by
  intro later
  subst h
  simp [Value.double, Value.datum, Frame.result]

/-- The values stand for those doubles, whatever comes after the results. -/
def Value.AllHold (m : Machine α β) (F : Frame) (args : List α) (results : List (Datum α β))
    (vs : List Value) (xs : List α) : Prop :=
  List.Forall₂ (Value.Holds m F args results) vs xs

theorem Value.AllHold.doubles {results : List (Datum α β)} {vs : List Value} {xs : List α}
    (h : Value.AllHold m F args results vs xs) : Value.doubles m F args results vs = some xs := by
  induction h with
  | nil => rfl
  | cons hv _ ih => rw [Value.doubles, hv.double, ih]; rfl

end

end Ir

/-! ## The code of an expression -/

open Ir

theorem lookup_zip (name : String) : ∀ (params : List String) (args : List α), name ∈ params →
    (params.zip args).lookup name = args[params.idxOf name]?
  | [], _, h => absurd h List.not_mem_nil
  | param :: params, [], _ => by simp
  | param :: params, arg :: args, h => by
    rw [List.zip_cons_cons, List.lookup_cons]
    by_cases hname : name = param
    · subst hname; simp
    · have hrest := lookup_zip name params args (by simpa [hname] using h)
      have hbeq : (name == param) = false := by simpa using hname
      rw [List.idxOf_cons_ne _ (Ne.symm hname), List.getElem?_cons_succ, ← hrest, hbeq]

section
variable (m : Machine α β) {F : Frame} {args : List α}

theorem perform_arithmetic (op : Arithmetic) {results : List (Datum α β)} (calls : List (Call α))
    {left right : Value} {x y : α} (hx : left.Holds m F args results x)
    (hy : right.Holds m F args results y) :
    ∃ more, perform m F args [.arithmetic op left right] ⟨results, calls⟩ =
        some ⟨results ++ more, calls⟩ ∧ more.length = 1 ∧
      (F.result results.length).Holds m F args (results ++ more) (m.arithmetic op x y) := by
  refine ⟨[.double (m.arithmetic op x y)], ?_, rfl, Frame.result_holds rfl _⟩
  simp only [perform, Instr.perform, hx.double, hy.double, Option.bind_some, Option.map_some]

theorem perform_compare (op : Comparison) {results : List (Datum α β)} (calls : List (Call α))
    {left right : Value} {x y : α} (hx : left.Holds m F args results x)
    (hy : right.Holds m F args results y) :
    ∃ more, perform m F args [.compare op left right, .widen (F.result results.length)]
        ⟨results, calls⟩ = some ⟨results ++ more, calls⟩ ∧ more.length = 2 ∧
      (F.result (results.length + 1)).Holds m F args (results ++ more)
        (m.widen (m.compare op x y)) := by
  have hbit : (F.result results.length).bit m F args (results ++ [.bit (m.compare op x y)]) =
      some (m.compare op x y) := by
    simp [Value.bit, Value.datum, Frame.result]
  refine ⟨[.bit (m.compare op x y)] ++ [.double (m.widen (m.compare op x y))], ?_, rfl, ?_⟩
  · simp only [perform, Instr.perform, hx.double, hy.double, Option.bind_some, Option.map_some, hbit,
      List.append_assoc]
  · rw [← List.append_assoc]
    exact Frame.result_holds (by rw [List.length_append]; rfl) _

/-- The instructions of an operator compute what it does. -/
theorem perform_instrs (op : Operator) {results : List (Datum α β)} (calls : List (Call α))
    {left right : Value} {x y : α} (hx : left.Holds m F args results x)
    (hy : right.Holds m F args results y) {own : List Instr}
    (hown : own = Ir.Builder.instrs op left right (F.result results.length)) :
    ∃ more, perform m F args own ⟨results, calls⟩ = some ⟨results ++ more, calls⟩ ∧
      more.length = own.length ∧
      (F.result (results.length + (own.length - 1))).Holds m F args (results ++ more)
        (m.operate op x y) := by
  subst hown
  cases op with
  | add | subtract | multiply | divide => exact perform_arithmetic m _ calls hx hy
  | less | greater => exact perform_compare m _ calls hx hy

mutual

/-- **The code of an expression computes what the expression means**, and makes the same calls in
the same order. -/
theorem Expr.execute_code (hargs : args.length = F.params.length) {Γ : Scope}
    (hΓ : Γ.params = F.params) :
    ∀ (e : Expr) (n : Nat) (results : List (Datum α β)) (calls : List (Call α)),
    (e.toTerm n).1.fault? Γ = none →
    ∃ x calls' more, e.evaluate m (bindParams F.params args) calls = some (x, calls') ∧
      perform m F args (e.code F results.length).1 ⟨results, calls⟩ =
        some ⟨results ++ more, calls'⟩ ∧
      more.length = (e.code F results.length).1.length ∧
      (e.code F results.length).2.Holds m F args (results ++ more) x
  | .number value, n, results, calls, _ => by
    refine ⟨m.constant value, calls, [], rfl, ?_, rfl, fun _ => rfl⟩
    rw [List.append_nil]; rfl
  | .identifier name, n, results, calls, hfault => by
    have hname : name ∈ F.params := by
      by_contra hname
      simp only [Expr.toTerm, Term.fault?, Scope.variableFault?, hΓ, hname, if_false] at hfault
      cases hfault
    have hlt : F.params.idxOf name < args.length := hargs ▸ List.idxOf_lt_length_of_mem hname
    refine ⟨args[F.params.idxOf name], calls, [], ?_, ?_, rfl, fun later => ?_⟩
    · rw [Expr.evaluate, bindParams, lookup_zip name F.params args hname,
        List.getElem?_eq_getElem hlt, Option.map_some]
    · rw [List.append_nil]; rfl
    · simp [Expr.code, Value.double, Value.datum, List.getElem?_eq_getElem hlt]
  | .binary op left right, n, results, calls, hfault => by
    simp only [Expr.toTerm, Term.fault?, Option.or_eq_none_iff] at hfault
    obtain ⟨hfaultLeft, hfaultRight, -⟩ := hfault
    obtain ⟨x, calls₁, more₁, hx, hrun₁, hlen₁, hholds₁⟩ :=
      Expr.execute_code hargs hΓ left n results calls hfaultLeft
    obtain ⟨y, calls₂, more₂, hy, hrun₂, hlen₂, hholds₂⟩ :=
      Expr.execute_code hargs hΓ right (left.toTerm n).2 (results ++ more₁) calls₁ hfaultRight
    rw [List.length_append, hlen₁] at hrun₂ hlen₂ hholds₂
    -- the left operand is still there after the code of the right one
    obtain ⟨more₃, hrun₃, hlen₃, hholds₃⟩ := perform_instrs m op calls₂
      (hholds₁.append more₂) hholds₂ rfl
    rw [List.length_append, List.length_append, hlen₁, hlen₂] at hrun₃ hlen₃ hholds₃
    refine ⟨m.operate op x y, calls₂, more₁ ++ more₂ ++ more₃, ?_, ?_, ?_, ?_⟩
    · simp only [Expr.evaluate, hx, Option.bind_some, hy, Option.map_some]
    · simp only [Expr.code, perform_append, hrun₁, Option.bind_some, hrun₂, hrun₃]
      simp only [List.append_assoc]
    · simp only [Expr.code, List.length_append, hlen₁, hlen₂, hlen₃]
    · rw [← List.append_assoc, ← List.append_assoc]
      exact hholds₃
  | .call callee es, n, results, calls, hfault => by
    simp only [Expr.toTerm, Term.fault?, Option.or_eq_none_iff] at hfault
    obtain ⟨xs, calls₁, more, hxs, hrun, hlen, hhold⟩ :=
      Expr.execute_codes hargs hΓ es n results calls hfault.2
    let result := m.call callee xs calls₁
    refine ⟨result, calls₁ ++ [⟨callee, xs, result⟩], more ++ [.double result], ?_, ?_, ?_, ?_⟩
    · simp only [Expr.evaluate, hxs, Option.map_some, result]
    · simp only [Expr.code, perform_append, hrun, Option.bind_some, perform, Instr.perform,
        hhold.doubles, Option.map_some, List.append_assoc, result]
    · simp only [Expr.code, List.length_append, hlen, List.length_singleton]
    · rw [← List.append_assoc]
      exact Frame.result_holds (by rw [List.length_append, hlen]) _

theorem Expr.execute_codes (hargs : args.length = F.params.length) {Γ : Scope}
    (hΓ : Γ.params = F.params) :
    ∀ (es : List Expr) (n : Nat) (results : List (Datum α β)) (calls : List (Call α)),
    firstFault? (Term.faults Γ (Expr.toTerms es n).1) = none →
    ∃ xs calls' more, Expr.evaluateAll m (bindParams F.params args) es calls = some (xs, calls') ∧
      perform m F args (Expr.codes F es results.length).1 ⟨results, calls⟩ =
        some ⟨results ++ more, calls'⟩ ∧
      more.length = (Expr.codes F es results.length).1.length ∧
      Value.AllHold m F args (results ++ more) (Expr.codes F es results.length).2 xs
  | [], n, results, calls, _ => by
    refine ⟨[], calls, [], rfl, ?_, rfl, .nil⟩
    rw [List.append_nil]; rfl
  | e :: es, n, results, calls, hfault => by
    simp only [Expr.toTerms, Term.faults, firstFault?, List.foldr_cons,
      Option.or_eq_none_iff] at hfault
    obtain ⟨x, calls₁, more₁, hx, hrun₁, hlen₁, hholds⟩ :=
      Expr.execute_code hargs hΓ e n results calls hfault.1
    obtain ⟨xs, calls₂, more₂, hxs, hrun₂, hlen₂, hhold⟩ :=
      Expr.execute_codes hargs hΓ es (e.toTerm n).2 (results ++ more₁) calls₁ hfault.2
    rw [List.length_append, hlen₁] at hrun₂ hlen₂ hhold
    refine ⟨x :: xs, calls₂, more₁ ++ more₂, ?_, ?_, ?_, ?_⟩
    · simp only [Expr.evaluateAll, hx, Option.bind_some, hxs, Option.map_some]
    · simp only [Expr.codes, perform_append, hrun₁, Option.bind_some, hrun₂, List.append_assoc]
    · simp only [Expr.codes, List.length_append, hlen₁, hlen₂]
    · rw [← List.append_assoc]
      exact .cons (hholds.append more₂) hhold

end

/-- **A function whose body is the code of an expression computes what the expression means**, with
its parameters bound to the arguments. -/
theorem execute_withBody {f : Function} (hargs : args.length = f.params.length) (serial : Nat)
    {Γ : Scope} (hΓ : Γ.params = f.params) (e : Expr) {n : Nat}
    (hfault : (e.toTerm n).1.fault? Γ = none) (calls : List (Call α)) :
    ∃ x calls', e.evaluate m (bindParams f.params args) calls = some (x, calls') ∧
      (f.withBody (e.code (f.frame serial) 0).1 (some (e.code (f.frame serial) 0).2)).execute m serial
        args calls = some (x, calls') := by
  obtain ⟨x, calls', more, heval, hrun, -, hholds⟩ :=
    Expr.execute_code m (F := f.frame serial) hargs hΓ e n [] calls hfault
  refine ⟨x, calls', heval, ?_⟩
  have hvalue := hholds.double
  show ((perform m (f.frame serial) args (e.code (f.frame serial) 0).1 ⟨[], calls⟩).bind fun s =>
    (some (e.code (f.frame serial) 0).2).bind fun v =>
      (v.double m (f.frame serial) args s.results).map fun x => (x, s.calls)) = _
  rw [List.length_nil] at hrun hvalue
  simp only [hrun, Option.bind_some, hvalue, Option.map_some]

end

end Kaleidoscope
