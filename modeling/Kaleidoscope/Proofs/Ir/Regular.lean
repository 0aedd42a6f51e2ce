/-
  Modules that are well formed.

  - `Value.Available`: what an instruction may take: a constant, a parameter of its own function, or
    the result of an instruction before it in the same block;
  - `Builder.Takes`: the module lists a function of that name with so many parameters, which is not a
    library function;
  - `Function.Correct`: no block, or one complete block, in which every operand is available and
    every call finds its function;
  - `Expr.code_correct`: the code of an expression without a fault is correct;
  - `Builder.Regular`: the invariant of builders. It survives new functions and new bodies;
  - `Builder.WellFormed`: the module lists no name twice, and what a program added is correct.
-/
import Kaleidoscope.Proofs.Ir.Writing

namespace Kaleidoscope

namespace Ir

/-! ## Correct functions -/

/-- The value is there for an instruction that `count` others come before. -/
def Value.Available (F : Frame) (count : Nat) : Value → Prop
  | .constant _ => True
  | .param serial index => serial = F.serial ∧ index < F.params.length
  | .result serial block index => serial = F.serial ∧ block = F.block ∧ index < count
  | .function _ => False

/-- The module lists a function of that name with so many parameters, other than those of the
library. -/
def Builder.Takes (b : Builder) (callee : String) (count : Nat) : Prop :=
  callee ∉ LibraryFunction.reserved ∧
    ∃ serial f, .function serial ∈ b.entries ∧ b.function? serial = some f ∧ f.name = callee ∧
      f.params.length = count

/-- The operands of the instruction are there, and a call finds its function. The instructions of
the built-in functions are not correct elsewhere. -/
def Instr.Correct (b : Builder) (F : Frame) (count : Nat) : Instr → Prop
  | .arithmetic _ left right => left.Available F count ∧ right.Available F count
  | .compare _ left right => left.Available F count ∧ right.Available F count
  | .widen bit => bit.Available F count
  | .call callee args => b.Takes callee args.length ∧ ∀ v ∈ args, v.Available F count
  | .toInteger _ | .printLine _ | .printCharacter _ => False

/-- The instructions are correct one after another, `start` others coming before them. -/
def CorrectFrom (b : Builder) (F : Frame) (start : Nat) (code : List Instr) : Prop :=
  ∀ (i : Nat) (instr : Instr), code[i]? = some instr → instr.Correct b F (start + i)

/-- The function has no block, or one that returns a value and whose instructions are correct. -/
def Function.Correct (b : Builder) (serial : Nat) (f : Function) : Prop :=
  f.blocks = [] ∨ ∃ block v, f.blocks = [block] ∧ block.returned = some v ∧
    v.Available (f.frame serial) block.instrs.size ∧
    CorrectFrom b (f.frame serial) 0 block.instrs.toList

/-! ## Correct code -/

theorem Value.Available.mono {F : Frame} {v : Value} {count more : Nat} (h : v.Available F count)
    (hle : count ≤ more) : v.Available F more := by
  cases v with
  | constant x => trivial
  | param serial index => exact h
  | result serial block index => exact ⟨h.1, h.2.1, Nat.lt_of_lt_of_le h.2.2 hle⟩
  | function serial => exact h

theorem Frame.result_available (F : Frame) {index count : Nat} (h : index < count) :
    (F.result index).Available F count := ⟨rfl, rfl, h⟩

theorem CorrectFrom.nil (b : Builder) (F : Frame) (start : Nat) : CorrectFrom b F start [] := by
  intro i instr h
  cases h

theorem CorrectFrom.append {b : Builder} {F : Frame} {start : Nat} {first rest : List Instr}
    (hfirst : CorrectFrom b F start first) (hrest : CorrectFrom b F (start + first.length) rest) :
    CorrectFrom b F start (first ++ rest) := by
  intro i instr h
  by_cases hi : i < first.length
  · rw [List.getElem?_append_left hi] at h
    exact hfirst i instr h
  · rw [List.getElem?_append_right (Nat.le_of_not_lt hi)] at h
    have := hrest _ instr h
    rwa [show start + first.length + (i - first.length) = start + i by omega] at this

theorem CorrectFrom.single {b : Builder} {F : Frame} {start : Nat} {instr : Instr}
    (h : instr.Correct b F start) : CorrectFrom b F start [instr] := by
  intro i instr' hi
  cases i with
  | zero => injection hi with hi; exact hi ▸ h
  | succ i => cases hi

theorem CorrectFrom.cons {b : Builder} {F : Frame} {start : Nat} {instr : Instr} {rest : List Instr}
    (h : instr.Correct b F start) (hrest : CorrectFrom b F (start + 1) rest) :
    CorrectFrom b F start (instr :: rest) := (CorrectFrom.single h).append hrest

theorem correct_instrs (b : Builder) {F : Frame} {start : Nat} (op : Operator) {left right : Value}
    (hleft : left.Available F start) (hright : right.Available F start) :
    CorrectFrom b F start (Builder.instrs op left right (F.result start)) := by
  cases op with
  | add | subtract | multiply | divide => exact .single ⟨hleft, hright⟩
  | less | greater =>
    refine .cons ⟨hleft, hright⟩ (.single ?_)
    exact F.result_available (Nat.lt_succ_self start)

end Ir

open Ir

section
variable {b : Builder} {F : Frame} {Γ : Scope}

theorem length_codes (F : Frame) (es : List Expr) (start : Nat) :
    (Expr.codes F es start).2.length = es.length := by
  induction es generalizing start with
  | nil => rfl
  | cons e es ih => simp only [Expr.codes, List.length_cons, ih]

mutual

/-- **The code of an expression without a fault is correct**, and its value is there after it. -/
theorem Expr.code_correct (hparams : Γ.params = F.params)
    (htakes : ∀ callee count, Γ.arity? callee = some count → b.Takes callee count) :
    ∀ (e : Expr) (n start : Nat), (e.toTerm n).1.fault? Γ = none →
      CorrectFrom b F start (e.code F start).1 ∧
        (e.code F start).2.Available F (start + (e.code F start).1.length)
  | .number value, n, start, _ => ⟨.nil b F start, trivial⟩
  | .identifier name, n, start, hfault => by
    refine ⟨.nil b F start, rfl, ?_⟩
    by_contra hlt
    have hname : name ∉ F.params := fun hmem => hlt (List.idxOf_lt_length_of_mem hmem)
    simp only [Expr.toTerm, Term.fault?, Scope.variableFault?, hparams, hname, if_false] at hfault
    cases hfault
  | .binary op left right, n, start, hfault => by
    simp only [Expr.toTerm, Term.fault?, Option.or_eq_none_iff] at hfault
    obtain ⟨hfaultLeft, hfaultRight, -⟩ := hfault
    obtain ⟨hleft, hl⟩ := Expr.code_correct hparams htakes left n start hfaultLeft
    obtain ⟨hright, hr⟩ := Expr.code_correct hparams htakes right (left.toTerm n).2
      (start + (left.code F start).1.length) hfaultRight
    have hown := correct_instrs b op (hl.mono (Nat.le_add_right _ _)) hr
    refine ⟨(hleft.append hright).append ?_, ?_⟩
    · simpa only [List.length_append, Nat.add_assoc] using hown
    · have hpos : 0 < (Builder.instrs op (left.code F start).2
          (right.code F (start + (left.code F start).1.length)).2
          (F.result (start + (left.code F start).1.length +
            (right.code F (start + (left.code F start).1.length)).1.length))).length := by
        cases op <;> exact Nat.succ_pos _
      refine F.result_available ?_
      simp only [Expr.code, List.length_append]
      omega
  | .call callee args, n, start, hfault => by
    simp only [Expr.toTerm, Term.fault?, Option.or_eq_none_iff] at hfault
    obtain ⟨hcall, hfaultArgs⟩ := hfault
    obtain ⟨hbefore, hvalues⟩ := Expr.codes_correct hparams htakes args n start hfaultArgs
    have hknown : Γ.arity? callee = some args.length := by
      rw [Expr.length_toTerms] at hcall
      unfold Scope.callFault? at hcall
      split at hcall
      · cases hcall
      · rename_i arity harity
        by_cases hne : arity = args.length
        · rw [harity, hne]
        · simp [hne] at hcall
    refine ⟨hbefore.append (.single ⟨?_, hvalues⟩), ?_⟩
    · rw [length_codes]
      exact htakes callee args.length hknown
    · refine F.result_available ?_
      simp only [Expr.code, List.length_append, List.length_singleton]
      omega

theorem Expr.codes_correct (hparams : Γ.params = F.params)
    (htakes : ∀ callee count, Γ.arity? callee = some count → b.Takes callee count) :
    ∀ (es : List Expr) (n start : Nat), firstFault? (Term.faults Γ (Expr.toTerms es n).1) = none →
      CorrectFrom b F start (Expr.codes F es start).1 ∧
        ∀ v ∈ (Expr.codes F es start).2, v.Available F (start + (Expr.codes F es start).1.length)
  | [], n, start, _ => ⟨.nil b F start, fun v hv => absurd hv List.not_mem_nil⟩
  | e :: es, n, start, hfault => by
    simp only [Expr.toTerms, Term.faults, firstFault?, List.foldr_cons,
      Option.or_eq_none_iff] at hfault
    obtain ⟨hfirst, hvalue⟩ := Expr.code_correct hparams htakes e n start hfault.1
    obtain ⟨hrest, hvalues⟩ := Expr.codes_correct hparams htakes es (e.toTerm n).2
      (start + (e.code F start).1.length) hfault.2
    refine ⟨hfirst.append hrest, fun v hv => ?_⟩
    simp only [Expr.codes, List.length_append]
    rcases List.mem_cons.1 hv with rfl | hv
    · exact hvalue.mono (by omega)
    · exact (hvalues v hv).mono (by omega)

end

end

namespace Ir

/-! ## The invariant -/

theorem CorrectFrom.mono {b b' : Builder} {F : Frame} {start : Nat} {code : List Instr}
    (h : CorrectFrom b F start code)
    (htakes : ∀ callee count, b.Takes callee count → b'.Takes callee count) :
    CorrectFrom b' F start code := by
  intro i instr hi
  have := h i instr hi
  cases instr with
  | arithmetic op left right => exact this
  | compare op left right => exact this
  | widen bit => exact this
  | call callee args => exact ⟨htakes callee args.length this.1, this.2⟩
  | toInteger x => exact this
  | printLine x => exact this
  | printCharacter x => exact this

theorem Function.Correct.mono {b b' : Builder} {serial : Nat} {f : Function} (h : f.Correct b serial)
    (htakes : ∀ callee count, b.Takes callee count → b'.Takes callee count) :
    f.Correct b' serial := by
  rcases h with h | ⟨block, v, hblocks, hreturned, hvalue, hcode⟩
  · exact Or.inl h
  · exact Or.inr ⟨block, v, hblocks, hreturned, hvalue, hcode.mono htakes⟩

theorem Function.Correct.numbered {b : Builder} {serial : Nat} {f : Function}
    (h : f.Correct b serial) : f.numbered.Correct b serial := by
  rcases h with h | ⟨block, v, hblocks, hreturned, hvalue, hcode⟩
  · exact Or.inl (by rw [Function.numbered, h]; rfl)
  · refine Or.inr ⟨block.numbered f.unnamed, v, ?_, hreturned, hvalue, hcode⟩
    rw [Function.numbered, hblocks]; rfl

namespace Builder

/-- The invariant of builders: names and listed functions belong together, no name is one of the
library or spells a number, the names for the next expressions at top level are free, every function
can be written, and those that a program added are correct. -/
structure Regular (b : Builder) : Prop where
  sound : b.Sound
  listed : ∀ {name serial}, b.names.get? name = some serial → .function serial ∈ b.entries
  named : ∀ {serial}, .function serial ∈ b.entries →
    ∃ f, b.function? serial = some f ∧ b.names.get? f.name = some serial
  nodup : b.entries.Nodup
  start : initial.entries <+: b.entries
  spelled : ∀ {name serial}, b.names.get? name = some serial →
    name ∉ LibraryFunction.reserved ∧ signedNumber? name = none
  fresh : ∀ {k}, b.anonymous ≤ k → b.names.get? (anonymousName k) = none
  complete : ∀ {serial f}, b.function? serial = some f → f.Complete
  correct : ∀ {serial f}, builtins.length ≤ serial → b.function? serial = some f →
    f.Correct b serial

/-- A function that is known may be called. -/
theorem Regular.takes {b : Builder} (h : b.Regular) {callee : String} {serial : Nat} {f : Function}
    (hfind : b.find? callee = some (serial, f)) : b.Takes callee f.params.length := by
  obtain ⟨hget, hf⟩ := find?_eq_some.1 hfind
  obtain ⟨g, hg, hname⟩ := h.sound.known hget
  rw [hf] at hg
  injection hg with hg
  exact ⟨(h.spelled hget).1, serial, f, h.listed hget, hf, by rw [hg, hname], rfl⟩

section
variable {b : Builder} {serial : Nat} {f g : Function}

theorem Takes.put (hf : b.function? serial = some f) (hname : g.name = f.name)
    (hparams : g.params.length = f.params.length) {callee : String} {count : Nat}
    (h : b.Takes callee count) : (b.put serial g).Takes callee count := by
  obtain ⟨hfree, k, f', hentry, hf', hcallee, hcount⟩ := h
  by_cases hk : serial = k
  · subst hk
    rw [hf] at hf'
    injection hf' with hf'
    subst hf'
    exact ⟨hfree, serial, g, hentry, function?_put_self hf g, hname.trans hcallee,
      hparams.trans hcount⟩
  · exact ⟨hfree, k, f', hentry, (function?_put_other hk g).trans hf', hcallee, hcount⟩

/-- **A function may be replaced by a correct one** of the same name and arity. -/
theorem Regular.put (h : b.Regular) (hf : b.function? serial = some f) (hname : g.name = f.name)
    (hparams : g.params.length = f.params.length) (hcomplete : g.Complete)
    (hcorrect : builtins.length ≤ serial → g.Correct b serial) : (b.put serial g).Regular where
  sound := h.sound.put hf hname
  listed := h.listed
  named {k} hentry := by
    obtain ⟨f', hf', hget⟩ := h.named hentry
    by_cases hk : serial = k
    · subst hk
      rw [hf] at hf'
      injection hf' with hf'
      subst hf'
      exact ⟨g, function?_put_self hf g, hname ▸ hget⟩
    · exact ⟨f', (function?_put_other hk g).trans hf', hget⟩
  nodup := h.nodup
  start := h.start
  spelled := h.spelled
  fresh := h.fresh
  complete {k f'} hf' := by
    by_cases hk : serial = k
    · subst hk
      rw [function?_put_self hf] at hf'
      injection hf' with hf'
      exact hf' ▸ hcomplete
    · exact h.complete ((function?_put_other hk g).symm.trans hf')
  correct {k f'} hadded hf' := by
    by_cases hk : serial = k
    · subst hk
      rw [function?_put_self hf] at hf'
      injection hf' with hf'
      subst hf'
      exact (hcorrect hadded).mono fun _ _ => Takes.put hf hname hparams
    · exact (h.correct hadded ((function?_put_other hk g).symm.trans hf')).mono
        fun _ _ => Takes.put hf hname hparams

/-- **A declared function may be added** under a name that is free. -/
theorem Regular.create (h : b.Regular) (hnew : b.names.get? f.name = none) (hblocks : f.blocks = [])
    (hfree : f.name ∉ LibraryFunction.reserved) (hnumber : signedNumber? f.name = none)
    (next : Nat) (hnext : b.anonymous ≤ next) (hother : ∀ k, next ≤ k → f.name ≠ anonymousName k) :
    Regular { (b.create f).2 with anonymous := next } := by
  have hstored : ∀ {k g}, b.function? k = some g → (b.create f).2.function? k = some g :=
    fun hg => (function?_create_other (function?_lt hg) f).trans hg
  -- the new function is the last of the store
  have hcases : ∀ {k g}, (b.create f).2.function? k = some g →
      (k = b.store.size ∧ g = f) ∨ b.function? k = some g := by
    intro k g hg
    by_cases hk : k = b.store.size
    · subst hk
      rw [function?_create_self] at hg
      injection hg with hg
      exact Or.inl ⟨rfl, hg.symm⟩
    · have hlt := function?_lt hg
      simp only [Builder.create, Array.size_push] at hlt
      exact Or.inr ((function?_create_other (by omega) f).symm.trans hg)
  have hunlisted : Entry.function b.store.size ∉ b.entries := by
    intro hentry
    obtain ⟨g, hg, -⟩ := h.named hentry
    exact absurd (function?_lt hg) (Nat.lt_irrefl _)
  have htakes : ∀ callee count, b.Takes callee count →
      Takes { (b.create f).2 with anonymous := next } callee count := by
    rintro callee count ⟨hcallee, k, g, hentry, hg, hname, hcount⟩
    exact ⟨hcallee, k, g, List.mem_append_left _ hentry, hstored hg, hname, hcount⟩
  refine ⟨⟨(h.sound.create f).known⟩, ?_, ?_, ?_, ?_, ?_, ?_, ?_, ?_⟩
  · intro name serial hget
    simp only [Builder.create, SymbolTable.get?_add] at hget ⊢
    split at hget
    · injection hget with hget
      exact List.mem_append_right _ (hget ▸ List.mem_singleton_self _)
    · exact List.mem_append_left _ (h.listed hget)
  · intro serial hentry
    rcases List.mem_append.1 hentry with hentry | hentry
    · obtain ⟨g, hg, hget⟩ := h.named hentry
      refine ⟨g, hstored hg, ?_⟩
      have hne : f.name ≠ g.name := by
        intro heq
        rw [heq, hget] at hnew; cases hnew
      simp only [Builder.create, SymbolTable.get?_add, if_neg hne]
      exact hget
    · injection List.mem_singleton.1 hentry with hserial
      subst hserial
      refine ⟨f, function?_create_self b f, ?_⟩
      simp only [Builder.create, SymbolTable.get?_add, if_true]
  · exact List.nodup_append.2 ⟨h.nodup, by simp, fun e he e' he' heq =>
      hunlisted (List.mem_singleton.1 he' ▸ heq ▸ he)⟩
  · exact h.start.trans (List.prefix_append _ _)
  · intro name serial hget
    simp only [Builder.create, SymbolTable.get?_add] at hget
    split at hget
    · rename_i hname
      exact hname ▸ ⟨hfree, hnumber⟩
    · exact h.spelled hget
  · intro k hk
    simp only [Builder.create, SymbolTable.get?_add, if_neg (hother k hk)]
    exact h.fresh (Nat.le_trans hnext hk)
  · intro serial g hg
    rcases hcases hg with ⟨-, rfl⟩ | hg
    · exact Or.inl hblocks
    · exact h.complete hg
  · intro serial g hadded hg
    rcases hcases hg with ⟨-, rfl⟩ | hg
    · exact Or.inl hblocks
    · exact (h.correct hadded hg).mono htakes

end

theorem toString_injective {j k : Nat} (h : toString j = toString k) : j = k := by
  have hdigits : Nat.toDigits 10 j = Nat.toDigits 10 k := by
    have := congrArg String.toList h
    rwa [show toString j = j.repr from rfl, show toString k = k.repr from rfl, Nat.toList_repr,
      Nat.toList_repr] at this
  rw [← Nat.ofDigitChars_ten_toDigits (n := j), hdigits, Nat.ofDigitChars_ten_toDigits]

theorem anonymousName_injective {j k : Nat} (h : anonymousName j = anonymousName k) : j = k := by
  have hlist := congrArg String.toList h
  rw [anonymousName_toList, anonymousName_toList] at hlist
  exact toString_injective (String.toList_inj.1 (List.append_cancel_left hlist))

theorem anonymousName_not_reserved (k : Nat) : anonymousName k ∉ LibraryFunction.reserved := by
  intro hmem
  have hunderscore : '_' ∈ (anonymousName k).toList := by
    rw [anonymousName_toList]
    exact List.mem_append_left _ (by decide)
  have hnone : ∀ name ∈ LibraryFunction.reserved, '_' ∉ name.toList := by decide
  exact hnone _ hmem hunderscore

theorem signedNumber?_anonymousName (k : Nat) : signedNumber? (anonymousName k) = none := by
  by_contra hnumber
  exact (listedName_ne_iff _).2 hnumber (listedName_anonymousName k)

/-- The prototype has no name, or one that spells no number and that no expression at top level is
given. -/
def Ordinary (p : Prototype) : Prop :=
  p.isAnonymous = true ∨ (Plain p.name ∧ signedNumber? p.name = none)

/-- **The function of a right prototype may be declared.** -/
theorem Regular.declared {b : Builder} (h : b.Regular) {p : Prototype} (hproto : p.fault? = none)
    (hname : Ordinary p) : (b.declared p).2.Regular := by
  unfold Builder.declared
  cases hanonymous : p.isAnonymous with
  | true =>
    refine h.create (f := .declared (anonymousName b.anonymous) p.params) (h.fresh (Nat.le_refl _))
      rfl (anonymousName_not_reserved _) (signedNumber?_anonymousName _) (b.anonymous + 1)
      (Nat.le_succ _) ?_
    intro k hk heq
    have := anonymousName_injective heq
    omega
  | false =>
    simp only [Bool.false_eq_true, if_false]
    cases hfind : b.find? p.name with
    | some found => exact h
    | none =>
      rcases hname with hname | ⟨hplain, hnumber⟩
      · rw [hanonymous] at hname; cases hname
      · refine h.create (f := .declared p.name p.params) ?_ rfl (Prototype.fault?_eq_none_iff.1 hproto).1
          hnumber b.anonymous (Nat.le_refl _) fun k _ => hplain k
        cases hget : b.names.get? p.name with
        | none => exact hget
        | some serial =>
          obtain ⟨f, hf, -⟩ := h.sound.known hget
          rw [find?_eq_some.2 ⟨hget, hf⟩] at hfind
          cases hfind

/-- The functions that a program adds come after those that are built in. -/
theorem builtins_length_le {serial : Nat} (hadded : .function serial ∉ initial.entries) :
    builtins.length ≤ serial := by
  have hserial : serial ≠ 0 ∧ serial ≠ 1 := by
    constructor
    · rintro rfl; exact hadded (by decide)
    · rintro rfl; exact hadded (by decide)
  show 2 ≤ serial
  omega

/-- No other functions are there at the start. -/
theorem function?_initial_of_le {serial : Nat} (h : builtins.length ≤ serial) :
    initial.function? serial = none := by
  rw [function?, initial_eq, List.getElem?_toArray]
  exact List.getElem?_eq_none h

/-- A builder at its start is regular. -/
theorem Regular.initial : Builder.initial.Regular where
  sound := Sound.initial
  listed {name serial} hget := by
    rcases get?_builtinNames hget with ⟨-, rfl⟩ | ⟨-, rfl⟩ <;> decide
  named {serial} hentry := by
    have hserial : serial = 0 ∨ serial = 1 := by
      simpa [initial_eq] using hentry
    rcases hserial with rfl | rfl
    · exact ⟨_, rfl, by simp [initial_eq, builtinNames, builtins, SymbolTable.get?_add]⟩
    · exact ⟨_, rfl, by simp [initial_eq, builtinNames, builtins, SymbolTable.get?_add]⟩
  nodup := by decide
  start := List.prefix_refl _
  spelled {name serial} hget := by
    rcases get?_builtinNames hget with ⟨rfl, -⟩ | ⟨rfl, -⟩ <;> decide
  fresh {k} _ := by
    cases hget : builtinNames.get? (anonymousName k) with
    | none => exact hget
    | some serial =>
      have hplain : ∀ name ∈ ["printd", "putchard"], Plain name := by
        have hspelling : ∀ name ∈ ["printd", "putchard"], '_' ∉ name.toList := by decide
        exact fun name hname => plain_of_no_underscore (hspelling name hname)
      rcases get?_builtinNames hget with ⟨heq, -⟩ | ⟨heq, -⟩
      · exact absurd heq.symm (hplain _ (by decide) k)
      · exact absurd heq.symm (hplain _ (by decide) k)
  complete {serial f} hf := by
    have hmem : f ∈ builtins := List.mem_of_getElem? (show builtins[serial]? = some f by
      rwa [function?, initial_eq, List.getElem?_toArray] at hf)
    simp only [builtins, List.mem_cons, List.not_mem_nil, or_false] at hmem
    rcases hmem with rfl | rfl
    · exact Or.inr ⟨_, _, rfl, rfl, Or.inl rfl⟩
    · exact Or.inr ⟨_, _, rfl, rfl, Or.inl rfl⟩
  correct {serial f} hadded hf := by
    rw [function?_initial_of_le hadded] at hf; cases hf

/-! ## Well-formed modules -/

/-- The module is well formed: it begins with what every module has, all that it lists is there, no
two functions are listed by the same name, and the functions that a program added are correct. -/
structure WellFormed (b : Builder) : Prop where
  start : initial.entries <+: b.entries
  resolved : ∀ serial, .function serial ∈ b.entries → ∃ f, b.function? serial = some f
  distinct : (b.summary.map (·.1)).Nodup
  correct : ∀ serial f, .function serial ∈ b.entries → .function serial ∉ initial.entries →
    b.function? serial = some f → f.Correct b serial

/-- The name by which an entry is listed. -/
def listedName? (b : Builder) : Entry → Option String
  | .library f => some f.name
  | .function serial => (b.function? serial).map fun f => listedName f.name

theorem names_summary (b : Builder) : b.summary.map (·.1) = b.entries.filterMap b.listedName? := by
  rw [summary, List.map_filterMap]
  congr 1
  funext e
  cases e with
  | library f => rfl
  | function serial => simp [listedName?, Function.comp_def]

/-- Entries of a regular builder are listed by different names. -/
theorem Regular.listedName?_inj {b : Builder} (h : b.Regular) {e e' : Entry} (he : e ∈ b.entries)
    (he' : e' ∈ b.entries) {name : String} (hname : b.listedName? e = some name)
    (hname' : b.listedName? e' = some name) : e = e' := by
  -- a function is listed by the name that stands for it, and the library has names of its own
  have hfunction : ∀ serial, .function serial ∈ b.entries →
      b.listedName? (.function serial) = some name →
        b.names.get? name = some serial ∧ name ∉ LibraryFunction.reserved := by
    intro serial hentry hlisted
    obtain ⟨f, hf, hget⟩ := h.named hentry
    obtain ⟨hfree, hnumber⟩ := h.spelled hget
    have heq : f.name = name := by
      simpa [listedName?, hf, listedName, hnumber] using hlisted
    exact heq ▸ ⟨hget, hfree⟩
  have hlibrary : ∀ f : LibraryFunction, b.listedName? (.library f) = some name →
      name = f.name ∧ name ∈ LibraryFunction.reserved := by
    intro f hlisted
    injection hlisted with hlisted
    subst hlisted
    exact ⟨rfl, by cases f <;> decide⟩
  cases e with
  | library f =>
    cases e' with
    | library g =>
      have hsame : f.name = g.name := (hlibrary f hname).1.symm.trans (hlibrary g hname').1
      cases f <;> cases g <;> first | rfl | exact absurd hsame (by decide)
    | function serial => exact absurd (hlibrary f hname).2 (hfunction serial he' hname').2
  | function serial =>
    cases e' with
    | library f => exact absurd (hlibrary f hname').2 (hfunction serial he hname).2
    | function serial' =>
      have hsame := (hfunction serial he hname).1.symm.trans (hfunction serial' he' hname').1
      injection hsame with hsame
      rw [hsame]

/-- **The module of a regular builder is well formed.** -/
theorem Regular.wellFormed {b : Builder} (h : b.Regular) : b.WellFormed where
  start := h.start
  resolved serial hentry := by
    obtain ⟨f, hf, -⟩ := h.named hentry
    exact ⟨f, hf⟩
  distinct := by
    rw [names_summary]
    refine List.pairwise_filterMap.2 (h.nodup.imp_of_mem fun {e e'} he he' hne => ?_)
    intro name hname name' hname' heq
    subst heq
    exact hne (h.listedName?_inj he he' hname hname')
  correct serial f _ hadded hf := by
    exact h.correct (builtins_length_le hadded) hf

end Builder

end Ir

end Kaleidoscope
