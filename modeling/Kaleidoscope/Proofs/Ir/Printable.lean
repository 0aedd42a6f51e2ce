/-
  Which runs leave a module that can be written.

  A definition whose body fails takes back what it has built. One that is given up in its body does
  not: its function stays in the module, with a block that nothing completes any more.

  - `Function.Terminated`, `Builder.Printable`: every block is complete, in a function and in all
    functions that the module lists;
  - `Builder.Resting`: what holds of a builder between constructs. In particular, a function that is
    known and has no body is listed;
  - `keepsTerms_entered`, `keepsTerms_idle`: what expressions of any kind do to a builder, inside of
    a body and outside;
  - `Builder.Lowers`, `lowers`: all that lowering a node can do to a builder;
  - `Abandons`, `Unbroken`: a definition that is given up, and runs without one;
    `GivesUp`, `abandons_iff_givesUp`: for which faults of its body that happens;
  - `Resting.lowerFresh`: one node; `lowerEach_printable_iff`: a module can be written exactly after
    the runs in which no definition is given up.
-/
import Kaleidoscope.Ir.Text
import Kaleidoscope.Proofs.Ir.Statics
import Kaleidoscope.Proofs.Lowering.Invariant

namespace Kaleidoscope

/-- The prototype of a definition. -/
def Node.definition? : Node → Option Prototype
  | .function f => f.proto.content?
  | _ => none

namespace Ir

/-- All blocks of the function are complete. -/
def Function.Terminated (f : Function) : Prop := ∀ block ∈ f.blocks, block.returned ≠ none

theorem Function.terminated_of_bodiless {f : Function} (h : f.blocks = []) : f.Terminated := by
  intro block hblock
  rw [h] at hblock
  cases hblock

namespace Builder

/-- All blocks of all functions that the module lists are complete. -/
def Printable (b : Builder) : Prop :=
  ∀ serial f, .function serial ∈ b.entries → b.function? serial = some f → f.Terminated

/-- A builder between constructs: no function is being built, every name stands for a function of
that name, and what is listed exists. A function that is known and has no body is listed. -/
structure Resting (b : Builder) : Prop where
  idle : b.current = none
  sound : b.Sound
  stored : ∀ {serial}, .function serial ∈ b.entries → serial < b.store.size
  listed : ∀ {name serial f}, b.find? name = some (serial, f) → f.blocks = [] →
    .function serial ∈ b.entries

/-! ## Expressions -/

/-- Outside of a body no expression changes the builder. -/
theorem keepsTerms_idle {b : Builder} (h : b.current = none) :
    backend.KeepsTerms (· = b) Error.Inner := by
  have happend : ∀ i, (append i).Keeps (· = b) Error.Inner := by
    intro i
    refine Plan.Keeps.get_bind fun s hs => ?_
    rw [hs, h]
    rintro _ ⟨⟩
  refine ⟨by rintro _ ⟨⟩, by rintro _ _ ⟨⟩, fun value => ?_, fun name => ?_, fun op => ?_,
    fun callee count => ?_, fun _ => trivial⟩
  · cases value <;> trivial
  · refine Plan.Keeps.get_bind fun s _ => ?_
    split
    · trivial
    · rintro _ ⟨⟩
  · refine (Plan.Keeps.lower 0).bind fun left => (Plan.Keeps.lower 1).bind fun right => ?_
    refine Plan.Keeps.get_bind fun s hs => ?_
    rw [hs, h]
    rintro _ ⟨⟩
  · refine Plan.Keeps.get_bind fun s _ => ?_
    split
    · rintro _ ⟨⟩
    · split
      · rintro _ ⟨⟩
      · exact (Plan.Keeps.lowerFrom 0 count).bind fun _ => happend _

/-- In the body of a function an expression only adds instructions to that function, also if it is
given up. -/
theorem keepsTerms_entered (b : Builder) (p : Prototype) :
    backend.KeepsTerms (fun s => ∃ code, s = b.entered p code) Error.Inner := by
  have happend : ∀ i, (append i).Keeps (fun s => ∃ code, s = b.entered p code) Error.Inner := by
    intro i
    refine Plan.Keeps.get_bind fun s hs => ?_
    obtain ⟨code, rfl⟩ := hs
    have hcurrent : (b.entered p code).current = some (b.declared p).1 := rfl
    simp only [hcurrent, emit_entered]
    exact ⟨⟨_, rfl⟩, trivial⟩
  have hoperator : ∀ op left right,
      (operator op left right).Keeps (fun s => ∃ code, s = b.entered p code) Error.Inner := by
    intro op left right
    cases op with
    | add | subtract | multiply | divide => exact happend _
    | less | greater => exact (happend _).bind fun _ => happend _
  refine ⟨by rintro _ ⟨⟩, by rintro _ _ ⟨⟩, fun value => ?_, fun name => ?_, fun op => ?_,
    fun callee count => ?_, fun _ => trivial⟩
  · cases value <;> trivial
  · refine Plan.Keeps.get_bind fun s _ => ?_
    split
    · trivial
    · rintro _ ⟨⟩
  · refine (Plan.Keeps.lower 0).bind fun left => (Plan.Keeps.lower 1).bind fun right => ?_
    refine Plan.Keeps.get_bind fun s _ => ?_
    split
    · rintro _ ⟨⟩
    · split
      · exact hoperator _ _ _
      · rintro _ ⟨⟩
  · refine Plan.Keeps.get_bind fun s _ => ?_
    split
    · rintro _ ⟨⟩
    · split
      · rintro _ ⟨⟩
      · exact (Plan.Keeps.lowerFrom 0 count).bind fun _ => happend _

/-- No plan for an expression with its content is given up. -/
theorem persistsTerms : backend.PersistsTerms := by
  have happend : ∀ i, (append i).Persists := by
    intro i
    refine Plan.Persists.get_bind fun b => ?_
    split <;> trivial
  have hoperator : ∀ op left right, (operator op left right).Persists := by
    intro op left right
    cases op with
    | add | subtract | multiply | divide => exact happend _
    | less | greater => exact (happend _).bind fun _ => happend _
  refine ⟨fun value => trivial, fun name => ?_, fun op => ?_, fun callee count => ?_⟩
  · refine Plan.Persists.get_bind fun b => ?_
    split <;> trivial
  · refine (Plan.Persists.lower 0).bind fun left => (Plan.Persists.lower 1).bind fun right => ?_
    refine Plan.Persists.get_bind fun b => ?_
    split
    · trivial
    · split
      · exact hoperator _ _ _
      · trivial
  · refine Plan.Persists.get_bind fun b => ?_
    split
    · trivial
    · split
      · trivial
      · exact (Plan.Persists.lowerFrom 0 count).bind fun _ => happend _

/-! ## What lowering a node can do -/

/-- What lowering a node can make of a builder between constructs, and how it ends. -/
inductive Lowers (b : Builder) : Node → Except Error Value → Builder → Prop
  /-- The builder stays as it was. Of a definition this is so only if its prototype is wrong, and that
  is its error. -/
  | nothing {n : Node} (r : Except Error Value) (hwrong : ∀ p, n.definition? = some p → ∃ e,
      p.fault?.or (Directory.definitionConflict? b.signature? p) = some e ∧ r = .error e) :
      Lowers b n r b
  /-- A declaration has its function. -/
  | declares (id : NodeId) (p : Prototype) :
      Lowers b (.prototype (.proto id p)) (.ok (.function (b.declared p).1)) (b.declared p).2
  /-- A definition gets its body. -/
  | builds {f : FunctionNode} {p : Prototype} (hp : f.proto.content? = some p)
      (hproto : p.fault? = none) (hconflict : Directory.definitionConflict? b.signature? p = none)
      (code : List Instr) (v : Value) :
      Lowers b (.function f) (.ok (.function (b.declared p).1)) (b.built p code v)
  /-- The body of a definition fails. -/
  | givesUp {f : FunctionNode} {p : Prototype} (hp : f.proto.content? = some p)
      (hproto : p.fault? = none) (hconflict : Directory.definitionConflict? b.signature? p = none)
      (code : List Instr) {e : Error} (hinner : e.Inner) :
      Lowers b (.function f) (.error e) (b.givenUp p code)
  /-- The body of a definition is given up, for a node that lacks its content. -/
  | breaksOff {f : FunctionNode} {p : Prototype} (hp : f.proto.content? = some p)
      (hproto : p.fault? = none) (hconflict : Directory.definitionConflict? b.signature? p = none)
      (hlacks : ¬∀ u ∈ f.body.subterms, ¬u.LacksContent) (code : List Instr) (reason : String) :
      Lowers b (.function f) (.error (.aborted reason)) (b.brokenOff p code)

/-- **What lowering a node does to a builder.** -/
theorem lowers {b : Builder} (h : b.current = none) (n : Node) :
    Lowers b n (n.lowerFresh backend b).1 (n.lowerFresh backend b).2 := by
  cases n with
  | term t =>
    rw [(keepsTerms_idle h).lowerFresh_term t]
    exact .nothing _ (by rintro _ ⟨⟩)
  | prototype node =>
    cases node with
    | blank =>
      rw [lowerFresh_of_lacksPrototype .prototype b]
      exact .nothing _ (by rintro _ ⟨⟩)
    | proto id p =>
      rw [lowerFresh_prototype b id p]
      cases Directory.declarationFault? b.signature? p with
      | some e => exact .nothing _ (by rintro _ ⟨⟩)
      | none => exact .declares id p
  | function f =>
    obtain ⟨id, node, body⟩ := f
    cases node with
    | blank =>
      rw [lowerFresh_of_lacksPrototype (.function id body) b]
      exact .nothing _ (by rintro _ ⟨⟩)
    | proto protoId p =>
      cases hfirst : p.fault?.or (Directory.definitionConflict? b.signature? p) with
      | some e =>
        rw [lowerFresh_of_conflict hfirst]
        refine .nothing _ ?_
        rintro _ ⟨⟩
        exact ⟨e, hfirst, rfl⟩
      | none =>
        obtain ⟨hproto, hconflict⟩ := Option.or_eq_none_iff.1 hfirst
        obtain ⟨o, _, pass, hbody, ⟨code, rfl⟩, hinner⟩ :=
          (keepsTerms_entered b p).exists_action body ⟨[], rfl⟩ (b.bodyPass p protoId)
        rw [lowerFresh_of_body hproto hconflict hbody]
        cases o with
        | ok v => exact .builds rfl hproto hconflict code v
        | error e => exact .givesUp rfl hproto hconflict code (hinner e rfl)
        | abort reason =>
          refine .breaksOff rfl hproto hconflict (fun hfull => ?_) code reason
          exact persistsTerms.action body hfull _ _ reason (congrArg Prod.fst hbody)
  | blankFunction =>
    rw [lowerFresh_of_lacksPrototype .blankFunction b]
    exact .nothing _ (by rintro _ ⟨⟩)

/-- The node is a definition, and it is given up: it has a prototype, and lowering it ends with the
error of a lowering that was given up. -/
def Abandons (b : Builder) : Node → Prop
  | .function ⟨id, .proto protoId p, body⟩ =>
    ∃ reason, ((Node.function ⟨id, .proto protoId p, body⟩).lowerFresh backend b).1 =
      .error (.aborted reason)
  | _ => False

theorem abandons_iff {b : Builder} {n : Node} : b.Abandons n ↔ ∃ p reason,
    n.definition? = some p ∧ (n.lowerFresh backend b).1 = .error (.aborted reason) := by
  match n with
  | .function ⟨id, .proto protoId p, body⟩ =>
    constructor
    · rintro ⟨reason, habort⟩
      exact ⟨p, reason, rfl, habort⟩
    · rintro ⟨_, reason, -, habort⟩
      exact ⟨reason, habort⟩
  | .function ⟨_, .blank, _⟩ | .term _ | .prototype _ | .blankFunction =>
    exact iff_of_false (fun h => h) (by rintro ⟨_, _, ⟨⟩, -⟩)

/-- A node that leaves the builder as it was is not given up. -/
theorem not_aborted_of_wrong {b : Builder} {n : Node} {r : Except Error Value}
    (hwrong : ∀ p, n.definition? = some p → ∃ e,
      p.fault?.or (Directory.definitionConflict? b.signature? p) = some e ∧ r = .error e) :
    ¬∃ p reason, n.definition? = some p ∧ r = .error (.aborted reason) := by
  rintro ⟨p, reason, hp, rfl⟩
  obtain ⟨e, hconflict, heq⟩ := hwrong p hp
  exact Directory.inner_of_conflict hconflict reason (Except.error.inj heq).symm

/-! ## Changes of a builder -/

section
variable {b : Builder} {serial : Nat} {f g : Function}

theorem printable_congr {b' : Builder} (hentries : b'.entries = b.entries)
    (hfunctions : ∀ k, .function k ∈ b.entries → b'.function? k = b.function? k) :
    b'.Printable ↔ b.Printable := by
  unfold Printable
  rw [hentries]
  constructor
  · intro h k f hk hf
    exact h k f hk ((hfunctions k hk).trans hf)
  · intro h k f hk hf
    exact h k f hk ((hfunctions k hk).symm.trans hf)

/-- Where a function without a body is replaced, only the new one matters. -/
theorem printable_put (hf : b.function? serial = some f) (hbare : f.blocks = []) :
    (b.put serial g).Printable ↔ b.Printable ∧ (.function serial ∈ b.entries → g.Terminated) := by
  constructor
  · intro h
    refine ⟨fun k f' hk hf' => ?_, fun hlisted => h serial g hlisted (function?_put_self hf g)⟩
    by_cases hserial : serial = k
    · subst hserial
      rw [hf] at hf'
      injection hf' with hf'
      exact Function.terminated_of_bodiless (hf' ▸ hbare)
    · exact h k f' hk ((function?_put_other hserial g).trans hf')
  · rintro ⟨h, hnew⟩ k f' hk hf'
    by_cases hserial : serial = k
    · subst hserial
      rw [function?_put_self hf] at hf'
      injection hf' with hf'
      exact hf' ▸ hnew hk
    · exact h k f' hk ((function?_put_other hserial g).symm.trans hf')

theorem Resting.put (h : b.Resting) (hf : b.function? serial = some f) (hname : g.name = f.name)
    (hlisted : g.blocks = [] → .function serial ∈ b.entries) : (b.put serial g).Resting where
  idle := h.idle
  sound := h.sound.put hf hname
  stored hk := by
    have hsize : (b.put serial g).store.size = b.store.size := Array.size_modify
    rw [hsize]
    exact h.stored hk
  listed {name k f'} hfind hbare := by
    obtain ⟨hget, hf'⟩ := find?_eq_some.1 hfind
    by_cases hserial : serial = k
    · subst hserial
      rw [function?_put_self hf] at hf'
      injection hf' with hf'
      exact hlisted (hf' ▸ hbare)
    · refine h.listed (find?_eq_some.2 ⟨hget, ?_⟩) hbare
      exact (function?_put_other hserial g).symm.trans hf'

/-- A function with a block may be taken out. -/
theorem Resting.remove (h : b.Resting) (hf : b.function? serial = some f) (hopen : f.blocks ≠ []) :
    (b.remove serial).Resting where
  idle := by
    rw [Builder.remove, hf]
    exact h.idle
  sound := h.sound.remove serial
  stored hk := by
    simp only [Builder.remove, hf] at hk ⊢
    exact h.stored (List.mem_of_mem_erase hk)
  listed {name k f'} hfind hbare := by
    have hsame : (b.remove serial).function? = b.function? := by
      rw [Builder.remove, hf]
      rfl
    obtain ⟨hget, hf'⟩ := find?_eq_some.1 hfind
    rw [hsame] at hf'
    simp only [Builder.remove, hf, SymbolTable.get?_remove] at hget ⊢
    split at hget
    · cases hget
    · have hk := h.listed (find?_eq_some.2 ⟨hget, hf'⟩) hbare
      refine (List.mem_erase_of_ne fun heq => hopen ?_).2 hk
      injection heq with heq
      subst heq
      rw [hf] at hf'
      injection hf' with hf'
      exact hf' ▸ hbare

/-- A new function without a body may be added. -/
theorem Resting.create (h : b.Resting) (f : Function) : (b.create f).2.Resting where
  idle := h.idle
  sound := h.sound.create f
  stored {k} hk := by
    simp only [Builder.create, Array.size_push] at hk ⊢
    rcases List.mem_append.1 hk with hk | hk
    · exact Nat.lt_succ_of_lt (h.stored hk)
    · rw [Entry.function.inj (List.mem_singleton.1 hk)]
      exact Nat.lt_succ_self _
  listed {name k f'} hfind hbare := by
    by_cases hname : name = f.name
    · subst hname
      rw [find?_create_self] at hfind
      cases hfind
      exact List.mem_append_right _ List.mem_cons_self
    · rw [h.sound.find?_create_other hname] at hfind
      exact List.mem_append_left _ (h.listed hfind hbare)

end

/-! ## One node -/

section
variable {b : Builder} {p : Prototype}

theorem Resting.declared (h : b.Resting) (p : Prototype) : (b.declared p).2.Resting := by
  unfold Builder.declared
  split
  · have hcreate := h.create (.declared (anonymousName b.anonymous) p.params)
    exact ⟨hcreate.idle, ⟨hcreate.sound.known⟩, hcreate.stored, hcreate.listed⟩
  · split
    · exact h
    · exact h.create _

/-- The function of a definition is listed while its body is built. -/
theorem Resting.listed_declared (h : b.Resting)
    (hconflict : Directory.definitionConflict? b.signature? p = none) :
    .function (b.declared p).1 ∈ (b.declared p).2.entries :=
  (h.declared p).listed (find?_eq_some.2 ⟨h.sound.names_declared p, function?_declared b p⟩)
    (target_of_conflict hconflict).1

/-- A declaration adds a function without a body, or nothing. -/
theorem Resting.printable_declared (h : b.Resting) (p : Prototype) :
    (b.declared p).2.Printable ↔ b.Printable := by
  cases hnew : b.isNew p with
  | false =>
    have hsame : (b.declared p).2 = b := by
      obtain ⟨hname, serial, f, hfind⟩ := exists_find?_of_isNew hnew
      rw [(declared_of_known hname hfind).1]
    rw [hsame]
  | true =>
    obtain ⟨hserial, hentries⟩ := declared_of_isNew hnew
    have hold : ∀ k, .function k ∈ b.entries → (b.declared p).2.function? k = b.function? k := by
      intro k hk
      refine function?_declared_ne (Nat.ne_of_lt ?_)
      rw [hserial]
      exact h.stored hk
    unfold Printable
    rw [hentries]
    constructor
    · intro hall k f hk hf
      exact hall k f (List.mem_append_left _ hk) ((hold k hk).trans hf)
    · intro hall k f hk hf
      rcases List.mem_append.1 hk with hk | hk
      · exact hall k f hk ((hold k hk).symm.trans hf)
      · rw [Entry.function.inj (List.mem_singleton.1 hk), ← hserial, function?_declared] at hf
        injection hf with hf
        rw [← hf]
        -- a new function is one that was only just declared
        refine Function.terminated_of_bodiless ?_
        unfold isNew at hnew
        unfold target
        cases hname : p.isAnonymous with
        | true => rfl
        | false =>
          rw [hname, Bool.false_or, Option.isNone_iff_eq_none] at hnew
          rw [hnew]
          rfl

/-- A new function whose body failed is taken out of the module, and struck from the table of names
under the name by which it is listed. -/
theorem givenUp_of_isNew (hnew : b.isNew p = true) (code : List Instr) :
    b.givenUp p code =
      { b.brokenOff p code with
        entries := (b.declared p).2.entries.erase (.function (b.declared p).1)
        names := (b.declared p).2.names.remove (listedName (b.target p).name) } := by
  rw [Builder.givenUp, if_pos hnew, Builder.remove, function?_brokenOff]
  rfl

/-- After a body that failed the module lists what it did before. -/
theorem Resting.entries_givenUp (h : b.Resting) (p : Prototype) (code : List Instr) :
    (b.givenUp p code).entries = b.entries := by
  cases hnew : b.isNew p with
  | true =>
    obtain ⟨hserial, hentries⟩ := declared_of_isNew hnew
    have hfresh : .function b.store.size ∉ b.entries := fun hmem => Nat.lt_irrefl _ (h.stored hmem)
    rw [givenUp_of_isNew hnew]
    show (b.declared p).2.entries.erase _ = _
    rw [hentries, hserial, List.erase_append_right _ hfresh, List.erase_cons_head, List.append_nil]
  | false =>
    obtain ⟨hname, serial, f, hfind⟩ := exists_find?_of_isNew hnew
    rw [Builder.givenUp, hnew, if_neg Bool.false_ne_true, (declared_of_known hname hfind).1]
    rfl

/-- **A body that fails leaves nothing unfinished**: a new function is taken out of the module, and
one that was declared before has no block again. -/
theorem Resting.givenUp (h : b.Resting)
    (hconflict : Directory.definitionConflict? b.signature? p = none) (code : List Instr) :
    (b.givenUp p code).Resting ∧ ((b.givenUp p code).Printable ↔ b.Printable) := by
  have hfunction := function?_declared b p
  have hname : (b.withCode p code none).name = (b.target p).name := rfl
  have hentries := h.entries_givenUp p code
  cases hnew : b.isNew p with
  | true =>
    have hserial := (declared_of_isNew hnew).1
    have hbroken : (b.brokenOff p code).Resting :=
      (h.declared p).put hfunction hname (by rintro ⟨⟩)
    refine ⟨?_, printable_congr hentries fun k hk => ?_⟩
    · rw [Builder.givenUp, if_pos hnew]
      exact hbroken.remove (function?_brokenOff b p code) (List.cons_ne_nil _ _)
    · have hk' : k ≠ (b.declared p).1 := Nat.ne_of_lt (hserial ▸ h.stored hk)
      rw [givenUp_of_isNew hnew]
      exact (function?_put_other (Ne.symm hk') _).trans (function?_declared_ne hk')
  | false =>
    rw [Builder.givenUp, hnew, if_neg Bool.false_ne_true]
    refine ⟨(h.declared p).put hfunction rfl fun _ => h.listed_declared hconflict, ?_⟩
    rw [printable_put hfunction (target_of_conflict hconflict).1, h.printable_declared]
    exact and_iff_left fun _ => Function.terminated_of_bodiless rfl

/-- By what is known before it, a definition is given up: its prototype is right, and the first fault
of its body is a variable, an operator or a call without content. -/
def GivesUp (b : Builder) (f : FunctionNode) : Prop :=
  ∃ p reason, f.proto.content? = some p ∧
    p.fault?.or (Directory.definitionConflict? b.signature? p) = none ∧
    f.body.fault? (b.bodyScope p) = some (.aborted reason)

/-- **Which definitions are given up is known before.** -/
theorem abandons_iff_givesUp {f : FunctionNode} (hf : f.Coherent)
    (hfull : ∀ u ∈ f.body.subterms, u ≠ .blank) : b.Abandons (.function f) ↔ b.GivesUp f := by
  obtain ⟨id, node, body⟩ := f
  cases node with
  | blank => exact iff_of_false (fun h => h) (by rintro ⟨p, reason, ⟨⟩, -⟩)
  | proto protoId p =>
    rw [Abandons]
    cases hfirst : p.fault?.or (Directory.definitionConflict? b.signature? p) with
    | some e =>
      rw [lowerFresh_of_conflict hfirst]
      constructor
      · rintro ⟨reason, habort⟩
        exact absurd (Except.error.inj habort) (Directory.inner_of_conflict hfirst reason)
      · rintro ⟨_, reason, ⟨⟩, hright, -⟩
        rw [hfirst] at hright
        cases hright
    | none =>
      obtain ⟨hproto, hconflict⟩ := Option.or_eq_none_iff.1 hfirst
      obtain ⟨o, code, hmeets, hrun⟩ := lowerFresh_meets hf hfull hproto hconflict
      rw [hrun]
      constructor
      · rintro ⟨reason, habort⟩
        refine ⟨p, reason, rfl, hfirst, ?_⟩
        rcases hmeets.cases with ⟨v, rfl, -⟩ | ⟨e, rfl, -, hinner⟩ | ⟨other, rfl, hfault⟩
        · cases habort
        · exact absurd (Except.error.inj habort) (hinner reason)
        · exact hfault.trans (congrArg some (Except.error.inj habort))
      · rintro ⟨_, reason, ⟨⟩, -, hfault⟩
        refine ⟨reason, ?_⟩
        rcases hmeets.cases with ⟨v, -, hnone, -⟩ | ⟨e, -, hsome, hinner⟩ | ⟨other, rfl, hsome⟩
        · cases hfault.symm.trans hnone
        · exact absurd (Option.some.inj (hsome.symm.trans hfault)) (hinner reason)
        · exact congrArg Except.error (Option.some.inj (hsome.symm.trans hfault))

/-- **After a node the builder rests again. Its module can be written if it could before, unless the
node is a definition that is given up.** -/
theorem Resting.lowerFresh (h : b.Resting) (n : Node) :
    (n.lowerFresh backend b).2.Resting ∧
      ((n.lowerFresh backend b).2.Printable ↔ b.Printable ∧ ¬b.Abandons n) := by
  have hlowers := lowers h.idle n
  rw [abandons_iff]
  generalize n.lowerFresh backend b = run at hlowers ⊢
  obtain ⟨r, b'⟩ := run
  cases hlowers with
  | nothing r hwrong => exact ⟨h, (and_iff_left (not_aborted_of_wrong hwrong)).symm⟩
  | declares id p =>
    refine ⟨h.declared p, (h.printable_declared p).trans (and_iff_left ?_).symm⟩
    rintro ⟨_, _, ⟨⟩, -⟩
  | @builds f p hp _ hconflict code v =>
    have hfunction := function?_declared b p
    refine ⟨(h.declared p).put hfunction rfl (by rintro ⟨⟩), ?_⟩
    show (b.built p code v).Printable ↔ _
    rw [Builder.built, printable_put hfunction (target_of_conflict hconflict).1,
      h.printable_declared]
    refine and_congr_right fun _ => iff_of_true (fun _ block hblock => ?_) ?_
    · rw [List.mem_singleton.1 hblock]
      exact Option.some_ne_none v
    · rintro ⟨_, _, -, ⟨⟩⟩
  | @givesUp f p hp _ hconflict code e hinner =>
    obtain ⟨hresting, hprintable⟩ := h.givenUp hconflict code
    refine ⟨hresting, hprintable.trans (and_iff_left ?_).symm⟩
    rintro ⟨_, reason, -, habort⟩
    exact hinner reason (Except.error.inj habort)
  | @breaksOff f p hp _ hconflict _ code reason =>
    have hfunction := function?_declared b p
    refine ⟨(h.declared p).put hfunction rfl (by rintro ⟨⟩), ?_⟩
    show (b.brokenOff p code).Printable ↔ _
    rw [Builder.brokenOff, printable_put hfunction (target_of_conflict hconflict).1]
    refine iff_of_false (fun hall => ?_) fun hall => hall.2 ⟨p, reason, hp, rfl⟩
    exact hall.2 (h.listed_declared hconflict) _ List.mem_cons_self rfl

end

/-! ## Runs -/

theorem Resting.initial : Builder.initial.Resting where
  idle := rfl
  sound := Sound.initial
  stored {serial} hserial := by
    have hsize : Builder.initial.store.size = 2 := rfl
    rw [initial_eq] at hserial
    simp only [List.mem_cons, Entry.function.injEq, reduceCtorEq, List.not_mem_nil, or_false,
      false_or] at hserial
    omega
  listed {name serial f} hfind hbare := by
    obtain ⟨hget, hf⟩ := find?_eq_some.1 hfind
    rcases get?_builtinNames hget with ⟨-, rfl⟩ | ⟨-, rfl⟩
    · cases hf; cases hbare
    · cases hf; cases hbare

theorem printable_initial : Builder.initial.Printable := by
  intro serial f hserial hf
  have hknown : f ∈ builtins := List.mem_of_getElem? (by
    simpa [function?, initial_eq] using hf)
  intro block hblock
  simp only [builtins, List.mem_cons, List.not_mem_nil, or_false] at hknown
  rcases hknown with rfl | rfl
  · rw [List.mem_singleton.1 hblock]; exact Option.some_ne_none _
  · rw [List.mem_singleton.1 hblock]; exact Option.some_ne_none _

/-- No definition of the run is given up. -/
def Unbroken (b : Builder) : List Node → Prop
  | [] => True
  | n :: rest => ¬b.Abandons n ∧ Unbroken (n.lowerFresh backend b).2 rest

theorem Resting.lowerEach {b : Builder} (h : b.Resting) (ns : List Node) :
    (backend.lowerEach b ns).Printable ↔ b.Printable ∧ b.Unbroken ns := by
  induction ns generalizing b with
  | nil => exact (and_iff_left trivial).symm
  | cons n rest ih =>
    obtain ⟨hresting, hprintable⟩ := h.lowerFresh n
    rw [show backend.lowerEach b (n :: rest) =
      backend.lowerEach (n.lowerFresh backend b).2 rest from rfl, ih hresting, hprintable, and_assoc]
    rfl

/-- **A module can be written exactly if no definition was given up on the way to it.** Take the
builder after any nodes, each lowered in a pass of its own: trees of every kind, with holes, foreign
nodes, and nodes of any kind without content. All blocks of all functions in the module are complete
exactly if no definition among the nodes was given up. -/
theorem lowerEach_printable_iff (ns : List Node) :
    (backend.lowerEach .initial ns).Printable ↔ Builder.initial.Unbroken ns :=
  (Resting.initial.lowerEach ns).trans (and_iff_right printable_initial)

/-- A definition of `f` whose body is a blank number. -/
def blankBody : Node :=
  .function ⟨NodeId.first + 1, .proto NodeId.first ⟨"f", ["x"]⟩, .blank⟩

/-- A definition with a blank body is given up. Its function stays, with a block that is not
complete, and the module cannot be written. -/
theorem printable_blankBody :
    ¬(backend.lowerEach .initial [blankBody]).Printable ∧
      (backend.lowerEach .initial [blankBody]).writeModule.1 = .error (.unterminated "") := by
  constructor
  · rw [lowerEach_printable_iff]
    rintro ⟨hkept, -⟩
    exact hkept ⟨_, rfl⟩
  · decide +kernel

end Builder

end Ir

end Kaleidoscope
