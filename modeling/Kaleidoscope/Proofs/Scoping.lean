/-
  No parameter is in scope outside of its function.

  - `Checker.scoping`, `Builder.scoping`: which part of the state tells what is in scope, and that a
    function sets it back, whatever comes of its body;
  - `Checker.lookingIn`, `Builder.lookingIn`: the backends, where only given parameters are found;
  - `no_scope_leaks`: an outermost call leaves the scope as it was, however it ends. Between constructs
    nothing is in scope, and a construct is lowered as if there were no parameters but its own.
-/
import Kaleidoscope.Checker.Backend
import Kaleidoscope.Ir.Backend
import Kaleidoscope.Proofs.Lowering.Frame

namespace Kaleidoscope

/-! ## The checker -/

namespace Checker

/-- An expression leaves the scope alone. -/
theorem keepsTerms_scope (scope : List String) :
    backend.KeepsTerms (·.scope = scope) fun _ => True where
  absent := trivial
  foreign _ := trivial
  number _ := trivial
  hollow _ := trivial
  identifier name := by
    refine Plan.Keeps.get_bind fun c _ => ?_
    split <;> trivial
  binary op := by
    refine (Plan.Keeps.lower 0).bind fun left => (Plan.Keeps.lower 1).bind fun right => ?_
    split
    · trivial
    · split <;> trivial
  call callee count := by
    refine Plan.Keeps.get_bind fun c _ => ?_
    split
    · trivial
    · split
      · trivial
      · exact (Plan.Keeps.lowerFrom 0 count).bind fun _ => trivial

/-- So does a prototype. -/
theorem keeps_prototype (p : Prototype) (scope : List String) :
    (prototype p).Keeps (·.scope = scope) fun _ => True := by
  have hvalid : (Plan.ofExcept p.validate : Plan Checker Judgement Unit).Keeps (·.scope = scope)
      fun _ => True := by
    cases p.validate <;> trivial
  refine hvalid.bind fun _ => Plan.Keeps.get_bind fun c hc => ?_
  split
  · exact ⟨hc, trivial⟩
  · split
    · split <;> trivial
    · exact ⟨hc, trivial⟩

/-- A function lowers its body with its own parameters in scope, and sets the scope back whatever
comes of the body. -/
theorem brackets_function (p : Prototype) {lowerProto : Action Checker Judgement Judgement}
    (hproto : ∀ c pass, (lowerProto c pass).2.1.scope = c.scope) (c : Checker)
    (pass : Pass Judgement) :
    Brackets scope c.scope (· = p.params) fun lowerBody =>
      (function p).run [lowerProto, lowerBody] c pass := by
  have hdeclared := hproto c pass
  simp only [function, Plan.run_bind]
  cases p.validate with
  | error e => exact ⟨fun _ => rfl, .inl fun _ _ => rfl⟩
  | ok _ =>
    simp only [Plan.run_ofExcept_ok, Action.andThen_ok, Plan.run_get]
    cases c.permits p with
    | error e => exact ⟨fun _ => rfl, .inl fun _ _ => rfl⟩
    | ok _ =>
      simp only [Plan.run_ofExcept_ok, Action.andThen_ok,
        fun a => Plan.run_lower [lowerProto, a] c pass (i := 0) rfl]
      rcases hrun : lowerProto c pass with ⟨o, c', pass'⟩
      rw [hrun] at hdeclared
      cases o with
      | error e => exact ⟨fun _ => hdeclared, .inl fun _ _ => rfl⟩
      | abort reason => exact ⟨fun _ => hdeclared, .inl fun _ _ => rfl⟩
      | ok r =>
        cases r with
        | double => exact ⟨fun _ => hdeclared, .inl fun _ _ => rfl⟩
        | declared serial =>
          simp only [Action.andThen_ok, Plan.run_bind, Plan.run_get, Plan.run_modify,
            fun a c pass unwind => Plan.run_child [lowerProto, a] c pass (i := 1) rfl unwind]
          refine ⟨fun lowerBody => ?_, .inr ⟨c'.withScope p.params, pass', rfl, fun lowerBody => ?_⟩⟩
          · rcases lowerBody (c'.withScope p.params) pass' with ⟨o, c'', pass''⟩
            cases o with
            | ok r => exact hdeclared
            | abort reason => exact hdeclared
            | error e =>
              simp only [Action.andThen_ok, Plan.run_bind, Plan.run_modify, Plan.run_fail]
              split <;> exact hdeclared
          · rcases lowerBody (c'.withScope p.params) pass' with ⟨o, c'', pass''⟩
            cases o <;> rfl

/-- Looks a parameter up among these. -/
def identifierIn (params : List String) (name : String) : Plan Checker Judgement Judgement :=
  if name ∈ params then .done .double else .fail (.undefinedVariable name)

/-- The checker, where only these parameters are ever found. -/
def lookingIn (params : List String) : Backend Checker Judgement :=
  backend.withIdentifier (identifierIn params)

/-- The scope of the checker is that of the function whose body is checked. -/
theorem scoping : backend.Scoped scope (fun params scope => scope = params) identifierIn where
  terms := keepsTerms_scope
  prototype
    | none, _ => trivial
    | some p, scope => keeps_prototype p scope
  blankFunction _ := trivial
  identifier hscope name pass := by
    subst hscope
    simp only [backend, identifier, identifierIn, Plan.run_bind, Plan.run_get, Action.andThen_ok]
    split <;> rfl
  function content _ hproto c pass := by
    cases content with
    | none => exact ⟨fun _ => rfl, .inl fun _ _ => rfl⟩
    | some p => exact brackets_function p hproto c pass

end Checker

/-! ## The builder -/

namespace Ir.Builder

/-- What is being built, and what is in scope there. -/
def context (b : Builder) : Option Nat × SymbolTable Value := (b.current, b.values)

/-- An expression leaves the context alone. -/
theorem keepsTerms_context (x : Option Nat × SymbolTable Value) :
    backend.KeepsTerms (context · = x) fun _ => True := by
  have happend : ∀ i, (append i).Keeps (context · = x) fun _ => True := by
    intro i
    refine Plan.Keeps.get_bind fun b hb => ?_
    split
    · trivial
    · exact ⟨hb, trivial⟩
  have hoperator : ∀ op left right, (operator op left right).Keeps (context · = x) fun _ => True := by
    intro op left right
    cases op with
    | add | subtract | multiply | divide => exact happend _
    | less | greater => exact (happend _).bind fun _ => happend _
  refine ⟨trivial, fun _ => trivial, fun value => ?_, fun name => ?_, fun op => ?_,
    fun callee count => ?_, fun _ => trivial⟩
  · cases value <;> trivial
  · refine Plan.Keeps.get_bind fun b _ => ?_
    split <;> trivial
  · refine (Plan.Keeps.lower 0).bind fun left => (Plan.Keeps.lower 1).bind fun right => ?_
    refine Plan.Keeps.get_bind fun b _ => ?_
    split
    · trivial
    · split
      · exact hoperator _ _ _
      · trivial
  · refine Plan.Keeps.get_bind fun b _ => ?_
    split
    · trivial
    · split
      · trivial
      · exact (Plan.Keeps.lowerFrom 0 count).bind fun _ => happend _

/-- So does a prototype. -/
theorem keeps_prototype (p : Prototype) (x : Option Nat × SymbolTable Value) :
    (prototype p).Keeps (context · = x) fun _ => True := by
  have hvalid : (Plan.ofExcept p.validate : Plan Builder Value Unit).Keeps (context · = x)
      fun _ => True := by
    cases p.validate <;> trivial
  refine hvalid.bind fun _ => Plan.Keeps.get_bind fun b hb => ?_
  split
  · exact ⟨hb, trivial⟩
  · split
    · split <;> trivial
    · exact ⟨hb, trivial⟩

/-- What parameters stand for in the function that is being built. -/
def ownValues (params : List String) : Option Nat → SymbolTable Value
  | none => .empty
  | some serial => parameters serial params

/-- A body is lowered with the parameters in scope, and the context is set back whatever comes of
it. -/
theorem brackets_body (p : Prototype) (serial : Nat) (created : Bool)
    (lowerProto : Action Builder Value Value) (b : Builder) (pass : Pass Value) :
    Brackets context b.context (fun x => x.2 = ownValues p.params x.1) fun lowerBody =>
      (body p serial created).run [lowerProto, lowerBody] b pass := by
  simp only [body, Plan.run_bind, Plan.run_get, Action.andThen_ok, Plan.run_modify,
    fun a b pass unwind => Plan.run_child [lowerProto, a] b pass (i := 1) rfl unwind]
  refine ⟨fun lowerBody => ?_, .inr ⟨b.enterBody serial p.params, pass, rfl, fun lowerBody => ?_⟩⟩
  · rcases lowerBody (b.enterBody serial p.params) pass with ⟨o, b', pass'⟩
    cases o <;> rfl
  · rcases lowerBody (b.enterBody serial p.params) pass with ⟨o, b', pass'⟩
    cases o <;> rfl

theorem brackets_function (p : Prototype) {lowerProto : Action Builder Value Value}
    (hproto : ∀ b pass, (lowerProto b pass).2.1.context = b.context) (b : Builder)
    (pass : Pass Value) :
    Brackets context b.context (fun x => x.2 = ownValues p.params x.1) fun lowerBody =>
      (function p).run [lowerProto, lowerBody] b pass := by
  have hdeclared := hproto b pass
  simp only [function, Plan.run_bind]
  cases p.validate with
  | error e => exact ⟨fun _ => rfl, .inl fun _ _ => rfl⟩
  | ok _ =>
    simp only [Plan.run_ofExcept_ok, Action.andThen_ok, Plan.run_get]
    cases (if p.isAnonymous then none else b.find? p.name) with
    | some found =>
      obtain ⟨serial, f⟩ := found
      dsimp only
      split
      · exact ⟨fun _ => rfl, .inl fun _ _ => rfl⟩
      · split
        · exact ⟨fun _ => rfl, .inl fun _ _ => rfl⟩
        · exact brackets_body p serial false lowerProto b pass
    | none =>
      simp only [Plan.run_bind, fun a => Plan.run_lower [lowerProto, a] b pass (i := 0) rfl]
      rcases hrun : lowerProto b pass with ⟨o, b', pass'⟩
      rw [hrun] at hdeclared
      cases o with
      | error e => exact ⟨fun _ => hdeclared, .inl fun _ _ => rfl⟩
      | abort reason => exact ⟨fun _ => hdeclared, .inl fun _ _ => rfl⟩
      | ok r =>
        simp only [Action.andThen_ok]
        split
        · rw [← hdeclared]
          exact brackets_body p _ true lowerProto b' pass'
        · exact ⟨fun _ => hdeclared, .inl fun _ _ => rfl⟩

/-- Looks a parameter up among these, as parameters of the function that is being built. -/
def identifierIn (params : List String) (name : String) : Plan Builder Value Value := do
  let b ← Plan.get
  match (ownValues params b.current).get? name with
  | some value => return value
  | none => Plan.fail (.undefinedVariable name)

/-- The builder, where only these parameters are ever found. -/
def lookingIn (params : List String) : Backend Builder Value :=
  backend.withIdentifier (identifierIn params)

/-- What is in scope is what the parameters of the function that is being built stand for. -/
theorem scoping : backend.Scoped context (fun params x => x.2 = ownValues params x.1) identifierIn where
  terms := keepsTerms_context
  prototype
    | none, _ => trivial
    | some p, x => keeps_prototype p x
  blankFunction _ := trivial
  identifier {params b} hscope name pass := by
    have hvalues : b.values = ownValues params b.current := hscope
    cases hname : (ownValues params b.current).get? name with
    | none =>
      simp only [backend, identifier, identifierIn, Plan.run_bind, Plan.run_get, Action.andThen_ok,
        hvalues, hname]
    | some value =>
      simp only [backend, identifier, identifierIn, Plan.run_bind, Plan.run_get, Action.andThen_ok,
        hvalues, hname]
  function content _ hproto b pass := by
    cases content with
    | none => exact ⟨fun _ => rfl, .inl fun _ _ => rfl⟩
    | some p => exact brackets_function p hproto b pass

end Ir.Builder

/-! ## Both -/

open Ir (Builder Value)

/-- **No scope leaks between constructs.** Take any node, holes, foreign nodes and nodes without
content included, any pass, and any nodes of it at which lowering is given up. The outermost call
leaves the scope of a checker, and the function being built and the parameters of a builder, exactly
as they were, however it ends. So between constructs nothing is in scope of a checker or a builder that has begun with the built-in
functions. There every construct is lowered as if no parameters could be found but its own. -/
theorem no_scope_leaks :
    (∀ (a : Attempt Judgement) (c : Checker), (a.run Checker.backend c).2.1.scope = c.scope) ∧
      (∀ (a : Attempt Value) (b : Builder),
        let b' := (a.run Builder.backend b).2.1
        b'.current = b.current ∧ b'.values = b.values) ∧
      (∀ (earlier : List (Attempt Judgement)) (a : Attempt Judgement),
        let c := Attempt.runAll Checker.backend .initial earlier
        c.scope = [] ∧ a.run Checker.backend c = a.run (Checker.lookingIn a.node.params) c) ∧
      ∀ (earlier : List (Attempt Value)) (a : Attempt Value),
        let b := Attempt.runAll Builder.backend .initial earlier
        b.current = none ∧ b.values = .empty ∧
          a.run Builder.backend b = a.run (Builder.lookingIn a.node.params) b := by
  refine ⟨Checker.scoping.run_part, fun a b => ?_, fun earlier a => ?_, fun earlier a => ?_⟩
  · exact Prod.ext_iff.1 (Builder.scoping.run_part a b)
  · have hscope := Checker.scoping.runAll_part .initial earlier
    exact ⟨hscope, Checker.scoping.run_look a hscope⟩
  · have hcontext : (Attempt.runAll Builder.backend .initial earlier).context = (none, .empty) :=
      Builder.scoping.runAll_part .initial earlier
    obtain ⟨hcurrent, hvalues⟩ := Prod.ext_iff.1 hcontext
    refine ⟨hcurrent, hvalues, Builder.scoping.run_look a ?_⟩
    rw [hcontext]
    rfl

end Kaleidoscope
