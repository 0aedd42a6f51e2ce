/-
  Which constructs the checker accepts, and what it knows after them.

  - `Term.Right`: what is asked of a node of an expression by itself; `fault?_eq_none_iff`: an
    expression has no fault exactly if all its nodes are right;
  - `Directory.Declarable`, `Directory.Definable`: the prototypes that may be declared, and the
    functions that may be defined, by what is known. The rules are about all nodes of the body, in
    no order;
  - `Directory.Callable`: the functions that a body may call, itself included;
  - `Checker.Sound.lowerFresh`, `Checker.Sound.lowerEach`: a checker stays sound whatever is lowered;
  - `Checker.lowerFresh_decides`: after any nodes, lowering a construct succeeds exactly if it obeys
    the rules, and changes what is known of its own function only.
-/
import Kaleidoscope.Proofs.Checker.Statics
import Kaleidoscope.Proofs.Lowering.Invariant

namespace Kaleidoscope

/-! ## Expressions -/

/-- The node is right by itself: a variable is a parameter, an operator is known, and a function is
called with as many arguments as it takes. -/
def Term.Right (Γ : Scope) : Term → Prop
  | .absent | .foreign _ | .hollow _ => False
  | .blank | .number _ _ => True
  | .identifier _ name => name ∈ Γ.params
  | .binary _ op _ _ => ∃ o, op = OpCode.ofOperator o
  | .call _ callee args => Γ.arity? callee = some args.length

theorem OpCode.fault?_eq_none_iff {op : OpCode} :
    op.fault? = none ↔ ∃ o, op = OpCode.ofOperator o := by
  unfold OpCode.fault?
  constructor
  · intro h
    split at h
    · cases h
    · rename_i hsome
      obtain ⟨o, ho⟩ := Option.ne_none_iff_exists'.1 (by simpa using hsome)
      have hfound := List.find?_some ho
      exact ⟨o, (by simpa using hfound : OpCode.ofOperator o = op).symm⟩
  · rintro ⟨o, rfl⟩
    simp

theorem Scope.callFault?_eq_none_iff {Γ : Scope} {callee : String} {count : Nat} :
    Γ.callFault? callee count = none ↔ Γ.arity? callee = some count := by
  unfold Scope.callFault?
  cases Γ.arity? callee with
  | none => simp
  | some arity => simp

mutual

/-- **An expression has no fault exactly if all its nodes are right.** -/
theorem Term.fault?_eq_none_iff {Γ : Scope} : ∀ t : Term,
    t.fault? Γ = none ↔ ∀ u ∈ t.subterms, u.Right Γ
  | .absent | .foreign _ | .hollow _ => by simp [Term.fault?, Term.subterms, Term.Right]
  | .blank | .number _ _ => by simp [Term.fault?, Term.subterms, Term.Right]
  | .identifier _ name => by
    simp [Term.fault?, Term.subterms, Term.Right, Scope.variableFault?]
  | .binary id op left right => by
    simp only [Term.fault?, Option.or_eq_none_iff, left.fault?_eq_none_iff,
      right.fault?_eq_none_iff, OpCode.fault?_eq_none_iff, Term.subterms, List.forall_mem_cons,
      List.forall_mem_append]
    constructor
    · rintro ⟨hleft, hright, hop⟩
      exact ⟨hop, hleft, hright⟩
    · rintro ⟨hop, hleft, hright⟩
      exact ⟨hleft, hright, hop⟩
  | .call id callee args => by
    simp only [Term.fault?, Option.or_eq_none_iff, Scope.callFault?_eq_none_iff,
      Term.faults_eq_none_iff args, Term.subterms, List.forall_mem_cons]
    exact Iff.rfl

theorem Term.faults_eq_none_iff {Γ : Scope} : ∀ ts : List Term,
    firstFault? (Term.faults Γ ts) = none ↔ ∀ u ∈ Term.allSubterms ts, u.Right Γ
  | [] => by simp [Term.faults, firstFault?, Term.allSubterms]
  | t :: ts => by
    have hrest := Term.faults_eq_none_iff (Γ := Γ) ts
    rw [firstFault?] at hrest
    simp only [Term.faults, firstFault?, List.foldr_cons, Option.or_eq_none_iff,
      t.fault?_eq_none_iff, hrest, Term.allSubterms, List.forall_mem_append]

end

/-! ## Constructs -/

namespace Directory

/-- A prototype that may be declared: its name is not reserved, its parameters have different names,
and if its name is known, then with as many parameters. -/
structure Declarable (G : Directory) (p : Prototype) : Prop where
  unreserved : p.name ∉ LibraryFunction.reserved
  distinct : p.params.Nodup
  arity : p.name ≠ "" → ∀ known, G p.name = some known → known.params.length = p.params.length

/-- The body of a prototype's function may call that function with so many arguments: it is known,
or it is the prototype's own, and takes so many. -/
def Callable (G : Directory) (p : Prototype) (callee : String) (count : Nat) : Prop :=
  (p.name ≠ "" ∧ callee = p.name ∧ p.params.length = count) ∨
    ∃ known, G callee = some known ∧ known.params.length = count

/-- A function that may be defined: its prototype may be declared, it has no body yet, and all
variables, operators and calls in its body are right. -/
structure Definable (G : Directory) (p : Prototype) (body : Term) : Prop
    extends G.Declarable p where
  bodiless : p.name ≠ "" → ∀ known, G p.name = some known → known.defined = false
  identifiers : ∀ id name, .identifier id name ∈ body.subterms → name ∈ p.params
  operators : ∀ id op left right, .binary id op left right ∈ body.subterms →
    ∃ o, op = OpCode.ofOperator o
  calls : ∀ id callee args, .call id callee args ∈ body.subterms →
    G.Callable p callee args.length

variable {G : Directory} {p : Prototype}

theorem isAnonymous_eq_false : p.isAnonymous = false ↔ p.name ≠ "" := by
  rw [Prototype.isAnonymous, ← Bool.not_eq_true, String.isEmpty_iff]

theorem declarationConflict?_eq_none_iff : G.declarationConflict? p = none ↔
    (p.name ≠ "" → ∀ known, G p.name = some known → known.params.length = p.params.length) := by
  unfold declarationConflict?
  cases hname : p.isAnonymous with
  | true => simp [String.isEmpty_iff.1 hname]
  | false =>
    have hnamed := isAnonymous_eq_false.1 hname
    cases hG : G p.name <;> simp [hnamed]

theorem definitionConflict?_eq_none_iff : G.definitionConflict? p = none ↔
    (p.name ≠ "" → ∀ known, G p.name = some known →
      known.params.length = p.params.length ∧ known.defined = false) := by
  unfold definitionConflict?
  cases hname : p.isAnonymous with
  | true => simp [String.isEmpty_iff.1 hname]
  | false =>
    have hnamed := isAnonymous_eq_false.1 hname
    cases hG : G p.name with
    | none => simp
    | some known => cases hdefined : known.defined <;> simp [hnamed, hdefined]

/-- **A declaration has no fault exactly if it obeys the rules.** -/
theorem declarationFault?_eq_none_iff : G.declarationFault? p = none ↔ G.Declarable p := by
  rw [declarationFault?, Option.or_eq_none_iff, Prototype.fault?_eq_none_iff,
    declarationConflict?_eq_none_iff]
  constructor
  · rintro ⟨⟨hname, hparams⟩, harity⟩
    exact ⟨hname, hparams, harity⟩
  · rintro ⟨hname, hparams, harity⟩
    exact ⟨⟨hname, hparams⟩, harity⟩

/-- What a body may call is what is known once its own function is declared. -/
theorem arity?_scope (harity : p.name ≠ "" → ∀ known, G p.name = some known →
    known.params.length = p.params.length) (callee : String) (count : Nat) :
    (G.scope p).arity? callee = some count ↔ G.Callable p callee count := by
  simp only [scope, declare, Callable]
  by_cases hown : callee = p.name ∧ p.name ≠ ""
  · obtain ⟨rfl, hname⟩ := hown
    have hnamed := isAnonymous_eq_false.2 hname
    simp only [hnamed, entry]
    cases hG : G p.name with
    | none => simp [hname]
    | some known => simp [hname, harity hname known hG]
  · have hother : ¬(callee = p.name ∧ ¬p.isAnonymous = true) := by
      rw [Bool.not_eq_true, isAnonymous_eq_false]
      exact hown
    rw [if_neg hother]
    constructor
    · intro h
      obtain ⟨known, hknown, hlength⟩ := Option.map_eq_some_iff.1 h
      exact Or.inr ⟨known, hknown, hlength⟩
    · rintro (⟨hname, rfl, -⟩ | ⟨known, hknown, hlength⟩)
      · exact absurd ⟨rfl, hname⟩ hown
      · rw [hknown, Option.map_some, hlength]

/-- **A definition has no fault exactly if it obeys the rules**, and its body lacks nothing. -/
theorem definitionFault?_eq_none_iff {body : Term} (hwhole : body.Whole) :
    G.definitionFault? p body = none ↔ G.Definable p body := by
  rw [definitionFault?, Option.or_eq_none_iff, Option.or_eq_none_iff,
    Prototype.fault?_eq_none_iff, definitionConflict?_eq_none_iff, Term.fault?_eq_none_iff]
  constructor
  · rintro ⟨⟨hname, hparams⟩, hknown, hbody⟩
    have harity : p.name ≠ "" → ∀ known, G p.name = some known →
        known.params.length = p.params.length := fun h known hG => (hknown h known hG).1
    exact {
      unreserved := hname
      distinct := hparams
      arity := harity
      bodiless := fun h known hG => (hknown h known hG).2
      identifiers := fun id name hu => hbody _ hu
      operators := fun id op left right hu => hbody _ hu
      calls := fun id callee args hu => (arity?_scope harity _ _).1 (hbody _ hu) }
  · intro h
    refine ⟨⟨h.unreserved, h.distinct⟩,
      fun hname known hG => ⟨h.arity hname known hG, h.bodiless hname known hG⟩, fun u hu => ?_⟩
    obtain ⟨hid, hfull⟩ := hwhole u hu
    cases u with
    | absent | foreign => exact absurd rfl hid
    | blank | hollow => exact absurd trivial hfull
    | number => trivial
    | identifier id name => exact h.identifiers id name hu
    | binary id op left right => exact h.operators id op left right hu
    | call id callee args => exact (arity?_scope h.arity _ _).2 (h.calls id callee args hu)

end Directory

/-- How lowering a construct ends, by whether it obeys the rules: with a result exactly if it does.
What is known is then what follows, and otherwise what it was. -/
structure Decides {ρ : Type} (r : Except Error ρ) (right : Prop) (old next now : Directory) :
    Prop where
  accepts : (∃ v, r = .ok v) ↔ right
  accepted : right → now = next
  rejected : ¬right → now = old

theorem Settles.decides {ρ : Type} {r : Except Error ρ} {fault : Option Error}
    {old next now : Directory} (h : Settles r fault old next now) {right : Prop}
    (hright : fault = none ↔ right) : Decides r right old next now := by
  cases fault with
  | none =>
    obtain ⟨hok, hnow⟩ := h
    have hright := hright.1 rfl
    exact ⟨⟨fun _ => hright, fun _ => hok⟩, fun _ => hnow, fun hwrong => absurd hright hwrong⟩
  | some e =>
    obtain ⟨rfl, hnow⟩ := h
    have hwrong : ¬right := fun h => nomatch hright.2 h
    have hfails : ¬∃ v, (Except.error e : Except Error ρ) = .ok v := fun ⟨_, hv⟩ => nomatch hv
    exact ⟨⟨fun h => absurd h hfails, fun h => absurd h hwrong⟩, fun h => absurd h hwrong,
      fun _ => hnow⟩

/-! ## Checkers -/

namespace Checker

/-- No rule for an expression changes the checker. -/
theorem keepsTerms (c : Checker) : backend.KeepsTerms (· = c) fun _ => True where
  absent := trivial
  foreign _ := trivial
  number _ := trivial
  hollow _ := trivial
  identifier name := by
    refine Plan.Keeps.get_bind fun s _ => ?_
    split <;> trivial
  binary op := by
    refine (Plan.Keeps.lower 0).bind fun left => (Plan.Keeps.lower 1).bind fun right => ?_
    split
    · trivial
    · split <;> trivial
  call callee count := by
    refine Plan.Keeps.get_bind fun s _ => ?_
    split
    · trivial
    · split
      · trivial
      · exact (Plan.Keeps.lowerFrom 0 count).bind fun _ => trivial

/-- **A checker stays sound, whatever is lowered**, and however lowering ends. -/
theorem Sound.lowerFresh {c : Checker} (h : c.Sound) (n : Node) :
    (n.lowerFresh backend c).2.Sound := by
  cases n with
  | term t =>
    rwa [(keepsTerms c).lowerFresh_term t]
  | prototype node =>
    cases node with
    | blank => rwa [lowerFresh_of_lacksPrototype .prototype c]
    | proto id p =>
      obtain ⟨r, c', hrun, hsound, -⟩ := lowerFresh_prototype h id p
      rwa [hrun]
  | function f =>
    obtain ⟨id, node, body⟩ := f
    cases node with
    | blank => rwa [lowerFresh_of_lacksPrototype (.function id body) c]
    | proto protoId p =>
      cases hfirst : p.fault?.or (Directory.definitionConflict? c.global? p) with
      | some e => rwa [lowerFresh_of_conflict hfirst]
      | none =>
        obtain ⟨hproto, hconflict⟩ := Option.or_eq_none_iff.1 hfirst
        obtain ⟨o, _, pass, hbody, rfl, -⟩ := (keepsTerms _).exists_action body
          (s := (c.declared p).2.withScope p.params) rfl (c.bodyPass p protoId)
        rw [lowerFresh_of_body hproto hconflict hbody]
        cases o with
        | ok r => exact (h.declared p).define _
        | error e => exact h.giveUp p
        | abort reason => exact h.declared p
  | blankFunction => rwa [lowerFresh_of_lacksPrototype .blankFunction c]

theorem Sound.lowerEach {c : Checker} (h : c.Sound) (ns : List Node) :
    (backend.lowerEach c ns).Sound :=
  Backend.lowerEach_keeps Sound (fun n _ hs => hs.lowerFresh n) h ns

/-- **The checker accepts exactly what obeys the rules.** Take the checker after any nodes, each
lowered in a pass of its own. A declaration succeeds exactly if its prototype may be declared, and a
definition, in whose body nothing is missing, exactly if it may be defined. With success the
construct's own function is known, with the parameters of its first declaration, and has a body if
one was given; nothing else that is known changes. Otherwise nothing changes at all. -/
theorem lowerFresh_decides (history : List Node) :
    let c := backend.lowerEach .initial history
    (∀ id p, ∃ r c', (Node.prototype (.proto id p)).lowerFresh backend c = (r, c') ∧
      Decides r (Directory.Declarable c.global? p) c.global? (Directory.declare c.global? p)
        c'.global?) ∧
    ∀ id protoId p body, (FunctionNode.mk id (.proto protoId p) body).Coherent → body.Whole →
      ∃ r c', (Node.function ⟨id, .proto protoId p, body⟩).lowerFresh backend c = (r, c') ∧
        Decides r (Directory.Definable c.global? p body) c.global? (Directory.define c.global? p)
          c'.global? := by
  intro c
  have hsound : c.Sound := Sound.initial.lowerEach history
  refine ⟨fun id p => ?_, fun id protoId p body hcoherent hwhole => ?_⟩
  · obtain ⟨r, c', hrun, -, -, hsettles⟩ := lowerFresh_prototype hsound id p
    exact ⟨r, c', hrun, hsettles.decides Directory.declarationFault?_eq_none_iff⟩
  · obtain ⟨r, c', hrun, -, -, hsettles, -⟩ := lowerFresh_function hsound hcoherent hwhole.ne_blank
    have hsettles := hsettles (Directory.not_givesUp_of_whole hwhole)
    exact ⟨r, c', hrun, hsettles.decides (Directory.definitionFault?_eq_none_iff hwhole)⟩

/-- A declaration of a function, and a definition of another one that fails in its body. -/
def declaredOnce : List Node :=
  [.prototype (.proto 6 ⟨"f", ["x"]⟩),
    .function ⟨10, .proto 9 ⟨"g", []⟩, .binary 8 (.ofOperator .add) (.call 7 "g" []) .absent⟩]

/-- A function that calls itself, under another name of its parameter than it was declared with. -/
def recursive : FunctionNode :=
  ⟨10, .proto 9 ⟨"f", ["y"]⟩,
    .binary 8 (.ofOperator .less) (.call 7 "f" [.identifier 6 "y"]) (.identifier 6 "y")⟩

theorem lowerFresh_decides_recursive :
    recursive.Coherent ∧ recursive.body.Whole ∧
      ∃ r c', (Node.function recursive).lowerFresh backend (backend.lowerEach .initial declaredOnce) =
        (r, c') ∧ (∃ v, r = .ok v) ∧ c'.global? "f" = some ⟨["x"], true⟩ ∧ c'.global? "g" = none := by
  have hcoherent : recursive.Coherent := by
    constructor
    · simp [OneEach, recursive, Term.subterms, Term.allSubterms, Term.id?]
    · simp [recursive, Term.subterms, Term.allSubterms, Term.id?, ProtoNode.id]
  have hwhole : recursive.body.Whole := by
    simp [Term.Whole, recursive, Term.subterms, Term.allSubterms, Term.id?, Term.LacksContent]
  have hf : (backend.lowerEach .initial declaredOnce).global? "f" = some ⟨["x"], false⟩ := by
    decide +kernel
  have hg : (backend.lowerEach .initial declaredOnce).global? "g" = none := by decide +kernel
  have hright : Directory.Definable (backend.lowerEach .initial declaredOnce).global? ⟨"f", ["y"]⟩
      recursive.body := (Directory.definitionFault?_eq_none_iff hwhole).1 (by decide +kernel)
  obtain ⟨r, c', hrun, hdecides⟩ :=
    (lowerFresh_decides declaredOnce).2 10 9 ⟨"f", ["y"]⟩ recursive.body hcoherent hwhole
  refine ⟨hcoherent, hwhole, r, c', hrun, hdecides.accepts.2 hright, ?_, ?_⟩
  · rw [hdecides.accepted hright, Directory.define, if_pos ⟨rfl, by decide⟩, Directory.entry, hf]
    rfl
  · rw [hdecides.accepted hright, Directory.define, if_neg (by decide), hg]

end Checker

end Kaleidoscope
