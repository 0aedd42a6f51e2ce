/-
  The checker and the builder, side by side.

  Both are given the same constructs, and neither knows of the other. They end alike on every
  construct, and know the same functions after it, until a definition fails that leaves its function
  behind in the builder: under a name that spells a number, or with the body that was begun when
  lowering was given up.

  - `Node.Admissible`: the constructs that both may meet;
  - `Lockstep`: the checker and the builder end alike on each of some constructs, and agree after it;
  - `Node.Orphans`, `Orphanless`: the constructs that leave a function behind, and runs without them;
  - `lockstep_givenUp`, `lockstep_definition`: a definition that is given up, and any definition;
  - `lockstep_iff_orphanless`: they keep in step exactly on the runs without such a construct.
-/
import Kaleidoscope.Proofs.Checker.Statics
import Kaleidoscope.Proofs.Ir.Statics

namespace Kaleidoscope

open Ir (Builder)
open Ir.Builder (Plain)

/-- A construct that a checker and a builder may meet: a prototype or a function, with or without
content, in which an identity stands for one node, no number is blank, and no name that is declared
or called is one of those that expressions at top level are given. In its body there may be holes,
foreign nodes, and variables, operators and calls without content. -/
inductive Node.Admissible : Node → Prop
  | bare {n : Node} (h : n.LacksPrototype) : Admissible n
  | declaration (id : NodeId) {p : Prototype} (hplain : Plain p.name) :
    Admissible (.prototype (.proto id p))
  | definition {id protoId : NodeId} {p : Prototype} {body : Term}
    (hcoherent : (FunctionNode.mk id (.proto protoId p) body).Coherent)
    (hfull : ∀ u ∈ body.subterms, u ≠ .blank) (hplain : Plain p.name) (hcalls : body.Calls Plain) :
    Admissible (.function ⟨id, .proto protoId p, body⟩)

/-- Both end with a result, or both with the same error. -/
def SameEnd {ρ ρ' : Type} : Except Error ρ → Except Error ρ' → Prop
  | .ok _, .ok _ => True
  | .error e, .error e' => e = e'
  | _, _ => False

/-- The checker and the builder end alike on each of the constructs. After each, they know the same
functions of the same arity, those with a body being the same, names of expressions at top level
apart. -/
def Lockstep (c : Checker) (b : Builder) : List Node → Prop
  | [] => True
  | n :: rest =>
    let (r, c) := n.lowerFresh Checker.backend c
    let (r', b) := n.lowerFresh Builder.backend b
    SameEnd r r' ∧ Directory.Agrees Plain c.global? b.signature? ∧ Lockstep c b rest

/-- Whether a construct leaves its function behind in a builder although it fails, by what is known
before it: it is a definition whose body has a fault, and its name is a new one that spells a number,
or it has a name and is given up. -/
def Node.Orphans (G : Directory) : Node → Prop
  | .function ⟨_, .proto _ p, body⟩ =>
    Builder.Orphans G p body ∨ p.isAnonymous = false ∧ G.GivesUp p body
  | _ => False

/-- None of the constructs that a checker is given leaves its function behind in a builder. -/
def Orphanless (c : Checker) : List Node → Prop
  | [] => True
  | n :: rest => ¬n.Orphans c.global? ∧ Orphanless (n.lowerFresh Checker.backend c).2 rest

/-! ## One construct -/

/-- Agreeing directories see the same definitions leave their function behind. -/
theorem Directory.Agrees.orphans_iff {G H : Directory} (h : Directory.Agrees Plain G H)
    {p : Prototype} (hplain : Plain p.name) {body : Term} (hcalls : body.Calls Plain) :
    Builder.Orphans G p body ↔ Builder.Orphans H p body := by
  have hnew : G p.name = none ↔ H p.name = none := by
    rcases h.cases hplain with ⟨hG, hH⟩ | ⟨s, t, hG, hH, -⟩
    · simp [hG, hH]
    · simp [hG, hH]
  have hscope : body.fault? (G.scope p) = body.fault? (H.scope p) :=
    Term.fault?_congr (G.scope p) (H.scope p) rfl body
      fun id callee args hu => h.arity? (hcalls id callee args hu)
  rw [Builder.Orphans, Builder.Orphans, hnew, hscope]

section
variable {c : Checker} {b : Builder} (hc : c.Sound) (hb : b.Sound)
  (h : Directory.Agrees Plain c.global? b.signature?)
include hc hb h

theorem lockstep_declaration (id : NodeId) {p : Prototype} (hplain : Plain p.name) :
    ∃ r c' r' b', (Node.prototype (.proto id p)).lowerFresh Checker.backend c = (r, c') ∧
      (Node.prototype (.proto id p)).lowerFresh Builder.backend b = (r', b') ∧
      c'.Sound ∧ b'.Sound ∧ SameEnd r r' ∧ Directory.Agrees Plain c'.global? b'.signature? := by
  obtain ⟨r, c', hrun, hc', -, hsettles⟩ := Checker.lowerFresh_prototype hc id p
  have hrun' := Builder.lowerFresh_prototype b id p
  rw [← h.declarationFault? hplain] at hrun'
  cases hfault : Directory.declarationFault? c.global? p with
  | some e =>
    rw [hfault] at hrun' hsettles
    obtain ⟨rfl, hsame⟩ := hsettles
    exact ⟨_, c', _, b, hrun, hrun', hc', hb, rfl, hsame ▸ h⟩
  | none =>
    rw [hfault] at hrun' hsettles
    obtain ⟨⟨v, rfl⟩, hnext⟩ := hsettles
    refine ⟨_, c', _, _, hrun, hrun', hc', hb.declared p, trivial, fun name hname => ?_⟩
    rw [hnext, hb.signature?_declared p hname]
    exact h.declare name hname

/-- A definition that is given up leaves its function declared in the checker, and with a body in the
builder. That is a difference unless the function has no name. -/
theorem lockstep_givenUp {id protoId : NodeId} {p : Prototype} {body : Term}
    (hcoherent : (FunctionNode.mk id (.proto protoId p) body).Coherent)
    (hfull : ∀ u ∈ body.subterms, u ≠ .blank) (hplain : Plain p.name) (hcalls : body.Calls Plain)
    (hgives : Directory.GivesUp c.global? p body) :
    ∃ e c' b',
      (Node.function ⟨id, .proto protoId p, body⟩).lowerFresh Checker.backend c = (.error e, c') ∧
      (Node.function ⟨id, .proto protoId p, body⟩).lowerFresh Builder.backend b = (.error e, b') ∧
      c'.Sound ∧ b'.Sound ∧
      (Directory.Agrees Plain c'.global? b'.signature? ↔ p.isAnonymous = true) := by
  obtain ⟨r, c', hrun, hc', -, -, hbroken⟩ := Checker.lowerFresh_function hc hcoherent hfull
  obtain ⟨r', b', hrun', hb', -, hbroken'⟩ :=
    Builder.lowerFresh_function hb hcoherent hfull hplain hcalls
  have hconflict := (Option.or_eq_none_iff.1 hgives.conflict).2
  obtain ⟨reason, hfault⟩ := hgives
  obtain ⟨rfl, hdeclared⟩ := hbroken reason hfault
  rw [h.definitionFault? hplain hcalls] at hfault
  obtain ⟨rfl, hdefined⟩ := hbroken' reason hfault
  refine ⟨_, c', b', hrun, hrun', hc', hb', ?_⟩
  have hboth : Directory.Agrees Plain b'.signature? (Directory.define c.global? p) :=
    hdefined.trans h.define.symm
  rw [← Directory.Agrees.define_iff hplain hconflict, hdeclared]
  exact ⟨fun hag => hag.trans hboth, fun hag => hag.trans hboth.symm⟩

theorem lockstep_definition {id protoId : NodeId} {p : Prototype} {body : Term}
    (hcoherent : (FunctionNode.mk id (.proto protoId p) body).Coherent)
    (hfull : ∀ u ∈ body.subterms, u ≠ .blank) (hplain : Plain p.name) (hcalls : body.Calls Plain) :
    ∃ r c' r' b',
      (Node.function ⟨id, .proto protoId p, body⟩).lowerFresh Checker.backend c = (r, c') ∧
      (Node.function ⟨id, .proto protoId p, body⟩).lowerFresh Builder.backend b = (r', b') ∧
      c'.Sound ∧ b'.Sound ∧ SameEnd r r' ∧
      (Directory.Agrees Plain c'.global? b'.signature? ↔
        ¬(Node.function ⟨id, .proto protoId p, body⟩).Orphans c.global?) := by
  simp only [Node.Orphans]
  by_cases hgives : Directory.GivesUp c.global? p body
  · obtain ⟨e, c', b', hrun, hrun', hc', hb', hagree⟩ :=
      lockstep_givenUp hc hb h hcoherent hfull hplain hcalls hgives
    refine ⟨_, c', _, b', hrun, hrun', hc', hb', rfl, hagree.trans ⟨?_, fun hkept => ?_⟩⟩
    · rintro hname (⟨-, -, hnumber, -⟩ | ⟨hnamed, -⟩)
      · rw [Builder.isAnonymous_of_signedNumber? hnumber] at hname
        cases hname
      · rw [hnamed] at hname
        cases hname
    · by_contra hname
      exact hkept (.inr ⟨Bool.eq_false_iff.2 hname, hgives⟩)
  · obtain ⟨r, c', hrun, hc', -, hsettles, -⟩ := Checker.lowerFresh_function hc hcoherent hfull
    obtain ⟨r', b', hrun', hb', hends, -⟩ :=
      Builder.lowerFresh_function hb hcoherent hfull hplain hcalls
    have hgives' : ¬Directory.GivesUp b.signature? p body := by
      rwa [Directory.GivesUp, ← h.definitionFault? hplain hcalls]
    have hsettles := hsettles hgives
    have hends := hends hgives'
    refine ⟨r, c', r', b', hrun, hrun', hc', hb', ?_⟩
    rw [or_iff_left fun hgiven => hgives hgiven.2, h.orphans_iff hplain hcalls]
    rw [← h.definitionFault? hplain hcalls] at hends
    cases hfault : Directory.definitionFault? c.global? p body with
    | some e =>
      rw [hfault] at hends hsettles
      obtain ⟨rfl, hsame⟩ := hsettles
      obtain ⟨rfl, hkept⟩ := hends
      refine ⟨rfl, ?_⟩
      rw [← hkept, hsame]
      -- what the checker knows is what both knew before
      exact ⟨fun hag => hag.symm.trans h, fun hag => h.trans hag.symm⟩
    | none =>
      rw [hfault] at hends hsettles
      obtain ⟨⟨v, rfl⟩, hnext⟩ := hsettles
      obtain ⟨⟨v', rfl⟩, hdefined⟩ := hends
      refine ⟨trivial, fun _ horphans => ?_, fun _ => ?_⟩
      · rw [h.definitionFault? hplain hcalls, Directory.definitionFault?] at hfault
        exact horphans.2.2.2 (Option.or_eq_none_iff.1 (Option.or_eq_none_iff.1 hfault).2).2
      · rw [hnext]
        exact h.define.trans hdefined.symm

/-- **On an admissible construct both end alike**, and they agree after it unless it leaves its
function behind. -/
theorem lockstep_step {n : Node} (hn : n.Admissible) :
    ∃ r c' r' b', n.lowerFresh Checker.backend c = (r, c') ∧
      n.lowerFresh Builder.backend b = (r', b') ∧ c'.Sound ∧ b'.Sound ∧ SameEnd r r' ∧
      (Directory.Agrees Plain c'.global? b'.signature? ↔ ¬n.Orphans c.global?) := by
  cases hn with
  | bare hbare =>
    refine ⟨_, c, _, b, Checker.lowerFresh_of_lacksPrototype hbare c,
      Builder.lowerFresh_of_lacksPrototype hbare b, hc, hb, rfl, fun _ => ?_, fun _ => h⟩
    cases hbare <;> exact id
  | declaration id hplain =>
    obtain ⟨r, c', r', b', hrun, hrun', hc', hb', hsame, hagree⟩ :=
      lockstep_declaration hc hb h id hplain
    exact ⟨r, c', r', b', hrun, hrun', hc', hb', hsame, fun _ => False.elim, fun _ => hagree⟩
  | definition hcoherent hfull hplain hcalls =>
    exact lockstep_definition hc hb h hcoherent hfull hplain hcalls

/-- From a checker and a builder that agree, a run keeps in step if it leaves nothing behind, and
only then. -/
theorem lockstep_run {ns : List Node} (hns : ∀ n ∈ ns, n.Admissible) :
    Lockstep c b ns ↔ Orphanless c ns := by
  induction ns generalizing c b with
  | nil => exact Iff.rfl
  | cons n rest ih =>
    obtain ⟨r, c', r', b', hrun, hrun', hc', hb', hsame, hagree⟩ :=
      lockstep_step hc hb h (hns n List.mem_cons_self)
    have hrest : ∀ m ∈ rest, m.Admissible := fun m hm => hns m (List.mem_cons_of_mem _ hm)
    simp only [Lockstep, Orphanless, hrun, hrun', hsame, hagree, true_and]
    constructor
    · rintro ⟨hkept, hstep⟩
      exact ⟨hkept, (ih hc' hb' (hagree.2 hkept) hrest).1 hstep⟩
    · rintro ⟨hkept, hstep⟩
      exact ⟨hkept, (ih hc' hb' (hagree.2 hkept) hrest).2 hstep⟩

end

/-! ## Runs from the start -/

/-- A checker and a builder at their start agree. -/
theorem agrees_initial :
    Directory.Agrees Plain Checker.initial.global? Builder.initial.signature? := by
  intro name _
  have hnames : Checker.initial.globals = Builder.builtinNames := rfl
  rw [Checker.global?_eq, Builder.signature?_eq, hnames]
  show Option.map _ _ = Option.map _ ((Builder.builtinNames.get? name).bind _)
  cases hget : Builder.builtinNames.get? name with
  | none => rfl
  | some serial =>
    rcases Builder.get?_builtinNames hget with ⟨-, rfl⟩ | ⟨-, rfl⟩
    · rfl
    · rfl

/-- **A checker and a builder keep in step on a run from the start exactly if no definition of the
run leaves its function behind.** Such a definition has a right prototype, and a body with a fault.
Either its name is a new one that spells a number, or it has a name, and the fault is a variable, an
operator or a call without content. -/
theorem lockstep_iff_orphanless {ns : List Node} (hns : ∀ n ∈ ns, n.Admissible) :
    Lockstep .initial .initial ns ↔ Orphanless .initial ns :=
  lockstep_run Checker.Sound.initial Builder.Sound.initial agrees_initial hns

/-- A definition of one parameter, with that body. -/
def oneParameter (name : String) (body : Term) : Node :=
  .function ⟨NodeId.first + 2, .proto (NodeId.first + 1) ⟨name, ["x"]⟩, body⟩

theorem oneParameter_admissible {name : String} (hplain : Plain name) {body : Term}
    (hleaf : body.subterms = [body]) (hid : body.id? ≠ some (NodeId.first + 1))
    (hfull : body ≠ .blank) (hcalls : body.Calls Plain) : (oneParameter name body).Admissible := by
  refine .definition ⟨?_, ?_⟩ ?_ hplain hcalls
  · intro u hu v hv _ _
    rw [hleaf] at hu hv
    rw [List.mem_singleton.1 hu, List.mem_singleton.1 hv]
  · intro u hu
    rw [hleaf] at hu
    rwa [List.mem_singleton.1 hu]
  · intro u hu
    rw [hleaf] at hu
    rwa [List.mem_singleton.1 hu]

/-- A variable that is no parameter. -/
def stray : Term := .identifier NodeId.first "y"

/-- A variable without a name. -/
def nameless : Term := .hollow .identifier

/-- A definition that fails keeps both in step under an ordinary name, and parts them under a name
that spells a number. One that is given up parts them under an ordinary name too, but not if it has
no name. -/
theorem lockstep_strayVariable :
    Lockstep .initial .initial [oneParameter "f" stray] ∧
      ¬Lockstep .initial .initial [oneParameter "7" stray] ∧
      ¬Lockstep .initial .initial [oneParameter "f" nameless] ∧
      Lockstep .initial .initial [oneParameter "" nameless] := by
  have hspelling : ∀ name ∈ ["f", "7", ""], '_' ∉ name.toList := by decide
  have hadmissible : ∀ name ∈ ["f", "7", ""], ∀ body ∈ [stray, nameless],
      ∀ n ∈ [oneParameter name body], n.Admissible := by
    intro name hname body hbody n hn
    rw [List.mem_singleton.1 hn]
    have hplain := Ir.Builder.plain_of_no_underscore (hspelling name hname)
    rcases List.mem_pair.1 hbody with rfl | rfl
    · refine oneParameter_admissible hplain rfl (by decide) Term.noConfusion ?_
      intro id callee args hu
      cases List.mem_singleton.1 hu
    · refine oneParameter_admissible hplain rfl (by decide) Term.noConfusion ?_
      intro id callee args hu
      cases List.mem_singleton.1 hu
  rw [lockstep_iff_orphanless (hadmissible "f" (by decide) stray (.head _)),
    lockstep_iff_orphanless (hadmissible "7" (by decide) stray (.head _)),
    lockstep_iff_orphanless (hadmissible "f" (by decide) nameless (.tail _ (.head _))),
    lockstep_iff_orphanless (hadmissible "" (by decide) nameless (.tail _ (.head _)))]
  refine ⟨⟨?_, trivial⟩, ?_, ?_, ⟨?_, trivial⟩⟩
  · rintro (⟨-, -, hnumber, -⟩ | ⟨-, reason, hgives⟩)
    · exact hnumber (by decide)
    · have hfault : Directory.definitionFault? Checker.initial.global? ⟨"f", ["x"]⟩ stray =
          some (.undefinedVariable "y") := by decide +kernel
      rw [hfault] at hgives
      cases hgives
  · rintro ⟨hkept, -⟩
    exact hkept (.inl ⟨by decide, by decide +kernel, by decide, by decide⟩)
  · rintro ⟨hkept, -⟩
    exact hkept (.inr ⟨by decide, blankRead, by decide +kernel⟩)
  · rintro (⟨-, -, hnumber, -⟩ | ⟨hnamed, -⟩)
    · exact hnumber (by decide)
    · exact absurd hnamed (by decide)

end Kaleidoscope
