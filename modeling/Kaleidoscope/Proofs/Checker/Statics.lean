/-
  The checker finds what is wrong with a construct.

  - `Checker.judges`: its rules for expressions find the first fault, and change nothing;
  - `lowerFresh_prototype`, `lowerFresh_function`: a declaration or a definition ends with its first
    fault, and what is known stays as it was; without a fault, what is known is what follows from
    the construct. A definition that is given up leaves its function declared.
-/
import Kaleidoscope.Checker.Backend
import Kaleidoscope.Proofs.Checker.Table
import Kaleidoscope.Proofs.Statics.Directory

namespace Kaleidoscope

namespace Checker

/-- The scope of the expressions that a checker meets. -/
def scopeOf (c : Checker) : Scope where
  params := c.scope
  arity? name := (c.global? name).map (·.params.length)

/-- **The rules for expressions find the first fault**, and change nothing. -/
theorem judges (c : Checker) : backend.Judges c.scopeOf (· = c) (· = .double) where
  number sound value := by
    rintro s p rfl hp
    exact ⟨_, _, p, rfl, rfl, rfl, hp⟩
  identifier sound name := by
    rintro s p rfl hp
    by_cases hname : name ∈ s.scope
    · refine ⟨.ok .double, s, p, ?_, ?_, rfl, hp⟩
      · simp only [backend, identifier, Plan.run_bind, Plan.run_get, Action.andThen_ok, hname,
          if_true, Plan.run_pure]
      · simp only [Scope.variableFault?, scopeOf, hname, if_true]; rfl
    · refine ⟨.error (.undefinedVariable name), s, p, ?_, ?_, rfl, hp⟩
      · simp only [backend, identifier, Plan.run_bind, Plan.run_get, Action.andThen_ok, hname,
          if_false, Plan.run_fail]
      · simp only [Scope.variableFault?, scopeOf, hname, if_false]
        exact ⟨rfl, by rintro _ ⟨⟩⟩
  binary op := by
    refine ⟨_, rfl, fun sound children left right hleft hright => ?_⟩
    rintro s p rfl hp
    rw [hleft, hright]
    by_cases hop : op.operator?.isNone
    · refine ⟨.error (.operation op), s, p, ?_, ?_, rfl, hp⟩
      · simp only [hop, if_true, Plan.run_fail]
      · simp only [OpCode.fault?, hop, if_true]
        exact ⟨rfl, by rintro _ ⟨⟩⟩
    · refine ⟨.ok .double, s, p, ?_, ?_, rfl, hp⟩
      · simp only [hop, Bool.false_eq_true, if_false, and_self, if_true, Plan.run_pure]
      · simp only [OpCode.fault?, hop, Bool.false_eq_true, if_false]; rfl
  hollow _ := rfl
  call callee args := by
    rintro s rfl
    simp only [Scope.callFault?, scopeOf]
    cases hcallee : s.global? callee with
    | none =>
      intro p
      simp only [backend, call, Plan.run_bind, Plan.run_get, Action.andThen_ok, hcallee,
        Plan.run_fail]
    | some known =>
      by_cases harity : known.params.length = args.length
      · simp only [Option.map_some, harity, ne_eq, not_true_eq_false, if_false]
        refine ⟨fun _ => pure .double, fun p => ?_, fun sound rs s' p' hs' hp' => ?_⟩
        · simp only [backend, call, Plan.run_bind, Plan.run_get, Action.andThen_ok, hcallee, harity,
            ne_eq, not_true_eq_false, if_false, Plan.run_lowerFrom_zero]
        · exact ⟨_, s', p', rfl, rfl, hs', hp'⟩
      · simp only [Option.map_some, harity, ne_eq, not_false_eq_true, if_true]
        intro p
        simp only [backend, call, Plan.run_bind, Plan.run_get, Action.andThen_ok, hcallee, harity,
          ne_eq, not_false_eq_true, if_true, Plan.run_fail]

/-! ## Prototypes -/

/-- The declaration of a prototype, by its serial number, in a checker that knows it. A prototype
without a name is always a new declaration. -/
def declared (c : Checker) (p : Prototype) : Nat × Checker :=
  if p.isAnonymous then c.enroll ⟨[], false⟩
  else
    match c.find? p.name with
    | some (serial, _) => (serial, c)
    | none => c.declare p.name ⟨p.params, false⟩

/-- What the rule of a prototype does. -/
theorem run_prototype (c : Checker) (p : Prototype) (children : List (Action Checker Judgement Judgement))
    (pass : Pass Judgement) :
    (prototype p).run children c pass =
      match Directory.declarationFault? c.global? p with
      | some e => (.error e, c, pass)
      | none => (.ok (.declared (c.declared p).1), (c.declared p).2, pass) := by
  simp only [prototype, Plan.run_bind, Prototype.validate_eq, Directory.declarationFault?,
    Directory.declarationConflict?, declared]
  cases p.fault? with
  | some e => rfl
  | none =>
    simp only [Plan.run_ofExcept_ok, Action.andThen_ok, Plan.run_get, Option.none_or]
    cases hname : p.isAnonymous with
    | true => simp only [if_true, Plan.run_write, Plan.run_done]
    | false =>
      simp only [Bool.false_eq_true, if_false]
      cases hfind : c.find? p.name with
      | none => simp only [global?_eq_none_iff.2 hfind, Plan.run_write, Plan.run_done]
      | some found =>
        obtain ⟨serial, known⟩ := found
        rw [global?_of_find? hfind]
        by_cases harity : known.params.length = p.params.length
        · simp only [harity, ne_eq, not_true_eq_false, if_false, Plan.run_pure]
        · simp only [harity, ne_eq, not_false_eq_true, if_true, Plan.run_fail]

theorem permits_eq (c : Checker) (p : Prototype) :
    c.permits p = match Directory.definitionConflict? c.global? p with
      | some e => .error e
      | none => .ok () := by
  simp only [permits, Directory.definitionConflict?]
  cases p.isAnonymous with
  | true => rfl
  | false =>
    cases c.global? p.name with
    | none => rfl
    | some known =>
      simp only [Bool.false_eq_true, if_false]
      split
      · rfl
      · split <;> rfl

@[simp] theorem scope_declared (c : Checker) (p : Prototype) : (c.declared p).2.scope = c.scope := by
  unfold declared
  split
  · rfl
  · split <;> rfl

/-- The name of a prototype stands for its declaration. -/
theorem find?_declared (c : Checker) {p : Prototype} (hname : p.isAnonymous = false) :
    (c.declared p).2.find? p.name = some ((c.declared p).1, Directory.entry c.global? p) := by
  simp only [declared, hname, Bool.false_eq_true, if_false, Directory.entry]
  cases hfind : c.find? p.name with
  | none =>
    simp only [find?_eq_some, declare, enroll, SymbolTable.get?_add, if_true,
      global?_eq_none_iff.2 hfind, Option.getD_none, Array.getElem?_push_size, and_self]
  | some found =>
    obtain ⟨serial, known⟩ := found
    simp only [hfind, global?_of_find? hfind, Option.getD_some]

namespace Sound
variable {c : Checker} (h : c.Sound) (p : Prototype)
include h

theorem declared : (c.declared p).2.Sound := by
  unfold Checker.declared
  split
  · exact h.enroll _
  · split
    · exact h
    · exact h.declare _ _

theorem global?_declared : (c.declared p).2.global? = Directory.declare c.global? p := by
  unfold Checker.declared
  split
  · rename_i hname
    rw [h.global?_enroll, Directory.declare_of_anonymous _ hname]
  · rename_i hname
    funext name
    simp only [Directory.declare, Directory.entry, hname, Bool.false_eq_true, not_false_eq_true,
      and_true]
    cases hfind : c.find? p.name with
    | none =>
      simp only [h.global?_declare, global?_eq_none_iff.2 hfind, Option.getD_none]
    | some found =>
      obtain ⟨serial, known⟩ := found
      have hknown := global?_of_find? hfind
      simp only [hknown, Option.getD_some]
      split
      · rename_i heq; rw [heq, hknown]
      · rfl

/-- A body for the declaration of a prototype. -/
theorem global?_define_declared :
    ((c.declared p).2.define (c.declared p).1).global? = Directory.define c.global? p := by
  cases hname : p.isAnonymous with
  | true =>
    have hdeclared : c.declared p = c.enroll ⟨[], false⟩ := by
      simp only [Checker.declared, hname, if_true]
    rw [hdeclared, Directory.define_of_anonymous _ hname, ← h.global?_enroll ⟨[], false⟩]
    refine global?_define_of_unnamed fun name hget => ?_
    exact absurd (h.known hget) (Nat.lt_irrefl _)
  | false =>
    have hglobal := h.global?_declared p
    funext name
    rw [(h.declared p).global?_define (find?_declared c hname), hglobal]
    simp only [Directory.define, Directory.declare, hname, Bool.false_eq_true, not_false_eq_true,
      and_true]
    split <;> rfl

end Sound

/-! ## Constructs -/

/-- **A declaration is checked by its first fault.** -/
theorem lowerFresh_prototype {c : Checker} (h : c.Sound) (id : NodeId) (p : Prototype) :
    ∃ r c', (Node.prototype (.proto id p)).lowerFresh backend c = (r, c') ∧ c'.Sound ∧
      c'.scope = c.scope ∧
      Settles r (Directory.declarationFault? c.global? p) c.global?
        (Directory.declare c.global? p) c'.global? := by
  simp only [Node.lowerFresh, Node.lower, Node.action, ProtoNode.action, ProtoNode.id,
    ProtoNode.content?, visit_of_missing (Pass.result?_empty id), backend, run_prototype]
  cases hfault : Directory.declarationFault? c.global? p with
  | some e => exact ⟨_, c, rfl, h, rfl, rfl, rfl⟩
  | none =>
    exact ⟨_, _, rfl, h.declared p, scope_declared c p, ⟨_, rfl⟩, h.global?_declared p⟩

/-- The checker after a body that failed: a new name is withdrawn. -/
def giveUp (c : Checker) (p : Prototype) : Checker :=
  if (c.global? p.name).isNone ∧ ¬p.isAnonymous then (c.declared p).2.withdraw p.name
  else (c.declared p).2

@[simp] theorem scope_giveUp (c : Checker) (p : Prototype) : (c.giveUp p).scope = c.scope := by
  unfold giveUp
  split <;> exact scope_declared c p

theorem Sound.giveUp {c : Checker} (h : c.Sound) (p : Prototype) : (c.giveUp p).Sound := by
  unfold Checker.giveUp
  split
  · exact (h.declared p).withdraw _
  · exact h.declared p

/-- After a body that failed, as much is known as before. -/
theorem Sound.global?_giveUp {c : Checker} (h : c.Sound) (p : Prototype) :
    (c.giveUp p).global? = c.global? := by
  funext name
  unfold Checker.giveUp
  split
  · rename_i hnew
    rw [global?_withdraw, h.global?_declared]
    split
    · rename_i heq
      rw [heq, Option.isNone_iff_eq_none.1 hnew.1]
    · rename_i hne
      rw [Directory.declare, if_neg fun hand => hne hand.1]
  · rename_i hold
    rw [h.global?_declared, Directory.declare]
    split
    · rename_i hname
      cases hknown : c.global? p.name with
      | none => exact absurd ⟨by rw [hknown]; rfl, hname.2⟩ hold
      | some known => rw [hname.1, Directory.entry, hknown, Option.getD_some]
    · rfl

/-- What the rule of a function does with a prototype that is right, given what comes of the
body. -/
theorem run_function {c : Checker} {p : Prototype} (hproto : p.fault? = none)
    (hconflict : Directory.definitionConflict? c.global? p = none)
    {lowerProto lowerBody : Action Checker Judgement Judgement} {pass pass₁ pass₂ : Pass Judgement}
    (hlower : lowerProto c pass = (.ok (.declared (c.declared p).1), (c.declared p).2, pass₁))
    {o : Outcome Judgement}
    (hbody : lowerBody ((c.declared p).2.withScope p.params) pass₁ =
      (o, (c.declared p).2.withScope p.params, pass₂)) :
    (function p).run [lowerProto, lowerBody] c pass =
      match o with
      | .ok _ => (.ok (.declared (c.declared p).1), (c.declared p).2.define (c.declared p).1, pass₂)
      | .error e => (.error e, c.giveUp p, pass₂)
      | .abort reason => (.abort reason, (c.declared p).2, pass₂) := by
  have hscope : ((c.declared p).2.withScope p.params).withScope (c.declared p).2.scope =
      (c.declared p).2 := rfl
  simp only [function, Plan.run_bind, Prototype.validate_eq, hproto, permits_eq, hconflict,
    Plan.run_ofExcept_ok, Action.andThen_ok, Plan.run_get,
    Plan.run_lower [lowerProto, lowerBody] _ _ (i := 0) rfl, hlower, Plan.run_modify,
    Plan.run_child [lowerProto, lowerBody] _ _ (i := 1) rfl, hbody]
  cases o with
  | ok r => simp only [Action.andThen_ok, hscope, Plan.run_bind, Plan.run_modify, Plan.run_pure]
  | error e =>
    simp only [Action.andThen_ok, hscope, Plan.run_bind, Plan.run_modify, Plan.run_fail, giveUp]
  | abort reason => simp only [Action.andThen_abort, hscope]

theorem Sound.scopeOf_declared {c : Checker} (h : c.Sound) (p : Prototype) :
    ((c.declared p).2.withScope p.params).scopeOf = Directory.scope c.global? p := by
  simp only [scopeOf, Directory.scope, global?_withScope, h.global?_declared]; rfl

/-- The pass that meets the body of a definition: it has lowered the prototype. -/
def bodyPass (c : Checker) (p : Prototype) (protoId : NodeId) : Pass Judgement :=
  ((Pass.empty.enter.enter).record protoId (.declared (c.declared p).1)).leave

section
variable {c : Checker} {id protoId : NodeId} {p : Prototype} {body : Term}

/-- A definition with a wrong prototype ends with its fault, and the checker as it was. -/
theorem lowerFresh_of_conflict {e : Error}
    (h : p.fault?.or (Directory.definitionConflict? c.global? p) = some e) :
    (Node.function ⟨id, .proto protoId p, body⟩).lowerFresh backend c = (.error e, c) := by
  simp only [Node.lowerFresh, Node.lower, Node.action, FunctionNode.action, ProtoNode.content?,
    visit_of_missing (Pass.result?_empty id), backend, function, Plan.run_bind,
    Prototype.validate_eq]
  cases hproto : p.fault? with
  | some e' =>
    rw [hproto] at h
    injection h with h
    simp only [Plan.run_ofExcept_error, Action.andThen_error, settle, h]
  | none =>
    rw [hproto, Option.none_or] at h
    simp only [permits_eq, h, Plan.run_ofExcept_ok, Action.andThen_ok, Plan.run_get,
      Plan.run_ofExcept_error, Action.andThen_error, settle]

/-- A definition with a right prototype, given what comes of the expression. -/
theorem lowerFresh_of_body (hproto : p.fault? = none)
    (hconflict : Directory.definitionConflict? c.global? p = none) {o : Outcome Judgement}
    {pass : Pass Judgement}
    (hbody : body.action backend ((c.declared p).2.withScope p.params) (c.bodyPass p protoId) =
      (o, (c.declared p).2.withScope p.params, pass)) :
    (Node.function ⟨id, .proto protoId p, body⟩).lowerFresh backend c =
      match o with
      | .ok _ => (.ok (.declared (c.declared p).1), (c.declared p).2.define (c.declared p).1)
      | .error e => (.error e, c.giveUp p)
      | .abort reason => (.error (.aborted reason), (c.declared p).2) := by
  -- the prototype is lowered first, and is all that the pass knows when the body's turn comes
  have hlower : (ProtoNode.proto protoId p).action backend c Pass.empty.enter =
      (.ok (.declared (c.declared p).1), (c.declared p).2, c.bodyPass p protoId) := by
    simp only [ProtoNode.action, ProtoNode.id, ProtoNode.content?, backend, run_prototype,
      Directory.declarationFault?_of_definition hproto hconflict,
      visit_of_missing (p := Pass.empty.enter) (Pass.result?_empty protoId), settle, bodyPass]
  simp only [Node.lowerFresh, Node.lower, Node.action, FunctionNode.action, ProtoNode.content?,
    visit_of_missing (Pass.result?_empty id), show backend.function (some p) = function p from rfl,
    run_function hproto hconflict hlower hbody]
  cases o <;> rfl

/-- **A definition is checked by its first fault.** One that is given up leaves its function declared,
with no body. -/
theorem lowerFresh_function (h : c.Sound)
    (hf : (FunctionNode.mk id (.proto protoId p) body).Coherent)
    (hfull : ∀ u ∈ body.subterms, u ≠ .blank) :
    ∃ r c', (Node.function ⟨id, .proto protoId p, body⟩).lowerFresh backend c = (r, c') ∧
      c'.Sound ∧ c'.scope = c.scope ∧
      (¬Directory.GivesUp c.global? p body →
        Settles r (Directory.definitionFault? c.global? p body) c.global?
          (Directory.define c.global? p) c'.global?) ∧
      ∀ reason, Directory.definitionFault? c.global? p body = some (.aborted reason) →
        r = .error (.aborted reason) ∧ c'.global? = Directory.declare c.global? p := by
  unfold Directory.GivesUp
  rw [Directory.definitionFault?, ← Option.or_assoc]
  cases hfirst : p.fault?.or (Directory.definitionConflict? c.global? p) with
  | some e =>
    refine ⟨.error e, c, lowerFresh_of_conflict hfirst, h, rfl, fun _ => ⟨rfl, rfl⟩, ?_⟩
    intro reason habort
    exact absurd (Option.some.inj habort) (Directory.inner_of_conflict hfirst reason)
  | none =>
    obtain ⟨hproto, hconflict⟩ := Option.or_eq_none_iff.1 hfirst
    have hvouches := hf.vouches (Directory.scope c.global? p) (· = Judgement.double)
      (p := c.bodyPass p protoId) fun other hother => Pass.result?_record_empty _ hother
    obtain ⟨o, _, pass₂, hbody, hmeets, rfl, -⟩ :=
      ((judges _).finds hf.body hfull body fun _ hu => hu) _ _ rfl
        ((h.scopeOf_declared p) ▸ hvouches)
    rw [h.scopeOf_declared p] at hmeets
    rw [lowerFresh_of_body hproto hconflict hbody, Option.none_or]
    rcases hmeets.cases with ⟨r, rfl, hfault, -⟩ | ⟨e, rfl, hfault, hinner⟩ | ⟨reason, rfl, hfault⟩
    · rw [hfault]
      exact ⟨_, _, rfl, (h.declared p).define _, scope_declared c p,
        fun _ => ⟨⟨_, rfl⟩, h.global?_define_declared p⟩, by rintro _ ⟨⟩⟩
    · rw [hfault]
      exact ⟨_, _, rfl, h.giveUp p, scope_giveUp c p, fun _ => ⟨rfl, h.global?_giveUp p⟩,
        fun reason habort => absurd (Option.some.inj habort) (hinner reason)⟩
    · rw [hfault]
      refine ⟨_, _, rfl, h.declared p, scope_declared c p, fun hkept => absurd ⟨_, rfl⟩ hkept, ?_⟩
      rintro _ ⟨⟩
      exact ⟨rfl, h.global?_declared p⟩

end

theorem lowerFresh_of_lacksPrototype {n : Node} (h : n.LacksPrototype) (c : Checker) :
    n.lowerFresh backend c = (.error (.aborted blankRead), c) :=
  h.lowerFresh rfl rfl rfl c

end Checker

end Kaleidoscope
