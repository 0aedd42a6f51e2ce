/-
  What is wrong with a declaration or a definition, given what is known under each name.

  - `Directory`: what is known under each name;
  - `declarationFault?`, `definitionFault?`: the first fault of a declaration, and of a definition
    with its body;
  - `declare`, `define`: the directory after a declaration or a definition without a fault. The
    parameters of the first declaration stay;
  - `GivesUp`: the definitions that are given up in their body;
  - `Settles`: how lowering a construct ends that is not given up, by its first fault;
  - `Node.LacksPrototype`: the constructs that are given up at once;
  - `FunctionNode.Coherent`: the nodes of a function have an identity each;
  - `Agrees`: directories that know the same functions of some names, up to the names of their
    parameters; on these the faults are the same, and what follows agrees again.
-/
import Kaleidoscope.Builtin
import Kaleidoscope.Checker.Type
import Kaleidoscope.Proofs.Statics.Fault

namespace Kaleidoscope

/-- What is wrong with a prototype on its own. -/
def Prototype.fault? (p : Prototype) : Option Error :=
  match p.validate with
  | .ok _ => none
  | .error e => some e

theorem Prototype.validate_eq (p : Prototype) :
    p.validate = match p.fault? with
      | some e => .error e
      | none => .ok () := by
  unfold fault?
  cases p.validate <;> rfl

/-- The names have no repetition, and none of them was seen before. -/
theorem firstRepeated?_eq_none_iff {seen names : List String} :
    firstRepeated? seen names = none ↔ names.Nodup ∧ ∀ name ∈ names, name ∉ seen := by
  induction names generalizing seen with
  | nil => simp [firstRepeated?]
  | cons name names ih =>
    rw [firstRepeated?]
    by_cases hname : name ∈ seen
    · simp [hname]
    · rw [if_neg hname, ih, List.nodup_cons]
      constructor
      · rintro ⟨hnodup, hfresh⟩
        refine ⟨⟨fun hmem => hfresh name hmem List.mem_cons_self, hnodup⟩, fun other hother => ?_⟩
        rcases List.mem_cons.1 hother with rfl | hother
        · exact hname
        · exact fun hseen => hfresh other hother (List.mem_cons_of_mem _ hseen)
      · rintro ⟨⟨hfirst, hnodup⟩, hfresh⟩
        refine ⟨hnodup, fun other hother hseen => ?_⟩
        rcases List.mem_cons.1 hseen with rfl | hseen
        · exact hfirst hother
        · exact hfresh other (List.mem_cons_of_mem _ hother) hseen

/-- A prototype is right if its name is not reserved, and its parameters have different names. -/
theorem Prototype.fault?_eq_none_iff {p : Prototype} :
    p.fault? = none ↔ p.name ∉ LibraryFunction.reserved ∧ p.params.Nodup := by
  have hnodup := @firstRepeated?_eq_none_iff [] p.params
  simp only [List.not_mem_nil, not_false_eq_true, implies_true, and_true] at hnodup
  rw [← hnodup]
  simp only [fault?, validate]
  by_cases hname : p.name ∈ LibraryFunction.reserved
  · simp [hname]
  · cases hrep : firstRepeated? [] p.params <;> simp [hname]

theorem Prototype.isMistake_of_fault? {p : Prototype} {e : Error} (h : p.fault? = some e) :
    e.isMistake = true := by
  simp only [Prototype.fault?, Prototype.validate] at h
  split at h
  · cases h
  · rename_i e' hvalidate
    injection h with h
    subst h
    split at hvalidate
    · injection hvalidate with hvalidate
      subst hvalidate; rfl
    · split at hvalidate
      · injection hvalidate with hvalidate
        subst hvalidate; rfl
      · cases hvalidate

/-- What is known under each name. -/
abbrev Directory := String → Option Signature

namespace Directory

/-- What a declaration with that prototype contradicts. -/
def declarationConflict? (G : Directory) (p : Prototype) : Option Error :=
  if p.isAnonymous then none
  else
    match G p.name with
    | none => none
    | some known =>
      if known.params.length ≠ p.params.length then
        some (.arity p.name known.params.length p.params.length)
      else none

/-- What a body with that prototype contradicts. -/
def definitionConflict? (G : Directory) (p : Prototype) : Option Error :=
  if p.isAnonymous then none
  else
    match G p.name with
    | none => none
    | some known =>
      if known.defined then some (.redefinition p.name)
      else if known.params.length ≠ p.params.length then
        some (.arity p.name known.params.length p.params.length)
      else none

/-- What is known of the function of a prototype from its declaration on. -/
def entry (G : Directory) (p : Prototype) : Signature := (G p.name).getD ⟨p.params, false⟩

/-- The directory in which the function of a prototype is known. -/
def declare (G : Directory) (p : Prototype) : Directory := fun name =>
  if name = p.name ∧ ¬p.isAnonymous then some (G.entry p) else G name

/-- The directory in which the function of a prototype has a body. -/
def define (G : Directory) (p : Prototype) : Directory := fun name =>
  if name = p.name ∧ ¬p.isAnonymous then some { G.entry p with defined := true } else G name

/-- What a body may refer to: its parameters, and all functions, itself included. -/
def scope (G : Directory) (p : Prototype) : Scope where
  params := p.params
  arity? name := (G.declare p name).map (·.params.length)

/-- The first fault of a declaration. -/
def declarationFault? (G : Directory) (p : Prototype) : Option Error :=
  p.fault?.or (G.declarationConflict? p)

/-- The first fault of a definition. -/
def definitionFault? (G : Directory) (p : Prototype) (body : Term) : Option Error :=
  p.fault?.or ((G.definitionConflict? p).or (body.fault? (G.scope p)))

/-- Lowering a definition is given up: the first fault is a node of the body that lacks content. -/
def GivesUp (G : Directory) (p : Prototype) (body : Term) : Prop :=
  ∃ reason, G.definitionFault? p body = some (.aborted reason)

theorem isMistake_of_definitionConflict? {G : Directory} {p : Prototype} {e : Error}
    (h : G.definitionConflict? p = some e) : e.isMistake = true := by
  unfold definitionConflict? at h
  split at h
  · cases h
  · split at h
    · cases h
    · split at h
      · injection h with h
        subst h; rfl
      · split at h
        · injection h with h
          subst h; rfl
        · cases h

/-- A wrong prototype is a mistake of the program, and no reason to give up. -/
theorem inner_of_conflict {G : Directory} {p : Prototype} {e : Error}
    (h : p.fault?.or (G.definitionConflict? p) = some e) : e.Inner := by
  rcases Option.or_eq_some_iff.1 h with hproto | ⟨-, hconflict⟩
  · exact Error.inner_of_isMistake (Prototype.isMistake_of_fault? hproto)
  · exact Error.inner_of_isMistake (isMistake_of_definitionConflict? hconflict)

/-- A definition in whose body nothing is missing is not given up. -/
theorem not_givesUp_of_whole {G : Directory} {p : Prototype} {body : Term} (h : body.Whole) :
    ¬G.GivesUp p body := by
  rintro ⟨reason, hfault⟩
  rw [definitionFault?, ← Option.or_assoc] at hfault
  rcases Option.or_eq_some_iff.1 hfault with hconflict | ⟨-, hbody⟩
  · exact inner_of_conflict hconflict reason rfl
  · exact Error.inner_of_isMistake (body.isMistake_of_fault? h hbody) reason rfl

/-- A definition that is given up has a right prototype. -/
theorem GivesUp.conflict {G : Directory} {p : Prototype} {body : Term} (h : G.GivesUp p body) :
    p.fault?.or (G.definitionConflict? p) = none := by
  obtain ⟨reason, hfault⟩ := h
  rw [definitionFault?, ← Option.or_assoc] at hfault
  cases hfirst : p.fault?.or (G.definitionConflict? p) with
  | none => rfl
  | some e =>
    rw [hfirst, Option.some_or] at hfault
    exact absurd (Option.some.inj hfault) (inner_of_conflict hfirst reason)

theorem declare_of_anonymous (G : Directory) {p : Prototype} (h : p.isAnonymous = true) :
    G.declare p = G := by
  funext name; simp [declare, h]

theorem define_of_anonymous (G : Directory) {p : Prototype} (h : p.isAnonymous = true) :
    G.define p = G := by
  funext name; simp [define, h]

/-- The function of a prototype without a conflict is new, or it is known with that arity and
without a body. -/
theorem cases_of_definitionConflict? {G : Directory} {p : Prototype}
    (hname : p.isAnonymous = false) (h : G.definitionConflict? p = none) :
    G p.name = none ∨
      ∃ known, G p.name = some known ∧ known.defined = false ∧
        known.params.length = p.params.length := by
  simp only [definitionConflict?, hname, Bool.false_eq_true, if_false] at h
  cases hG : G p.name with
  | none => exact Or.inl rfl
  | some known =>
    simp only [hG] at h
    split at h
    · cases h
    · rename_i hdefined
      split at h
      · cases h
      · rename_i harity
        exact Or.inr ⟨known, rfl, by simpa using hdefined, by simpa using harity⟩

/-- A prototype that may get a body may be declared. -/
theorem declarationFault?_of_definition {G : Directory} {p : Prototype} (hproto : p.fault? = none)
    (hconflict : G.definitionConflict? p = none) : G.declarationFault? p = none := by
  simp only [declarationFault?, hproto, Option.none_or, declarationConflict?]
  cases hname : p.isAnonymous with
  | true => rfl
  | false =>
    rcases cases_of_definitionConflict? hname hconflict with hnew | ⟨known, hknown, -, hlen⟩
    · simp only [hnew, ite_self]
    · simp only [hknown, hlen, ne_eq, not_true_eq_false, if_false, ite_self]

end Directory

/-! ## Constructs -/

/-- The declaration or the definition lacks its prototype. -/
inductive Node.LacksPrototype : Node → Prop
  | prototype : LacksPrototype (.prototype .blank)
  | function (id : NodeId) (body : Term) : LacksPrototype (.function ⟨id, .blank, body⟩)
  | blankFunction : LacksPrototype .blankFunction

/-- Such a construct is given up at once by a backend that needs its prototype. -/
theorem Node.LacksPrototype.lowerFresh {σ ρ : Type} {b : Backend σ ρ} {n : Node}
    (h : n.LacksPrototype) (hprototype : b.prototype none = .abort blankRead)
    (hfunction : b.function none = .abort blankRead)
    (hblank : b.blankFunction = .abort blankRead) (s : σ) :
    n.lowerFresh b s = (.error (.aborted blankRead), s) := by
  cases h with
  | prototype =>
    simp only [Node.lowerFresh, Node.lower, Node.action, ProtoNode.action, ProtoNode.content?,
      hprototype, visit_of_missing (Pass.result?_empty _), Plan.run_abort, settle]
  | function =>
    simp only [Node.lowerFresh, Node.lower, Node.action, FunctionNode.action, ProtoNode.content?,
      hfunction, visit_of_missing (Pass.result?_empty _), Plan.run_abort, settle]
  | blankFunction =>
    simp only [Node.lowerFresh, Node.lower, Node.action, hblank,
      visit_of_missing (Pass.result?_empty _), Plan.run_abort, settle]

/-- How lowering a construct ends that has that first fault, and is not given up: with the fault, and
the directory as it was; or with a result, and the directory that follows. -/
def Settles {ρ : Type} (r : Except Error ρ) (fault : Option Error) (old next now : Directory) :
    Prop :=
  match fault with
  | some e => r = .error e ∧ now = old
  | none => (∃ v, r = .ok v) ∧ now = next

/-- The function's expressions have an identity each, other than that of its prototype. -/
structure FunctionNode.Coherent (f : FunctionNode) : Prop where
  body : OneEach f.body.subterms
  proto : ∀ u ∈ f.body.subterms, u.id? ≠ some f.proto.id

/-- A pass that has only lowered the function's prototype vouches for the expressions of its
body. -/
theorem FunctionNode.Coherent.vouches {ρ : Type} {f : FunctionNode} (h : f.Coherent) (Γ : Scope)
    (good : ρ → Prop) {p : Pass ρ} (hp : ∀ id, id ≠ f.proto.id → p.result? id = none) :
    p.Vouches Γ good f.body.subterms := by
  intro u hu id hid r hr
  by_cases hproto : id = f.proto.id
  · exact absurd (hproto ▸ hid) (h.proto u hu)
  · rw [hp id hproto] at hr; cases hr

/-! ## Directories that agree -/

/-- What of a function matters to others: how many arguments it takes, and whether it has a
body. -/
structure Standing where
  arity : Nat
  defined : Bool
  deriving DecidableEq, Repr

/-- What of a signature matters to others. -/
def Signature.standing (s : Signature) : Standing := ⟨s.params.length, s.defined⟩

/-- Every function that the expression calls has a name that satisfies `P`. -/
def Term.Calls (P : String → Prop) (t : Term) : Prop :=
  ∀ id callee args, .call id callee args ∈ t.subterms → P callee

/-- Every function that the expressions call has a name that satisfies `P`. -/
def Term.AllCall (P : String → Prop) (ts : List Term) : Prop :=
  ∀ id callee args, .call id callee args ∈ Term.allSubterms ts → P callee

mutual

/-- The first fault of an expression depends on its parameters, and on the functions that it
calls. -/
theorem Term.fault?_congr (Γ Δ : Scope) (hparams : Γ.params = Δ.params) : ∀ t : Term,
    t.Calls (fun name => Γ.arity? name = Δ.arity? name) → t.fault? Γ = t.fault? Δ
  | .absent, _ | .foreign _, _ | .blank, _ | .hollow _, _ | .number _ _, _ => rfl
  | .identifier _ name, _ => by simp only [Term.fault?, Scope.variableFault?, hparams]
  | .binary id op left right, h => by
    have hl := Term.fault?_congr Γ Δ hparams left fun id callee args hu =>
      h id callee args (List.mem_cons_of_mem _ (List.mem_append_left _ hu))
    have hr := Term.fault?_congr Γ Δ hparams right fun id callee args hu =>
      h id callee args (List.mem_cons_of_mem _ (List.mem_append_right _ hu))
    simp only [Term.fault?, hl, hr]
  | .call id callee args, h => by
    have hcallee : Γ.arity? callee = Δ.arity? callee :=
      h id callee args (Term.self_mem_subterms _)
    have hargs := Term.faults_congr Γ Δ hparams args fun id callee args hu =>
      h id callee args (List.mem_cons_of_mem _ hu)
    simp only [Term.fault?, Scope.callFault?, hcallee, hargs]

theorem Term.faults_congr (Γ Δ : Scope) (hparams : Γ.params = Δ.params) : ∀ ts : List Term,
    Term.AllCall (fun name => Γ.arity? name = Δ.arity? name) ts → Term.faults Γ ts = Term.faults Δ ts
  | [], _ => rfl
  | t :: ts, h => by
    have ht := Term.fault?_congr Γ Δ hparams t fun id callee args hu =>
      h id callee args (List.mem_append_left _ hu)
    have hts := Term.faults_congr Γ Δ hparams ts fun id callee args hu =>
      h id callee args (List.mem_append_right _ hu)
    simp only [Term.faults, ht, hts]

end

namespace Directory

/-- The directories know functions of the same standing under all names that satisfy `P`. -/
def Agrees (P : String → Prop) (G H : Directory) : Prop :=
  ∀ name, P name → (G name).map Signature.standing = (H name).map Signature.standing

namespace Agrees
variable {P : String → Prop} {G H K : Directory} {p : Prototype}

theorem symm (h : Agrees P G H) : Agrees P H G := fun name hP => (h name hP).symm

theorem trans (h : Agrees P G H) (h' : Agrees P H K) : Agrees P G K :=
  fun name hP => (h name hP).trans (h' name hP)

/-- What is known under a name in agreeing directories. -/
theorem cases (h : Agrees P G H) {name : String} (hP : P name) :
    (G name = none ∧ H name = none) ∨
      ∃ s t, G name = some s ∧ H name = some t ∧ s.params.length = t.params.length ∧
        s.defined = t.defined := by
  have hname := h name hP
  cases hG : G name with
  | none =>
    cases hH : H name with
    | none => exact Or.inl ⟨rfl, rfl⟩
    | some t => rw [hG, hH] at hname; cases hname
  | some s =>
    cases hH : H name with
    | none => rw [hG, hH] at hname; cases hname
    | some t =>
      rw [hG, hH] at hname
      injection hname with hst
      injection hst with harity hdefined
      exact Or.inr ⟨s, t, rfl, rfl, harity, hdefined⟩

theorem entry (h : Agrees P G H) (hP : P p.name) :
    (G.entry p).params.length = (H.entry p).params.length ∧
      (G.entry p).defined = (H.entry p).defined := by
  rcases h.cases hP with ⟨hG, hH⟩ | ⟨s, t, hG, hH, harity, hdefined⟩
  · simp [Directory.entry, hG, hH]
  · simp [Directory.entry, hG, hH, harity, hdefined]

theorem declare (h : Agrees P G H) : Agrees P (G.declare p) (H.declare p) := by
  intro name hP
  simp only [Directory.declare]
  split
  · rename_i hname
    obtain ⟨harity, hdefined⟩ := h.entry (p := p) (hname.1 ▸ hP)
    simp only [Option.map_some, Signature.standing, harity, hdefined]
  · exact h name hP

theorem define (h : Agrees P G H) : Agrees P (G.define p) (H.define p) := by
  intro name hP
  simp only [Directory.define]
  split
  · rename_i hname
    obtain ⟨harity, -⟩ := h.entry (p := p) (hname.1 ▸ hP)
    simp only [Option.map_some, Signature.standing, harity]
  · exact h name hP

/-- To have a body makes a difference to a function that has a name and had none. -/
theorem define_iff (hP : P p.name) (hconflict : G.definitionConflict? p = none) :
    Agrees P (G.declare p) (G.define p) ↔ p.isAnonymous = true := by
  constructor
  · intro h
    by_contra hname
    have hown := h p.name hP
    simp only [Directory.declare, Directory.define, hname] at hown
    injection hown with hown
    injection hown with _ hdefined
    rcases cases_of_definitionConflict? (Bool.eq_false_iff.2 hname) hconflict with
      hnew | ⟨known, hknown, hbodiless, -⟩
    · rw [Directory.entry, hnew] at hdefined
      cases hdefined
    · rw [Directory.entry, hknown, Option.getD_some, hbodiless] at hdefined
      cases hdefined
  · intro hname
    rw [declare_of_anonymous _ hname, define_of_anonymous _ hname]
    exact fun _ _ => rfl

theorem declarationFault? (h : Agrees P G H) (hP : P p.name) :
    G.declarationFault? p = H.declarationFault? p := by
  simp only [Directory.declarationFault?, declarationConflict?]
  rcases h.cases hP with ⟨hG, hH⟩ | ⟨s, t, hG, hH, harity, -⟩
  · rw [hG, hH]
  · simp only [hG, hH, harity]

theorem definitionConflict? (h : Agrees P G H) (hP : P p.name) :
    G.definitionConflict? p = H.definitionConflict? p := by
  simp only [Directory.definitionConflict?]
  rcases h.cases hP with ⟨hG, hH⟩ | ⟨s, t, hG, hH, harity, hdefined⟩
  · rw [hG, hH]
  · simp only [hG, hH, harity, hdefined]

/-- The arities in the scopes of a body are the same. -/
theorem arity? (h : Agrees P G H) {name : String} (hP : P name) :
    (G.scope p).arity? name = (H.scope p).arity? name := by
  have hdeclared := h.declare (p := p) name hP
  have := congrArg (Option.map Standing.arity) hdeclared
  rw [Option.map_map, Option.map_map] at this
  exact this

/-- **A definition has the same first fault in agreeing directories.** -/
theorem definitionFault? (h : Agrees P G H) (hP : P p.name) {body : Term} (hbody : body.Calls P) :
    G.definitionFault? p body = H.definitionFault? p body := by
  have hscope : body.fault? (G.scope p) = body.fault? (H.scope p) :=
    Term.fault?_congr (G.scope p) (H.scope p) rfl body
      fun id callee args hu => h.arity? (hbody id callee args hu)
  simp only [Directory.definitionFault?, h.definitionConflict? hP, hscope]

end Agrees

end Directory

end Kaleidoscope
