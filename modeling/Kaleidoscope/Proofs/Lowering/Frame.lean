/-
  Lowering that may be given up anywhere, and lowering that looks names up elsewhere.

  - `Visit`, `Backend.brokenAt`: a backend that is given up at some nodes, before their plans begin;
  - `Backend.withIdentifier`: a backend that looks parameters up in another way;
  - `Action.Agrees`, `Plan.Keeps.agrees`: doing the same in all states that satisfy an invariant;
  - `Backend.KeepsTerms.agrees`: an expression is lowered alike if parameters are looked up alike in
    all states that lowering it meets;
  - `Attempt`: an outermost call that may be given up at any node;
  - `Brackets`, `Backend.Scoped`: a backend that tells by a part of its state which parameters are in
    scope, and sets that part back around the body of a function;
  - `Backend.Scoped.run_part`, `Backend.Scoped.runAll_part`: outermost calls leave that part alone;
  - `Backend.Scoped.run_look`: a node meets no parameters but its own.
-/
import Kaleidoscope.Proofs.Lowering.Invariant

namespace Kaleidoscope

variable {σ ρ α φ : Type}

/-! ## Giving up at a node -/

/-- What the plan of a node depends on. -/
inductive Visit where
  /-- A number. -/
  | number (value : Option Binary64)
  /-- A parameter. -/
  | identifier (name : String)
  /-- An operator. -/
  | binary (op : OpCode)
  /-- A call. -/
  | call (callee : String) (count : Nat)
  /-- A prototype. -/
  | prototype (content : Option Prototype)
  /-- A function. -/
  | function (content : Option Prototype)
  /-- A parameter, an operator or a call without content. -/
  | hollow (kind : Hollow)
  /-- A function without content. -/
  | blankFunction

/-- The plan, unless there is a reason to give up. -/
def Plan.unless (plan : Plan σ ρ α) : Option String → Plan σ ρ α
  | some reason => .abort reason
  | none => plan

/-- The backend, given up at the nodes that there is a reason for. -/
def Backend.brokenAt (b : Backend σ ρ) (broken : Visit → Option String) : Backend σ ρ where
  number value := (b.number value).unless (broken (.number value))
  identifier name := (b.identifier name).unless (broken (.identifier name))
  binary op := (b.binary op).unless (broken (.binary op))
  call callee count := (b.call callee count).unless (broken (.call callee count))
  prototype content := (b.prototype content).unless (broken (.prototype content))
  function content := (b.function content).unless (broken (.function content))
  hollow kind := (b.hollow kind).unless (broken (.hollow kind))
  blankFunction := b.blankFunction.unless (broken .blankFunction)

/-- Without a reason to give up it is the backend itself. -/
@[simp] theorem Backend.brokenAt_none (b : Backend σ ρ) : b.brokenAt (fun _ => none) = b := rfl

section
variable {inv : σ → Prop} {ok : Error → Prop}

theorem Plan.Keeps.unless {plan : Plan σ ρ α} (h : plan.Keeps inv ok) (reason? : Option String) :
    (plan.unless reason?).Keeps inv ok := by
  cases reason? with
  | none => exact h
  | some reason => trivial

theorem Backend.KeepsTerms.brokenAt {b : Backend σ ρ} (h : b.KeepsTerms inv ok)
    (broken : Visit → Option String) : (b.brokenAt broken).KeepsTerms inv ok where
  absent := h.absent
  foreign := h.foreign
  number value := (h.number value).unless _
  identifier name := (h.identifier name).unless _
  binary op := (h.binary op).unless _
  call callee count := (h.call callee count).unless _
  hollow kind := (h.hollow kind).unless _

/-! ## Looking parameters up in another way -/

/-- The backend with another plan for parameters. -/
def Backend.withIdentifier (b : Backend σ ρ) (look : String → Plan σ ρ ρ) : Backend σ ρ :=
  { b with identifier := look }

/-- The actions do the same in all states that satisfy the invariant. -/
def Action.Agrees (inv : σ → Prop) (a a' : Action σ ρ α) : Prop := ∀ s p, inv s → a s p = a' s p

/-- A child at any position, a missing one included. -/
def nthChild (children : List (Action σ ρ ρ)) (i : Nat) : Action σ ρ ρ :=
  children[i]?.getD (Action.fail .absentNode)

/-- **A plan does the same over children that do the same**, in states of an invariant that plan and
children keep. -/
theorem Plan.Keeps.agrees {plan : Plan σ ρ α} (h : plan.Keeps inv ok)
    {children children' : List (Action σ ρ ρ)}
    (hkeeps : ∀ i, Action.Keeps inv ok (nthChild children i))
    (hsame : ∀ i, Action.Agrees inv (nthChild children i) (nthChild children' i)) :
    Action.Agrees inv (plan.run children) (plan.run children') := by
  intro s p hs
  induction plan generalizing s p with
  | done value => rfl
  | fail e => rfl
  | abort reason => rfl
  | read next ih => exact ih s (h s hs) s p hs
  | write s' next ih => exact ih h.2 s' p h.1
  | child i unwind next ih =>
    obtain ⟨hafter, herror⟩ := hkeeps i s p hs
    have heq := hsame i s p hs
    unfold nthChild at hafter herror heq
    simp only [Plan.run, ← heq]
    rcases hrun : (children[i]?.getD (Action.fail .absentNode)) s p with ⟨o, s', p'⟩
    rw [hrun] at hafter herror
    cases o with
    | ok r => exact ih _ (h.2 (.ok r) (by rintro _ ⟨⟩)) s' p' hafter
    | error e =>
      have hok : ∀ e', (Except.error e : Except Error ρ) = .error e' → ok e' :=
        fun _ he => Except.error.inj he ▸ herror e rfl
      exact ih _ (h.2 (.error e) hok) s' p' hafter
    | abort reason => rfl

theorem Action.Agrees.visit {plan plan' : Plan σ ρ ρ} {children children' : List (Action σ ρ ρ)}
    (h : Action.Agrees inv (plan.run children) (plan'.run children')) (id : NodeId) :
    Action.Agrees inv (visit id plan children) (visit id plan' children') := by
  intro s p hs
  cases hid : p.result? id with
  | some r => rw [visit_of_recorded hid, visit_of_recorded hid]
  | none => rw [visit_of_missing hid, visit_of_missing hid, h s p.enter hs]

theorem Action.Keeps.nthChild {children : List (Action σ ρ ρ)} (habsent : ok .absentNode)
    (h : ∀ a ∈ children, a.Keeps inv ok) (i : Nat) :
    Action.Keeps inv ok (Kaleidoscope.nthChild children i) := by
  unfold Kaleidoscope.nthChild
  cases hi : children[i]? with
  | none => exact fun _ _ hs => ⟨hs, fun _ he => Outcome.error.inj he ▸ habsent⟩
  | some a => exact h a (List.mem_of_getElem? hi)

section
variable {b : Backend σ ρ} {look : String → Plan σ ρ ρ}

mutual

/-- **An expression is lowered alike if parameters are looked up alike** in all states of an
invariant that the backend keeps. -/
theorem Backend.KeepsTerms.agrees (hb : b.KeepsTerms inv ok)
    (hlook : ∀ name, Action.Agrees inv ((b.identifier name).run []) ((look name).run [])) :
    ∀ t : Term, Action.Agrees inv (t.action b) (t.action (b.withIdentifier look))
  | .absent | .foreign _ | .blank | .hollow _ | .number _ _ => fun _ _ _ => rfl
  | .identifier id name => by
    rw [Term.action, Term.action]
    exact (hlook name).visit id
  | .binary id op left right => by
    have hkeeps : ∀ a ∈ [left.action b, right.action b], a.Keeps inv ok := fun a ha => by
      rcases List.mem_pair.1 ha with rfl | rfl
      · exact hb.action left
      · exact hb.action right
    have hleft := hb.agrees hlook left
    have hright := hb.agrees hlook right
    rw [Term.action, Term.action]
    refine Action.Agrees.visit ((hb.binary op).agrees (.nthChild hb.absent hkeeps) fun i => ?_) id
    match i with
    | 0 => exact hleft
    | 1 => exact hright
    | _ + 2 => exact fun _ _ _ => rfl
  | .call id callee args => by
    have hargs := hb.agreesAll hlook args
    rw [Term.action, Term.action]
    exact Action.Agrees.visit ((hb.call callee args.length).agrees
      (.nthChild hb.absent (hb.actions args)) hargs) id

theorem Backend.KeepsTerms.agreesAll (hb : b.KeepsTerms inv ok)
    (hlook : ∀ name, Action.Agrees inv ((b.identifier name).run []) ((look name).run [])) :
    ∀ (ts : List Term) (i : Nat), Action.Agrees inv (nthChild (Term.actions b ts) i)
      (nthChild (Term.actions (b.withIdentifier look) ts) i)
  | [], _ => fun _ _ _ => rfl
  | t :: _, 0 => hb.agrees hlook t
  | _ :: ts, i + 1 => hb.agreesAll hlook ts i

end

end

end

/-! ## Outermost calls -/

/-- An outermost call: a node, the pass that it is lowered in, and the nodes at which lowering is
given up. -/
structure Attempt (ρ : Type) where
  node : Node
  pass : Pass ρ
  broken : Visit → Option String

namespace Attempt

/-- The call of a backend. -/
def run (b : Backend σ ρ) (a : Attempt ρ) (s : σ) : Except Error ρ × σ × Pass ρ :=
  a.node.lower (b.brokenAt a.broken) s a.pass

/-- What calls one after another make of a state. -/
def runAll (b : Backend σ ρ) (s : σ) (attempts : List (Attempt ρ)) : σ :=
  attempts.foldl (fun s a => (a.run b s).2.1) s

end Attempt

theorem Node.state_lower (b : Backend σ ρ) (n : Node) (s : σ) (p : Pass ρ) :
    (n.lower b s p).2.1 = (n.action b s p).2.1 := by
  unfold Node.lower
  rcases n.action b s p with ⟨o, s', p'⟩
  cases o <;> rfl

theorem state_settle (id : NodeId) (ended : Outcome ρ × σ × Pass ρ) :
    (settle id ended).2.1 = ended.2.1 := by
  obtain ⟨o, s, p⟩ := ended
  cases o <;> rfl

theorem Node.lower_congr {b b' : Backend σ ρ} {n : Node} {s : σ} {p : Pass ρ}
    (h : n.action b s p = n.action b' s p) : n.lower b s p = n.lower b' s p := by
  rw [Node.lower, h]
  rfl

/-! ## What is in scope -/

/-- How a plan runs around one child. It leaves a part of the state as it was, whatever comes of the
child. It lowers the child only once, in a state in which `inside` holds, or not at all. -/
structure Brackets (part : σ → φ) (before : φ) (inside : φ → Prop)
    (run : Action σ ρ ρ → Outcome ρ × σ × Pass ρ) : Prop where
  restores : ∀ a, part (run a).2.1 = before
  once : (∀ a a', run a = run a') ∨ ∃ s p, inside (part s) ∧ ∀ a, run a = run fun _ _ => a s p

/-- A part of the state tells which parameters are in scope: there they are looked up by `look`.
Expressions, prototypes and functions without content do not change it. Other functions bring their
own parameters into scope for the body, and set it back. -/
structure Backend.Scoped (b : Backend σ ρ) (part : σ → φ) (inScope : List String → φ → Prop)
    (look : List String → String → Plan σ ρ ρ) : Prop where
  terms : ∀ x, b.KeepsTerms (part · = x) fun _ => True
  prototype : ∀ content x, (b.prototype content).Keeps (part · = x) fun _ => True
  blankFunction : ∀ x, b.blankFunction.Keeps (part · = x) fun _ => True
  identifier : ∀ {params s}, inScope params (part s) → ∀ name p,
    (b.identifier name).run [] s p = (look params name).run [] s p
  function : ∀ content {lowerProto : Action σ ρ ρ}, (∀ s p, part (lowerProto s p).2.1 = part s) →
    ∀ s p, Brackets part (part s) (inScope ((content.map Prototype.params).getD []))
      fun lowerBody => (b.function content).run [lowerProto, lowerBody] s p

/-- The parameters that a node brings into scope. -/
def Node.params : Node → List String
  | .function f => (f.proto.content?.map Prototype.params).getD []
  | _ => []

namespace Backend.Scoped

variable {b : Backend σ ρ} {part : σ → φ} {inScope : List String → φ → Prop}
  {look : List String → String → Plan σ ρ ρ} (h : b.Scoped part inScope look)
include h

/-- A prototype leaves the scope as it was. -/
theorem part_proto (broken : Visit → Option String) (p : ProtoNode) (s : σ) (pass : Pass ρ) :
    part (p.action (b.brokenAt broken) s pass).2.1 = part s :=
  (((((h.prototype p.content? (part s)).unless _).run trivial (List.forall_mem_nil _)).visit p.id)
    s pass rfl).1

/-- A function lowers its body at most once, with its own parameters in scope. -/
theorem brackets (broken : Visit → Option String) (f : FunctionNode) (s : σ) (pass : Pass ρ) :
    Brackets part (part s) (inScope (Node.function f).params) fun lowerBody =>
      visit f.id ((b.brokenAt broken).function f.proto.content?)
        [f.proto.action (b.brokenAt broken), lowerBody] s pass := by
  cases hid : pass.result? f.id with
  | some r =>
    simp only [visit_of_recorded hid]
    exact ⟨fun _ => rfl, .inl fun _ _ => rfl⟩
  | none =>
    simp only [visit_of_missing hid]
    show Brackets part (part s) _ fun lowerBody =>
      settle f.id (((b.function f.proto.content?).unless _).run [_, lowerBody] s pass.enter)
    cases broken (.function f.proto.content?) with
    | some reason => exact ⟨fun _ => rfl, .inl fun _ _ => rfl⟩
    | none =>
      obtain ⟨hrestores, honce⟩ :=
        h.function f.proto.content? (h.part_proto broken f.proto) s pass.enter
      refine ⟨fun a => by rw [state_settle]; exact hrestores a, ?_⟩
      rcases honce with hapart | ⟨s', p', hinside, hbody⟩
      · exact .inl fun a a' => congrArg (settle f.id) (hapart a a')
      · exact .inr ⟨s', p', hinside, fun a => congrArg (settle f.id) (hbody a)⟩

/-- **An outermost call leaves the scope as it was**, however it ends. -/
theorem run_part (a : Attempt ρ) (s : σ) : part (a.run b s).2.1 = part s := by
  obtain ⟨n, pass, broken⟩ := a
  rw [Attempt.run, Node.state_lower]
  cases n with
  | term t => exact (((h.terms (part s)).brokenAt broken).action t s pass rfl).1
  | prototype p => exact h.part_proto broken p s pass
  | function f =>
    exact (h.brackets broken f s pass).restores (f.body.action (b.brokenAt broken))
  | blankFunction =>
    exact (((((h.blankFunction (part s)).unless _).run trivial (List.forall_mem_nil _)).visit _)
      s pass rfl).1

/-- A run of calls leaves the scope as it was. -/
theorem runAll_part (s : σ) (attempts : List (Attempt ρ)) :
    part (Attempt.runAll b s attempts) = part s := by
  induction attempts generalizing s with
  | nil => rfl
  | cons a attempts ih => exact (ih _).trans (h.run_part a s)

/-- An expression is lowered as if there were no parameters but those in scope. -/
theorem action_look (broken : Visit → Option String) (t : Term) {params : List String} {s : σ}
    (hs : inScope params (part s)) (pass : Pass ρ) :
    t.action (b.brokenAt broken) s pass =
      t.action ((b.withIdentifier (look params)).brokenAt broken) s pass := by
  have hlook : ∀ name, Action.Agrees (part · = part s)
      (((b.identifier name).unless (broken (.identifier name))).run [])
      (((look params name).unless (broken (.identifier name))).run []) := by
    intro name s' p hs'
    cases broken (.identifier name) with
    | none => exact h.identifier (by rwa [hs']) name p
    | some reason => rfl
  exact ((h.terms (part s)).brokenAt broken).agrees hlook t s pass rfl

/-- **Where nothing is in scope, a node is lowered as if there were no parameters but its own.** -/
theorem run_look (a : Attempt ρ) {s : σ} (hs : inScope [] (part s)) :
    a.run b s = a.run (b.withIdentifier (look a.node.params)) s := by
  obtain ⟨n, pass, broken⟩ := a
  refine Node.lower_congr ?_
  cases n with
  | term t => exact h.action_look broken t hs pass
  | prototype p => rfl
  | blankFunction => rfl
  | function f =>
    show visit f.id _ [_, f.body.action (b.brokenAt broken)] s pass =
      visit f.id _ [_, f.body.action ((b.withIdentifier _).brokenAt broken)] s pass
    rcases (h.brackets broken f s pass).once with hapart | ⟨s', p', hinside, hbody⟩
    · exact hapart _ _
    · refine (hbody _).trans (Eq.trans ?_ (hbody _).symm)
      rw [h.action_look broken f.body hinside p']

end Backend.Scoped

end Kaleidoscope
