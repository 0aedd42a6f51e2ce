/-
  What lowering keeps of the state, however it ends.

  - `Plan.Keeps`: every state that a plan leaves, an unwound one included, satisfies an invariant if
    the states that it meets do, and every error that it ends with is of a certain kind;
  - `Plan.Keeps.run`: such a plan keeps to that if the children do;
  - `Backend.KeepsTerms`, `Backend.KeepsTerms.action`: a backend whose plans for expressions keep an
    invariant keeps it on every expression: on one with holes, foreign nodes or nodes without
    content, however its nodes are shared, and also if lowering is given up;
  - `Backend.PersistsTerms`, `Backend.PersistsTerms.action`: only a node without content makes
    lowering give up, if no plan for the other nodes does;
  - `Backend.lowerEach`: nodes lowered one after another, each in a pass of its own.
-/
import Kaleidoscope.Proofs.Statics.Fault

namespace Kaleidoscope

variable {σ ρ α β : Type}

/-- However the action ends, the state satisfies the invariant if it did before; an error is of the
kind `ok`. -/
def Action.Keeps (inv : σ → Prop) (ok : Error → Prop) (a : Action σ ρ α) : Prop :=
  ∀ s p, inv s → inv (a s p).2.1 ∧ ∀ e, (a s p).1 = .error e → ok e

namespace Plan

/-- The plan changes states that satisfy the invariant only into such, and ends only with errors of
the kind `ok`, where children do so. -/
def Keeps (inv : σ → Prop) (ok : Error → Prop) : Plan σ ρ α → Prop
  | done _ | abort _ => True
  | fail e => ok e
  | read next => ∀ s, inv s → (next s).Keeps inv ok
  | write s next => inv s ∧ next.Keeps inv ok
  | child _ unwind next =>
    (∀ s, inv s → inv (unwind s)) ∧ ∀ r, (∀ e, r = .error e → ok e) → (next r).Keeps inv ok

variable {inv : σ → Prop} {ok : Error → Prop}

theorem Keeps.bind {plan : Plan σ ρ α} (h : plan.Keeps inv ok) {f : α → Plan σ ρ β}
    (hf : ∀ value, (f value).Keeps inv ok) : (plan >>= f).Keeps inv ok := by
  show (plan.bind f).Keeps inv ok
  induction plan with
  | done value => exact hf value
  | fail e => exact h
  | abort reason => trivial
  | read next ih => exact fun s hs => ih s (h s hs)
  | write s next ih => exact ⟨h.1, ih h.2⟩
  | child i unwind next ih => exact ⟨h.1, fun r hr => ih r (h.2 r hr)⟩

/-- A plan that looks at the state may rely on the invariant. -/
theorem Keeps.get_bind {f : σ → Plan σ ρ α} (h : ∀ s, inv s → (f s).Keeps inv ok) :
    (get >>= f : Plan σ ρ α).Keeps inv ok := h

theorem Keeps.lower (i : Nat) : (lower i : Plan σ ρ ρ).Keeps inv ok := by
  refine ⟨fun _ hs => hs, fun r hr => ?_⟩
  cases r with
  | ok value => trivial
  | error e => exact hr e rfl

theorem Keeps.lowerFrom (i count : Nat) : (lowerFrom i count : Plan σ ρ (List ρ)).Keeps inv ok := by
  induction count generalizing i with
  | zero => trivial
  | succ count ih => exact (Keeps.lower i).bind fun _ => (ih (i + 1)).bind fun _ => trivial

/-- **A plan keeps the invariant if the children do.** -/
theorem Keeps.run {plan : Plan σ ρ α} (h : plan.Keeps inv ok) (habsent : ok .absentNode)
    {children : List (Action σ ρ ρ)} (hchildren : ∀ a ∈ children, a.Keeps inv ok) :
    Action.Keeps inv ok (plan.run children) := by
  intro s p hs
  induction plan generalizing s p with
  | done value => exact ⟨hs, by rintro _ ⟨⟩⟩
  | fail e => exact ⟨hs, fun _ he => Outcome.error.inj he ▸ h⟩
  | abort reason => exact ⟨hs, by rintro _ ⟨⟩⟩
  | read next ih => exact ih s (h s hs) s p hs
  | write s' next ih => exact ih h.2 s' p h.1
  | child i unwind next ih =>
    have hchild : Action.Keeps inv ok (children[i]?.getD (Action.fail .absentNode)) := by
      cases hi : children[i]? with
      | none => exact fun _ _ hs => ⟨hs, fun _ he => Outcome.error.inj he ▸ habsent⟩
      | some a => exact hchildren a (List.mem_of_getElem? hi)
    obtain ⟨hafter, herror⟩ := hchild s p hs
    simp only [Plan.run]
    rcases hrun : (children[i]?.getD (Action.fail .absentNode)) s p with ⟨o, s', p'⟩
    rw [hrun] at hafter herror
    cases o with
    | ok r => exact ih _ (h.2 (.ok r) (by rintro _ ⟨⟩)) s' p' hafter
    | error e =>
      have hok : ∀ e', (Except.error e : Except Error ρ) = .error e' → ok e' :=
        fun _ he => Except.error.inj he ▸ herror e rfl
      exact ih _ (h.2 (.error e) hok) s' p' hafter
    | abort reason => exact ⟨h.1 s' hafter, by rintro _ ⟨⟩⟩

end Plan

/-- A node keeps the invariant if its plan does. -/
theorem Action.Keeps.visit {inv : σ → Prop} {ok : Error → Prop} {plan : Plan σ ρ ρ}
    {children : List (Action σ ρ ρ)} (h : Action.Keeps inv ok (plan.run children)) (id : NodeId) :
    Action.Keeps inv ok (visit id plan children) := by
  intro s p hs
  cases hid : p.result? id with
  | some r =>
    rw [visit_of_recorded hid]
    exact ⟨hs, by rintro _ ⟨⟩⟩
  | none =>
    have hafter := h s p.enter hs
    rw [visit_of_missing hid]
    rcases hrun : plan.run children s p.enter with ⟨o, s', p'⟩
    rw [hrun] at hafter
    cases o <;> exact hafter

/-- The plans for expressions keep the invariant, and end only with errors of the kind `ok`; so do
nodes without a plan. -/
structure Backend.KeepsTerms (b : Backend σ ρ) (inv : σ → Prop) (ok : Error → Prop) : Prop where
  absent : ok .absentNode
  foreign : ∀ kind, ok (.foreignNode kind)
  number : ∀ value, (b.number value).Keeps inv ok
  identifier : ∀ name, (b.identifier name).Keeps inv ok
  binary : ∀ op, (b.binary op).Keeps inv ok
  call : ∀ callee count, (b.call callee count).Keeps inv ok
  hollow : ∀ kind, (b.hollow kind).Keeps inv ok

section
variable {b : Backend σ ρ} {inv : σ → Prop} {ok : Error → Prop}

mutual

/-- **Lowering an expression keeps what its backend's plans keep**, whatever the expression is. -/
theorem Backend.KeepsTerms.action (hb : b.KeepsTerms inv ok) : ∀ t : Term,
    Action.Keeps inv ok (t.action b)
  | .absent => fun _ _ hs => ⟨hs, fun _ he => Outcome.error.inj he ▸ hb.absent⟩
  | .foreign kind => fun _ _ hs => ⟨hs, fun _ he => Outcome.error.inj he ▸ hb.foreign kind⟩
  | .blank => by
    rw [Term.action]
    exact ((hb.number none).run hb.absent (List.forall_mem_nil _)).visit _
  | .hollow kind => by
    rw [Term.action]
    exact ((hb.hollow kind).run hb.absent (List.forall_mem_nil _)).visit _
  | .number id value => by
    rw [Term.action]
    exact ((hb.number (some value)).run hb.absent (List.forall_mem_nil _)).visit id
  | .identifier id name => by
    rw [Term.action]
    exact ((hb.identifier name).run hb.absent (List.forall_mem_nil _)).visit id
  | .binary id op left right => by
    have hleft := hb.action left
    have hright := hb.action right
    rw [Term.action]
    refine ((hb.binary op).run hb.absent fun a ha => ?_).visit id
    rcases List.mem_pair.1 ha with rfl | rfl
    · exact hleft
    · exact hright
  | .call id callee args => by
    rw [Term.action]
    exact ((hb.call callee args.length).run hb.absent (hb.actions args)).visit id

theorem Backend.KeepsTerms.actions (hb : b.KeepsTerms inv ok) : ∀ ts : List Term,
    ∀ a ∈ Term.actions b ts, Action.Keeps inv ok a
  | [], _, ha => nomatch ha
  | t :: ts, a, ha => by
    rw [Term.actions] at ha
    rcases List.mem_cons.1 ha with rfl | ha
    · exact hb.action t
    · exact hb.actions ts a ha

end

/-- An expression is lowered to a state that satisfies the invariant. -/
theorem Backend.KeepsTerms.exists_action (hb : b.KeepsTerms inv ok) (t : Term) {s : σ} (hs : inv s)
    (p : Pass ρ) :
    ∃ o s' p', t.action b s p = (o, s', p') ∧ inv s' ∧ ∀ e, o = .error e → ok e :=
  ⟨_, _, _, rfl, hb.action t s p hs⟩

/-- Of a backend whose plans for expressions leave a state alone, no expression changes it. -/
theorem Backend.KeepsTerms.lowerFresh_term {s : σ} (hb : b.KeepsTerms (· = s) ok) (t : Term) :
    ((Node.term t).lowerFresh b s).2 = s := by
  obtain ⟨o, s', p, hrun, hs', -⟩ := hb.exists_action t rfl Pass.empty
  simp only [Node.lowerFresh, Node.lower, Node.action, hrun]
  cases o <;> exact hs'

end

/-! ## What is never given up -/

/-- The action is never given up. -/
def Action.Persists (a : Action σ ρ α) : Prop := ∀ s p reason, (a s p).1 ≠ .abort reason

namespace Plan

/-- The plan is given up only where lowering a child is. -/
def Persists : Plan σ ρ α → Prop
  | done _ | fail _ => True
  | abort _ => False
  | read next => ∀ s, (next s).Persists
  | write _ next => next.Persists
  | child _ _ next => ∀ r, (next r).Persists

theorem Persists.bind {plan : Plan σ ρ α} (h : plan.Persists) {f : α → Plan σ ρ β}
    (hf : ∀ value, (f value).Persists) : (plan >>= f).Persists := by
  show (plan.bind f).Persists
  induction plan with
  | done value => exact hf value
  | fail e => trivial
  | abort reason => exact h
  | read next ih => exact fun s => ih s (h s)
  | write s next ih => exact ih h
  | child i unwind next ih => exact fun r => ih r (h r)

theorem Persists.get_bind {f : σ → Plan σ ρ α} (h : ∀ s, (f s).Persists) :
    (get >>= f : Plan σ ρ α).Persists := h

theorem Persists.lower (i : Nat) : (lower i : Plan σ ρ ρ).Persists := by
  intro r
  cases r <;> trivial

theorem Persists.lowerFrom (i count : Nat) : (lowerFrom i count : Plan σ ρ (List ρ)).Persists := by
  induction count generalizing i with
  | zero => trivial
  | succ count ih => exact (Persists.lower i).bind fun _ => (ih (i + 1)).bind fun _ => trivial

/-- Such a plan is not given up if no child is. -/
theorem Persists.run {plan : Plan σ ρ α} (h : plan.Persists) {children : List (Action σ ρ ρ)}
    (hchildren : ∀ a ∈ children, a.Persists) : Action.Persists (plan.run children) := by
  intro s p
  induction plan generalizing s p with
  | done value => rintro _ ⟨⟩
  | fail e => rintro _ ⟨⟩
  | abort reason => exact h.elim
  | read next ih => exact ih s (h s) s p
  | write s' next ih => exact ih h s' p
  | child i unwind next ih =>
    have hchild : Action.Persists (children[i]?.getD (Action.fail .absentNode)) := by
      cases hi : children[i]? with
      | none => rintro s p _ ⟨⟩
      | some a => exact hchildren a (List.mem_of_getElem? hi)
    have hended := hchild s p
    simp only [Plan.run]
    rcases hrun : (children[i]?.getD (Action.fail .absentNode)) s p with ⟨o, s', p'⟩
    rw [hrun] at hended
    cases o with
    | ok r => exact ih _ (h (.ok r)) s' p'
    | error e => exact ih _ (h (.error e)) s' p'
    | abort reason => exact absurd rfl (hended reason)

end Plan

theorem Action.Persists.visit {plan : Plan σ ρ ρ} {children : List (Action σ ρ ρ)}
    (h : Action.Persists (plan.run children)) (id : NodeId) :
    Action.Persists (visit id plan children) := by
  intro s p
  cases hid : p.result? id with
  | some r =>
    rw [visit_of_recorded hid]
    rintro _ ⟨⟩
  | none =>
    have hended := h s p.enter
    rw [visit_of_missing hid]
    rcases hrun : plan.run children s p.enter with ⟨o, s', p'⟩
    rw [hrun] at hended
    cases o <;> exact hended

/-- No plan for an expression with its content is given up. -/
structure Backend.PersistsTerms (b : Backend σ ρ) : Prop where
  number : ∀ value, (b.number (some value)).Persists
  identifier : ∀ name, (b.identifier name).Persists
  binary : ∀ op, (b.binary op).Persists
  call : ∀ callee count, (b.call callee count).Persists

section
variable {b : Backend σ ρ}

mutual

/-- **Only a node without content makes lowering give up.** -/
theorem Backend.PersistsTerms.action (hb : b.PersistsTerms) : ∀ t : Term,
    (∀ u ∈ t.subterms, ¬u.LacksContent) → (t.action b).Persists
  | .absent, _ | .foreign _, _ => by rintro s p _ ⟨⟩
  | .blank, hfull => absurd trivial (hfull _ (Term.self_mem_subterms _))
  | .hollow kind, hfull => absurd trivial (hfull _ (Term.self_mem_subterms _))
  | .number id value, _ => by
    rw [Term.action]
    exact ((hb.number value).run (List.forall_mem_nil _)).visit id
  | .identifier id name, _ => by
    rw [Term.action]
    exact ((hb.identifier name).run (List.forall_mem_nil _)).visit id
  | .binary id op left right, hfull => by
    have hleft := hb.action left fun u hu =>
      hfull u (List.mem_cons_of_mem _ (List.mem_append_left _ hu))
    have hright := hb.action right fun u hu =>
      hfull u (List.mem_cons_of_mem _ (List.mem_append_right _ hu))
    rw [Term.action]
    refine ((hb.binary op).run fun a ha => ?_).visit id
    rcases List.mem_pair.1 ha with rfl | rfl
    · exact hleft
    · exact hright
  | .call id callee args, hfull => by
    have hargs := hb.actions args fun u hu => hfull u (List.mem_cons_of_mem _ hu)
    rw [Term.action]
    exact ((hb.call callee args.length).run hargs).visit id

theorem Backend.PersistsTerms.actions (hb : b.PersistsTerms) : ∀ ts : List Term,
    (∀ u ∈ Term.allSubterms ts, ¬u.LacksContent) → ∀ a ∈ Term.actions b ts, Action.Persists a
  | [], _, _, ha => nomatch ha
  | t :: ts, hfull, a, ha => by
    rw [Term.actions] at ha
    rcases List.mem_cons.1 ha with rfl | ha
    · exact hb.action t fun u hu => hfull u (List.mem_append_left _ hu)
    · exact hb.actions ts (fun u hu => hfull u (List.mem_append_right _ hu)) a ha

end

end

/-! ## One node after another -/

/-- What lowering nodes one after another, each in a pass of its own, makes of a state. -/
def Backend.lowerEach (b : Backend σ ρ) (s : σ) (ns : List Node) : σ :=
  ns.foldl (fun s n => (n.lowerFresh b s).2) s

/-- What every node keeps, a run keeps. -/
theorem Backend.lowerEach_keeps {b : Backend σ ρ} (inv : σ → Prop)
    (hstep : ∀ (n : Node) s, inv s → inv (n.lowerFresh b s).2) {s : σ} (hs : inv s) (ns : List Node) :
    inv (b.lowerEach s ns) := by
  induction ns generalizing s with
  | nil => exact hs
  | cons n ns ih => exact ih (hstep n s hs)

end Kaleidoscope
