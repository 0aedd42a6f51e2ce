/-
  Lowering with the runs of handlers on record.

  In a pass every call is made in the same way, and tells by the depth whether it is an outermost one;
  only then does it turn a lowering that was given up into an error.

  - `Node.children`, `Node.ids`, `Node.Acyclic`: the nodes below a node. In a graph without cycles no
    node is below itself;
  - `Visitor`: the plan for each node, which may depend on all of the node;
  - `Lowering.Event`: the handler of a node is started, or ends;
  - `Plan.trace`, `Lowering.once`, `Node.lowering`: lowering with its events;
  - `Node.depth_lowering`: a call leaves the depth as it was, however it ends;
  - `lowering_of_inner`, `lowering_of_outermost`: for a backend, lowering with its events is
    `Node.action` inside another call, and `Node.lower` outside.
-/
import Kaleidoscope.Proofs.Lowering.Run
import Mathlib.Data.List.Basic

namespace Kaleidoscope

variable {σ ρ α : Type}

/-! ## Nodes below a node -/

/-- The children of a node, in the order of their positions. -/
def Node.children : Node → List Node
  | .term (.binary _ _ left right) => [.term left, .term right]
  | .term (.call _ _ args) => args.map .term
  | .function f => [.prototype f.proto, .term f.body]
  | _ => []

mutual

/-- The identities in an expression. -/
def Term.ids : Term → List NodeId
  | .absent | .foreign _ => []
  | .blank => [NodeId.blankNumber]
  | .hollow kind => [NodeId.hollow kind]
  | .number id _ | .identifier id _ => [id]
  | .binary id _ left right => id :: (left.ids ++ right.ids)
  | .call id _ args => id :: Term.allIds args

/-- The identities in some expressions. -/
def Term.allIds : List Term → List NodeId
  | [] => []
  | t :: ts => t.ids ++ Term.allIds ts

end

mutual

/-- No node of the expression is below itself. -/
def Term.Acyclic : Term → Prop
  | .binary id _ left right => id ∉ left.ids ++ right.ids ∧ left.Acyclic ∧ right.Acyclic
  | .call id _ args => id ∉ Term.allIds args ∧ Term.AllAcyclic args
  | _ => True

/-- No node of the expressions is below itself. -/
def Term.AllAcyclic : List Term → Prop
  | [] => True
  | t :: ts => t.Acyclic ∧ Term.AllAcyclic ts

end

/-- The identities in a node. -/
def Node.ids : Node → List NodeId
  | .term t => t.ids
  | .prototype p => [p.id]
  | .function f => f.id :: f.proto.id :: f.body.ids
  | .blankFunction => [NodeId.blankFunction]

/-- No node is below itself. -/
def Node.Acyclic : Node → Prop
  | .term t => t.Acyclic
  | .prototype _ | .blankFunction => True
  | .function f => f.id ∉ f.proto.id :: f.body.ids ∧ f.body.Acyclic

theorem Term.mem_allIds {id : NodeId} {ts : List Term} :
    id ∈ Term.allIds ts ↔ ∃ t ∈ ts, id ∈ t.ids := by
  induction ts with
  | nil => simp [Term.allIds]
  | cons t ts ih => simp [Term.allIds, ih]

theorem Term.allAcyclic_iff {ts : List Term} : Term.AllAcyclic ts ↔ ∀ t ∈ ts, t.Acyclic := by
  induction ts with
  | nil => simp [Term.AllAcyclic]
  | cons t ts ih => simp [Term.AllAcyclic, ih]

namespace Node

/-- The identities in a node are its own and those of its children. -/
theorem mem_ids {n : Node} {id : NodeId} :
    id ∈ n.ids ↔ n.id? = some id ∨ ∃ m ∈ n.children, id ∈ m.ids := by
  cases n with
  | term t =>
    cases t <;> simp [ids, Term.ids, id?, Term.id?, children, Term.mem_allIds, @eq_comm _ id]
  | prototype p => simp [ids, id?, children, @eq_comm _ id]
  | function f => simp [ids, id?, children, @eq_comm _ id]
  | blankFunction => simp [ids, id?, children, @eq_comm _ id]

/-- A node of a graph without cycles is not below itself, and neither are its children. -/
theorem Acyclic.child {n m : Node} (h : n.Acyclic) (hm : m ∈ n.children) :
    m.Acyclic ∧ ∀ id, n.id? = some id → id ∉ m.ids := by
  cases n with
  | term t =>
    cases t with
    | binary id op left right =>
      obtain ⟨hid, hleft, hright⟩ := h
      rw [List.mem_append, not_or] at hid
      rcases List.mem_pair.1 hm with rfl | rfl
      · exact ⟨hleft, fun _ heq => Option.some.inj heq ▸ hid.1⟩
      · exact ⟨hright, fun _ heq => Option.some.inj heq ▸ hid.2⟩
    | call id callee args =>
      obtain ⟨t, ht, rfl⟩ := List.mem_map.1 hm
      refine ⟨Term.allAcyclic_iff.1 h.2 t ht, fun _ heq hmem => h.1 ?_⟩
      exact Term.mem_allIds.2 ⟨t, ht, Option.some.inj heq ▸ hmem⟩
    | absent | foreign | blank | hollow | number | identifier => cases hm
  | prototype p => cases hm
  | blankFunction => cases hm
  | function f =>
    obtain ⟨hid, hbody⟩ := h
    rw [List.mem_cons, not_or] at hid
    rcases List.mem_pair.1 hm with rfl | rfl
    · refine ⟨trivial, fun _ heq hmem => hid.1 ?_⟩
      rw [show f.id = _ from Option.some.inj heq]
      exact List.mem_singleton.1 hmem
    · exact ⟨hbody, fun _ heq => Option.some.inj heq ▸ hid.2⟩

end Node

mutual

theorem Term.induct {P : Node → Prop} (h : ∀ n : Node, (∀ m ∈ n.children, P m) → P n) :
    ∀ t : Term, P (.term t)
  | .absent | .foreign _ | .blank | .hollow _ | .number _ _ | .identifier _ _ =>
    h _ fun _ hm => nomatch hm
  | .binary _ _ left right => by
    refine h _ fun m hm => ?_
    rcases List.mem_pair.1 hm with rfl | rfl
    · exact Term.induct h left
    · exact Term.induct h right
  | .call _ _ args => by
    refine h _ fun m hm => ?_
    obtain ⟨t, ht, rfl⟩ := List.mem_map.1 hm
    exact Term.inductAll h args t ht

theorem Term.inductAll {P : Node → Prop} (h : ∀ n : Node, (∀ m ∈ n.children, P m) → P n) :
    ∀ ts : List Term, ∀ t ∈ ts, P (.term t)
  | u :: ts, t, ht => by
    rcases List.mem_cons.1 ht with heq | ht
    · exact heq ▸ Term.induct h u
    · exact Term.inductAll h ts t ht

end

/-- What holds of a node if it holds of its children holds of every node. -/
theorem Node.induct {P : Node → Prop} (h : ∀ n : Node, (∀ m ∈ n.children, P m) → P n) : ∀ n, P n
  | .term t => Term.induct h t
  | .prototype _ | .blankFunction => h _ fun _ hm => nomatch hm
  | .function f => by
    refine h _ fun m hm => ?_
    rcases List.mem_pair.1 hm with rfl | rfl
    · exact h _ fun _ hm => nomatch hm
    · exact Term.induct h f.body

/-! ## Lowering with its events -/

/-- The plan for each node. -/
def Visitor (σ ρ : Type) := Node → Plan σ ρ ρ

namespace Lowering

/-- What handlers do. -/
inductive Event (ρ : Type) where
  /-- The handler of that node is started. -/
  | start (id : NodeId)
  /-- The handler of that node ends. -/
  | finish (id : NodeId) (o : Outcome ρ)

/-- How lowering ends, what it leaves behind, and what handlers did meanwhile. -/
structure Ended (σ ρ α : Type) where
  outcome : Outcome α
  state : σ
  pass : Pass ρ
  events : List (Event ρ)

namespace Ended

/-- With the events before it. -/
def after (events : List (Event ρ)) (e : Ended σ ρ α) : Ended σ ρ α :=
  { e with events := events ++ e.events }

/-- The end of the handler of a node, if it was started before: a result is recorded, and the node
is no longer being lowered. -/
def close (id : NodeId) (e : Ended σ ρ ρ) : Ended σ ρ ρ where
  outcome := e.outcome
  state := e.state
  pass :=
    match e.outcome with
    | .ok r => (e.pass.record id r).leave
    | _ => e.pass.leave
  events := .start id :: e.events ++ [.finish id e.outcome]

/-- A lowering that was given up becomes an error, and nothing is being lowered any more. -/
def recover (e : Ended σ ρ α) : Ended σ ρ α :=
  match e.outcome with
  | .abort reason =>
    { e with outcome := .error (.aborted reason), pass := { e.pass with depth := 0 } }
  | _ => e

/-- Without the events. -/
def untraced (e : Ended σ ρ α) : Outcome α × σ × Pass ρ := (e.outcome, e.state, e.pass)

end Ended

end Lowering

/-- Lowering something, on the state of the backend and on the pass. -/
def Lowering (σ ρ α : Type) := σ → Pass ρ → Lowering.Ended σ ρ α

namespace Lowering

/-- Fails. -/
def fail (e : Error) : Lowering σ ρ α := fun s p => ⟨.error e, s, p, []⟩

end Lowering

/-- Carries out a plan. -/
def Plan.trace (children : List (Lowering σ ρ ρ)) : Plan σ ρ α → Lowering σ ρ α
  | done value, s, p => ⟨.ok value, s, p, []⟩
  | fail e, s, p => ⟨.error e, s, p, []⟩
  | abort reason, s, p => ⟨.abort reason, s, p, []⟩
  | read next, s, p => (next s).trace children s p
  | write s next, _, p => next.trace children s p
  | child i unwind next, s, p =>
    match (children[i]?.getD (Lowering.fail .absentNode)) s p with
    | ⟨.ok r, s, p, events⟩ => ((next (.ok r)).trace children s p).after events
    | ⟨.error e, s, p, events⟩ => ((next (.error e)).trace children s p).after events
    | ⟨.abort reason, s, p, events⟩ => ⟨.abort reason, unwind s, p, events⟩

/-- Lowers a node by a plan, unless its result is recorded. A call outside of all others recovers
from a lowering that was given up. -/
def Lowering.once (id : NodeId) (plan : Plan σ ρ ρ) (children : List (Lowering σ ρ ρ)) :
    Lowering σ ρ ρ :=
  fun s p =>
    match p.result? id with
    | some r => ⟨.ok r, s, p, []⟩
    | none =>
      let ran := (plan.trace children s p.enter).close id
      if p.depth = 0 then ran.recover else ran

mutual

/-- Lowers an expression. -/
def Term.lowering (v : Visitor σ ρ) : Term → Lowering σ ρ ρ
  | .absent => .fail .absentNode
  | .foreign kind => .fail (.foreignNode kind)
  | .blank => .once NodeId.blankNumber (v (.term .blank)) []
  | .hollow kind => .once (NodeId.hollow kind) (v (.term (.hollow kind))) []
  | .number id value => .once id (v (.term (.number id value))) []
  | .identifier id name => .once id (v (.term (.identifier id name))) []
  | .binary id op left right =>
    .once id (v (.term (.binary id op left right))) [left.lowering v, right.lowering v]
  | .call id callee args => .once id (v (.term (.call id callee args))) (Term.lowerings v args)

/-- Lowers each of some expressions. -/
def Term.lowerings (v : Visitor σ ρ) : List Term → List (Lowering σ ρ ρ)
  | [] => []
  | t :: ts => t.lowering v :: Term.lowerings v ts

end

/-- Lowers a node. -/
def Node.lowering (v : Visitor σ ρ) : Node → Lowering σ ρ ρ
  | .term t => t.lowering v
  | .prototype p => .once p.id (v (.prototype p)) []
  | .function f =>
    .once f.id (v (.function f)) [.once f.proto.id (v (.prototype f.proto)) [], f.body.lowering v]
  | .blankFunction => .once NodeId.blankFunction (v .blankFunction) []

/-- The plans of a backend, which depend only on a part of the node. Of a node without an identity
no plan is asked for. -/
def Backend.visitor (b : Backend σ ρ) : Visitor σ ρ
  | .term .absent | .term (.foreign _) => .fail .absentNode
  | .term .blank => b.number none
  | .term (.hollow kind) => b.hollow kind
  | .term (.number _ value) => b.number (some value)
  | .term (.identifier _ name) => b.identifier name
  | .term (.binary _ op _ _) => b.binary op
  | .term (.call _ callee args) => b.call callee args.length
  | .prototype p => b.prototype p.content?
  | .function f => b.function f.proto.content?
  | .blankFunction => b.blankFunction

theorem Term.lowerings_eq_map (v : Visitor σ ρ) (ts : List Term) :
    Term.lowerings v ts = (ts.map Node.term).map (·.lowering v) := by
  induction ts with
  | nil => rfl
  | cons t ts ih => rw [Term.lowerings, ih]; rfl

theorem Term.actions_eq_map (b : Backend σ ρ) (ts : List Term) :
    Term.actions b ts = (ts.map Node.term).map (·.action b) := by
  induction ts with
  | nil => rfl
  | cons t ts ih => rw [Term.actions, ih]; rfl

/-- Why a node without an identity cannot be lowered. -/
def Node.hole : Node → Error
  | .term (.foreign kind) => .foreignNode kind
  | _ => .absentNode

theorem Node.lowering_of_hole {n : Node} (h : n.id? = none) (v : Visitor σ ρ) :
    n.lowering v = .fail n.hole := by
  cases n with
  | term t =>
    cases t with
    | absent | foreign => rfl
    | blank | hollow | number | identifier | binary | call => cases h
  | prototype p => cases h
  | function f => cases h
  | blankFunction => cases h

theorem Node.action_of_hole {n : Node} (h : n.id? = none) (b : Backend σ ρ) :
    n.action b = .fail n.hole := by
  cases n with
  | term t =>
    cases t with
    | absent | foreign => rfl
    | blank | hollow | number | identifier | binary | call => cases h
  | prototype p => cases h
  | function f => cases h
  | blankFunction => cases h

/-- A node with an identity is lowered by its plan. -/
theorem Node.lowering_of_id {n : Node} {id : NodeId} (h : n.id? = some id) (v : Visitor σ ρ) :
    n.lowering v = .once id (v n) (n.children.map (·.lowering v)) := by
  cases n with
  | term t =>
    cases t with
    | absent | foreign => cases h
    | blank | hollow | number | identifier | binary => injection h with h; subst h; rfl
    | call id' callee args =>
      injection h with h
      subst h
      show Lowering.once id' _ (Term.lowerings v args) = _
      rw [Term.lowerings_eq_map]
      rfl
  | prototype p => injection h with h; subst h; rfl
  | function f => injection h with h; subst h; rfl
  | blankFunction => injection h with h; subst h; rfl

theorem Node.action_of_id {n : Node} {id : NodeId} (h : n.id? = some id) (b : Backend σ ρ) :
    n.action b = visit id (b.visitor n) (n.children.map (·.action b)) := by
  cases n with
  | term t =>
    cases t with
    | absent | foreign => cases h
    | blank | hollow | number | identifier | binary => injection h with h; subst h; rfl
    | call id' callee args =>
      injection h with h
      subst h
      show visit id' _ (Term.actions b args) = _
      rw [Term.actions_eq_map]
      rfl
  | prototype p => injection h with h; subst h; rfl
  | function f => injection h with h; subst h; rfl
  | blankFunction => injection h with h; subst h; rfl

/-! ## The depth -/

namespace Lowering

section
variable {id : NodeId} {plan : Plan σ ρ ρ} {children : List (Lowering σ ρ ρ)} {s : σ} {p : Pass ρ}

theorem once_of_recorded {r : ρ} (h : p.result? id = some r) :
    once id plan children s p = ⟨.ok r, s, p, []⟩ := by
  simp only [once, h]

theorem once_of_inner (h : p.result? id = none) (hp : p.depth ≠ 0) :
    once id plan children s p = (plan.trace children s p.enter).close id := by
  simp only [once, h, hp, if_false]

theorem once_of_outermost (h : p.result? id = none) (hp : p.depth = 0) :
    once id plan children s p = ((plan.trace children s p.enter).close id).recover := by
  simp only [once, h, hp, if_true]

end

/-- A child at any position, a missing one included. -/
theorem forall_child {Q : Lowering σ ρ ρ → Prop} {children : List (Lowering σ ρ ρ)}
    (hfail : Q (.fail .absentNode)) (h : ∀ a ∈ children, Q a) (i : Nat) :
    Q (children[i]?.getD (.fail .absentNode)) := by
  cases hi : children[i]? with
  | none => exact hfail
  | some a => exact h a (List.mem_of_getElem? hi)

theorem Ended.depth_close (id : NodeId) (e : Ended σ ρ ρ) :
    (e.close id).pass.depth = e.pass.depth - 1 := by
  unfold close
  cases e.outcome <;> rfl

/-- Leaves the depth as it was. -/
def KeepsDepth (a : Lowering σ ρ α) : Prop := ∀ s p, (a s p).pass.depth = p.depth

theorem KeepsDepth.trace {children : List (Lowering σ ρ ρ)} (h : ∀ a ∈ children, a.KeepsDepth)
    (plan : Plan σ ρ α) : KeepsDepth (plan.trace children) := by
  intro s p
  induction plan generalizing s p with
  | done value => rfl
  | fail e => rfl
  | abort reason => rfl
  | read next ih => exact ih s s p
  | write s' next ih => exact ih s' p
  | child i unwind next ih =>
    have hchild := forall_child (Q := KeepsDepth) (fun _ _ => rfl) h i s p
    simp only [Plan.trace]
    rcases hrun : (children[i]?.getD (Lowering.fail .absentNode)) s p with ⟨o, s', p', events⟩
    rw [hrun] at hchild
    cases o with
    | ok r => exact (ih _ s' p').trans hchild
    | error e => exact (ih _ s' p').trans hchild
    | abort reason => exact hchild

theorem KeepsDepth.once {children : List (Lowering σ ρ ρ)} (h : ∀ a ∈ children, a.KeepsDepth)
    (id : NodeId) (plan : Plan σ ρ ρ) : KeepsDepth (once id plan children) := by
  intro s p
  cases hid : p.result? id with
  | some r => rw [once_of_recorded hid]
  | none =>
    have hran : ((plan.trace children s p.enter).close id).pass.depth = p.depth := by
      rw [Ended.depth_close, KeepsDepth.trace h plan s p.enter]
      exact Nat.add_sub_cancel _ 1
    by_cases hp : p.depth = 0
    · rw [once_of_outermost hid hp]
      unfold Ended.recover
      split
      · exact hp.symm
      · exact hran
    · rw [once_of_inner hid hp]
      exact hran

end Lowering

/-- **A call leaves the depth as it was**, however it ends. -/
theorem Node.depth_lowering (v : Visitor σ ρ) (n : Node) : (n.lowering v).KeepsDepth := by
  induction n using Node.induct with
  | h n ih =>
    cases hid : n.id? with
    | none =>
      rw [Node.lowering_of_hole hid]
      exact fun _ _ => rfl
    | some id =>
      rw [Node.lowering_of_id hid]
      exact .once (List.forall_mem_map.2 ih) id (v n)

/-! ## Backends -/

/-- How an outermost call ends: a lowering that was given up is an error like others. -/
def Outcome.surface : Outcome α → Except Error α
  | .ok value => .ok value
  | .error e => .error e
  | .abort reason => .error (.aborted reason)

theorem Lowering.Ended.untraced_close (id : NodeId) (e : Ended σ ρ ρ) :
    (e.close id).untraced = settle id e.untraced := by
  obtain ⟨o, s, p, events⟩ := e
  cases o <;> rfl

section
variable (b : Backend σ ρ)

/-- A plan does the same with and without its events, if the children do. -/
theorem Plan.untraced_trace {ms : List Node}
    (h : ∀ m ∈ ms, ∀ s p, p.depth ≠ 0 → (m.lowering b.visitor s p).untraced = m.action b s p)
    (plan : Plan σ ρ α) (s : σ) (p : Pass ρ) (hp : p.depth ≠ 0) :
    (plan.trace (ms.map (·.lowering b.visitor)) s p).untraced =
      plan.run (ms.map (·.action b)) s p := by
  induction plan generalizing s p with
  | done value => rfl
  | fail e => rfl
  | abort reason => rfl
  | read next ih => exact ih s s p hp
  | write s' next ih => exact ih s' p hp
  | child i unwind next ih =>
    simp only [trace, run, List.getElem?_map]
    cases hm : ms[i]? with
    | none => exact ih (.error .absentNode) s p hp
    | some m =>
      have hsame := h m (List.mem_of_getElem? hm) s p hp
      have hdepth := m.depth_lowering b.visitor s p
      simp only [Option.map_some, Option.getD_some]
      rw [← hsame]
      rcases hrun : m.lowering b.visitor s p with ⟨o, s', p', events⟩
      rw [hrun] at hdepth
      have hp' : p'.depth ≠ 0 := fun hzero => hp (hdepth.symm.trans hzero)
      cases o with
      | ok r => exact ih _ s' p' hp'
      | error e => exact ih _ s' p' hp'
      | abort reason => rfl

/-- **Inside another call**, a backend lowers a node as `Node.action` has it. -/
theorem Node.lowering_of_inner (n : Node) (s : σ) (p : Pass ρ) (hp : p.depth ≠ 0) :
    (n.lowering b.visitor s p).untraced = n.action b s p := by
  induction n using Node.induct generalizing s p with
  | h n ih =>
    cases hid : n.id? with
    | none =>
      rw [Node.lowering_of_hole hid, Node.action_of_hole hid]
      rfl
    | some id =>
      rw [Node.lowering_of_id hid, Node.action_of_id hid]
      cases hrecorded : p.result? id with
      | some r => rw [Lowering.once_of_recorded hrecorded, visit_of_recorded hrecorded]; rfl
      | none =>
        rw [Lowering.once_of_inner hrecorded hp, visit_of_missing hrecorded,
          Lowering.Ended.untraced_close,
          Plan.untraced_trace b (fun m hm s p hp => ih m hm s p hp) _ s p.enter (Nat.succ_ne_zero _)]

/-- **Outside of all calls**, a backend lowers a node as `Node.lower` has it. -/
theorem Node.lowering_of_outermost (n : Node) (s : σ) (p : Pass ρ) (hp : p.depth = 0) :
    n.lower b s p = ((n.lowering b.visitor s p).outcome.surface, (n.lowering b.visitor s p).state,
      (n.lowering b.visitor s p).pass) := by
  cases hid : n.id? with
  | none =>
    rw [Node.lower, Node.lowering_of_hole hid, Node.action_of_hole hid]
    rfl
  | some id =>
    rw [Node.lower, Node.lowering_of_id hid, Node.action_of_id hid]
    cases hrecorded : p.result? id with
    | some r => rw [Lowering.once_of_recorded hrecorded, visit_of_recorded hrecorded]; rfl
    | none =>
      rw [Lowering.once_of_outermost hrecorded hp, visit_of_missing hrecorded,
        ← Plan.untraced_trace b (fun m _ s p hp => m.lowering_of_inner b s p hp) _ s p.enter
          (Nat.succ_ne_zero _), ← Lowering.Ended.untraced_close]
      rcases (Plan.trace _ _ s p.enter).close id with ⟨o, s', p', events⟩
      cases o <;> rfl

end

end Kaleidoscope
