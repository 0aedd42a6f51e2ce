/-
  A pass gives what recursion without a pass gives.

  A visitor without a state has nothing to go by but the node and the results of its children. So it
  does not matter which nodes a pass has recorded before, nor that a node which occurs twice is
  lowered only once.

  - `Plan.fold`, `Node.fold`: lowering by recursion alone, in which nothing is recorded;
  - `Node.nodes`, `OneNode`, `IsGraph`: the nodes in a node; in a graph an identity stands for one of
    them;
  - `Pass.Faithful`: what is recorded is what recursion gives. Every call keeps to it, and ends as
    recursion does (`Node.lowering_eq_fold`, `Node.lowering_surface`);
  - `Node.erase`, `Visitor.Blind`: nodes up to their identities, and visitors that do not look at
    these;
  - `Node.unfolded`: the tree of a graph, in which every occurrence is a node of its own;
  - `Replays.size_eq`: how many results a pass has;
  - `calls_eq_fold`: all calls on one pass end as recursion on the trees of their nodes does.
-/
import Kaleidoscope.Proofs.Lowering.Protocol
import Kaleidoscope.Proofs.Statics.Fault
import Kaleidoscope.SExpr
import Mathlib.Data.List.Nodup

namespace Kaleidoscope

variable {ρ α : Type}

/-! ## Recursion without a pass -/

/-- How a plan without a state ends, if the children end so. A child that the node does not have is
a hole. -/
def Plan.fold (children : List (Outcome ρ)) : Plan Unit ρ α → Outcome α
  | done value => .ok value
  | fail e => .error e
  | abort reason => .abort reason
  | read next => (next ()).fold children
  | write _ next => next.fold children
  | child i _ next =>
    match children[i]?.getD (.error .absentNode) with
    | .ok r => (next (.ok r)).fold children
    | .error e => (next (.error e)).fold children
    | .abort reason => .abort reason

mutual

/-- How an expression ends: as its plan does, whose children end as the operands or arguments. -/
def Term.fold (v : Visitor Unit ρ) : Term → Outcome ρ
  | .absent => .error .absentNode
  | .foreign kind => .error (.foreignNode kind)
  | .blank => (v (.term .blank)).fold []
  | .hollow kind => (v (.term (.hollow kind))).fold []
  | .number id value => (v (.term (.number id value))).fold []
  | .identifier id name => (v (.term (.identifier id name))).fold []
  | .binary id op left right =>
    (v (.term (.binary id op left right))).fold [left.fold v, right.fold v]
  | .call id callee args => (v (.term (.call id callee args))).fold (Term.folds v args)

/-- How each of some expressions ends. -/
def Term.folds (v : Visitor Unit ρ) : List Term → List (Outcome ρ)
  | [] => []
  | t :: ts => t.fold v :: Term.folds v ts

end

/-- How a node ends. -/
def Node.fold (v : Visitor Unit ρ) : Node → Outcome ρ
  | .term t => t.fold v
  | .prototype p => (v (.prototype p)).fold []
  | .function f => (v (.function f)).fold [(v (.prototype f.proto)).fold [], f.body.fold v]
  | .blankFunction => (v .blankFunction).fold []

theorem Term.folds_eq_map (v : Visitor Unit ρ) (ts : List Term) :
    Term.folds v ts = (ts.map Node.term).map (·.fold v) := by
  induction ts with
  | nil => rfl
  | cons t ts ih => rw [Term.folds, ih]; rfl

theorem Node.fold_of_hole {n : Node} (h : n.id? = none) (v : Visitor Unit ρ) :
    n.fold v = .error n.hole := by
  cases n with
  | term t =>
    cases t with
    | absent | foreign => rfl
    | blank | hollow | number | identifier | binary | call => cases h
  | prototype p => cases h
  | function f => cases h
  | blankFunction => cases h

theorem Node.fold_of_id {n : Node} {id : NodeId} (h : n.id? = some id) (v : Visitor Unit ρ) :
    n.fold v = (v n).fold (n.children.map (·.fold v)) := by
  cases n with
  | term t =>
    cases t with
    | absent | foreign => cases h
    | blank | hollow | number | identifier | binary => rfl
    | call id' callee args =>
      show (v _).fold (Term.folds v args) = _
      rw [Term.folds_eq_map]
      rfl
  | prototype p => rfl
  | function f => rfl
  | blankFunction => rfl

/-! ## Graphs -/

/-- A node and all nodes in it. -/
def Node.nodes : Node → List Node
  | .term t => t.subterms.map .term
  | .prototype p => [.prototype p]
  | .function f => .function f :: .prototype f.proto :: f.body.subterms.map .term
  | .blankFunction => [.blankFunction]

theorem Term.map_allSubterms (ts : List Term) :
    (Term.allSubterms ts).map Node.term = (ts.map Node.term).flatMap Node.nodes := by
  induction ts with
  | nil => rfl
  | cons t ts ih => rw [Term.allSubterms, List.map_append, ih]; rfl

/-- The nodes in a node are itself and those in its children. -/
theorem Node.nodes_eq (n : Node) : n.nodes = n :: n.children.flatMap Node.nodes := by
  cases n with
  | term t =>
    cases t with
    | binary id op left right => simp [nodes, Term.subterms, children]
    | call id callee args =>
      simp only [nodes, Term.subterms, List.map_cons, children, Term.map_allSubterms]
    | absent | foreign | blank | hollow | number | identifier => rfl
  | prototype p => rfl
  | function f => simp [nodes, children]
  | blankFunction => rfl

theorem Node.self_mem_nodes (n : Node) : n ∈ n.nodes := by
  rw [nodes_eq]
  exact List.mem_cons_self

theorem Node.mem_nodes_of_child {n m k : Node} (hm : m ∈ n.children) (hk : k ∈ m.nodes) :
    k ∈ n.nodes := by
  rw [nodes_eq]
  exact List.mem_cons_of_mem _ (List.mem_flatMap.2 ⟨m, hm, hk⟩)

/-- The identities in a node are those of the nodes in it. -/
theorem Node.mem_ids_iff {n : Node} {id : NodeId} :
    id ∈ n.ids ↔ ∃ m ∈ n.nodes, m.id? = some id := by
  induction n using Node.induct with
  | h n ih =>
    rw [mem_ids, nodes_eq, List.exists_mem_cons_iff]
    simp only [List.mem_flatMap]
    constructor
    · rintro (hid | ⟨m, hm, hid⟩)
      · exact .inl hid
      · obtain ⟨k, hk, hid⟩ := (ih m hm).1 hid
        exact .inr ⟨k, ⟨m, hm, hk⟩, hid⟩
    · rintro (hid | ⟨k, ⟨m, hm, hk⟩, hid⟩)
      · exact .inl hid
      · exact .inr ⟨m, hm, (ih m hm).2 ⟨k, hk, hid⟩⟩

/-- An identity stands for one of the nodes only. -/
def OneNode (all : List Node) : Prop :=
  ∀ m ∈ all, ∀ k ∈ all, m.id? = k.id? → m.id? ≠ none → m = k

/-- The nodes in the given ones are those of one graph. -/
def IsGraph (roots : List Node) : Prop := OneNode (roots.flatMap Node.nodes)

theorem OneNode.mono {all some : List Node} (h : OneNode all) (hsome : ∀ m ∈ some, m ∈ all) :
    OneNode some :=
  fun m hm k hk => h m (hsome m hm) k (hsome k hk)

theorem Node.length_nodes_lt {n m : Node} (hm : m ∈ n.children) :
    m.nodes.length < n.nodes.length := by
  obtain ⟨before, after, hchildren⟩ := List.append_of_mem hm
  rw [n.nodes_eq, hchildren, List.flatMap_append, List.flatMap_cons]
  simp only [List.length_cons, List.length_append]
  omega

/-- What is in a node has no more nodes in it. -/
theorem Node.length_nodes_le {n k : Node} (hk : k ∈ n.nodes) : k.nodes.length ≤ n.nodes.length := by
  induction n using Node.induct with
  | h n ih =>
    rw [n.nodes_eq] at hk
    rcases List.mem_cons.1 hk with rfl | hk
    · exact Nat.le_refl _
    · obtain ⟨m, hm, hk⟩ := List.mem_flatMap.1 hk
      exact Nat.le_of_lt (Nat.lt_of_le_of_lt (ih m hm hk) (length_nodes_lt hm))

theorem Node.acyclic_of_children {n : Node}
    (h : ∀ m ∈ n.children, m.Acyclic ∧ ∀ id, n.id? = some id → id ∉ m.ids) : n.Acyclic := by
  cases n with
  | term t =>
    cases t with
    | binary id op left right =>
      have hleft := h (.term left) (by simp [children])
      have hright := h (.term right) (by simp [children])
      refine ⟨fun hmem => ?_, hleft.1, hright.1⟩
      exact (List.mem_append.1 hmem).elim (hleft.2 id rfl) (hright.2 id rfl)
    | call id callee args =>
      have hargs := List.forall_mem_map.1 h
      refine ⟨fun hmem => ?_, Term.allAcyclic_iff.2 fun t ht => (hargs t ht).1⟩
      obtain ⟨t, ht, hmem⟩ := Term.mem_allIds.1 hmem
      exact (hargs t ht).2 id rfl hmem
    | absent | foreign | blank | hollow | number | identifier => trivial
  | prototype p => trivial
  | blankFunction => trivial
  | function f =>
    have hproto := h (.prototype f.proto) (by simp [children])
    have hbody := h (.term f.body) (by simp [children])
    refine ⟨fun hmem => ?_, hbody.1⟩
    rcases List.mem_cons.1 hmem with heq | hmem
    · exact hproto.2 f.id rfl (heq ▸ List.mem_singleton_self _)
    · exact hbody.2 f.id rfl hmem

/-- **A graph has no cycles**: a node with the identity of one below it is not that one. -/
theorem OneNode.acyclic {n : Node} (h : OneNode n.nodes) : n.Acyclic := by
  induction n using Node.induct with
  | h n ih =>
    refine Node.acyclic_of_children fun m hm => ?_
    have hbelow : ∀ k ∈ m.nodes, k ∈ n.nodes := fun k => Node.mem_nodes_of_child hm
    refine ⟨ih m hm (h.mono hbelow), fun id hid hmem => ?_⟩
    obtain ⟨k, hk, hkid⟩ := Node.mem_ids_iff.1 hmem
    have hsame : n = k := h n n.self_mem_nodes k (hbelow k hk) (hid.trans hkid.symm) (by simp [hid])
    have hle := Node.length_nodes_le (hsame ▸ hk)
    exact absurd (Node.length_nodes_lt hm) (Nat.not_lt.2 hle)

/-! ## What is recorded -/

open Lowering

/-- What is recorded for the nodes is what recursion gives. -/
def Pass.Faithful (v : Visitor Unit ρ) (all : List Node) (p : Pass ρ) : Prop :=
  ∀ n ∈ all, ∀ id r, n.id? = some id → p.result? id = some r → n.fold v = .ok r

section
variable {v : Visitor Unit ρ} {all : List Node}

theorem Pass.faithful_empty : (Pass.empty : Pass ρ).Faithful v all := by
  intro n _ id r _ hr
  rw [Pass.result?_empty] at hr
  cases hr

/-- The end of a handler is recorded faithfully, if it is what recursion gives. -/
theorem Pass.Faithful.close (hall : OneNode all) {n : Node} (hn : n ∈ all) {id : NodeId}
    (hid : n.id? = some id) {e : Ended Unit ρ ρ} (h : e.pass.Faithful v all)
    (he : e.outcome = n.fold v) : (e.close id).pass.Faithful v all := by
  obtain ⟨o, s, p, events⟩ := e
  cases o with
  | ok r =>
    intro m hm other r' hother hr
    have hrecord : (p.record id r).result? other = some r' := hr
    rw [Pass.result?_record] at hrecord
    by_cases hsame : id = other
    · have hnode : m = n := hall m hm n hn (by rw [hother, hid, hsame]) (by simp [hother])
      rw [if_pos hsame] at hrecord
      rw [hnode, ← he, Option.some.inj hrecord]
    · rw [if_neg hsame] at hrecord
      exact h m hm other r' hother hrecord
  | error e => exact h
  | abort reason => exact h

/-- Lowering ends as recursion does, and what it records is faithful. -/
def Lowering.Follows (v : Visitor Unit ρ) (all : List Node) (a : Lowering Unit ρ α)
    (o : Outcome α) : Prop :=
  ∀ s p, p.depth ≠ 0 → p.Faithful v all →
    (a s p).outcome = o ∧ (a s p).pass.Faithful v all

/-- A plan ends as recursion does, if the children do. -/
theorem Plan.follows_trace {ms : List Node}
    (h : ∀ m ∈ ms, (m.lowering v).Follows v all (m.fold v)) (plan : Plan Unit ρ α) :
    Lowering.Follows v all (plan.trace (ms.map (·.lowering v))) (plan.fold (ms.map (·.fold v))) := by
  intro s p hp hfaithful
  induction plan generalizing s p with
  | done value => exact ⟨rfl, hfaithful⟩
  | fail e => exact ⟨rfl, hfaithful⟩
  | abort reason => exact ⟨rfl, hfaithful⟩
  | read next ih => exact ih s s p hp hfaithful
  | write s' next ih => exact ih s' p hp hfaithful
  | child i unwind next ih =>
    simp only [trace, fold, List.getElem?_map]
    cases hm : ms[i]? with
    | none => exact ih (.error .absentNode) s p hp hfaithful
    | some m =>
      obtain ⟨houtcome, hafter⟩ := h m (List.mem_of_getElem? hm) s p hp hfaithful
      have hdepth := m.depth_lowering v s p
      simp only [Option.map_some, Option.getD_some]
      rw [← houtcome]
      rcases hrun : m.lowering v s p with ⟨o, s', p', events⟩
      rw [hrun] at hdepth hafter
      have hp' : p'.depth ≠ 0 := fun hzero => hp (hdepth.symm.trans hzero)
      cases o with
      | ok r => exact ih _ s' p' hp' hafter
      | error e => exact ih _ s' p' hp' hafter
      | abort reason => exact ⟨rfl, hafter⟩

/-- The handler of a node ends as recursion does, if the children do. -/
theorem Node.follows_close (hall : OneNode all) {n : Node} (hn : n ∈ all)
    (hchildren : ∀ m ∈ n.children, (m.lowering v).Follows v all (m.fold v)) {id : NodeId}
    (hid : n.id? = some id) (s : Unit) {p : Pass ρ} (hfaithful : p.Faithful v all) :
    let ended := ((v n).trace (n.children.map (·.lowering v)) s p.enter).close id
    ended.outcome = n.fold v ∧ ended.pass.Faithful v all := by
  intro ended
  obtain ⟨houtcome, hafter⟩ :=
    Plan.follows_trace hchildren (v n) s p.enter (Nat.succ_ne_zero _) hfaithful
  rw [← n.fold_of_id hid] at houtcome
  exact ⟨houtcome, hafter.close hall hn hid houtcome⟩

/-- **Inside another call**, a node of a graph ends as recursion does. -/
theorem Node.lowering_eq_fold (hall : OneNode all) (n : Node) (hn : ∀ m ∈ n.nodes, m ∈ all) :
    (n.lowering v).Follows v all (n.fold v) := by
  induction n using Node.induct with
  | h n ih =>
    intro s p hp hfaithful
    cases hid : n.id? with
    | none =>
      rw [Node.lowering_of_hole hid, Node.fold_of_hole hid]
      exact ⟨rfl, hfaithful⟩
    | some id =>
      rw [Node.lowering_of_id hid]
      cases hrecorded : p.result? id with
      | some r =>
        rw [once_of_recorded hrecorded]
        exact ⟨(hfaithful n (hn n n.self_mem_nodes) id r hid hrecorded).symm, hfaithful⟩
      | none =>
        rw [once_of_inner hrecorded hp]
        exact n.follows_close hall (hn n n.self_mem_nodes)
          (fun m hm => ih m hm fun k hk => hn k (Node.mem_nodes_of_child hm hk)) hid s hfaithful

/-- **Outside of all calls**, a node of a graph ends as recursion does, where giving up is an
error. -/
theorem Node.lowering_surface (hall : OneNode all) (n : Node) (hn : ∀ m ∈ n.nodes, m ∈ all)
    (s : Unit) {p : Pass ρ} (hp : p.depth = 0) (hfaithful : p.Faithful v all) :
    (n.lowering v s p).outcome = .ofExcept (n.fold v).surface ∧
      (n.lowering v s p).pass.Faithful v all := by
  cases hid : n.id? with
  | none =>
    rw [Node.lowering_of_hole hid, Node.fold_of_hole hid]
    exact ⟨rfl, hfaithful⟩
  | some id =>
    have hself := hn n n.self_mem_nodes
    rw [Node.lowering_of_id hid]
    cases hrecorded : p.result? id with
    | some r =>
      rw [once_of_recorded hrecorded, hfaithful n hself id r hid hrecorded]
      exact ⟨rfl, hfaithful⟩
    | none =>
      obtain ⟨houtcome, hafter⟩ := n.follows_close hall hself
        (fun m hm => m.lowering_eq_fold hall fun k hk => hn k (Node.mem_nodes_of_child hm hk)) hid s
        hfaithful
      rw [once_of_outermost hrecorded hp, Ended.outcome_recover, houtcome]
      refine ⟨rfl, fun m hm id r hid hr => hafter m hm id r hid ?_⟩
      rwa [Ended.result?_recover] at hr

/-- Calls leave what is recorded faithful. -/
theorem History.faithful_calls (hall : OneNode all) {h : History Unit ρ}
    (hdepth : h.pass.depth = 0) (hfaithful : h.pass.Faithful v all) {nodes : List Node}
    (hnodes : ∀ n ∈ nodes, ∀ m ∈ n.nodes, m ∈ all) :
    (h.calls v nodes).pass.depth = 0 ∧ (h.calls v nodes).pass.Faithful v all := by
  induction nodes generalizing h with
  | nil => exact ⟨hdepth, hfaithful⟩
  | cons n nodes ih =>
    obtain ⟨hn, hrest⟩ := List.forall_mem_cons.1 hnodes
    have hafter := (n.lowering_surface hall hn h.state hdepth hfaithful).2
    exact ih (h := h.call v n) ((n.depth_lowering v h.state h.pass).trans hdepth) hafter hrest

end

/-! ## Identities do not matter -/

mutual

/-- The expression, all of whose nodes have one identity. -/
def Term.erase : Term → Term
  | .absent => .absent
  | .foreign kind => .foreign kind
  | .blank => .blank
  | .hollow kind => .hollow kind
  | .number _ value => .number NodeId.first value
  | .identifier _ name => .identifier NodeId.first name
  | .binary _ op left right => .binary NodeId.first op left.erase right.erase
  | .call _ callee args => .call NodeId.first callee (Term.eraseAll args)

/-- The expressions, all of whose nodes have one identity. -/
def Term.eraseAll : List Term → List Term
  | [] => []
  | t :: ts => t.erase :: Term.eraseAll ts

end

/-- The prototype with that identity. -/
def ProtoNode.erase : ProtoNode → ProtoNode
  | .blank => .blank
  | .proto _ content => .proto NodeId.first content

/-- The node, all of whose nodes have one identity. -/
def Node.erase : Node → Node
  | .term t => .term t.erase
  | .prototype p => .prototype p.erase
  | .function f => .function ⟨NodeId.first, f.proto.erase, f.body.erase⟩
  | .blankFunction => .blankFunction

/-- The plans of the visitor do not depend on identities. -/
def Visitor.Blind (v : Visitor Unit ρ) : Prop := ∀ n : Node, v n.erase = v n

theorem Term.eraseAll_eq_map (ts : List Term) : Term.eraseAll ts = ts.map Term.erase := by
  induction ts with
  | nil => rfl
  | cons t ts ih => rw [Term.eraseAll, ih, List.map_cons]

theorem Node.children_erase (n : Node) : n.erase.children = n.children.map erase := by
  cases n with
  | term t =>
    cases t with
    | call id callee args => simp [erase, Term.erase, children, Term.eraseAll_eq_map]
    | absent | foreign | blank | hollow | number | identifier | binary => rfl
  | prototype p => rfl
  | function f => rfl
  | blankFunction => rfl

/-- A node is a hole with its identities and without them. -/
theorem Node.hole_or_id (n : Node) :
    (n.id? = none ∧ n.erase.id? = none ∧ n.erase.hole = n.hole) ∨
      ∃ id other, n.id? = some id ∧ n.erase.id? = some other := by
  cases n with
  | term t =>
    cases t with
    | absent | foreign => exact .inl ⟨rfl, rfl, rfl⟩
    | blank | hollow | number | identifier | binary | call => exact .inr ⟨_, _, rfl, rfl⟩
  | prototype p => exact .inr ⟨_, _, rfl, rfl⟩
  | function f => exact .inr ⟨_, _, rfl, rfl⟩
  | blankFunction => exact .inr ⟨_, _, rfl, rfl⟩

/-- **Recursion depends on a node up to identities only.** -/
theorem Node.fold_erase {v : Visitor Unit ρ} (hv : v.Blind) (n : Node) :
    n.erase.fold v = n.fold v := by
  induction n using Node.induct with
  | h n ih =>
    rcases n.hole_or_id with ⟨hid, herased, hhole⟩ | ⟨id, other, hid, herased⟩
    · rw [fold_of_hole hid, fold_of_hole herased, hhole]
    · rw [fold_of_id hid, fold_of_id herased, hv n, children_erase, List.map_map]
      exact congrArg (fun os => (v n).fold os) (List.map_congr_left ih)

/-- No backend knows identities. -/
theorem Backend.blind_visitor (b : Backend Unit ρ) : b.visitor.Blind := by
  intro n
  cases n with
  | term t =>
    cases t with
    | call id callee args =>
      show b.call callee (Term.eraseAll args).length = b.call callee args.length
      rw [Term.eraseAll_eq_map, List.length_map]
    | absent | foreign | blank | hollow | number | identifier | binary => rfl
  | prototype p => cases p <;> rfl
  | function f =>
    obtain ⟨id, p, body⟩ := f
    cases p <;> rfl
  | blankFunction => rfl

/-! ## The tree of a graph -/

mutual

/-- The expression with an identity for every occurrence of a node, counted from `k`, and the next
free identity. Nodes without content are one node of their kind in any tree. -/
def Term.unfold : Term → NodeId → Term × NodeId
  | .absent, k => (.absent, k)
  | .foreign kind, k => (.foreign kind, k)
  | .blank, k => (.blank, k)
  | .hollow kind, k => (.hollow kind, k)
  | .number _ value, k => (.number k value, k + 1)
  | .identifier _ name, k => (.identifier k name, k + 1)
  | .binary _ op left right, k =>
    let (l, k) := left.unfold k
    let (r, k) := right.unfold k
    (.binary k op l r, k + 1)
  | .call _ callee args, k =>
    let (ts, k) := Term.unfoldAll args k
    (.call k callee ts, k + 1)

/-- The expressions with such identities, one after another. -/
def Term.unfoldAll : List Term → NodeId → List Term × NodeId
  | [], k => ([], k)
  | t :: ts, k =>
    let (t, k) := t.unfold k
    let (ts, k) := Term.unfoldAll ts k
    (t :: ts, k)

end

/-- The prototype with the identity `k`. -/
def ProtoNode.unfold : ProtoNode → NodeId → ProtoNode
  | .blank, _ => .blank
  | .proto _ content, k => .proto k content

/-- The tree of a node, in which every occurrence of a node has an identity of its own. -/
def Node.unfolded : Node → Node
  | .term t => .term (t.unfold NodeId.first).1
  | .prototype p => .prototype (p.unfold NodeId.first)
  | .function f =>
    let (body, k) := f.body.unfold NodeId.first
    .function ⟨k + 1, f.proto.unfold k, body⟩
  | .blankFunction => .blankFunction

mutual

theorem Term.erase_unfold : ∀ (t : Term) (k : NodeId), (t.unfold k).1.erase = t.erase
  | .absent, _ | .foreign _, _ | .blank, _ | .hollow _, _ => rfl
  | .number _ _, _ | .identifier _ _, _ => rfl
  | .binary _ op left right, k => by
    simp only [Term.unfold, Term.erase, left.erase_unfold, right.erase_unfold]
  | .call _ callee args, k => by
    simp only [Term.unfold, Term.erase, Term.eraseAll_unfoldAll args]

theorem Term.eraseAll_unfoldAll : ∀ (ts : List Term) (k : NodeId),
    Term.eraseAll (Term.unfoldAll ts k).1 = Term.eraseAll ts
  | [], _ => rfl
  | t :: ts, k => by
    simp only [Term.unfoldAll, Term.eraseAll, t.erase_unfold, Term.eraseAll_unfoldAll ts]

end

/-- The tree of a node is the node up to identities. -/
theorem Node.erase_unfolded (n : Node) : n.unfolded.erase = n.erase := by
  cases n with
  | term t => simp only [unfolded, erase, Term.erase_unfold]
  | prototype p => cases p <;> rfl
  | function f =>
    obtain ⟨id, p, body⟩ := f
    simp only [unfolded, erase, Term.erase_unfold]
    cases p <;> rfl
  | blankFunction => rfl

/-- **Recursion on the tree of a node** is recursion on the node. -/
theorem Node.fold_unfolded {v : Visitor Unit ρ} (hv : v.Blind) (n : Node) :
    n.unfolded.fold v = n.fold v := by
  rw [← fold_erase hv, erase_unfolded, fold_erase hv]

/-- The nodes without content. -/
def Node.blanks : List Node :=
  [.term .blank, .prototype .blank, .term (.hollow .identifier), .term (.hollow .binary),
    .term (.hollow .call), .blankFunction]

theorem Node.id_of_blank {u : Node} (h : u ∈ blanks) {id : Nat} (hid : u.id? = some id) :
    id < NodeId.first := by
  have hsmall : ∀ o ∈ blanks.map id?, ∀ id ∈ o, id < NodeId.first := by decide
  exact hsmall _ (List.mem_map_of_mem h) id hid

theorem Node.eq_of_blank {u w : Node} (hu : u ∈ blanks) (hw : w ∈ blanks)
    (hid : u.id? = w.id?) : u = w :=
  List.inj_on_of_nodup_map (by decide) hu hw hid

/-- The nodes have an identity each, counted from `n` up to `m`, if they are not holes or blank. -/
structure Spread (n m : Nat) (us : List Node) : Prop where
  le : n ≤ m
  range : ∀ u ∈ us, ∀ id : Nat, u.id? = some id → u ∈ Node.blanks ∨ n ≤ id ∧ id < m
  one : OneNode us

namespace Spread
variable {n k m : Nat} {us ws : List Node} {u : Node}

theorem nil (n : Nat) : Spread n n [] where
  le := Nat.le_refl n
  range _ hu := nomatch hu
  one _ hu := nomatch hu

theorem append (hn : NodeId.first ≤ n) (h : Spread n k us) (h' : Spread k m ws) :
    Spread n m (us ++ ws) := by
  have hfirst : ∀ id : Nat, n ≤ id → ¬id < NodeId.first :=
    fun id hid hlt => Nat.lt_irrefl _ (Nat.lt_of_lt_of_le hlt (Nat.le_trans hn hid))
  have hle := h.le
  have hle' := h'.le
  -- nodes of the two parts with one identity are both blank
  have happart : ∀ u ∈ us, ∀ w ∈ ws, u.id? = w.id? → u.id? ≠ none → u = w := by
    intro u hu w hw hsame hid
    obtain ⟨id, hid⟩ := Option.ne_none_iff_exists'.1 hid
    rcases h.range u hu id hid with hblank | ⟨hfrom, hto⟩
    · rcases h'.range w hw id (hsame ▸ hid) with hblank' | ⟨hfrom', -⟩
      · exact Node.eq_of_blank hblank hblank' hsame
      · exact absurd (Node.id_of_blank hblank hid) (hfirst id (Nat.le_trans hle hfrom'))
    · rcases h'.range w hw id (hsame ▸ hid) with hblank' | ⟨hfrom', -⟩
      · exact absurd (Node.id_of_blank hblank' (hsame ▸ hid)) (hfirst id hfrom)
      · omega
  refine ⟨Nat.le_trans hle hle', fun u hu id hid => ?_, fun u hu w hw hsame hid => ?_⟩
  · rcases List.mem_append.1 hu with hu | hu
    · exact (h.range u hu id hid).imp_right fun hr => by omega
    · exact (h'.range u hu id hid).imp_right fun hr => by omega
  · rcases List.mem_append.1 hu with hu | hu
    · rcases List.mem_append.1 hw with hw | hw
      · exact h.one u hu w hw hsame hid
      · exact happart u hu w hw hsame hid
    · rcases List.mem_append.1 hw with hw | hw
      · exact (happart w hw u hu hsame.symm (hsame ▸ hid)).symm
      · exact h'.one u hu w hw hsame hid

theorem single (hu : ∀ id : Nat, u.id? = some id → u ∈ Node.blanks ∨ n ≤ id ∧ id < m)
    (hle : n ≤ m) : Spread n m [u] where
  le := hle
  range _ hw := List.mem_singleton.1 hw ▸ hu
  one _ hw _ hw' _ _ := (List.mem_singleton.1 hw).trans (List.mem_singleton.1 hw').symm

theorem subset (h : Spread n m us) (hws : ∀ w ∈ ws, w ∈ us) : Spread n m ws where
  le := h.le
  range w hw := h.range w (hws w hw)
  one := h.one.mono hws

/-- One more node, with the next identity, above the others. -/
theorem cons (hn : NodeId.first ≤ n) (h : Spread n m us) (hu : u.id? = some m) :
    Spread n (m + 1) (u :: us) := by
  have hlast : Spread m (m + 1) [u] :=
    single (fun id hid => .inr (by rw [hu] at hid; injection hid; omega)) (Nat.le_succ m)
  refine (h.append hn hlast).subset fun w hw => ?_
  rw [List.mem_append, List.mem_singleton, or_comm]
  exact List.mem_cons.1 hw

end Spread

mutual

/-- Every occurrence of a node in the tree has an identity of its own. -/
theorem Term.spread_unfold : ∀ (t : Term) {k : Nat}, NodeId.first ≤ k →
    Spread k (t.unfold k).2 (Node.term (t.unfold k).1).nodes
  | .absent, k, _ | .foreign _, k, _ => .single (fun _ hid => nomatch hid) (Nat.le_refl k)
  | .blank, k, _ => .single (fun _ _ => .inl (by simp [Term.unfold, Node.blanks])) (Nat.le_refl k)
  | .hollow kind, k, _ =>
    .single (fun _ _ => .inl (by cases kind <;> simp [Term.unfold, Node.blanks])) (Nat.le_refl k)
  | .number _ _, k, hk | .identifier _ _, k, hk => (Spread.nil k).cons hk rfl
  | .binary _ op left right, k, hk => by
    have hl := left.spread_unfold hk
    have hr := right.spread_unfold (Nat.le_trans hk hl.le)
    have hboth := hl.append hk hr
    rw [Node.nodes_eq]
    refine Spread.cons hk ?_ rfl
    simpa only [Term.unfold, Node.children, List.flatMap_cons, List.flatMap_nil, List.append_nil]
      using hboth
  | .call _ callee args, k, hk => by
    rw [Node.nodes_eq]
    exact (Term.spread_unfoldAll args hk).cons hk rfl

theorem Term.spread_unfoldAll : ∀ (ts : List Term) {k : Nat}, NodeId.first ≤ k →
    Spread k (Term.unfoldAll ts k).2
      (((Term.unfoldAll ts k).1.map Node.term).flatMap Node.nodes)
  | [], k, _ => .nil k
  | t :: ts, k, hk => by
    have hfirst := t.spread_unfold hk
    exact hfirst.append hk (Term.spread_unfoldAll ts (Nat.le_trans hk hfirst.le))

end

theorem ProtoNode.spread_unfold (p : ProtoNode) {k : Nat} (hk : NodeId.first ≤ k) :
    Spread k (k + 1) [.prototype (p.unfold k)] := by
  cases p with
  | blank =>
    have hblank : Node.prototype .blank ∈ Node.blanks := by simp [Node.blanks]
    exact .single (fun _ _ => .inl hblank) (Nat.le_succ k)
  | proto id content => exact (Spread.nil k).cons hk rfl

/-- Only holes and blank nodes occur twice in the tree of a node. -/
theorem Node.spread_unfolded (n : Node) : ∃ m, Spread NodeId.first m n.unfolded.nodes := by
  have hfirst := Nat.le_refl NodeId.first
  cases n with
  | term t => exact ⟨_, t.spread_unfold hfirst⟩
  | prototype p => exact ⟨_, p.spread_unfold hfirst⟩
  | function f =>
    have hbody := f.body.spread_unfold hfirst
    have hboth := hbody.append hfirst (f.proto.spread_unfold hbody.le)
    rw [Node.nodes_eq]
    refine ⟨_, Spread.cons hfirst (hboth.subset fun u hu => ?_) rfl⟩
    rw [List.mem_append, or_comm]
    simpa [Node.unfolded, Node.children, Node.nodes] using hu
  | blankFunction =>
    have hblank : Node.blankFunction ∈ Node.blanks := by simp [Node.blanks]
    exact ⟨_, .single (fun _ _ => .inl hblank) hfirst⟩

/-- **The tree of a node is a graph.** -/
theorem Node.oneNode_unfolded (n : Node) : OneNode n.unfolded.nodes := by
  obtain ⟨m, hspread⟩ := n.spread_unfolded
  exact hspread.one

/-! ## How many results there are -/

theorem Pass.size_record {p : Pass ρ} {id : NodeId} (h : p.result? id = none) (r : ρ) :
    (p.record id r).size = p.size + 1 := by
  have hnew : p.results.contains id = false := by
    rw [Std.ExtTreeMap.contains_eq_isSome_getElem?, show p.results[id]? = none from h]
    rfl
  rw [size, record, Std.ExtTreeMap.size_insert, hnew]
  rfl

namespace Lowering

/-- The node whose result the event adds. -/
def Event.added? : Event ρ → Option NodeId
  | .finish id (.ok _) => some id
  | _ => none

/-- The nodes of the handlers that ended with a result. -/
def added (events : List (Event ρ)) : List NodeId := events.filterMap Event.added?

theorem mem_added {events : List (Event ρ)} {id : NodeId} :
    id ∈ added events ↔ ∃ r, .finish id (.ok r) ∈ events := by
  rw [added, List.mem_filterMap]
  constructor
  · rintro ⟨event, hmem, hadded⟩
    cases event with
    | start other => cases hadded
    | finish other o =>
      cases o with
      | ok r => exact ⟨r, Option.some.inj hadded ▸ hmem⟩
      | error e => cases hadded
      | abort reason => cases hadded
  · rintro ⟨r, hmem⟩
    exact ⟨_, hmem, rfl⟩

namespace Replays
variable {table final : NodeId → Option ρ} {events : List (Event ρ)}

/-- No handler ends with a result for a node that has one. -/
theorem nodup_added (h : Replays table events final) :
    (added events).Nodup ∧ ∀ id ∈ added events, table id = none := by
  induction h with
  | nil => exact ⟨List.nodup_nil, fun _ hid => nomatch hid⟩
  | start _ _ ih => exact ih
  | @record table _ id r events hid _ ih =>
    obtain ⟨hnodup, hfresh⟩ := ih
    refine ⟨List.nodup_cons.2 ⟨fun hmem => ?_, hnodup⟩, fun other hother => ?_⟩
    · have := hfresh id hmem
      rw [extend_self] at this
      cases this
    · rcases List.mem_cons.1 hother with rfl | hother
      · exact hid
      · refine (extend_of_ne fun hsame => ?_).symm.trans (hfresh other hother)
        rw [← hsame] at hother
        have := hfresh id hother
        rw [extend_self] at this
        cases this
  | error _ ih => exact ih
  | abort _ ih => exact ih

/-- **Every handler that ends with a result** makes the number of results larger by one. -/
theorem size_eq (h : Replays table events final) {p q : Pass ρ} (hp : p.result? = table)
    (hq : q.result? = final) : q.size = p.size + (added events).length := by
  induction h generalizing p with
  | nil =>
    have hsame : q.results = p.results :=
      Std.ExtTreeMap.ext_getElem? fun {id} => congrFun (hq.trans hp.symm) id
    rw [Pass.size, hsame]
    rfl
  | start _ _ ih => exact ih hp hq
  | @record table _ id r events hid _ ih =>
    have hnext : (p.record id r).result? = extend table id r := by
      funext other
      rw [Pass.result?_record, hp]
      rfl
    rw [ih hnext hq, Pass.size_record (by rw [hp, hid])]
    show p.size + 1 + (added events).length = p.size + ((added events).length + 1)
    omega
  | error _ ih => exact ih hp hq
  | abort _ ih => exact ih hp hq

end Replays

end Lowering

/-! ## All calls on one pass -/

/-- In a pass of its own a graph ends as recursion does. -/
theorem Node.lowerFresh_eq_fold {n : Node} (h : OneNode n.nodes) (b : Backend Unit ρ) :
    (n.lowerFresh b ()).1 = (n.fold b.visitor).surface := by
  have hlower := n.lowering_surface (v := b.visitor) h (fun _ hm => hm) () (p := .empty) rfl
    Pass.faithful_empty
  rw [lowerFresh, n.lowering_of_outermost b () .empty rfl, hlower.1, Outcome.surface_ofExcept]

/-- **A graph is written as its tree.** -/
theorem Node.toSExpr_unfolded {n : Node} (h : OneNode n.nodes) :
    n.toSExpr = n.unfolded.toSExpr := by
  rw [toSExpr, toSExpr, lowerFresh_eq_fold h, lowerFresh_eq_fold n.oneNode_unfolded,
    fold_unfolded SExpr.backend.blind_visitor]

/-- **A pass gives what recursion without a pass gives.** Take any visitor without a state whose
plans do not depend on identities, in whatever order they ask for children and whatever they make of
an error. Take outermost calls on one pass over the nodes of a graph, in which any node may occur any
number of times. The call for `n`, after the earlier ones, ends as
recursion on the tree of `n` does, where giving up is an error. For a backend, this is what
`Node.lower` gives. The pass then has as many results as handlers ended with one, a node each. In
particular a graph is written as its tree. -/
theorem calls_eq_fold {v : Visitor Unit ρ} (hv : v.Blind) {earlier : List Node} {n : Node}
    (hgraph : IsGraph (earlier ++ [n])) :
    let past := (History.initial ()).calls v earlier
    let ended := n.lowering v past.state past.pass
    let recorded := added (past.events ++ ended.events)
    ended.outcome = .ofExcept (n.unfolded.fold v).surface ∧
      (∀ b : Backend Unit ρ, v = b.visitor →
        b.lowerAll earlier () .empty = (past.state, past.pass) ∧
          n.lower b past.state past.pass =
            ((n.unfolded.fold v).surface, ended.state, ended.pass)) ∧
      ended.pass.size = recorded.length ∧ recorded.Nodup ∧
      (∀ id, id ∈ recorded ↔ (ended.pass.result? id).isSome) ∧
      n.toSExpr = n.unfolded.toSExpr := by
  intro past ended recorded
  have hinside : ∀ m ∈ earlier ++ [n], ∀ k ∈ m.nodes, k ∈ (earlier ++ [n]).flatMap Node.nodes :=
    fun m hm k hk => List.mem_flatMap.2 ⟨m, hm, hk⟩
  have hlast : n ∈ earlier ++ [n] := by simp
  have hacyclic : ∀ m ∈ earlier ++ [n], m.Acyclic :=
    fun m hm => (hgraph.mono (hinside m hm)).acyclic
  obtain ⟨hdepth, hfaithful⟩ := History.faithful_calls (v := v) hgraph (h := .initial ()) rfl
    Pass.faithful_empty (fun m hm => hinside m (List.mem_append_left _ hm))
  have houtcome : ended.outcome = .ofExcept (n.unfolded.fold v).surface := by
    rw [n.fold_unfolded hv]
    exact (n.lowering_surface hgraph (hinside n hlast) past.state hdepth hfaithful).1
  -- all events together lead from an empty pass to the results there are now
  obtain ⟨-, events, hevents, hreplays⟩ := History.calls_replays v (h := .initial ()) rfl hacyclic
  rw [History.calls, List.foldl_append] at hevents hreplays
  have hall : recorded = added events := congrArg added hevents
  have hempty : (History.initial () : History Unit ρ).pass.result? = fun _ => none :=
    funext Pass.result?_empty
  refine ⟨houtcome, ?_, ?_, hall ▸ hreplays.nodup_added.1, fun id => ?_,
    n.toSExpr_unfolded (hgraph.mono (hinside n hlast))⟩
  · rintro b rfl
    refine ⟨History.calls_backend b (h := .initial ()) rfl earlier, ?_⟩
    rw [n.lowering_of_outermost b past.state past.pass hdepth]
    show (ended.outcome.surface, _, _) = _
    rw [houtcome, Outcome.surface_ofExcept]
  · rw [hall, hreplays.size_eq rfl (q := ended.pass) rfl]
    exact Nat.zero_add _
  · rw [hall, mem_added, Option.isSome_iff_exists]
    refine exists_congr fun r => ?_
    have hrecorded : ended.pass.result? id = some r ↔ _ := hreplays.recorded_iff
    simp only [hempty, reduceCtorEq, false_or] at hrecorded
    exact hrecorded.symm

/-- The sum of a name and itself, always the same node with the same operands. -/
def doubled : Term := .binary 7 (.ofOperator .add) (.identifier 6 "x") (.identifier 6 "x")

/-- A product of that sum with another factor. -/
def productWith (id : NodeId) (factor : Term) : Node :=
  .term (.binary id (.ofOperator .multiply) doubled factor)

/-- The first call fails after the sum is recorded. The second takes the sum from there twice, and
three results are on record after it. -/
theorem calls_eq_fold_doubled :
    let past := (History.initial ()).calls SExpr.backend.visitor [productWith 8 .absent]
    let ended := (productWith 9 doubled).lowering SExpr.backend.visitor past.state past.pass
    ((productWith 9 doubled).lower SExpr.backend past.state past.pass).1 =
        .ok "(* (+ x x) (+ x x))" ∧
      ended.pass.size = 3 ∧
      (productWith 9 doubled).toSExpr = (productWith 9 doubled).unfolded.toSExpr := by
  intro past ended
  have hgraph : IsGraph ([productWith 8 .absent] ++ [productWith 9 doubled]) := by
    simp [IsGraph, OneNode, productWith, doubled, Node.nodes, Term.subterms, Node.id?, Term.id?]
  obtain ⟨-, hlower, hsize, -, -, htext⟩ :=
    calls_eq_fold SExpr.backend.blind_visitor hgraph
  have hrecorded : added (past.events ++ ended.events) = [6, 7, 9] := rfl
  refine ⟨?_, by rw [hsize, hrecorded]; rfl, htext⟩
  rw [(hlower SExpr.backend rfl).2]
  rfl

end Kaleidoscope
