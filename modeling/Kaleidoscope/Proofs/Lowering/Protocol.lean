/-
  What a pass promises, whatever its handlers do.

  - `Replays`: from one table of results to another by the events of handlers. No handler is started
    for a node that has a result, and a handler that ends with a result adds it;
  - `Unwound`: once a handler gives up, all that still happens is that those around it give up too;
  - `Proceeds`: both, for events about certain nodes. Plans keep to it if the children do, and so
    does every call inside another one (`Node.proceeds_lowering`);
  - `Answers`: how an outermost call ends: by the result on record, or as the handler of its node did;
  - `History`: outermost calls, one after another, on one pass;
  - `calls_protocol`: every outermost call returns, leaves the depth at zero, and keeps all results.
-/
import Kaleidoscope.Proofs.Lowering.Trace

namespace Kaleidoscope

variable {σ ρ α : Type}

/-- Why lowering was given up, if it was. -/
def Outcome.reason? : Outcome α → Option String
  | .abort reason => some reason
  | _ => none

namespace Lowering

/-! ## Tables of results -/

/-- A table with the result of one more node. -/
def extend (table : NodeId → Option ρ) (id : NodeId) (r : ρ) : NodeId → Option ρ :=
  fun other => if id = other then some r else table other

/-- The events lead from the first table of results to the second. -/
inductive Replays : (NodeId → Option ρ) → List (Event ρ) → (NodeId → Option ρ) → Prop where
  | nil (table) : Replays table [] table
  /-- A handler is started only for a node without a result. -/
  | start {table final id events} : table id = none → Replays table events final →
      Replays table (.start id :: events) final
  /-- A handler that ends with a result adds it; there was none. -/
  | record {table final id r events} : table id = none → Replays (extend table id r) events final →
      Replays table (.finish id (.ok r) :: events) final
  /-- A handler that fails or gives up adds nothing. -/
  | error {table final id e events} : Replays table events final →
      Replays table (.finish id (.error e) :: events) final
  | abort {table final id reason events} : Replays table events final →
      Replays table (.finish id (.abort reason) :: events) final

namespace Replays
variable {table middle final : NodeId → Option ρ} {events later : List (Event ρ)} {id : NodeId}
  {r : ρ}

theorem append (h : Replays table events middle) (hlater : Replays middle later final) :
    Replays table (events ++ later) final := by
  induction h with
  | nil => exact hlater
  | start hid _ ih => exact .start hid (ih hlater)
  | record hid _ ih => exact .record hid (ih hlater)
  | error _ ih => exact .error (ih hlater)
  | abort _ ih => exact .abort (ih hlater)

theorem split (h : Replays table (events ++ later) final) :
    ∃ middle, Replays table events middle ∧ Replays middle later final := by
  induction events generalizing table with
  | nil => exact ⟨table, .nil table, h⟩
  | cons event events ih =>
    cases h with
    | start hid h => exact (ih h).imp fun _ hm => ⟨.start hid hm.1, hm.2⟩
    | record hid h => exact (ih h).imp fun _ hm => ⟨.record hid hm.1, hm.2⟩
    | error h => exact (ih h).imp fun _ hm => ⟨.error hm.1, hm.2⟩
    | abort h => exact (ih h).imp fun _ hm => ⟨.abort hm.1, hm.2⟩

theorem extend_of_ne {other : NodeId} (h : id ≠ other) : extend table id r other = table other :=
  if_neg h

theorem extend_self : extend table id r id = some r := if_pos rfl

/-- **A result stays.** -/
theorem kept (h : Replays table events final) (hid : table id = some r) : final id = some r := by
  induction h with
  | nil => exact hid
  | start _ _ ih => exact ih hid
  | @record _ _ other _ _ hother _ ih =>
    refine ih ((extend_of_ne ?_).trans hid)
    rintro rfl
    rw [hid] at hother; cases hother
  | error _ ih => exact ih hid
  | abort _ ih => exact ih hid

/-- **The results are those from before and those of handlers.** -/
theorem recorded_iff (h : Replays table events final) :
    final id = some r ↔ table id = some r ∨ .finish id (.ok r) ∈ events := by
  induction h with
  | nil => simp
  | start _ _ ih => simp [ih]
  | @record table _ other r' _ hother hrest ih =>
    rw [ih]
    by_cases hsame : other = id
    · subst hsame
      -- after this event the node has this result, and so no other
      rw [extend_self, hother]
      constructor
      · rintro (heq | hmem)
        · exact .inr (Option.some.inj heq ▸ List.mem_cons_self)
        · exact .inr (List.mem_cons_of_mem _ hmem)
      · rintro (heq | hmem)
        · cases heq
        · rcases List.mem_cons.1 hmem with heq | hmem
          · injection heq with _ heq
            injection heq with heq
            exact .inl (congrArg some heq.symm)
          · exact .inr hmem
    · rw [extend_of_ne hsame]
      simp [Ne.symm hsame]
  | error _ ih => simp [ih]
  | abort _ ih => simp [ih]

end Replays

/-! ## Giving up -/

/-- Some handlers gave up last, all for the reason for which the whole did; no other gave up. -/
def Unwound (events : List (Event ρ)) (reason? : Option String) : Prop :=
  ∃ calm tail, events = calm ++ tail ∧ (∀ id reason, .finish id (.abort reason) ∉ calm) ∧
    ∀ event ∈ tail, ∃ id reason, event = .finish id (.abort reason) ∧ reason? = some reason

namespace Unwound
variable {events : List (Event ρ)} {reason? : Option String}

theorem nil (reason? : Option String) : Unwound ([] : List (Event ρ)) reason? :=
  ⟨[], [], rfl, by simp, by simp⟩

/-- Where the whole was not given up, no handler gave up. -/
theorem calm (h : Unwound events none) (id : NodeId) (reason : String) :
    .finish id (.abort reason) ∉ events := by
  obtain ⟨calm, tail, rfl, hcalm, htail⟩ := h
  intro hmem
  rcases List.mem_append.1 hmem with hmem | hmem
  · exact hcalm id reason hmem
  · obtain ⟨_, _, -, hreason⟩ := htail _ hmem
    cases hreason

theorem append (h : Unwound events reason?) {before : List (Event ρ)}
    (hbefore : ∀ id reason, .finish id (.abort reason) ∉ before) :
    Unwound (before ++ events) reason? := by
  obtain ⟨calm, tail, rfl, hcalm, htail⟩ := h
  refine ⟨before ++ calm, tail, (List.append_assoc ..).symm, fun id reason hmem => ?_, htail⟩
  rcases List.mem_append.1 hmem with hmem | hmem
  · exact hbefore id reason hmem
  · exact hcalm id reason hmem

/-- The handler of a node gives up if its plan does. -/
theorem finish {o : Outcome ρ} (h : Unwound events o.reason?) (id : NodeId) :
    Unwound (events ++ [.finish id o]) o.reason? := by
  cases o with
  | abort reason =>
    obtain ⟨calm, tail, rfl, hcalm, htail⟩ := h
    refine ⟨calm, tail ++ [.finish id (.abort reason)], List.append_assoc .., hcalm, ?_⟩
    intro event hmem
    rcases List.mem_append.1 hmem with hmem | hmem
    · exact htail event hmem
    · exact ⟨id, reason, List.mem_singleton.1 hmem, rfl⟩
  | ok r => exact Unwound.append ⟨[.finish id (.ok r)], [], rfl, by simp, by simp⟩ h.calm
  | error e => exact Unwound.append ⟨[.finish id (.error e)], [], rfl, by simp, by simp⟩ h.calm

/-- **Once a handler gives up**, so does the whole, and all that still happens is that others do. -/
theorem rest {before after : List (Event ρ)} {id : NodeId} {reason : String}
    (h : Unwound (before ++ .finish id (.abort reason) :: after) reason?) :
    reason? = some reason ∧ ∀ event ∈ after, ∃ id', event = .finish id' (.abort reason) := by
  obtain ⟨calm, tail, hsplit, hcalm, htail⟩ := h
  -- the calm part ends before the handler that gives up
  have hrest : ∃ others, tail = others ++ .finish id (.abort reason) :: after := by
    rcases List.append_eq_append_iff.1 hsplit.symm with ⟨others, -, hrest⟩ | ⟨others, hpart, hrest⟩
    · exact ⟨others, hrest⟩
    · cases others with
      | nil => exact ⟨[], hrest.symm⟩
      | cons first others =>
        injection hrest with hfirst _
        refine absurd ?_ (hcalm id reason)
        rw [hpart, hfirst]
        exact List.mem_append_right _ List.mem_cons_self
  obtain ⟨others, rfl⟩ := hrest
  have hreason : reason? = some reason := by
    obtain ⟨_, _, heq, hreason⟩ := htail _ (List.mem_append_right _ List.mem_cons_self)
    injection heq with _ heq
    injection heq with heq
    rw [hreason, heq]
  refine ⟨hreason, fun event hevent => ?_⟩
  obtain ⟨id', _, heq, hsame⟩ :=
    htail event (List.mem_append_right _ (List.mem_cons_of_mem _ hevent))
  injection hreason.symm.trans hsame with hsame
  exact ⟨id', by rw [heq, hsame]⟩

end Unwound

/-! ## Calls inside another one -/

/-- The node that an event is about. -/
def Event.id : Event ρ → NodeId
  | .start id => id
  | .finish id _ => id

/-- What happened from a pass on is in order, and is about those nodes. -/
structure Proceeds (ids : List NodeId) (p : Pass ρ) (e : Ended σ ρ α) : Prop where
  inside : ∀ event ∈ e.events, event.id ∈ ids
  replays : Replays p.result? e.events e.pass.result?
  unwound : Unwound e.events e.outcome.reason?

namespace Proceeds
variable {ids : List NodeId} {p : Pass ρ}

theorem quiet (ids : List NodeId) (p : Pass ρ) (o : Outcome α) (s : σ) :
    Proceeds ids p ⟨o, s, p, []⟩ := ⟨by simp, .nil _, .nil _⟩

theorem mono {more : List NodeId} {e : Ended σ ρ α} (h : Proceeds ids p e)
    (hids : ∀ id ∈ ids, id ∈ more) : Proceeds more p e :=
  ⟨fun event hevent => hids _ (h.inside event hevent), h.replays, h.unwound⟩

/-- What comes after a child that was not given up. -/
theorem after {c : Ended σ ρ ρ} {e : Ended σ ρ α} (hc : Proceeds ids p c)
    (hreason : c.outcome.reason? = none) (he : Proceeds ids c.pass e) :
    Proceeds ids p (e.after c.events) where
  inside event hevent := by
    rcases List.mem_append.1 hevent with hevent | hevent
    · exact hc.inside event hevent
    · exact he.inside event hevent
  replays := hc.replays.append he.replays
  unwound := he.unwound.append (hreason ▸ hc.unwound).calm

/-- A plan keeps to it, if the children do. -/
theorem trace {children : List (Lowering σ ρ ρ)}
    (hdepth : ∀ a ∈ children, a.KeepsDepth)
    (h : ∀ a ∈ children, ∀ s p, p.depth ≠ 0 → Proceeds ids p (a s p)) (plan : Plan σ ρ α) (s : σ)
    (p : Pass ρ) (hp : p.depth ≠ 0) : Proceeds ids p (plan.trace children s p) := by
  induction plan generalizing s p with
  | done value => exact quiet ids p _ s
  | fail e => exact quiet ids p _ s
  | abort reason => exact quiet ids p _ s
  | read next ih => exact ih s s p hp
  | write s' next ih => exact ih s' p hp
  | child i unwind next ih =>
    have hkeeps := forall_child (Q := KeepsDepth) (fun _ _ => rfl) hdepth i s p
    have hchild := forall_child (Q := fun a => ∀ s p, p.depth ≠ 0 → Proceeds ids p (a s p))
      (fun s p _ => quiet ids p _ s) h i s p hp
    simp only [Plan.trace]
    rcases hrun : (children[i]?.getD (Lowering.fail .absentNode)) s p with ⟨o, s', p', events⟩
    rw [hrun] at hkeeps hchild
    have hp' : p'.depth ≠ 0 := fun hzero => hp (hkeeps.symm.trans hzero)
    cases o with
    | ok r => exact hchild.after rfl (ih _ s' p' hp')
    | error e => exact hchild.after rfl (ih _ s' p' hp')
    | abort reason => exact ⟨hchild.inside, hchild.replays, hchild.unwound⟩

/-- The handler of a node that is not below itself keeps to it, if its plan does. -/
theorem close {id : NodeId} {e : Ended σ ρ ρ} (h : Proceeds ids p.enter e) (hid : id ∉ ids)
    (hmissing : p.result? id = none) : Proceeds (id :: ids) p (e.close id) := by
  have hreplays : Replays p.result? e.events e.pass.result? := h.replays
  -- nothing that happened was about this node, so it still has no result
  have hstill : e.pass.result? id = none := by
    cases hresult : e.pass.result? id with
    | none => rfl
    | some r =>
      rcases hreplays.recorded_iff.1 hresult with hbefore | hmem
      · rw [hmissing] at hbefore; cases hbefore
      · exact absurd (h.inside _ hmem) hid
  refine ⟨?_, .start hmissing (hreplays.append ?_), ?_⟩
  · intro event hevent
    rcases List.mem_cons.1 hevent with rfl | hevent
    · exact List.mem_cons_self
    · rcases List.mem_append.1 hevent with hevent | hevent
      · exact List.mem_cons_of_mem _ (h.inside event hevent)
      · rw [List.mem_singleton.1 hevent]
        exact List.mem_cons_self
  · obtain ⟨o, s, q, events⟩ := e
    cases o with
    | ok r =>
      refine .record hstill ?_
      rw [show extend q.result? id r = (q.record id r).leave.result? from
        funext fun other => (Pass.result?_record q id other r).symm]
      exact .nil _
    | error e => exact .error (.nil _)
    | abort reason => exact .abort (.nil _)
  · have hstart : ∀ id' reason, .finish id' (.abort reason) ∉ [(.start id : Event ρ)] := by simp
    exact (h.unwound.finish id).append hstart

end Proceeds

end Lowering

open Lowering

section
variable (v : Visitor σ ρ)

/-- The handler of a node is in order, if the children are. -/
theorem Node.proceeds_close {n : Node} (hn : n.Acyclic)
    (hchildren : ∀ m ∈ n.children, ∀ s p, p.depth ≠ 0 → Proceeds m.ids p (m.lowering v s p))
    {id : NodeId} (hid : n.id? = some id) (s : σ) {p : Pass ρ} (hmissing : p.result? id = none) :
    Proceeds n.ids p (((v n).trace (n.children.map (·.lowering v)) s p.enter).close id) := by
  have hdepth : ∀ a ∈ n.children.map (·.lowering v), a.KeepsDepth :=
    List.forall_mem_map.2 fun m _ => m.depth_lowering v
  have hbelow : ∀ a ∈ n.children.map (·.lowering v), ∀ s p, p.depth ≠ 0 →
      Proceeds (n.children.flatMap Node.ids) p (a s p) :=
    List.forall_mem_map.2 fun m hm s p hp =>
      (hchildren m hm s p hp).mono fun _ hid => List.mem_flatMap.2 ⟨m, hm, hid⟩
  have hself : id ∉ n.children.flatMap Node.ids := by
    intro hmem
    obtain ⟨m, hm, hmem⟩ := List.mem_flatMap.1 hmem
    exact (hn.child hm).2 id hid hmem
  have hplan := Proceeds.trace hdepth hbelow (v n) s p.enter (Nat.succ_ne_zero _)
  refine (hplan.close hself hmissing).mono fun other hother => Node.mem_ids.2 ?_
  rcases List.mem_cons.1 hother with rfl | hother
  · exact .inl hid
  · exact .inr (List.mem_flatMap.1 hother)

/-- **Every call inside another one is in order**, and about the nodes in its node. -/
theorem Node.proceeds_lowering (n : Node) (hn : n.Acyclic) (s : σ) (p : Pass ρ)
    (hp : p.depth ≠ 0) : Proceeds n.ids p (n.lowering v s p) := by
  induction n using Node.induct generalizing s p with
  | h n ih =>
    cases hid : n.id? with
    | none =>
      rw [Node.lowering_of_hole hid]
      exact .quiet _ p _ s
    | some id =>
      rw [Node.lowering_of_id hid]
      cases hrecorded : p.result? id with
      | some r =>
        rw [once_of_recorded hrecorded]
        exact .quiet _ p _ s
      | none =>
        rw [once_of_inner hrecorded hp]
        exact n.proceeds_close v hn (fun m hm => ih m hm (hn.child hm).1) hid s hrecorded

/-! ## Outermost calls -/

/-- A result or an error. -/
def Outcome.ofExcept : Except Error α → Outcome α
  | .ok value => .ok value
  | .error e => .error e

theorem Outcome.surface_ofExcept (result : Except Error α) :
    (Outcome.ofExcept result).surface = result := by
  cases result <;> rfl

namespace Lowering

namespace Ended
variable (e : Ended σ ρ α)

theorem outcome_recover : e.recover.outcome = .ofExcept e.outcome.surface := by
  obtain ⟨o, s, p, events⟩ := e
  cases o <;> rfl

theorem events_recover : e.recover.events = e.events := by
  obtain ⟨o, s, p, events⟩ := e
  cases o <;> rfl

theorem result?_recover : e.recover.pass.result? = e.pass.result? := by
  obtain ⟨o, s, p, events⟩ := e
  cases o <;> rfl

end Ended

/-- How an outermost call on a pass ends, and what handlers do meanwhile. -/
inductive Answers (p : Pass ρ) (n : Node) : Except Error ρ → List (Event ρ) → Prop where
  /-- A node without an identity is an error. -/
  | hole : n.id? = none → Answers p n (.error n.hole) []
  /-- The result that is on record is the result, and no handler is started. -/
  | recorded {id r} : n.id? = some id → p.result? id = some r → Answers p n (.ok r) []
  /-- Otherwise the handler of the node is started, and the call ends as it does. -/
  | handled {id o events} : n.id? = some id → p.result? id = none →
      Answers p n o.surface (.start id :: events ++ [.finish id o])

end Lowering

/-- **An outermost call returns a result or an error.** Its events lead from the results before it to
those after it, and a handler that gives up ends the call. -/
theorem Node.lowering_answers {n : Node} (hn : n.Acyclic) (s : σ) {p : Pass ρ}
    (hp : p.depth = 0) :
    ∃ result, (n.lowering v s p).outcome = .ofExcept result ∧
      Answers p n result (n.lowering v s p).events ∧
      Replays p.result? (n.lowering v s p).events (n.lowering v s p).pass.result? ∧
      ∀ before id reason after,
        (n.lowering v s p).events = before ++ .finish id (.abort reason) :: after →
          result = .error (.aborted reason) ∧
            ∀ event ∈ after, ∃ id', event = .finish id' (.abort reason) := by
  cases hid : n.id? with
  | none =>
    rw [Node.lowering_of_hole hid]
    exact ⟨_, rfl, .hole hid, .nil _, by simp [Lowering.fail]⟩
  | some id =>
    rw [Node.lowering_of_id hid]
    cases hrecorded : p.result? id with
    | some r =>
      rw [once_of_recorded hrecorded]
      exact ⟨.ok r, rfl, .recorded hid hrecorded, .nil _, by simp⟩
    | none =>
      have hran := n.proceeds_close v hn
        (fun m hm s p hp => m.proceeds_lowering v (hn.child hm).1 s p hp) hid s hrecorded
      rw [once_of_outermost hrecorded hp, Ended.events_recover, Ended.result?_recover]
      refine ⟨_, Ended.outcome_recover _, .handled hid hrecorded, hran.replays, ?_⟩
      intro before id' reason after hevents
      have hunwound := hran.unwound
      rw [hevents] at hunwound
      obtain ⟨hreason, hrest⟩ := hunwound.rest
      refine ⟨?_, hrest⟩
      generalize (Ended.close id _).outcome = o at hreason
      cases o with
      | ok r => cases hreason
      | error e => cases hreason
      | abort reason' =>
        injection hreason with hreason
        rw [hreason]
        rfl

/-! ## One call after another -/

/-- What outermost calls of a backend leave behind. -/
def Backend.lowerAll (b : Backend σ ρ) : List Node → σ → Pass ρ → σ × Pass ρ
  | [], s, p => (s, p)
  | n :: nodes, s, p =>
    let (_, s, p) := n.lower b s p
    b.lowerAll nodes s p

/-- What outermost calls on one pass leave behind, and what handlers did in all of them. -/
structure History (σ ρ : Type) where
  state : σ
  pass : Pass ρ
  events : List (Event ρ)

namespace History

/-- Before any call. -/
def initial (s : σ) : History σ ρ := ⟨s, .empty, []⟩

/-- One more call. -/
def call (h : History σ ρ) (n : Node) : History σ ρ :=
  let ended := n.lowering v h.state h.pass
  ⟨ended.state, ended.pass, h.events ++ ended.events⟩

/-- Calls, one after another. -/
def calls (h : History σ ρ) (nodes : List Node) : History σ ρ := nodes.foldl (call v) h

/-- **Calls leave the depth at zero**, and their events lead from the results before them to those
after them. -/
theorem calls_replays {h : History σ ρ} (hdepth : h.pass.depth = 0) {nodes : List Node}
    (hnodes : ∀ n ∈ nodes, n.Acyclic) :
    (h.calls v nodes).pass.depth = 0 ∧
      ∃ events, (h.calls v nodes).events = h.events ++ events ∧
        Replays h.pass.result? events (h.calls v nodes).pass.result? := by
  induction nodes generalizing h with
  | nil => exact ⟨hdepth, [], (List.append_nil _).symm, .nil _⟩
  | cons n nodes ih =>
    obtain ⟨hn, hrest⟩ := List.forall_mem_cons.1 hnodes
    obtain ⟨-, -, -, hfirst, -⟩ := n.lowering_answers v hn h.state hdepth
    have hnext : (h.call v n).pass.depth = 0 := (n.depth_lowering v h.state h.pass).trans hdepth
    obtain ⟨hzero, events, hevents, hreplays⟩ := ih hnext hrest
    refine ⟨hzero, (n.lowering v h.state h.pass).events ++ events, ?_, hfirst.append hreplays⟩
    rw [← List.append_assoc]
    exact hevents

/-- For a backend, calls leave behind what `Node.lower` does. -/
theorem calls_backend (b : Backend σ ρ) {h : History σ ρ} (hdepth : h.pass.depth = 0)
    (nodes : List Node) :
    b.lowerAll nodes h.state h.pass =
      ((h.calls b.visitor nodes).state, (h.calls b.visitor nodes).pass) := by
  induction nodes generalizing h with
  | nil => rfl
  | cons n nodes ih =>
    have hnext : (h.call b.visitor n).pass.depth = 0 :=
      (n.depth_lowering b.visitor h.state h.pass).trans hdepth
    rw [Backend.lowerAll, n.lowering_of_outermost b h.state h.pass hdepth]
    exact ih hnext

end History

end

end Kaleidoscope
