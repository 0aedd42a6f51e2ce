/-
  How plans run.

  - `Action.andThen`: goes on with the value of an action, and passes on an error or an end;
  - `Plan.run_bind` and the lemmas after it: what each way to make a plan does when it is run;
  - `Action.inOrder`, `Plan.run_lowerFrom`: lowering children from left to right;
  - `visit_of_recorded`, `visit_of_missing`: a node whose result is recorded, and one whose is not.
-/
import Kaleidoscope.Lowering.Pass

namespace Kaleidoscope

variable {σ ρ α β : Type}

namespace Action

/-- Goes on with the value. -/
def andThen (ended : Outcome α × σ × Pass ρ) (f : α → σ → Pass ρ → Outcome β × σ × Pass ρ) :
    Outcome β × σ × Pass ρ :=
  match ended with
  | (.ok value, s, p) => f value s p
  | (.error e, s, p) => (.error e, s, p)
  | (.abort reason, s, p) => (.abort reason, s, p)

variable (s : σ) (p : Pass ρ) (f : α → σ → Pass ρ → Outcome β × σ × Pass ρ)

@[simp] theorem andThen_ok (value : α) : andThen (.ok value, s, p) f = f value s p := rfl

@[simp] theorem andThen_error (e : Error) :
    andThen (.error e, s, p) f = (.error e, s, p) := rfl

@[simp] theorem andThen_abort (reason : String) :
    andThen (.abort reason, s, p) f = (.abort reason, s, p) := rfl

/-- Actions one after another, up to the first that has no value. -/
def inOrder : List (Action σ ρ ρ) → Action σ ρ (List ρ)
  | [], s, p => (.ok [], s, p)
  | a :: as, s, p =>
    andThen (a s p) fun r s p => andThen (inOrder as s p) fun rs s p => (.ok (r :: rs), s, p)

end Action

open Kaleidoscope.Action

/-! ## Plans -/

namespace Plan

variable (children : List (Action σ ρ ρ)) (s : σ) (p : Pass ρ)

/-- **A plan that goes on runs on.** -/
theorem run_bind (plan : Plan σ ρ α) (f : α → Plan σ ρ β) :
    (plan >>= f).run children s p =
      andThen (plan.run children s p) fun value s p => (f value).run children s p := by
  show (plan.bind f).run children s p = _
  induction plan generalizing s p with
  | done value => rfl
  | fail e => rfl
  | abort reason => rfl
  | read next ih => exact ih s s p
  | write s' next ih => exact ih s' p
  | child i unwind next ih =>
    simp only [bind, run]
    rcases (children[i]?.getD (Action.fail .absentNode)) s p with ⟨o, s', p'⟩
    cases o with
    | ok r => exact ih _ s' p'
    | error e => exact ih _ s' p'
    | abort reason => rfl

theorem run_pure (value : α) :
    (pure value : Plan σ ρ α).run children s p = (.ok value, s, p) := rfl

theorem run_done (value : α) : (done value).run children s p = (.ok value, s, p) := rfl

theorem run_fail (e : Error) : (fail e : Plan σ ρ α).run children s p = (.error e, s, p) := rfl

theorem run_abort (reason : String) :
    (abort reason : Plan σ ρ α).run children s p = (.abort reason, s, p) := rfl

theorem run_get : (get : Plan σ ρ σ).run children s p = (.ok s, s, p) := rfl

theorem run_write (s' : σ) (next : Plan σ ρ α) :
    (write s' next).run children s p = next.run children s' p := rfl

theorem run_modify (f : σ → σ) : (modify f).run children s p = (.ok (), f s, p) := rfl

theorem run_ofExcept_ok (value : α) :
    (ofExcept (.ok value)).run children s p = (.ok value, s, p) := rfl

theorem run_ofExcept_error (e : Error) :
    (ofExcept (.error e) : Plan σ ρ α).run children s p = (.error e, s, p) := rfl

/-- A child that the node has. -/
theorem run_lower {i : Nat} {a : Action σ ρ ρ} (h : children[i]? = some a) :
    (lower i).run children s p = a s p := by
  simp only [lower, run, h, Option.getD_some, id_eq]
  rcases a s p with ⟨o, s', p'⟩
  cases o <;> rfl

/-- A child whose outcome the plan looks at, unless it is the end of everything. -/
theorem run_child {i : Nat} {a : Action σ ρ ρ} (h : children[i]? = some a) (unwind : σ → σ) :
    (child i unwind done).run children s p =
      match a s p with
      | (.ok r, s, p) => (.ok (.ok r), s, p)
      | (.error e, s, p) => (.ok (.error e), s, p)
      | (.abort reason, s, p) => (.abort reason, unwind s, p) := by
  rcases hrun : a s p with ⟨o, s', p'⟩
  cases o <;> simp only [run, h, Option.getD_some, hrun]

/-- The last children, lowered by their positions, are lowered in order. -/
theorem run_lowerFrom (before rest : List (Action σ ρ ρ)) :
    (lowerFrom before.length rest.length).run (before ++ rest) s p = inOrder rest s p := by
  induction rest generalizing before s p with
  | nil => rfl
  | cons a rest ih =>
    have hfirst : (before ++ a :: rest)[before.length]? = some a := by simp
    have hrest : ∀ s p, (lowerFrom (before.length + 1) rest.length).run (before ++ a :: rest) s p =
        inOrder rest s p := by
      intro s p
      have := ih (s := s) (p := p) (before ++ [a])
      rwa [List.length_append, List.append_assoc] at this
    simp only [List.length_cons, lowerFrom, run_bind, run_lower _ _ _ hfirst, hrest, run_pure,
      inOrder]

/-- All children, lowered by their positions, are lowered in order. -/
theorem run_lowerFrom_zero :
    (lowerFrom 0 children.length).run children s p = inOrder children s p :=
  run_lowerFrom s p [] children

end Plan

/-! ## Passes -/

namespace Pass

variable (p : Pass ρ)

@[simp] theorem result?_empty (id : NodeId) : (empty : Pass ρ).result? id = none := by
  simp [empty, result?]

@[simp] theorem result?_leave (id : NodeId) : p.leave.result? id = p.result? id := rfl

theorem result?_record (id other : NodeId) (r : ρ) :
    (p.record id r).result? other = if id = other then some r else p.result? other := by
  simp [record, result?, Std.ExtTreeMap.getElem?_insert]

/-- A result that is recorded for a node in a range is of no concern to nodes outside. -/
theorem result?_record_leave {p : Pass ρ} {n m own id : Nat} (r : ρ) (hfrom : n ≤ own)
    (hto : own < m) (h : id < n ∨ m ≤ id) : ((p.record own r).leave).result? id = p.result? id := by
  have hne : own ≠ id := by omega
  rw [result?_leave, result?_record, if_neg hne]

/-- A pass that has lowered one node, inside another one, has no result for others. -/
theorem result?_record_empty {id other : NodeId} (r : ρ) (h : other ≠ id) :
    ((empty.enter.enter).record id r).leave.result? other = none := by
  rw [result?_leave, result?_record, if_neg (Ne.symm h)]
  exact result?_empty other

end Pass

/-- What is left of a node's plan: a result is recorded, and the node is no longer being
lowered. -/
def settle (id : NodeId) : Outcome ρ × σ × Pass ρ → Outcome ρ × σ × Pass ρ
  | (.ok r, s, p) => (.ok r, s, (p.record id r).leave)
  | (.error e, s, p) => (.error e, s, p.leave)
  | (.abort reason, s, p) => (.abort reason, s, p.leave)

variable {id : NodeId} {plan : Plan σ ρ ρ} {children : List (Action σ ρ ρ)} {s : σ} {p : Pass ρ}

theorem visit_of_recorded {r : ρ} (h : p.result? id = some r) :
    visit id plan children s p = (.ok r, s, p) := by
  simp only [visit, h]

theorem visit_of_missing (h : p.result? id = none) :
    visit id plan children s p = settle id (plan.run children s p.enter) := by
  simp only [visit, h]
  rcases plan.run children s p.enter with ⟨o, s', p'⟩
  cases o <;> rfl

end Kaleidoscope
