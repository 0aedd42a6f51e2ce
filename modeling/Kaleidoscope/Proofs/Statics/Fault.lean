/-
  What is wrong with an expression.

  - `Scope`: what an expression may refer to;
  - `Term.fault?`: the first fault of an expression, from left to right. Nothing is remembered
    between nodes here, and there is no state. At a variable, an operator or a call without content
    lowering is given up, and that is a fault like others; `Error.Inner` tells it from them;
  - `Term.subterms`, `OneEach`: the nodes of an expression, and that an identity stands for one of
    them only; `Term.LacksContent`, `Term.Whole`: the nodes without content, and the expressions
    that lack nothing;
  - `Backend.Judges`: what the plans of a backend have to do at their own node;
  - `Judges.finds`: a backend whose plans do so finds the first fault of every expression, however
    its nodes are shared and whatever a pass has recorded before.
-/
import Kaleidoscope.Proofs.Lowering.Run
import Mathlib.Data.List.Forall2

namespace Kaleidoscope

/-- What an expression may refer to: parameters, and functions with so many arguments. -/
structure Scope where
  params : List String
  arity? : String → Option Nat

namespace Scope

/-- What is wrong with the use of a variable. -/
def variableFault? (Γ : Scope) (name : String) : Option Error :=
  if name ∈ Γ.params then none else some (.undefinedVariable name)

/-- What is wrong with a call of a function with so many arguments, its arguments apart. -/
def callFault? (Γ : Scope) (callee : String) (count : Nat) : Option Error :=
  match Γ.arity? callee with
  | none => some (.undefinedFunction callee)
  | some arity => if arity ≠ count then some (.arity callee arity count) else none

end Scope

/-- The error is not that of a lowering that was given up. -/
def Error.Inner (e : Error) : Prop := ∀ reason, e ≠ .aborted reason

theorem Error.inner_of_isMistake {e : Error} (h : e.isMistake = true) : e.Inner := by
  rintro reason rfl
  cases h

theorem Scope.isMistake_of_callFault? {Γ : Scope} {callee : String} {count : Nat} {e : Error}
    (h : Γ.callFault? callee count = some e) : e.isMistake = true := by
  unfold Scope.callFault? at h
  split at h
  · injection h with h
    subst h; rfl
  · split at h
    · injection h with h
      subst h; rfl
    · cases h

/-- What is wrong with an operator. -/
def OpCode.fault? (op : OpCode) : Option Error :=
  if op.operator?.isNone then some (.operation op) else none

/-- The first of some faults. -/
def firstFault? (faults : List (Option Error)) : Option Error := faults.foldr Option.or none

mutual

/-- The first fault of an expression: operands come before their operator, and a function before
its arguments. -/
def Term.fault? (Γ : Scope) : Term → Option Error
  | .absent => some .absentNode
  | .foreign kind => some (.foreignNode kind)
  | .blank => none
  | .hollow _ => some (.aborted blankRead)
  | .number _ _ => none
  | .identifier _ name => Γ.variableFault? name
  | .binary _ op left right => (left.fault? Γ).or ((right.fault? Γ).or op.fault?)
  | .call _ callee args => (Γ.callFault? callee args.length).or (firstFault? (Term.faults Γ args))

/-- The first fault of each of some expressions. -/
def Term.faults (Γ : Scope) : List Term → List (Option Error)
  | [] => []
  | t :: ts => t.fault? Γ :: Term.faults Γ ts

end

@[simp] theorem Term.length_faults (Γ : Scope) (ts : List Term) :
    (Term.faults Γ ts).length = ts.length := by
  induction ts with
  | nil => rfl
  | cons t ts ih => simp only [Term.faults, List.length_cons, ih]

/-! ## The nodes of an expression -/

mutual

/-- The expression and all expressions in it. -/
def Term.subterms : Term → List Term
  | .binary id op left right => .binary id op left right :: (left.subterms ++ right.subterms)
  | .call id callee args => .call id callee args :: Term.allSubterms args
  | t => [t]

/-- Some expressions and all expressions in them. -/
def Term.allSubterms : List Term → List Term
  | [] => []
  | t :: ts => t.subterms ++ Term.allSubterms ts

end

theorem Term.self_mem_subterms (t : Term) : t ∈ t.subterms := by
  cases t <;> simp [Term.subterms]

/-- The node has no content. -/
def Term.LacksContent : Term → Prop
  | .blank | .hollow _ => True
  | _ => False

/-- The expression has no hole, no foreign node and no node without content. -/
def Term.Whole (t : Term) : Prop := ∀ u ∈ t.subterms, u.id? ≠ none ∧ ¬u.LacksContent

theorem Term.Whole.ne_blank {t : Term} (h : t.Whole) : ∀ u ∈ t.subterms, u ≠ .blank := by
  rintro u hu rfl
  exact (h _ hu).2 trivial

mutual

/-- An expression that lacks nothing has only faults of the program. -/
theorem Term.isMistake_of_fault? {Γ : Scope} {e : Error} : ∀ t : Term,
    t.Whole → t.fault? Γ = some e → e.isMistake = true
  | .absent, hwhole, _ => absurd rfl (hwhole _ (Term.self_mem_subterms _)).1
  | .foreign _, hwhole, _ => absurd rfl (hwhole _ (Term.self_mem_subterms _)).1
  | .hollow _, hwhole, _ => absurd trivial (hwhole _ (Term.self_mem_subterms _)).2
  | .blank, _, h => by cases h
  | .number _ _, _, h => by cases h
  | .identifier _ name, _, h => by
    simp only [Term.fault?, Scope.variableFault?] at h
    split at h
    · cases h
    · injection h with h
      subst h; rfl
  | .binary id op left right, hwhole, h => by
    have hl := Term.isMistake_of_fault? (Γ := Γ) (e := e) left fun u hu =>
      hwhole u (List.mem_cons_of_mem _ (List.mem_append_left _ hu))
    have hr := Term.isMistake_of_fault? (Γ := Γ) (e := e) right fun u hu =>
      hwhole u (List.mem_cons_of_mem _ (List.mem_append_right _ hu))
    simp only [Term.fault?, Option.or_eq_some_iff] at h
    rcases h with h | ⟨-, h | ⟨-, h⟩⟩
    · exact hl h
    · exact hr h
    · unfold OpCode.fault? at h
      split at h
      · injection h with h
        subst h; rfl
      · cases h
  | .call id callee args, hwhole, h => by
    have hargs := Term.isMistake_of_faults (Γ := Γ) (e := e) args fun u hu =>
      hwhole u (List.mem_cons_of_mem _ hu)
    simp only [Term.fault?, Option.or_eq_some_iff] at h
    rcases h with h | ⟨-, h⟩
    · exact Scope.isMistake_of_callFault? h
    · exact hargs h

theorem Term.isMistake_of_faults {Γ : Scope} {e : Error} : ∀ ts : List Term,
    (∀ u ∈ Term.allSubterms ts, u.id? ≠ none ∧ ¬u.LacksContent) →
      firstFault? (Term.faults Γ ts) = some e → e.isMistake = true
  | [], _, h => by cases h
  | t :: ts, hwhole, h => by
    have ht := Term.isMistake_of_fault? (Γ := Γ) (e := e) t fun u hu =>
      hwhole u (List.mem_append_left _ hu)
    have hts := Term.isMistake_of_faults (Γ := Γ) (e := e) ts fun u hu =>
      hwhole u (List.mem_append_right _ hu)
    simp only [Term.faults, firstFault?, List.foldr_cons, Option.or_eq_some_iff] at h
    rcases h with h | ⟨-, h⟩
    · exact ht h
    · exact hts h

end

/-- An identity stands for one of the expressions only. -/
def OneEach (all : List Term) : Prop :=
  ∀ u ∈ all, ∀ v ∈ all, u.id? = v.id? → u.id? ≠ none → u = v

/-! ## Finding the first fault -/

variable {σ ρ α : Type}

/-- The outcome of an expression with that first fault: the fault, if it is one that lowering is
given up for, by giving up; or a good result if there is none. -/
def Outcome.Meets (good : α → Prop) : Outcome α → Option Error → Prop
  | .ok r, none => good r
  | .error e, some fault => e = fault ∧ fault.Inner
  | .abort reason, some fault => fault = .aborted reason
  | _, _ => False

/-- The action keeps what holds of states and passes, and its outcome is that fault or a good
result. -/
def Action.Finds (inv : σ → Prop) (sound : Pass ρ → Prop) (good : ρ → Prop) (a : Action σ ρ ρ)
    (fault : Option Error) : Prop :=
  ∀ s p, inv s → sound p →
    ∃ o s' p', a s p = (o, s', p') ∧ o.Meets good fault ∧ inv s' ∧ sound p'

/-- What a pass has recorded for the expressions is a good result, and they have no fault. -/
def Pass.Vouches (Γ : Scope) (good : ρ → Prop) (all : List Term) (p : Pass ρ) : Prop :=
  ∀ u ∈ all, ∀ id, u.id? = some id → ∀ r, p.result? id = some r → good r ∧ u.fault? Γ = none

/-- The plans of a backend for expressions in a scope: each finds the fault of its own node, and asks
for the children where their faults come. -/
structure Backend.Judges (b : Backend σ ρ) (Γ : Scope) (inv : σ → Prop) (good : ρ → Prop) :
    Prop where
  number : ∀ sound value, Action.Finds inv sound good ((b.number (some value)).run []) none
  identifier : ∀ sound name,
    Action.Finds inv sound good ((b.identifier name).run []) (Γ.variableFault? name)
  binary : ∀ op, ∃ finish : ρ → ρ → Plan σ ρ ρ,
    (b.binary op = do
      let left ← Plan.lower 0
      let right ← Plan.lower 1
      finish left right) ∧
    ∀ sound children left right, good left → good right →
      Action.Finds inv sound good ((finish left right).run children) op.fault?
  call : ∀ callee args s, inv s →
    match Γ.callFault? callee args.length with
    | some e => ∀ p, (b.call callee args.length).run args s p = (.error e, s, p)
    | none => ∃ finish : List ρ → Plan σ ρ ρ,
      (∀ p, (b.call callee args.length).run args s p =
        Action.andThen (Action.inOrder args s p) fun rs s p => (finish rs).run args s p) ∧
      ∀ sound rs, Action.Finds inv sound good ((finish rs).run args) none
  hollow : ∀ kind, b.hollow kind = .abort blankRead

section
variable {inv : σ → Prop} {sound : Pass ρ → Prop} {good : ρ → Prop}

theorem Outcome.Meets.cases {good : α → Prop} {o : Outcome α} {fault : Option Error}
    (h : o.Meets good fault) :
    (∃ r, o = .ok r ∧ fault = none ∧ good r) ∨ (∃ e, o = .error e ∧ fault = some e ∧ e.Inner) ∨
      ∃ reason, o = .abort reason ∧ fault = some (.aborted reason) := by
  cases fault with
  | none =>
    cases o with
    | ok r => exact Or.inl ⟨r, rfl, rfl, h⟩
    | error | abort => exact h.elim
  | some fault =>
    cases o with
    | ok r => exact h.elim
    | error e =>
      obtain ⟨rfl, hinner⟩ := h
      exact Or.inr (Or.inl ⟨e, rfl, rfl, hinner⟩)
    | abort reason => exact Or.inr (Or.inr ⟨reason, rfl, congrArg some h⟩)

/-- Actions in order find the first of their faults. -/
theorem Action.inOrder_finds {args : List (Action σ ρ ρ)} {faults : List (Option Error)}
    (h : List.Forall₂ (Action.Finds inv sound good) args faults) {s : σ} {p : Pass ρ}
    (hs : inv s) (hp : sound p) :
    ∃ o s' p', Action.inOrder args s p = (o, s', p') ∧
      o.Meets (fun _ => True) (firstFault? faults) ∧ inv s' ∧ sound p' := by
  induction h generalizing s p with
  | nil => exact ⟨_, s, p, rfl, trivial, hs, hp⟩
  | @cons a fault args faults ha _ ih =>
    obtain ⟨o, s₁, p₁, hrun, hmeets, hs₁, hp₁⟩ := ha s p hs hp
    simp only [Action.inOrder, hrun]
    rcases hmeets.cases with ⟨r, rfl, rfl, -⟩ | ⟨e, rfl, rfl, hinner⟩ | ⟨reason, rfl, rfl⟩
    · obtain ⟨o', s₂, p₂, hrest, hmeets', hs₂, hp₂⟩ := ih hs₁ hp₁
      have hfirst : firstFault? (none :: faults) = firstFault? faults := rfl
      simp only [Action.andThen_ok, hrest, hfirst]
      rcases hmeets'.cases with ⟨rs, rfl, hf, -⟩ | ⟨e, rfl, -⟩ | ⟨reason, rfl, -⟩
      · exact ⟨.ok (r :: rs), s₂, p₂, rfl, hf ▸ trivial, hs₂, hp₂⟩
      · exact ⟨.error e, s₂, p₂, rfl, hmeets', hs₂, hp₂⟩
      · exact ⟨.abort reason, s₂, p₂, rfl, hmeets', hs₂, hp₂⟩
    · exact ⟨.error e, s₁, p₁, rfl, ⟨rfl, hinner⟩, hs₁, hp₁⟩
    · exact ⟨.abort reason, s₁, p₁, rfl, rfl, hs₁, hp₁⟩

/-- An operator finds the faults of its operands before its own. -/
theorem Backend.Judges.binary_finds {b : Backend σ ρ} {Γ : Scope} (hb : b.Judges Γ inv good)
    (op : OpCode) {left right : Action σ ρ ρ} {faultLeft faultRight : Option Error}
    (hleft : Action.Finds inv sound good left faultLeft)
    (hright : Action.Finds inv sound good right faultRight) :
    Action.Finds inv sound good ((b.binary op).run [left, right])
      (faultLeft.or (faultRight.or op.fault?)) := by
  obtain ⟨finish, hplan, hfinish⟩ := hb.binary op
  intro s p hs hp
  obtain ⟨o₁, s₁, p₁, hl, hmeets₁, hs₁, hp₁⟩ := hleft s p hs hp
  rw [hplan, Plan.run_bind, Plan.run_lower _ _ _ (a := left) rfl, hl]
  rcases hmeets₁.cases with ⟨x, rfl, rfl, hx⟩ | ⟨e, rfl, rfl, hinner⟩ | ⟨reason, rfl, rfl⟩
  · obtain ⟨o₂, s₂, p₂, hr, hmeets₂, hs₂, hp₂⟩ := hright s₁ p₁ hs₁ hp₁
    rw [Action.andThen_ok, Plan.run_bind, Plan.run_lower _ _ _ (a := right) rfl, hr]
    rcases hmeets₂.cases with ⟨y, rfl, rfl, hy⟩ | ⟨e, rfl, rfl, hinner⟩ | ⟨reason, rfl, rfl⟩
    · exact hfinish sound [left, right] x y hx hy s₂ p₂ hs₂ hp₂
    · exact ⟨_, s₂, p₂, rfl, ⟨rfl, hinner⟩, hs₂, hp₂⟩
    · exact ⟨_, s₂, p₂, rfl, rfl, hs₂, hp₂⟩
  · exact ⟨_, s₁, p₁, rfl, ⟨rfl, hinner⟩, hs₁, hp₁⟩
  · exact ⟨_, s₁, p₁, rfl, rfl, hs₁, hp₁⟩

/-- A call finds its own fault before those of its arguments. -/
theorem Backend.Judges.call_finds {b : Backend σ ρ} {Γ : Scope} (hb : b.Judges Γ inv good)
    (callee : String) {args : List (Action σ ρ ρ)} {faults : List (Option Error)}
    (hargs : List.Forall₂ (Action.Finds inv sound good) args faults) :
    Action.Finds inv sound good ((b.call callee args.length).run args)
      ((Γ.callFault? callee args.length).or (firstFault? faults)) := by
  intro s p hs hp
  have hcall := hb.call callee args s hs
  cases hfault : Γ.callFault? callee args.length with
  | some e =>
    rw [hfault] at hcall
    have hinner := Error.inner_of_isMistake (Scope.isMistake_of_callFault? hfault)
    exact ⟨_, s, p, hcall p, ⟨rfl, hinner⟩, hs, hp⟩
  | none =>
    rw [hfault] at hcall
    obtain ⟨finish, hplan, hfinish⟩ := hcall
    obtain ⟨o, s₁, p₁, hrun, hmeets, hs₁, hp₁⟩ := Action.inOrder_finds hargs hs hp
    rw [hplan, hrun, Option.none_or]
    rcases hmeets.cases with ⟨rs, rfl, hf, -⟩ | ⟨e, rfl, hf, hinner⟩ | ⟨reason, rfl, hf⟩
    · rw [hf]
      exact hfinish sound rs s₁ p₁ hs₁ hp₁
    · rw [hf]
      exact ⟨_, s₁, p₁, rfl, ⟨rfl, hinner⟩, hs₁, hp₁⟩
    · rw [hf]
      exact ⟨_, s₁, p₁, rfl, rfl, hs₁, hp₁⟩

end

section
variable {b : Backend σ ρ} {Γ : Scope} {inv : σ → Prop} {good : ρ → Prop} {all : List Term}

/-- Recording the result of an expression without a fault. -/
theorem Pass.Vouches.record (hone : OneEach all) {p : Pass ρ} (hp : p.Vouches Γ good all) {u : Term}
    (hu : u ∈ all) {id : NodeId} (hid : u.id? = some id) {r : ρ} (hr : good r)
    (hfault : u.fault? Γ = none) : ((p.record id r).leave).Vouches Γ good all := by
  intro v hv id' hid' r' hr'
  rw [Pass.result?_leave, Pass.result?_record] at hr'
  split at hr'
  · rename_i heq
    subst heq
    have huv : u = v := hone u hu v hv (hid.trans hid'.symm) (by rw [hid]; exact nofun)
    cases hr'
    exact ⟨hr, huv ▸ hfault⟩
  · exact hp v hv id' hid' r' hr'

/-- A node whose plan finds its fault finds it also if its result was recorded before. -/
theorem visit_finds (hone : OneEach all) {u : Term} (hu : u ∈ all) {id : NodeId}
    (hid : u.id? = some id) {plan : Plan σ ρ ρ} {children : List (Action σ ρ ρ)}
    (h : Action.Finds inv (Pass.Vouches Γ good all) good (plan.run children) (u.fault? Γ)) :
    Action.Finds inv (Pass.Vouches Γ good all) good (visit id plan children) (u.fault? Γ) := by
  intro s p hs hp
  cases hrec : p.result? id with
  | some r =>
    obtain ⟨hr, hfault⟩ := hp u hu id hid r hrec
    refine ⟨_, s, p, visit_of_recorded hrec, ?_, hs, hp⟩
    rw [hfault]; exact hr
  | none =>
    obtain ⟨o, s', p', hrun, hmeets, hs', hp'⟩ := h s p.enter hs hp
    rw [visit_of_missing hrec, hrun]
    rcases hmeets.cases with ⟨r, rfl, hfault, hr⟩ | ⟨e, rfl, -⟩ | ⟨reason, rfl, -⟩
    · exact ⟨_, s', _, rfl, hmeets, hs', hp'.record hone hu hid hr hfault⟩
    · exact ⟨_, s', _, rfl, hmeets, hs', hp'⟩
    · exact ⟨_, s', _, rfl, hmeets, hs', hp'⟩

mutual

/-- **A backend that judges finds the first fault of every expression.** -/
theorem Backend.Judges.finds (hb : b.Judges Γ inv good) (hone : OneEach all)
    (hfull : ∀ u ∈ all, u ≠ .blank) : ∀ t : Term, t.subterms ⊆ all →
      Action.Finds inv (Pass.Vouches Γ good all) good (t.action b) (t.fault? Γ)
  | .absent, _ => fun s p hs hp => ⟨_, s, p, rfl, ⟨rfl, by rintro _ ⟨⟩⟩, hs, hp⟩
  | .foreign _, _ => fun s p hs hp => ⟨_, s, p, rfl, ⟨rfl, by rintro _ ⟨⟩⟩, hs, hp⟩
  | .blank, h => absurd rfl (hfull _ (h (Term.self_mem_subterms _)))
  | .hollow kind, h => by
    rw [Term.action, hb.hollow kind]
    refine visit_finds hone (h (Term.self_mem_subterms _)) rfl fun s p hs hp => ?_
    exact ⟨_, s, p, rfl, rfl, hs, hp⟩
  | .number id value, h => by
    rw [Term.action]
    exact visit_finds hone (h (Term.self_mem_subterms _)) rfl (hb.number _ value)
  | .identifier id name, h => by
    rw [Term.action]
    exact visit_finds hone (h (Term.self_mem_subterms _)) rfl (hb.identifier _ name)
  | .binary id op left right, h => by
    have hsub : left.subterms ++ right.subterms ⊆ all := fun u hu => h (List.mem_cons_of_mem _ hu)
    have hl := hb.finds hone hfull left fun u hu => hsub (List.mem_append_left _ hu)
    have hr := hb.finds hone hfull right fun u hu => hsub (List.mem_append_right _ hu)
    rw [Term.action]
    exact visit_finds hone (h (Term.self_mem_subterms _)) rfl (hb.binary_finds op hl hr)
  | .call id callee args, h => by
    have hargs := hb.finds_all hone hfull args fun u hu => h (List.mem_cons_of_mem _ hu)
    have hcall := hb.call_finds callee hargs
    rw [hargs.length_eq, Term.length_faults] at hcall
    rw [Term.action]
    exact visit_finds hone (h (Term.self_mem_subterms _)) rfl hcall

theorem Backend.Judges.finds_all (hb : b.Judges Γ inv good) (hone : OneEach all)
    (hfull : ∀ u ∈ all, u ≠ .blank) : ∀ ts : List Term, Term.allSubterms ts ⊆ all →
      List.Forall₂ (Action.Finds inv (Pass.Vouches Γ good all) good) (Term.actions b ts)
        (Term.faults Γ ts)
  | [], _ => .nil
  | t :: ts, h => by
    rw [Term.actions, Term.faults]
    exact .cons (hb.finds hone hfull t fun u hu => h (List.mem_append_left _ hu))
      (hb.finds_all hone hfull ts fun u hu => h (List.mem_append_right _ hu))

end

end

end Kaleidoscope
