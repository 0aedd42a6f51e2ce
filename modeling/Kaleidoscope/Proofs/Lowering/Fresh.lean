/-
  Expressions whose nodes are new to the pass.

  The nodes of a parsed expression have identities of their own. Where a pass has recorded none of
  them, it plays no part in what becomes of the expression.

  - `Chain`: what becomes of expressions, one after another;
  - `Backend.Computes`: the plans of a backend do to an expression what a relation between states and
    results says, if the plans of its parts do;
  - `Backend.Computes.run_toTerm`: then the nodes of a whole expression do so.
-/
import Kaleidoscope.Proofs.Lowering.Run
import Kaleidoscope.Proofs.Statics.Parsed

namespace Kaleidoscope
variable {σ ρ : Type}

/-- Nothing is recorded for the identities from `n` up to `m`. -/
def Pass.Fresh (n m : Nat) (p : Pass ρ) : Prop :=
  ∀ id : Nat, n ≤ id → id < m → p.result? id = none

/-- The same is recorded in both passes, except for the identities from `n` up to `m`. -/
def Pass.SameOutside (n m : Nat) (p p' : Pass ρ) : Prop :=
  ∀ id : Nat, (id < n ∨ m ≤ id) → p'.result? id = p.result? id

/-- What becomes of expressions, one after another. -/
inductive Chain (R : Expr → σ → ρ → σ → Prop) : List Expr → σ → List ρ → σ → Prop
  | nil {s : σ} : Chain R [] s [] s
  | cons {e : Expr} {es : List Expr} {s s' s'' : σ} {r : ρ} {rs : List ρ} (h : R e s r s')
      (hs : Chain R es s' rs s'') : Chain R (e :: es) s (r :: rs) s''

/-- The plans of a backend do to an expression what `R` says: it relates the state before to the
result and the state after. The operands of an operator are asked for from left to right, and so are
the arguments of a call. -/
structure Backend.Computes (b : Backend σ ρ) (R : Expr → σ → ρ → σ → Prop) : Prop where
  number {value : Binary64} {s : σ} {r : ρ} {s' : σ} (h : R (.number value) s r s') (p : Pass ρ) :
    (b.number (some value)).run [] s p = (.ok r, s', p)
  identifier {name : String} {s : σ} {r : ρ} {s' : σ} (h : R (.identifier name) s r s')
    (p : Pass ρ) : (b.identifier name).run [] s p = (.ok r, s', p)
  binary {op : Operator} {left right : Expr} {s : σ} {r : ρ} {s' : σ}
    (h : R (.binary op left right) s r s') :
    ∃ l s₁ k s₂, R left s l s₁ ∧ R right s₁ k s₂ ∧ ∀ (a c : Action σ ρ ρ) (p p₁ p₂ : Pass ρ),
      a s p = (.ok l, s₁, p₁) → c s₁ p₁ = (.ok k, s₂, p₂) →
      (b.binary (.ofOperator op)).run [a, c] s p = (.ok r, s', p₂)
  call {callee : String} {args : List Expr} {s : σ} {r : ρ} {s' : σ}
    (h : R (.call callee args) s r s') :
    ∃ rs s₁, Chain R args s rs s₁ ∧ ∀ (actions : List (Action σ ρ ρ)) (p p₁ : Pass ρ),
      actions.length = args.length → Action.inOrder actions s p = (.ok rs, s₁, p₁) →
      (b.call callee args.length).run actions s p = (.ok r, s', p₁)

theorem Expr.length_toTerms (es : List Expr) (n : Nat) :
    (Expr.toTerms es n).1.length = es.length := by
  induction es generalizing n with
  | nil => rfl
  | cons e es ih => simp only [Expr.toTerms, List.length_cons, ih]

theorem Term.length_actions (b : Backend σ ρ) (ts : List Term) :
    (Term.actions b ts).length = ts.length := by
  induction ts with
  | nil => rfl
  | cons t ts ih => simp only [Term.actions, List.length_cons, ih]

namespace Backend.Computes
variable {b : Backend σ ρ} {R : Expr → σ → ρ → σ → Prop}

mutual

/-- **A backend does to the nodes of an expression what its plans do**, if the nodes are new to the
pass; and nothing is recorded for other nodes. -/
theorem run_toTerm (h : b.Computes R) : ∀ (e : Expr) (n : Nat) {s : σ} {r : ρ} {s' : σ}
    (p : Pass ρ), R e s r s' → p.Fresh n (e.toTerm n).2 →
    ∃ p', (e.toTerm n).1.action b s p = (.ok r, s', p') ∧ p.SameOutside n (e.toTerm n).2 p'
  | .number value, n, s, r, s', p, hR, hp => by
    have hown := hp n (Nat.le_refl n) (Nat.lt_succ_self n)
    refine ⟨(p.enter.record n r).leave, ?_, fun id hid => ?_⟩
    · simp only [Expr.toTerm, Term.action, visit_of_missing hown, h.number hR, settle]
    · exact Pass.result?_record_leave _ (Nat.le_refl n) (Nat.lt_succ_self n) hid
  | .identifier name, n, s, r, s', p, hR, hp => by
    have hown := hp n (Nat.le_refl n) (Nat.lt_succ_self n)
    refine ⟨(p.enter.record n r).leave, ?_, fun id hid => ?_⟩
    · simp only [Expr.toTerm, Term.action, visit_of_missing hown, h.identifier hR, settle]
    · exact Pass.result?_record_leave _ (Nat.le_refl n) (Nat.lt_succ_self n) hid
  | .binary op left right, n, s, r, s', p, hR, hp => by
    have hl := (left.toTerm_within n).1
    have hr := (right.toTerm_within (left.toTerm n).2).1
    obtain ⟨l, s₁, k, s₂, hleft, hright, hplan⟩ := h.binary hR
    simp only [Expr.toTerm] at hp ⊢
    have hown := hp (right.toTerm (left.toTerm n).2).2 (by omega) (by omega)
    obtain ⟨p₁, hrun₁, hkept₁⟩ := h.run_toTerm left n p.enter hleft
      fun id hfrom hto => hp id hfrom (by omega)
    obtain ⟨p₂, hrun₂, hkept₂⟩ := h.run_toTerm right (left.toTerm n).2 p₁ hright
      fun id hfrom hto => by rw [hkept₁ id (Or.inr hfrom)]; exact hp id (by omega) (by omega)
    refine ⟨(p₂.record (right.toTerm (left.toTerm n).2).2 r).leave, ?_, fun id hid => ?_⟩
    · simp only [Term.action, visit_of_missing hown, hplan _ _ _ _ _ hrun₁ hrun₂, settle]
    · have hout₂ := hid.imp (Nat.lt_trans · hl) Nat.le_of_succ_le
      have hout₁ := hid.imp_right fun h => Nat.le_trans (Nat.le_of_lt hr) (Nat.le_of_succ_le h)
      rw [Pass.result?_record_leave _ (by omega) (Nat.lt_succ_self _) hid, hkept₂ id hout₂,
        hkept₁ id hout₁]
      rfl
  | .call callee args, n, s, r, s', p, hR, hp => by
    have ha := (Expr.toTerms_within args n).1
    obtain ⟨rs, s₁, hargs, hplan⟩ := h.call hR
    simp only [Expr.toTerm] at hp ⊢
    have hown := hp (Expr.toTerms args n).2 (by omega) (by omega)
    obtain ⟨p₁, hrun, hkept⟩ := h.run_toTerms args n p.enter hargs
      fun id hfrom hto => hp id hfrom (by omega)
    have hlength : (Term.actions b (Expr.toTerms args n).1).length = args.length := by
      rw [Term.length_actions, Expr.length_toTerms]
    refine ⟨(p₁.record (Expr.toTerms args n).2 r).leave, ?_, fun id hid => ?_⟩
    · simp only [Term.action, visit_of_missing hown, Expr.length_toTerms, hplan _ _ _ hlength hrun,
        settle]
    · rw [Pass.result?_record_leave _ ha (Nat.lt_succ_self _) hid,
        hkept id (hid.imp_right Nat.le_of_succ_le)]
      rfl

theorem run_toTerms (h : b.Computes R) : ∀ (es : List Expr) (n : Nat) {s : σ} {rs : List ρ}
    {s' : σ} (p : Pass ρ), Chain R es s rs s' → p.Fresh n (Expr.toTerms es n).2 →
    ∃ p', Action.inOrder (Term.actions b (Expr.toTerms es n).1) s p = (.ok rs, s', p') ∧
      p.SameOutside n (Expr.toTerms es n).2 p'
  | [], n, s, rs, s', p, hchain, hp => by
    cases hchain
    exact ⟨p, rfl, fun _ _ => rfl⟩
  | e :: es, n, s, rs, s', p, hchain, hp => by
    cases hchain with
    | cons hR hlater =>
      have hfirst := (e.toTerm_within n).1
      have hrest := (Expr.toTerms_within es (e.toTerm n).2).1
      simp only [Expr.toTerms] at hp ⊢
      obtain ⟨p₁, he, hkept₁⟩ := h.run_toTerm e n p hR fun id hfrom hto => hp id hfrom (by omega)
      obtain ⟨p₂, hes, hkept₂⟩ := h.run_toTerms es (e.toTerm n).2 p₁ hlater
        fun id hfrom hto => by rw [hkept₁ id (Or.inr hfrom)]; exact hp id (by omega) hto
      refine ⟨p₂, ?_, fun id hid => ?_⟩
      · simp only [Term.actions, Action.inOrder, he, Action.andThen_ok, hes]
      · rw [hkept₂ id (hid.imp_left (Nat.lt_trans · hfirst)),
          hkept₁ id (hid.imp_right (Nat.le_trans hrest))]

end

end Backend.Computes

end Kaleidoscope
