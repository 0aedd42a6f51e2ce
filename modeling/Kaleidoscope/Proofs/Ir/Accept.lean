/-
  What a construct without a fault makes of the builder.

  - `Builder.accept`: the function of the construct is declared, gets the code of the body if there
    is one, and is numbered;
  - `Builder.accept_eq`: that is what lowering the construct and writing the function do;
  - `Regular.accept`, `Regular.agrees_accept`: the invariant survives, and others know what follows
    from the construct;
  - `Settled.accept`: a function that has a body keeps it;
  - `Regular.execute_outcome`: the function of a construct computes what its body means.
-/
import Kaleidoscope.Proofs.Ir.Regular

namespace Kaleidoscope

universe u

open Ir

namespace IsName
variable {name : String} (h : IsName name)
include h

theorem plain : Builder.Plain name := Builder.plain_of_no_underscore h.no_underscore

/-- A name spells no number. -/
theorem signedNumber? : Ir.signedNumber? name = none := by
  obtain ⟨c, cs, hlist, hletter, -⟩ := h
  have hdigit : c.isDigit = false := by
    by_contra hdigit
    rw [isLetter_eq_false (Or.inl (by simpa using hdigit))] at hletter; cases hletter
  have hminus : c ≠ '-' := by
    rintro rfl
    rw [isLetter_eq_false (Or.inr (Or.inl rfl))] at hletter; cases hletter
  have hplus : c ≠ '+' := by
    rintro rfl
    rw [isLetter_eq_false (Or.inr (Or.inr rfl))] at hletter; cases hletter
  rw [Ir.signedNumber?, hlist]
  simp [hminus, hplus, isDigits, hdigit]

end IsName

namespace Construct.Named
variable {c : Construct} (h : c.Named IsName)
include h

/-- The prototype of a construct whose names are spelled like names. -/
theorem ordinary : Builder.Ordinary c.proto := by
  rcases h.proto with hproto | hname
  · exact Or.inl (by rw [hproto]; rfl)
  · exact Or.inr ⟨hname.plain, hname.signedNumber?⟩

theorem plain : Builder.Plain c.proto.name := by
  rcases h.proto with hproto | hname
  · rw [hproto]
    exact Builder.plain_of_no_underscore (by decide)
  · exact hname.plain

theorem calls {body : Expr} (hbody : c.body? = some body) (n : Nat) :
    (body.toTerm n).1.Calls Builder.Plain := by
  intro id callee args hu
  exact (body.toTerm_calls n (h.body hbody) id callee args hu).plain

end Construct.Named

namespace Ir.Builder

/-- The function of a construct after it. -/
def outcome (b : Builder) (c : Construct) : Function :=
  match c.body? with
  | none => b.target c.proto
  | some body =>
    let (code, value) := body.code (b.frame c.proto) 0
    b.withCode c.proto code (some value)

/-- The builder after a construct without a fault. -/
def accept (b : Builder) (c : Construct) : Builder :=
  (b.declared c.proto).2.put (b.declared c.proto).1 (b.outcome c).numbered

section
variable {b : Builder} (h : b.Regular) {c : Construct} (hc : c.Named IsName)
  (hfault : c.fault? b.signature? = none)

theorem outcome_of_body {b : Builder} {c : Construct} {body : Expr} (hbody : c.body? = some body) :
    b.outcome c = b.withCode c.proto (body.code (b.frame c.proto) 0).1
      (some (body.code (b.frame c.proto) 0).2) := by
  rw [outcome, hbody]

theorem outcome_of_declaration {b : Builder} {c : Construct} (hbody : c.body? = none) :
    b.outcome c = b.target c.proto := by
  rw [outcome, hbody]

include h hc hfault

/-- Nothing is wrong with the body of a construct without a fault. -/
theorem Regular.opens {body : Expr} (hbody : c.body? = some body) :
    b.Opens c.proto ∧ (body.toTerm NodeId.first).1.fault? (b.bodyScope c.proto) = none := by
  rw [Construct.fault?_of_body hbody] at hfault
  obtain ⟨hproto, hrest⟩ := Option.or_eq_none_iff.1 hfault
  obtain ⟨hconflict, hexpr⟩ := Option.or_eq_none_iff.1 hrest
  refine ⟨⟨h.sound, hproto, hconflict⟩, ?_⟩
  rw [h.sound.fault?_bodyScope c.proto (hc.calls hbody NodeId.first)]
  exact hexpr

/-- The function of a construct keeps its name and arity, and can be written. -/
theorem Regular.outcome : (b.outcome c).name = (b.target c.proto).name ∧
    (b.outcome c).params.length = (b.target c.proto).params.length ∧ (b.outcome c).Complete := by
  cases hbody : c.body? with
  | none =>
    rw [outcome_of_declaration hbody]
    have hregular := h.declared (Construct.proto_fault? hfault) hc.ordinary
    exact ⟨rfl, rfl, hregular.complete (function?_declared b c.proto)⟩
  | some body =>
    rw [outcome_of_body hbody]
    have hopens := (h.opens hc hfault hbody).1
    exact ⟨rfl, (target_of_conflict hopens.conflict).2.symm, Function.complete_withBody _ _ _⟩

/-- **What lowering a construct without a fault does, and writing its function after that.** -/
theorem Regular.accept_eq : ∃ text b',
    (c.toNode NodeId.first).1.lowerFresh backend b = (.ok (.function (b.declared c.proto).1), b') ∧
      b'.write (b.declared c.proto).1 = (.ok text, b.accept c) := by
  obtain ⟨-, -, hcomplete⟩ := h.outcome hc hfault
  cases hbody : c.body? with
  | none =>
    have hlower := lowerFresh_prototype b NodeId.first c.proto
    rw [← Construct.fault?_of_declaration hbody, hfault] at hlower
    rw [outcome_of_declaration hbody] at hcomplete
    obtain ⟨text, hwrite⟩ := write_of_complete (function?_declared b c.proto) hcomplete
    rw [← Construct.toNode_of_declaration hbody] at hlower
    refine ⟨text, _, hlower, ?_⟩
    rw [accept, outcome_of_declaration hbody]
    exact hwrite
  | some body =>
    obtain ⟨hopens, hexpr⟩ := h.opens hc hfault hbody
    have hlower := lowerFresh_body hopens body NodeId.first hexpr
    rw [outcome_of_body hbody] at hcomplete
    obtain ⟨text, hwrite⟩ := write_of_complete
      (function?_put_self (function?_declared b c.proto) _) hcomplete
    rw [← Construct.toNode_of_body hbody] at hlower
    refine ⟨text, _, hlower, ?_⟩
    rw [put_put] at hwrite
    rw [accept, outcome_of_body hbody]
    exact hwrite

/-- The function of a construct with a body is correct. -/
theorem Regular.correct_outcome {body : Expr} (hbody : c.body? = some body) :
    (b.outcome c).Correct (b.declared c.proto).2 (b.declared c.proto).1 := by
  have hregular := h.declared (Construct.proto_fault? hfault) hc.ordinary
  rw [outcome_of_body hbody]
  obtain ⟨-, hexpr⟩ := h.opens hc hfault hbody
  have htakes : ∀ callee count, (b.bodyScope c.proto).arity? callee = some count →
      (b.declared c.proto).2.Takes callee count := by
    intro callee count harity
    simp only [bodyScope, signature?, Option.map_map, Option.map_eq_some_iff] at harity
    obtain ⟨⟨serial, f⟩, hfind, rfl⟩ := harity
    exact hregular.takes hfind
  obtain ⟨hcode, hvalue⟩ := Expr.code_correct (F := b.frame c.proto) rfl htakes body
    NodeId.first 0 hexpr
  refine Or.inr ⟨_, _, rfl, rfl, ?_, hcode⟩
  show Value.Available (b.frame c.proto) _ _
  simpa using hvalue

/-- **The invariant survives a construct without a fault.** -/
theorem Regular.accept : (b.accept c).Regular := by
  have hregular := h.declared (Construct.proto_fault? hfault) hc.ordinary
  obtain ⟨hname, hparams, hcomplete⟩ := h.outcome hc hfault
  refine hregular.put (function?_declared b c.proto) hname hparams hcomplete.numbered fun hadded => ?_
  refine Function.Correct.numbered ?_
  cases hbody : c.body? with
  | none =>
    rw [outcome_of_declaration hbody]
    exact hregular.correct hadded (function?_declared b c.proto)
  | some body => exact h.correct_outcome hc hfault hbody

/-- **Others know what follows from a construct without a fault.** -/
theorem Regular.agrees_accept :
    Directory.Agrees Plain (b.accept c).signature? (c.next b.signature?) := by
  intro name hplain
  rw [Builder.accept, h.sound.signature?_put_declared _ hplain, Function.signature_numbered]
  cases hbody : c.body? with
  | none =>
    rw [outcome_of_declaration hbody, Construct.next_of_declaration hbody, Directory.declare]
    split
    · rename_i hname
      have hnamed : c.proto.isAnonymous = false := by simpa using hname.2
      simp only [target, hnamed, Bool.false_eq_true, if_false, Directory.entry]
      cases hfind : b.find? c.proto.name with
      | none => simp only [signature?_eq_none_iff.2 hfind]; rfl
      | some found => rw [signature?_of_find? hfind]; rfl
    · rfl
  | some body =>
    have hopens := (h.opens hc hfault hbody).1
    have hbuilt := h.sound.agrees_withCode hopens.conflict (body.code (b.frame c.proto) 0).1
      (some (body.code (b.frame c.proto) 0).2) name hplain
    rw [h.sound.signature?_put_declared _ hplain] at hbuilt
    rw [outcome_of_body hbody, Construct.next_of_body hbody]
    exact hbuilt

end

/-! ## What stays -/

/-- The builder lists a function with a body, and the body is numbered. -/
structure Settled (b : Builder) (serial : Nat) (f : Function) : Prop where
  listed : .function serial ∈ b.entries
  known : b.function? serial = some f
  body : f.blocks ≠ []
  numbered : f.numbered = f

theorem function?_declared_of_known {b : Builder} {serial : Nat} {f : Function}
    (h : b.function? serial = some f) (p : Prototype) :
    (b.declared p).2.function? serial = some f := by
  have hcreate : ∀ g : Function, (b.create g).2.function? serial = some f := fun g =>
    (function?_create_other (function?_lt h) g).trans h
  unfold declared
  split
  · exact hcreate _
  · split
    · exact h
    · exact hcreate _

theorem entries_declared_of_listed {b : Builder} {e : Entry} (h : e ∈ b.entries) (p : Prototype) :
    e ∈ (b.declared p).2.entries := by
  unfold declared
  split
  · exact List.mem_append_left _ h
  · split
    · exact h
    · exact List.mem_append_left _ h

section
variable {b : Builder} (h : b.Regular) {c : Construct} (hc : c.Named IsName)
  (hfault : c.fault? b.signature? = none)
include h hc hfault

/-- **A function that has a body keeps it.** -/
theorem Settled.accept {serial : Nat} {f : Function} (hf : b.Settled serial f) :
    (b.accept c).Settled serial f := by
  have hdeclared := function?_declared_of_known hf.known c.proto
  refine ⟨entries_declared_of_listed hf.listed c.proto, ?_, hf.body, hf.numbered⟩
  rw [Builder.accept]
  by_cases hserial : (b.declared c.proto).1 = serial
  · have htarget := function?_declared b c.proto
    rw [hserial, hdeclared] at htarget
    injection htarget with htarget
    -- only a declaration can be about a function that has a body
    cases hbody : c.body? with
    | none =>
      rw [outcome_of_declaration hbody, ← htarget, hf.numbered, hserial]
      exact function?_put_self hdeclared f
    | some body =>
      have hopens := (h.opens hc hfault hbody).1
      exact absurd (htarget ▸ (target_of_conflict hopens.conflict).1) hf.body
  · exact (function?_put_other hserial _).trans hdeclared

/-- The function of a construct with a body has it from then on. -/
theorem Regular.settled_accept {body : Expr} (hbody : c.body? = some body) :
    (b.accept c).Settled (b.declared c.proto).1 (b.outcome c).numbered := by
  have hregular := h.declared (Construct.proto_fault? hfault) hc.ordinary
  refine ⟨hregular.listed (h.sound.names_declared c.proto),
    function?_put_self (function?_declared b c.proto) _, ?_, Function.numbered_numbered _⟩
  rw [outcome_of_body hbody]
  exact List.cons_ne_nil _ _

/-- **The function of a construct with a body computes what the body means**, with the parameters of
its prototype bound to the arguments. -/
theorem Regular.execute_outcome {α β : Type u} {body : Expr} (hbody : c.body? = some body)
    (m : Machine α β) {args : List α} (hargs : args.length = c.proto.params.length)
    (calls : List (Call α)) :
    ∃ x calls', body.evaluate m (bindParams c.proto.params args) calls = some (x, calls') ∧
      (b.outcome c).numbered.execute m (b.declared c.proto).1 args calls = some (x, calls') := by
  obtain ⟨-, hexpr⟩ := h.opens hc hfault hbody
  rw [Function.execute_numbered, outcome_of_body hbody]
  exact execute_withBody m (f := (b.target c.proto).withParams c.proto.params) hargs
    (b.declared c.proto).1 (Γ := b.bodyScope c.proto) rfl body hexpr calls

end

end Ir.Builder

end Kaleidoscope
