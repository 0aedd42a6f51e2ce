/-
  What the changes of a checker do to what is known under each name.

  - `Checker.Sound`: every name stands for a declaration of the ledger, and no two for the same;
  - `global?_enroll`, `global?_declare`, `global?_withdraw`, `global?_define`: what each change does
    to a sound checker, which stays sound.
-/
import Kaleidoscope.Checker.Basic

namespace Kaleidoscope.Checker

/-- Every name stands for a declaration of the ledger, and no two names for the same. -/
structure Sound (c : Checker) : Prop where
  known : ∀ {name serial}, c.globals.get? name = some serial → serial < c.ledger.size
  distinct : ∀ {name other serial}, c.globals.get? name = some serial →
    c.globals.get? other = some serial → name = other

theorem global?_eq (c : Checker) (name : String) :
    c.global? name = (c.globals.get? name).bind fun serial => c.ledger[serial]? := by
  simp only [global?, find?]
  cases c.globals.get? name with
  | none => rfl
  | some serial =>
    simp only [Option.bind_eq_bind, Option.bind_some]
    cases c.ledger[serial]? <;> rfl

theorem find?_eq_some {c : Checker} {name : String} {serial : Nat} {s : Signature} :
    c.find? name = some (serial, s) ↔
      c.globals.get? name = some serial ∧ c.ledger[serial]? = some s := by
  simp only [find?, Option.bind_eq_bind, Option.bind_eq_some_iff, Option.pure_def,
    Option.some.injEq, Prod.mk.injEq]
  constructor
  · rintro ⟨k, hk, t, ht, rfl, rfl⟩; exact ⟨hk, ht⟩
  · rintro ⟨hk, ht⟩; exact ⟨serial, hk, s, ht, rfl, rfl⟩

theorem global?_of_find? {c : Checker} {name : String} {serial : Nat} {s : Signature}
    (h : c.find? name = some (serial, s)) : c.global? name = some s := by
  rw [global?, h]; rfl

theorem global?_eq_none_iff {c : Checker} {name : String} :
    c.global? name = none ↔ c.find? name = none := by
  rw [global?, Option.map_eq_none_iff]

theorem global?_withScope (c : Checker) (scope : List String) :
    (c.withScope scope).global? = c.global? := rfl

theorem global?_withdraw (c : Checker) (name other : String) :
    (c.withdraw name).global? other = if other = name then none else c.global? other := by
  rw [global?_eq, global?_eq]
  simp only [Checker.withdraw, SymbolTable.get?_remove]
  by_cases hn : name = other
  · simp [hn]
  · rw [if_neg hn, if_neg (Ne.symm hn)]

/-- A body for a declaration that no name stands for changes nothing that is known. -/
theorem global?_define_of_unnamed {c : Checker} {serial : Nat}
    (hserial : ∀ name, c.globals.get? name ≠ some serial) :
    (c.define serial).global? = c.global? := by
  funext name
  rw [global?_eq, global?_eq]
  simp only [Checker.define]
  cases hget : c.globals.get? name with
  | none => rfl
  | some k =>
    have hk : serial ≠ k := fun heq => hserial name (heq ▸ hget)
    simp only [Option.bind_some, Array.getElem?_modify, if_neg hk]

namespace Sound
variable {c : Checker} (h : c.Sound)
include h

theorem enroll (s : Signature) : (c.enroll s).2.Sound where
  known hget := by
    have := h.known hget
    simp only [Checker.enroll, Array.size_push]; omega
  distinct := h.distinct

/-- A declaration that no name stands for changes nothing that is known. -/
theorem global?_enroll (s : Signature) : (c.enroll s).2.global? = c.global? := by
  funext name
  rw [global?_eq, global?_eq]
  cases hget : c.globals.get? name with
  | none => simp only [Checker.enroll, hget, Option.bind_none]
  | some serial =>
    have := h.known hget
    simp only [Checker.enroll, hget, Option.bind_some, Array.getElem?_push]
    rw [if_neg (by omega)]

theorem declare (name : String) (s : Signature) : (c.declare name s).2.Sound where
  known {other serial} hget := by
    simp only [Checker.declare, Checker.enroll, SymbolTable.get?_add, Array.size_push] at hget ⊢
    split at hget
    · injection hget with hget; omega
    · have := h.known hget; omega
  distinct {other other' serial} hget hget' := by
    simp only [Checker.declare, Checker.enroll, SymbolTable.get?_add] at hget hget'
    split at hget <;> split at hget'
    · rename_i hn hn'; exact hn.symm.trans hn'
    · injection hget with hget; have := h.known hget'; omega
    · injection hget' with hget'; have := h.known hget; omega
    · exact h.distinct hget hget'

theorem global?_declare (name : String) (s : Signature) (other : String) :
    (c.declare name s).2.global? other = if other = name then some s else c.global? other := by
  rw [global?_eq, global?_eq]
  simp only [Checker.declare, Checker.enroll, SymbolTable.get?_add]
  by_cases hn : name = other
  · simp [hn]
  · rw [if_neg hn, if_neg (Ne.symm hn)]
    cases hget : c.globals.get? other with
    | none => rfl
    | some serial =>
      have := h.known hget
      simp only [Option.bind_some, Array.getElem?_push]
      rw [if_neg (by omega)]

theorem withdraw (name : String) : (c.withdraw name).Sound where
  known {other serial} hget := by
    simp only [Checker.withdraw, SymbolTable.get?_remove] at hget
    split at hget
    · cases hget
    · exact h.known hget
  distinct {other other' serial} hget hget' := by
    simp only [Checker.withdraw, SymbolTable.get?_remove] at hget hget'
    split at hget
    · cases hget
    · split at hget'
      · cases hget'
      · exact h.distinct hget hget'

theorem define (serial : Nat) : (c.define serial).Sound where
  known hget := by
    simp only [Checker.define, Array.size_modify]
    exact h.known hget
  distinct := h.distinct

/-- Only the name that stands for the declaration learns of the body. -/
theorem global?_define {name : String} {serial : Nat} {s : Signature}
    (hfind : c.find? name = some (serial, s)) (other : String) :
    (c.define serial).global? other =
      if other = name then some { s with defined := true } else c.global? other := by
  obtain ⟨hget, hledger⟩ := find?_eq_some.1 hfind
  rw [global?_eq, global?_eq]
  simp only [Checker.define]
  by_cases hn : other = name
  · subst hn
    simp only [hget, Option.bind_some, Array.getElem?_modify, hledger, Option.map_some, if_true]
  · rw [if_neg hn]
    cases hother : c.globals.get? other with
    | none => rfl
    | some k =>
      have hk : serial ≠ k := fun heq => hn (h.distinct hother (heq ▸ hget))
      simp only [Option.bind_some, Array.getElem?_modify, if_neg hk]

end Sound

/-- A checker at its start is sound. -/
theorem Sound.initial : Checker.initial.Sound := by
  have hempty : (Checker.mk #[] .empty []).Sound := by
    refine ⟨fun {name serial} hget => ?_, fun {name other serial} hget _ => ?_⟩ <;>
    · rw [SymbolTable.get?_empty] at hget
      cases hget
  exact (hempty.declare _ _).declare _ _

end Kaleidoscope.Checker
