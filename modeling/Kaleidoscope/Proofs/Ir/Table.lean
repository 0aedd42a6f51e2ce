/-
  What the changes of a builder do to the functions that it knows.

  - `Function.withBody`: a function with one block, and what the changes of a block do to it;
  - `Builder.signature?`: what others know of the function of a name;
  - `Builder.Sound`: every name stands for a function of that name;
  - `put`, `create`, `remove`: what each change does to the functions, their signatures, and
    soundness;
  - `emit_eq`: what an instruction adds to the function that is being built.
-/
import Kaleidoscope.Ir.Builder
import Kaleidoscope.Proofs.Statics.Directory

namespace Kaleidoscope.Ir

/-! ## Functions -/

namespace Function

/-- The function with one block of those instructions. -/
def withBody (f : Function) (code : List Instr) (returned : Option Value) : Function :=
  { f with blocks := [⟨code.toArray, returned, []⟩] }

/-- The function with other parameters. -/
def withParams (f : Function) (params : List String) : Function := { f with params := params }

/-- What others know of a function. -/
def signature (f : Function) : Signature := ⟨f.params, !f.blocks.isEmpty⟩

variable (f : Function) (code : List Instr)

theorem openBlock_eq {f : Function} (h : f.blocks = []) : f.openBlock = f.withBody [] none := by
  rw [openBlock, h]; rfl

@[simp] theorem append_withBody (i : Instr) :
    (f.withBody code none).append i = f.withBody (code ++ [i]) none := by
  simp [append, modifyLast, withBody]

@[simp] theorem lastBlock_withBody (v : Option Value) :
    (f.withBody code v).lastBlock = f.dropped := rfl

@[simp] theorem lastSize_withBody (v : Option Value) :
    (f.withBody code v).lastSize = code.length := by
  simp [lastSize, withBody]

end Function

/-! ## The functions of a builder -/

namespace Builder

/-- Replaces a function. -/
def put (b : Builder) (serial : Nat) (f : Function) : Builder := b.modifyFunction serial fun _ => f

/-- What others know of the function of a name. -/
def signature? (b : Builder) (name : String) : Option Signature :=
  (b.find? name).map (·.2.signature)

/-- Every name stands for a function of that name. -/
structure Sound (b : Builder) : Prop where
  known : ∀ {name serial}, b.names.get? name = some serial →
    ∃ f, b.function? serial = some f ∧ f.name = name

theorem find?_eq_some {b : Builder} {name : String} {serial : Nat} {f : Function} :
    b.find? name = some (serial, f) ↔
      b.names.get? name = some serial ∧ b.function? serial = some f := by
  simp only [find?, Option.bind_eq_bind, Option.bind_eq_some_iff, Option.pure_def,
    Option.some.injEq, Prod.mk.injEq]
  constructor
  · rintro ⟨k, hk, g, hg, rfl, rfl⟩; exact ⟨hk, hg⟩
  · rintro ⟨hk, hg⟩; exact ⟨serial, hk, f, hg, rfl, rfl⟩

theorem signature?_eq (b : Builder) (name : String) :
    b.signature? name =
      (b.names.get? name).bind fun serial => (b.function? serial).map Function.signature := by
  simp only [signature?, find?]
  cases b.names.get? name with
  | none => rfl
  | some serial =>
    simp only [Option.bind_eq_bind, Option.bind_some]
    cases b.function? serial <;> rfl

theorem signature?_of_find? {b : Builder} {name : String} {serial : Nat} {f : Function}
    (h : b.find? name = some (serial, f)) : b.signature? name = some f.signature := by
  rw [signature?, h]; rfl

theorem signature?_eq_none_iff {b : Builder} {name : String} :
    b.signature? name = none ↔ b.find? name = none := by
  rw [signature?, Option.map_eq_none_iff]

theorem function?_lt {b : Builder} {serial : Nat} {f : Function}
    (h : b.function? serial = some f) : serial < b.store.size := by
  simp only [function?] at h
  exact (Array.getElem?_eq_some_iff.1 h).1

/-! ## Changes of one function -/

section
variable {b : Builder} {serial : Nat} {f : Function}

theorem function?_put (b : Builder) (serial other : Nat) (g : Function) :
    (b.put serial g).function? other =
      if serial = other then (b.function? other).map fun _ => g else b.function? other := by
  simp only [put, modifyFunction, function?, Array.getElem?_modify]

theorem function?_put_self (h : b.function? serial = some f) (g : Function) :
    (b.put serial g).function? serial = some g := by
  rw [function?_put, if_pos rfl, h]; rfl

theorem function?_put_other {other : Nat} (h : serial ≠ other) (g : Function) :
    (b.put serial g).function? other = b.function? other := by
  rw [function?_put, if_neg h]

theorem modifyFunction_eq_put (h : b.function? serial = some f) (change : Function → Function) :
    b.modifyFunction serial change = b.put serial (change f) := by
  simp only [function?] at h
  simp only [put, modifyFunction, Builder.mk.injEq, and_true, and_self]
  apply Array.ext_getElem?
  intro i
  rw [Array.getElem?_modify, Array.getElem?_modify]
  by_cases hi : serial = i
  · subst hi; simp [h]
  · simp [hi]

theorem put_put (b : Builder) (serial : Nat) (f g : Function) :
    (b.put serial f).put serial g = b.put serial g := by
  simp only [put, modifyFunction, Builder.mk.injEq, and_true, and_self]
  apply Array.ext_getElem?
  intro i
  simp only [Array.getElem?_modify]
  split
  · rw [Option.map_map]; rfl
  · rfl

/-- A replaced function is known by its new signature, and all others as before. -/
theorem signature?_put (h : b.function? serial = some f) (g : Function) (name : String) :
    (b.put serial g).signature? name =
      if b.names.get? name = some serial then some g.signature else b.signature? name := by
  rw [signature?_eq, signature?_eq, show (b.put serial g).names = b.names from rfl]
  cases hget : b.names.get? name with
  | none => rfl
  | some k =>
    simp only [Option.bind_some, Option.some.injEq]
    by_cases hk : serial = k
    · subst hk
      rw [function?_put_self h, if_pos rfl]; rfl
    · rw [function?_put_other hk, if_neg (Ne.symm hk)]

theorem Sound.put (hb : b.Sound) (h : b.function? serial = some f) {g : Function}
    (hname : g.name = f.name) : (b.put serial g).Sound := by
  refine ⟨fun {name k} hget => ?_⟩
  obtain ⟨f', hf', hn⟩ := hb.known hget
  by_cases hk : serial = k
  · subst hk
    rw [h] at hf'
    injection hf' with hf'
    exact ⟨g, function?_put_self h g, by rw [hname, hf', hn]⟩
  · exact ⟨f', by rw [function?_put_other hk, hf'], hn⟩

/-- An instruction goes to the end of the block, and its result is named by its position. -/
theorem emit_eq {code : List Instr} (h : b.function? serial = some (f.withBody code none))
    (i : Instr) :
    b.emit serial i =
      (.result serial f.dropped code.length, b.put serial (f.withBody (code ++ [i]) none)) := by
  simp only [emit, h, Function.lastBlock_withBody, Function.lastSize_withBody,
    modifyFunction_eq_put h, Function.append_withBody]

end

/-! ## New functions, and functions that are taken out -/

section
variable {b : Builder}

@[simp] theorem function?_create_self (b : Builder) (f : Function) :
    (b.create f).2.function? b.store.size = some f := by
  simp [create, function?]

theorem function?_create_other {serial : Nat} (h : serial < b.store.size) (f : Function) :
    (b.create f).2.function? serial = b.function? serial := by
  simp only [create, function?, Array.getElem?_push]
  rw [if_neg (by omega)]

theorem function?_create_ne {serial : Nat} (h : serial ≠ b.store.size) (f : Function) :
    (b.create f).2.function? serial = b.function? serial := by
  simp only [create, function?, Array.getElem?_push, if_neg h]

@[simp] theorem find?_create_self (b : Builder) (f : Function) :
    (b.create f).2.find? f.name = some (b.store.size, f) := by
  refine find?_eq_some.2 ⟨?_, function?_create_self b f⟩
  simp only [create, SymbolTable.get?_add, if_true]

theorem Sound.find?_create_other (h : b.Sound) {f : Function} {name : String}
    (hname : name ≠ f.name) : (b.create f).2.find? name = b.find? name := by
  have hget : (b.create f).2.names.get? name = b.names.get? name := by
    simp only [create, SymbolTable.get?_add, if_neg (Ne.symm hname)]
  simp only [find?, hget]
  cases hserial : b.names.get? name with
  | none => rfl
  | some serial =>
    obtain ⟨g, hg, -⟩ := h.known hserial
    simp only [Option.bind_eq_bind, Option.bind_some, function?_create_other (function?_lt hg)]

theorem Sound.signature?_create (h : b.Sound) (f : Function) (name : String) :
    (b.create f).2.signature? name =
      if name = f.name then some f.signature else b.signature? name := by
  split
  · rename_i hname
    subst hname
    exact signature?_of_find? (find?_create_self b f)
  · rename_i hname
    rw [signature?, h.find?_create_other hname, signature?]

theorem Sound.create (h : b.Sound) (f : Function) : (b.create f).2.Sound := by
  refine ⟨fun {name serial} hget => ?_⟩
  simp only [Builder.create, SymbolTable.get?_add] at hget
  split at hget
  · rename_i hname
    injection hget with hget
    subst hget
    exact ⟨f, function?_create_self b f, hname⟩
  · obtain ⟨g, hg, hn⟩ := h.known hget
    exact ⟨g, by rw [function?_create_other (function?_lt hg), hg], hn⟩

theorem signature?_remove {serial : Nat} {f : Function} (h : b.function? serial = some f)
    (name : String) :
    (b.remove serial).signature? name =
      if name = listedName f.name then none else b.signature? name := by
  rw [signature?_eq, signature?_eq]
  simp only [remove, h, SymbolTable.get?_remove]
  by_cases hname : listedName f.name = name
  · simp [hname]
  · rw [if_neg hname, if_neg (Ne.symm hname)]; rfl

theorem Sound.remove (h : b.Sound) (serial : Nat) : (b.remove serial).Sound := by
  unfold Builder.remove
  split
  · exact h
  · refine ⟨fun {name k} hget => ?_⟩
    simp only [SymbolTable.get?_remove] at hget
    split at hget
    · cases hget
    · exact h.known hget

/-- In a sound builder a function has one name at most. -/
theorem Sound.names_get? (h : b.Sound) {name other : String} {serial : Nat}
    (hname : b.names.get? name = some serial) :
    b.names.get? other = some serial ↔ other = name := by
  constructor
  · intro hother
    obtain ⟨f, hf, hfn⟩ := h.known hname
    obtain ⟨g, hg, hgn⟩ := h.known hother
    rw [hf] at hg
    injection hg with hg
    rw [← hgn, ← hg, hfn]
  · rintro rfl; exact hname

end

/-! ## The start -/

/-- The built-in functions as the module has them. -/
def builtins : List Function :=
  [⟨"printd", ["x"], [⟨#[.printLine (.param 0 0)], some (.constant (Binary64.ofRank 0)), []⟩], 0⟩,
    ⟨"putchard", ["c"],
      [⟨#[.toInteger (.param 1 0), .printCharacter (.result 1 0 0)],
        some (.constant (Binary64.ofRank 0)), []⟩], 0⟩]

/-- The table of names at the start. -/
def builtinNames : SymbolTable Nat := (SymbolTable.empty.add "printd" 0).add "putchard" 1

theorem initial_eq : initial =
    ⟨builtins.toArray, [.function 0, .library .printf, .function 1, .library .putchar],
      builtinNames, 0, none, .empty⟩ := rfl

theorem get?_builtinNames {name : String} {serial : Nat}
    (h : builtinNames.get? name = some serial) :
    (name = "printd" ∧ serial = 0) ∨ (name = "putchard" ∧ serial = 1) := by
  simp only [builtinNames, SymbolTable.get?_add, SymbolTable.get?_empty] at h
  split at h
  · rename_i hname
    injection h with h
    exact Or.inr ⟨hname.symm, h.symm⟩
  · split at h
    · rename_i hname
      injection h with h
      exact Or.inl ⟨hname.symm, h.symm⟩
    · cases h

/-- A builder at its start is sound. -/
theorem Sound.initial : Builder.initial.Sound := by
  refine ⟨fun {name serial} hget => ?_⟩
  rcases get?_builtinNames hget with ⟨rfl, rfl⟩ | ⟨rfl, rfl⟩
  · exact ⟨_, rfl, rfl⟩
  · exact ⟨_, rfl, rfl⟩

end Builder

end Kaleidoscope.Ir
