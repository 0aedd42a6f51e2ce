/-
  What the parser delivers, as nodes.

  - `Term.Within`: a node with an identity in a range, and with content;
  - `Expr.toTerm_within`, `Expr.toTerm_oneEach`: every node of an expression has an identity of its
    own, counted from where the expression begins;
  - `Expr.coherent`: so has every node of a function;
  - `Construct.fault?`, `Construct.next`: the first fault of a construct, and what is known after it;
  - `Construct.isMistake_of_fault?`: the source program is to blame for every fault.
-/
import Kaleidoscope.Proofs.Parser.Spelling
import Kaleidoscope.Proofs.Statics.Directory

namespace Kaleidoscope

/-! ## Identities -/

/-- A node with content, whose identity is at least `n` and less than `m`. -/
def Term.Within (n m : Nat) (u : Term) : Prop :=
  ¬u.LacksContent ∧ ∃ id : Nat, u.id? = some id ∧ n ≤ id ∧ id < m

theorem Term.Within.mono {n n' m m' : Nat} {u : Term} (h : u.Within n m) (hn : n' ≤ n)
    (hm : m ≤ m') : u.Within n' m' := by
  obtain ⟨hfull, id, hid, hfrom, hto⟩ := h
  exact ⟨hfull, id, hid, by omega, by omega⟩

mutual

/-- The identities of an expression's nodes are counted from where it begins. -/
theorem Expr.toTerm_within : ∀ (e : Expr) (n : Nat),
    n < (e.toTerm n).2 ∧ ∀ u ∈ (e.toTerm n).1.subterms, u.Within n (e.toTerm n).2
  | .number value, n => by
    refine ⟨Nat.lt_succ_self n, fun u hu => ?_⟩
    rw [List.mem_singleton.1 hu]
    exact ⟨not_false, n, rfl, Nat.le_refl n, Nat.lt_succ_self n⟩
  | .identifier name, n => by
    refine ⟨Nat.lt_succ_self n, fun u hu => ?_⟩
    rw [List.mem_singleton.1 hu]
    exact ⟨not_false, n, rfl, Nat.le_refl n, Nat.lt_succ_self n⟩
  | .binary op left right, n => by
    obtain ⟨hl, hleft⟩ := left.toTerm_within n
    obtain ⟨hr, hright⟩ := right.toTerm_within (left.toTerm n).2
    simp only [Expr.toTerm, Term.subterms]
    refine ⟨by omega, fun u hu => ?_⟩
    rcases List.mem_cons.1 hu with rfl | hu
    · exact ⟨not_false, _, rfl, by omega, Nat.lt_succ_self _⟩
    · rcases List.mem_append.1 hu with hu | hu
      · exact (hleft u hu).mono (Nat.le_refl n) (by omega)
      · exact (hright u hu).mono (by omega) (by omega)
  | .call callee args, n => by
    obtain ⟨ha, hargs⟩ := Expr.toTerms_within args n
    simp only [Expr.toTerm, Term.subterms]
    refine ⟨by omega, fun u hu => ?_⟩
    rcases List.mem_cons.1 hu with rfl | hu
    · exact ⟨not_false, _, rfl, by omega, Nat.lt_succ_self _⟩
    · exact (hargs u hu).mono (Nat.le_refl n) (by omega)

theorem Expr.toTerms_within : ∀ (es : List Expr) (n : Nat),
    n ≤ (Expr.toTerms es n).2 ∧
      ∀ u ∈ Term.allSubterms (Expr.toTerms es n).1, u.Within n (Expr.toTerms es n).2
  | [], n => ⟨Nat.le_refl n, fun u hu => absurd hu List.not_mem_nil⟩
  | e :: es, n => by
    obtain ⟨hfirst, he⟩ := e.toTerm_within n
    obtain ⟨hrest, hes⟩ := Expr.toTerms_within es (e.toTerm n).2
    simp only [Expr.toTerms, Term.allSubterms]
    refine ⟨by omega, fun u hu => ?_⟩
    rcases List.mem_append.1 hu with hu | hu
    · exact (he u hu).mono (Nat.le_refl n) hrest
    · exact (hes u hu).mono (by omega) (Nat.le_refl _)

end

theorem OneEach.append {xs ys : List Term} {n k m : Nat} (hx : OneEach xs) (hy : OneEach ys)
    (hxs : ∀ u ∈ xs, u.Within n k) (hys : ∀ u ∈ ys, u.Within k m) : OneEach (xs ++ ys) := by
  have hapart : ∀ u ∈ xs, ∀ v ∈ ys, u.id? ≠ v.id? := by
    intro u hu v hv heq
    obtain ⟨-, i, hi, -, hik⟩ := hxs u hu
    obtain ⟨-, j, hj, hkj, -⟩ := hys v hv
    rw [hi, hj] at heq
    injection heq with heq
    omega
  intro u hu v hv heq hid
  rcases List.mem_append.1 hu with hu | hu
  · rcases List.mem_append.1 hv with hv | hv
    · exact hx u hu v hv heq hid
    · exact absurd heq (hapart u hu v hv)
  · rcases List.mem_append.1 hv with hv | hv
    · exact absurd heq.symm (hapart v hv u hu)
    · exact hy u hu v hv heq hid

theorem OneEach.cons {u : Term} {xs : List Term} {n m : Nat} (hx : OneEach xs)
    (hu : u.id? = some m) (hxs : ∀ v ∈ xs, v.Within n m) : OneEach (u :: xs) := by
  have hapart : ∀ v ∈ xs, v.id? ≠ some m := by
    intro v hv heq
    obtain ⟨-, i, hi, -, him⟩ := hxs v hv
    rw [hi] at heq
    injection heq with heq
    omega
  intro v hv w hw heq hid
  rcases List.mem_cons.1 hv with rfl | hv
  · rcases List.mem_cons.1 hw with rfl | hw
    · rfl
    · exact absurd (heq.symm.trans hu) (hapart w hw)
  · rcases List.mem_cons.1 hw with hw | hw
    · exact absurd (heq.trans (hw ▸ hu)) (hapart v hv)
    · exact hx v hv w hw heq hid

mutual

/-- Every node of an expression has an identity of its own. -/
theorem Expr.toTerm_oneEach : ∀ (e : Expr) (n : NodeId), OneEach (e.toTerm n).1.subterms
  | .number _, _ | .identifier _, _ => by
    intro u hu v hv _ _
    rw [List.mem_singleton.1 hu, List.mem_singleton.1 hv]
  | .binary op left right, n => by
    obtain ⟨hl, hleft⟩ := left.toTerm_within n
    obtain ⟨hr, hright⟩ := right.toTerm_within (left.toTerm n).2
    have hboth := (left.toTerm_oneEach n).append (right.toTerm_oneEach (left.toTerm n).2) hleft hright
    refine hboth.cons rfl (n := n) fun v hv => ?_
    rcases List.mem_append.1 hv with hv | hv
    · exact (hleft v hv).mono (Nat.le_refl n) (by omega)
    · exact (hright v hv).mono (by omega) (Nat.le_refl _)
  | .call callee args, n =>
    (Expr.toTerms_oneEach args n).cons rfl (Expr.toTerms_within args n).2

theorem Expr.toTerms_oneEach : ∀ (es : List Expr) (n : NodeId),
    OneEach (Term.allSubterms (Expr.toTerms es n).1)
  | [], _ => fun _ hu => absurd hu List.not_mem_nil
  | e :: es, n =>
    (e.toTerm_oneEach n).append (Expr.toTerms_oneEach es (e.toTerm n).2) (e.toTerm_within n).2
      (Expr.toTerms_within es (e.toTerm n).2).2

end

/-- Nothing is missing in what the parser delivers. -/
theorem Expr.whole_toTerm (e : Expr) (n : NodeId) : (e.toTerm n).1.Whole := by
  intro u hu
  obtain ⟨hfull, id, hid, -⟩ := (e.toTerm_within n).2 u hu
  refine ⟨fun hnone => ?_, hfull⟩
  rw [hid] at hnone
  cases hnone

/-- A function made of an expression and a prototype, as the parser numbers them. -/
theorem Expr.coherent (e : Expr) (p : Prototype) (n : NodeId) :
    (FunctionNode.mk ((e.toTerm n).2 + 1) (.proto (e.toTerm n).2 p) (e.toTerm n).1).Coherent where
  body := e.toTerm_oneEach n
  proto u hu heq := by
    obtain ⟨-, i, hi, -, hlt⟩ := (e.toTerm_within n).2 u hu
    rw [hi] at heq
    injection heq with heq
    exact absurd heq (Nat.ne_of_lt hlt)

/-! ## Names -/

mutual

/-- The functions that an expression calls are among its names. -/
theorem Expr.toTerm_calls {P : String → Prop} : ∀ (e : Expr) (n : NodeId), e.Named P →
    (e.toTerm n).1.Calls P
  | .number _, _, _ | .identifier _, _, _ => fun id callee args hu =>
    Term.noConfusion (List.mem_singleton.1 hu)
  | .binary op left right, n, h => by
    intro id callee args hu
    rcases List.mem_cons.1 hu with hu | hu
    · cases hu
    · rcases List.mem_append.1 hu with hu | hu
      · exact left.toTerm_calls n h.1 id callee args hu
      · exact right.toTerm_calls (left.toTerm n).2 h.2 id callee args hu
  | .call callee args, n, h => by
    intro id callee' args' hu
    rcases List.mem_cons.1 hu with hu | hu
    · injection hu with _ hcallee _
      exact hcallee ▸ h.1
    · exact Expr.toTerms_allCall args n h.2 id callee' args' hu

theorem Expr.toTerms_allCall {P : String → Prop} : ∀ (es : List Expr) (n : NodeId),
    Expr.AllNamed P es → Term.AllCall P (Expr.toTerms es n).1
  | [], _, _ => fun id callee args hu => absurd hu List.not_mem_nil
  | e :: es, n, h => by
    intro id callee args hu
    rcases List.mem_append.1 hu with hu | hu
    · exact e.toTerm_calls n h.1 id callee args hu
    · exact Expr.toTerms_allCall es (e.toTerm n).2 h.2 id callee args hu

end

/-! ## Faults -/

theorem Directory.isMistake_of_declarationConflict? {G : Directory} {p : Prototype} {e : Error}
    (h : G.declarationConflict? p = some e) : e.isMistake = true := by
  unfold Directory.declarationConflict? at h
  split at h
  · cases h
  · split at h
    · cases h
    · split at h
      · injection h with h
        subst h; rfl
      · cases h

/-! ## Constructs -/

namespace Construct

/-- The prototype of a construct; that of an expression at top level has no name. -/
def proto : Construct → Prototype
  | .definition proto _ => proto
  | .declaration proto => proto
  | .evaluation _ => Prototype.anonymous

/-- The body of the function that a construct makes, if it makes one. -/
def body? : Construct → Option Expr
  | .definition _ body => some body
  | .declaration _ => none
  | .evaluation body => some body

/-- The first fault of a construct, by what is known before it. -/
def fault? (G : Directory) (c : Construct) : Option Error :=
  match c.body? with
  | some body => G.definitionFault? c.proto (body.toTerm NodeId.first).1
  | none => G.declarationFault? c.proto

/-- What is known after a construct without a fault. -/
def next (G : Directory) (c : Construct) : Directory :=
  match c.body? with
  | some _ => G.define c.proto
  | none => G.declare c.proto

theorem fault?_of_body {c : Construct} {body : Expr} (h : c.body? = some body) (G : Directory) :
    c.fault? G = G.definitionFault? c.proto (body.toTerm NodeId.first).1 := by
  rw [fault?, h]

theorem fault?_of_declaration {c : Construct} (h : c.body? = none) (G : Directory) :
    c.fault? G = G.declarationFault? c.proto := by
  rw [fault?, h]

theorem next_of_body {c : Construct} {body : Expr} (h : c.body? = some body) (G : Directory) :
    c.next G = G.define c.proto := by
  rw [next, h]

theorem next_of_declaration {c : Construct} (h : c.body? = none) (G : Directory) :
    c.next G = G.declare c.proto := by
  rw [next, h]

/-- Nothing is wrong with the prototype of a construct without a fault. -/
theorem proto_fault? {c : Construct} {G : Directory} (h : c.fault? G = none) :
    c.proto.fault? = none := by
  unfold fault? at h
  split at h
  · exact (Option.or_eq_none_iff.1 h).1
  · exact (Option.or_eq_none_iff.1 h).1

theorem toNode_of_body {c : Construct} {body : Expr} (h : c.body? = some body) (n : NodeId) :
    (c.toNode n).1 =
      .function ⟨(body.toTerm n).2 + 1, .proto (body.toTerm n).2 c.proto, (body.toTerm n).1⟩ := by
  cases c with
  | definition proto body' => injection h with h; subst h; rfl
  | declaration proto => cases h
  | evaluation body' => injection h with h; subst h; rfl

theorem toNode_of_declaration {c : Construct} (h : c.body? = none) (n : NodeId) :
    (c.toNode n).1 = .prototype (.proto n c.proto) := by
  cases c with
  | definition proto body => cases h
  | declaration proto => rfl
  | evaluation body => cases h

theorem Named.body {P : String → Prop} {c : Construct} (h : c.Named P) {body : Expr}
    (hbody : c.body? = some body) : body.Named P := by
  cases c with
  | definition proto body' => injection hbody with hbody; exact hbody ▸ h.2
  | declaration proto => cases hbody
  | evaluation body' => injection hbody with hbody; exact hbody ▸ h

/-- A named construct has a prototype without a name only if it is an expression at top level. -/
theorem Named.proto {P : String → Prop} {c : Construct} (h : c.Named P) :
    c.proto = Prototype.anonymous ∨ P c.proto.name := by
  cases c with
  | definition proto body => exact Or.inr h.1.name
  | declaration proto => exact Or.inr h.name
  | evaluation body => exact Or.inl rfl

/-- **The source program is to blame for every fault of a construct.** -/
theorem isMistake_of_fault? {G : Directory} {c : Construct} {e : Error} (h : c.fault? G = some e) :
    e.isMistake = true := by
  unfold fault? at h
  split at h
  · rename_i body _
    simp only [Directory.definitionFault?, Option.or_eq_some_iff] at h
    rcases h with hproto | ⟨-, hconflict | ⟨-, hbody⟩⟩
    · exact Prototype.isMistake_of_fault? hproto
    · exact Directory.isMistake_of_definitionConflict? hconflict
    · exact Term.isMistake_of_fault? _ (body.whole_toTerm NodeId.first) hbody
  · simp only [Directory.declarationFault?, Option.or_eq_some_iff] at h
    rcases h with hproto | ⟨-, hconflict⟩
    · exact Prototype.isMistake_of_fault? hproto
    · exact Directory.isMistake_of_declarationConflict? hconflict

end Construct

end Kaleidoscope
