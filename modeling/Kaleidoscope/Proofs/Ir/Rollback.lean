/-
  What a construct that fails leaves of a builder.

  By the time a body fails, its function has been created or has got a block, and instructions and
  names of parameters. All of that is taken back, but for the names of the parameters of a function
  that was declared before, and for two slips. A function is struck from the table under the name by
  which the module lists it, which is not the name that it was entered by if that spells a number.
  And nothing is taken back of a body that is given up, at a node without content.

  - `Builder.Unclaimed`: the names for the next expressions at top level are free;
  - `Builder.Intact`: the builder as it was, its table of names apart;
  - `Builder.Strands`: the constructs that leave their name behind if they fail;
  - `Builder.Unfinished`: what a definition that is given up leaves;
  - `lowerEach_failure`: after a failure the builder is intact, and so is its table of names unless
    the construct leaves its name behind; but a definition that is given up leaves its function, with
    a block that is not complete.
-/
import Kaleidoscope.Proofs.Ir.Printable
import Kaleidoscope.Proofs.Ir.Regular

namespace Kaleidoscope

namespace Node

/-- The prototype of a declaration or a definition. -/
def proto? : Node → Option Prototype
  | .prototype p => p.content?
  | n => n.definition?

/-- No node of the node lacks its content. -/
def Full : Node → Prop
  | .term t => ∀ u ∈ t.subterms, ¬u.LacksContent
  | .prototype p => p ≠ .blank
  | .function f => f.proto ≠ .blank ∧ ∀ u ∈ f.body.subterms, ¬u.LacksContent
  | .blankFunction => False

end Node

namespace Ir.Builder

/-! ## Names for expressions at top level -/

/-- The names for the next expressions at top level are free. -/
def Unclaimed (b : Builder) : Prop :=
  ∀ k, b.anonymous ≤ k → b.names.get? (anonymousName k) = none

section
variable {b : Builder} {p : Prototype}

theorem Unclaimed.create (h : b.Unclaimed) {f : Function} {next : Nat} (hnext : b.anonymous ≤ next)
    (hother : ∀ k, next ≤ k → f.name ≠ anonymousName k) :
    Unclaimed { (b.create f).2 with anonymous := next } := by
  intro k hk
  simp only [Builder.create, SymbolTable.get?_add]
  rw [if_neg (hother k hk), h k (Nat.le_trans hnext hk)]

theorem Unclaimed.declared (h : b.Unclaimed) (hplain : Plain p.name) :
    (b.declared p).2.Unclaimed := by
  unfold Builder.declared
  split
  · refine h.create (f := .declared (anonymousName b.anonymous) p.params) (Nat.le_succ _) ?_
    intro k hk heq
    have := anonymousName_injective heq
    omega
  · split
    · exact h
    · exact h.create (f := .declared p.name p.params) (Nat.le_refl _) fun k _ => hplain k

theorem Unclaimed.remove (h : b.Unclaimed) (serial : Nat) : (b.remove serial).Unclaimed := by
  unfold Builder.remove
  split
  · exact h
  · intro k hk
    simp only [SymbolTable.get?_remove]
    split
    · rfl
    · exact h k hk

theorem Unclaimed.givenUp (h : b.Unclaimed) (hplain : Plain p.name) (code : List Instr) :
    (b.givenUp p code).Unclaimed := by
  have hdeclared := h.declared hplain
  unfold Builder.givenUp
  split
  · exact Unclaimed.remove (b := b.brokenOff p code) hdeclared _
  · exact hdeclared

theorem Unclaimed.lowers (h : b.Unclaimed) {n : Node}
    (hplain : ∀ p, n.proto? = some p → Plain p.name) {r : Except Error Value} {b' : Builder}
    (hlowers : Lowers b n r b') : b'.Unclaimed := by
  cases hlowers with
  | nothing => exact h
  | declares id p => exact h.declared (hplain p rfl)
  | builds hp _ _ code v => exact h.declared (hplain _ hp)
  | givesUp hp _ _ code _ => exact h.givenUp (hplain _ hp) code
  | breaksOff hp _ _ _ code reason => exact h.declared (hplain _ hp)

end

theorem unclaimed_initial : Builder.initial.Unclaimed := by
  intro k _
  cases hget : Builder.initial.names.get? (anonymousName k) with
  | none => rfl
  | some serial =>
    exact absurd (List.mem_append_left _ (by decide : '_' ∈ "__anon_expr".toList)) (by
      rw [← anonymousName_toList]
      rcases get?_builtinNames hget with ⟨hname, -⟩ | ⟨hname, -⟩
      · rw [hname]; decide
      · rw [hname]; decide)

/-- A builder that nodes were lowered to, none of which declares a name that expressions at top level
are given, is at rest, and the names for the next such expressions are free. -/
theorem lowerEach_resting (ns : List Node)
    (hns : ∀ n ∈ ns, ∀ p, n.proto? = some p → Plain p.name) :
    (backend.lowerEach .initial ns).Resting ∧ (backend.lowerEach .initial ns).Unclaimed := by
  suffices hrun : ∀ b : Builder, b.Resting → b.Unclaimed →
      (backend.lowerEach b ns).Resting ∧ (backend.lowerEach b ns).Unclaimed from
    hrun .initial .initial unclaimed_initial
  induction ns with
  | nil => exact fun b hresting hunclaimed => ⟨hresting, hunclaimed⟩
  | cons n ns ih =>
    intro b hresting hunclaimed
    obtain ⟨hn, hns⟩ := List.forall_mem_cons.1 hns
    exact ih hns _ (hresting.lowerFresh n).1 (hunclaimed.lowers hn (lowers hresting.idle n))

/-! ## What a failure leaves -/

/-- The node is a definition of a name that stands for that function. -/
def Defines (b : Builder) (n : Node) (serial : Nat) : Prop :=
  ∃ p, n.definition? = some p ∧ p.isAnonymous = false ∧ b.names.get? p.name = some serial

/-- What a node that fails leaves as it was: what the module lists, the function that is being built,
the parameters in scope, and every function, with its name, its number of parameters and its blocks.
A function that is declared only, and that the node is a definition of, may have got other names for
its parameters. A definition without a name may have used up a name for expressions at top level. -/
structure Intact (n : Node) (b b' : Builder) : Prop where
  entries : b'.entries = b.entries
  current : b'.current = b.current
  values : b'.values = b.values
  functions {serial : Nat} {f : Function} (hf : b.function? serial = some f) :
    ∃ f', b'.function? serial = some f' ∧ f'.name = f.name ∧ f'.params.length = f.params.length ∧
      f'.blocks = f.blocks ∧ (f' = f ∨ f.blocks = [] ∧ b.Defines n serial)
  anonymous : b'.anonymous = b.anonymous ∨ ∃ p, n.definition? = some p ∧ p.isAnonymous = true

/-- What a definition that is given up leaves. Its function is known and listed, as a declaration
would leave it; it has the parameters of the definition, and one block, which is not complete. All
else is as it was. -/
structure Unfinished (p : Prototype) (b b' : Builder) : Prop where
  entries : b'.entries = (b.declared p).2.entries
  names : b'.names = (b.declared p).2.names
  anonymous : b'.anonymous = (b.declared p).2.anonymous
  current : b'.current = b.current
  values : b'.values = b.values
  function : ∃ f block, b'.function? (b.declared p).1 = some f ∧ f.name = (b.target p).name ∧
    f.params = p.params ∧ f.blocks = [block] ∧ block.returned = none
  others {serial : Nat} (h : serial ≠ (b.declared p).1) :
    b'.function? serial = b.function? serial

/-- If the node fails, it leaves its name behind: it is a definition with a right prototype, and its
name is a new one that spells a number. -/
def Strands (b : Builder) (n : Node) : Prop :=
  ∃ p, n.definition? = some p ∧ p.fault? = none ∧ b.names.get? p.name = none ∧
    signedNumber? p.name ≠ none

theorem Intact.refl (n : Node) (b : Builder) : Intact n b b :=
  ⟨rfl, rfl, rfl, fun hf => ⟨_, hf, rfl, rfl, rfl, .inl rfl⟩, .inl rfl⟩

section
variable {b : Builder} {p : Prototype}

/-- A new function is entered by its name. -/
theorem names_declared_of_isNew (h : b.isNew p = true) :
    (b.declared p).2.names = b.names.add (b.target p).name b.store.size := by
  unfold declared target
  unfold isNew at h
  cases hname : p.isAnonymous with
  | true => rfl
  | false =>
    rw [hname, Bool.false_or, Option.isNone_iff_eq_none] at h
    rw [h]
    rfl

/-- A declaration leaves alone what is being built; and without a name it uses one up. -/
theorem frame_declared (b : Builder) (p : Prototype) :
    (b.declared p).2.current = b.current ∧ (b.declared p).2.values = b.values ∧
      ((b.declared p).2.anonymous = b.anonymous ∨ p.isAnonymous = true) := by
  unfold declared
  cases p.isAnonymous with
  | true => exact ⟨rfl, rfl, .inr rfl⟩
  | false =>
    cases b.find? p.name with
    | none => exact ⟨rfl, rfl, .inl rfl⟩
    | some found => exact ⟨rfl, rfl, .inl rfl⟩

/-- In a sound builder a name that stands for nothing is not entered. -/
theorem Sound.names_of_find? (h : b.Sound) {name : String} (hfind : b.find? name = none) :
    b.names.get? name = none := by
  cases hget : b.names.get? name with
  | none => rfl
  | some serial =>
    obtain ⟨f, hf, -⟩ := h.known hget
    rw [find?_eq_some.2 ⟨hget, hf⟩] at hfind
    cases hfind

/-- A body that breaks off leaves its function behind. -/
theorem unfinished_brokenOff (b : Builder) (p : Prototype) (code : List Instr) :
    Unfinished p b (b.brokenOff p code) := by
  obtain ⟨hcurrent, hvalues, -⟩ := frame_declared b p
  refine ⟨rfl, rfl, rfl, hcurrent, hvalues, ?_, fun hother => ?_⟩
  · exact ⟨b.withCode p code none, _, function?_brokenOff b p code, rfl, rfl, rfl, rfl⟩
  · exact (function?_put_other (Ne.symm hother) _).trans (function?_declared_ne hother)

/-- That is not how the builder was. -/
theorem Unfinished.not_intact {b' : Builder} (h : Unfinished p b b')
    (hconflict : Directory.definitionConflict? b.signature? p = none) (n : Node) :
    ¬Intact n b b' := by
  intro hintact
  cases hnew : b.isNew p with
  | true =>
    have hentries := hintact.entries.symm.trans h.entries
    rw [(declared_of_isNew hnew).2] at hentries
    have hlength := congrArg List.length hentries
    rw [List.length_append, List.length_singleton] at hlength
    omega
  | false =>
    -- a function that was known had no block, and has one now
    obtain ⟨hname, serial, f, hfind⟩ := exists_find?_of_isNew hnew
    obtain ⟨hdeclared, htarget⟩ := declared_of_known hname hfind
    obtain ⟨f', block, hf', -, -, hblocks, -⟩ := h.function
    obtain ⟨f'', hf'', -, -, hkept, -⟩ := hintact.functions (find?_eq_some.1 hfind).2
    rw [hdeclared, hf''] at hf'
    cases hf'
    rw [hblocks, ← htarget, (target_of_conflict hconflict).1] at hkept
    cases hkept

/-- **A body that fails leaves the builder as it was**, its table of names apart. -/
theorem Resting.intact_givenUp (h : b.Resting)
    (hconflict : Directory.definitionConflict? b.signature? p = none) (code : List Instr) {n : Node}
    (hn : n.definition? = some p) : Intact n b (b.givenUp p code) := by
  obtain ⟨hcurrent, hvalues, hanonymous⟩ := frame_declared b p
  have hentries := h.entries_givenUp p code
  cases hnew : b.isNew p with
  | true =>
    rw [givenUp_of_isNew hnew] at hentries ⊢
    have hserial := (declared_of_isNew hnew).1
    refine ⟨hentries, hcurrent, hvalues, fun {serial f} hf => ?_,
      hanonymous.imp_right fun hname => ⟨p, hn, hname⟩⟩
    -- the function that is taken out is none of those before
    have hother : serial ≠ (b.declared p).1 := Nat.ne_of_lt (hserial ▸ function?_lt hf)
    refine ⟨f, ?_, rfl, rfl, rfl, .inl rfl⟩
    exact ((function?_put_other (Ne.symm hother) _).trans (function?_declared_ne hother)).trans hf
  | false =>
    obtain ⟨hname, serial, f, hfind⟩ := exists_find?_of_isNew hnew
    obtain ⟨hdeclared, htarget⟩ := declared_of_known hname hfind
    obtain ⟨hget, hf⟩ := find?_eq_some.1 hfind
    obtain ⟨hbare, hlength⟩ := target_of_conflict hconflict
    rw [htarget] at hbare hlength
    rw [Builder.givenUp, hnew, if_neg Bool.false_ne_true, hdeclared] at hentries ⊢
    refine ⟨hentries, rfl, rfl, fun {other g} hg => ?_, .inl rfl⟩
    by_cases hserial : serial = other
    · subst hserial
      rw [hf] at hg
      cases hg
      have hkept : (b.withCode p code none).dropBlocks.name = f.name := by
        rw [← htarget]
        rfl
      exact ⟨_, function?_put_self hf _, hkept, hlength.symm, hbare.symm,
        .inr ⟨hbare, p, hn, hname, hget⟩⟩
    · exact ⟨g, (function?_put_other hserial _).trans hg, rfl, rfl, rfl, .inl rfl⟩

/-- **The table of names is as it was** unless the name of the function spells a number and is a new
one. -/
theorem Resting.names_givenUp (h : b.Resting) (hunclaimed : b.Unclaimed) (p : Prototype)
    (code : List Instr) :
    (b.givenUp p code).names = b.names ↔
      ¬(b.names.get? p.name = none ∧ signedNumber? p.name ≠ none) := by
  cases hnew : b.isNew p with
  | false =>
    obtain ⟨hname, serial, f, hfind⟩ := exists_find?_of_isNew hnew
    have hget := (find?_eq_some.1 hfind).1
    rw [Builder.givenUp, hnew, if_neg Bool.false_ne_true, (declared_of_known hname hfind).1]
    refine iff_of_true rfl ?_
    rintro ⟨hnone, -⟩
    rw [hget] at hnone
    cases hnone
  | true =>
    have hnames : (b.givenUp p code).names =
        (b.names.add (b.target p).name b.store.size).remove (listedName (b.target p).name) := by
      rw [givenUp_of_isNew hnew, ← names_declared_of_isNew hnew]
    have hrestored : ∀ {name}, b.names.get? name = none →
        (b.names.add name b.store.size).remove name = b.names := by
      intro name hnone
      refine SymbolTable.ext_get? fun other => ?_
      rw [SymbolTable.get?_remove, SymbolTable.get?_add]
      split
      · rename_i heq
        rw [← heq, hnone]
      · rfl
    rw [hnames]
    cases hname : p.isAnonymous with
    | true =>
      have htarget : (b.target p).name = anonymousName b.anonymous := by
        simp only [target, hname, if_true]
        rfl
      rw [htarget, listedName_anonymousName, hrestored (hunclaimed _ (Nat.le_refl _))]
      refine iff_of_true rfl ?_
      rintro ⟨-, hnumber⟩
      rw [isAnonymous_of_signedNumber? hnumber] at hname
      cases hname
    | false =>
      have hfind : b.find? p.name = none := by
        rw [isNew, hname, Bool.false_or] at hnew
        exact Option.isNone_iff_eq_none.1 hnew
      have hnone := h.sound.names_of_find? hfind
      rw [h.sound.target_name hname, and_iff_right hnone, ← listedName_ne_iff, not_not]
      constructor
      · intro hsame
        by_contra hlisted
        have hleft := congrArg (SymbolTable.get? · p.name) hsame
        simp only [SymbolTable.get?_remove, if_neg hlisted, SymbolTable.get?_add, if_true,
          hnone] at hleft
        cases hleft
      · intro hlisted
        rw [hlisted]
        exact hrestored hnone

end

/-- **A construct that fails leaves a builder as it was, unless it is a definition that is given
up.** Take the builder after any nodes, each lowered in a pass of its own, none of which declares a
name that expressions at top level are given, and let any node fail. If it is not a definition that
is given up, then the builder is intact; and so is its table of names, unless the node is a definition
with a right prototype whose name is a new one that spells a number. A definition that is given up
has a node that lacks its content, and leaves its function unfinished; which ones are given up is
known before if an identity in them stands for one node, and no number is blank. -/
theorem lowerEach_failure (ns : List Node)
    (hns : ∀ n ∈ ns, ∀ p, n.proto? = some p → Plain p.name) {n : Node} {e : Error}
    (hfails : (n.lowerFresh backend (backend.lowerEach .initial ns)).1 = .error e) :
    let b := backend.lowerEach .initial ns
    let b' := (n.lowerFresh backend b).2
    (Intact n b b' ↔ ¬b.Abandons n) ∧
      (¬b.Abandons n → (b'.names = b.names ↔ ¬b.Strands n)) ∧
      (b.Abandons n → ¬n.Full ∧ ∃ p, n.definition? = some p ∧ Unfinished p b b') ∧
      ∀ f, n = .function f → f.Coherent → (∀ u ∈ f.body.subterms, u ≠ .blank) →
        (b.Abandons n ↔ b.GivesUp f) := by
  intro b b'
  obtain ⟨hresting, hunclaimed⟩ := lowerEach_resting ns hns
  have hlowers : Lowers b n (.error e) b' := hfails ▸ lowers hresting.idle n
  have habandons : b.Abandons n ↔ ∃ p reason, n.definition? = some p ∧
      (.error e : Except Error Value) = .error (.aborted reason) := hfails ▸ abandons_iff
  have hbefore : ∀ f, n = .function f → f.Coherent → (∀ u ∈ f.body.subterms, u ≠ .blank) →
      (b.Abandons n ↔ b.GivesUp f) := by
    rintro f rfl hf hfull
    exact abandons_iff_givesUp hf hfull
  generalize b' = b' at hlowers ⊢
  cases hlowers with
  | nothing _ hwrong =>
    have hkept : ¬b.Abandons n := mt habandons.1 (not_aborted_of_wrong hwrong)
    refine ⟨iff_of_true (.refl n b) hkept, fun _ => iff_of_true rfl ?_,
      fun hgiven => absurd hgiven hkept, hbefore⟩
    rintro ⟨p, hp, hproto, hnone, -⟩
    obtain ⟨e, hconflict, -⟩ := hwrong p hp
    rw [hproto, Directory.definitionConflict?, signature?_eq, hnone] at hconflict
    simp at hconflict
  | @givesUp f p hp hproto hconflict code _ hinner =>
    have hkept : ¬b.Abandons (.function f) := by
      intro hgiven
      obtain ⟨-, reason, -, habort⟩ := habandons.1 hgiven
      exact hinner reason (Except.error.inj habort)
    refine ⟨iff_of_true (hresting.intact_givenUp hconflict code hp) hkept, fun _ => ?_,
      fun hgiven => absurd hgiven hkept, hbefore⟩
    rw [hresting.names_givenUp hunclaimed]
    refine not_congr ⟨fun hstrands => ⟨p, hp, hproto, hstrands⟩, ?_⟩
    rintro ⟨q, hq, -, hstrands⟩
    obtain rfl : p = q := Option.some.inj (hp.symm.trans hq)
    exact hstrands
  | @breaksOff f p hp hproto hconflict hlacks code reason =>
    have hgiven : b.Abandons (.function f) := habandons.2 ⟨p, reason, hp, rfl⟩
    have hunfinished := unfinished_brokenOff b p code
    refine ⟨iff_of_false (hunfinished.not_intact hconflict _) (not_not_intro hgiven),
      fun hkept => absurd hgiven hkept, fun _ => ⟨fun hfull => hlacks hfull.2, p, hp, hunfinished⟩,
      hbefore⟩

/-- A definition of one parameter, with that body. -/
def definitionOf (name : String) (body : Term) : Node :=
  .function ⟨NodeId.first + 3, .proto (NodeId.first + 2) ⟨name, ["x"]⟩, body⟩

/-- A definition whose body is another variable. -/
def unboundBody (name : String) : Node := definitionOf name (.identifier (NodeId.first + 1) "y")

/-- A definition whose body is a variable without a name. -/
def namelessBody (name : String) : Node := definitionOf name (.hollow .identifier)

/-- After a declaration of `f`, a definition of it that fails leaves the table of names as it was, and
so does one of the new name `g`; but one of the new name `7` does not. If they are given up, all of
them leave their function unfinished. -/
theorem lowerEach_failure_unboundBody :
    let b := backend.lowerEach .initial [.prototype (.proto NodeId.first ⟨"f", ["a"]⟩)]
    (∀ name ∈ ["f", "g", "7"],
      ((unboundBody name).lowerFresh backend b).1 = .error (.undefinedVariable "y") ∧
        Intact (unboundBody name) b ((unboundBody name).lowerFresh backend b).2) ∧
      ((unboundBody "f").lowerFresh backend b).2.names = b.names ∧
      ((unboundBody "g").lowerFresh backend b).2.names = b.names ∧
      ((unboundBody "7").lowerFresh backend b).2.names ≠ b.names ∧
      ∀ name ∈ ["f", "g", "7"],
        ¬Intact (namelessBody name) b ((namelessBody name).lowerFresh backend b).2 ∧
          Unfinished ⟨name, ["x"]⟩ b ((namelessBody name).lowerFresh backend b).2 := by
  intro b
  have hns : ∀ n ∈ [Node.prototype (.proto NodeId.first ⟨"f", ["a"]⟩)], ∀ p, n.proto? = some p →
      Plain p.name := by
    intro n hn p hp
    rw [List.mem_singleton.1 hn] at hp
    cases hp
    exact plain_of_no_underscore (by decide)
  have hfails : ∀ name ∈ ["f", "g", "7"],
      ((unboundBody name).lowerFresh backend b).1 = .error (.undefinedVariable "y") := by
    intro name hname
    simp only [List.mem_cons, List.not_mem_nil, or_false] at hname
    rcases hname with rfl | rfl | rfl <;> rfl
  have haborts : ∀ name ∈ ["f", "g", "7"],
      ((namelessBody name).lowerFresh backend b).1 = .error (.aborted blankRead) := by
    intro name hname
    simp only [List.mem_cons, List.not_mem_nil, or_false] at hname
    rcases hname with rfl | rfl | rfl <;> rfl
  have hkept : ∀ name ∈ ["f", "g", "7"], ¬b.Abandons (unboundBody name) := by
    rintro name hname ⟨reason, habort⟩
    cases (hfails name hname).symm.trans habort
  have hleft : ∀ name ∈ ["f", "g", "7"], _ := fun name hname =>
    lowerEach_failure _ hns (hfails name hname)
  have hnames : ∀ name ∈ ["f", "g", "7"], _ := fun name hname =>
    (hleft name hname).2.1 (hkept name hname)
  refine ⟨fun name hname => ⟨hfails name hname, (hleft name hname).1.2 (hkept name hname)⟩,
    (hnames "f" (by decide)).2 ?_, (hnames "g" (by decide)).2 ?_,
    mt (hnames "7" (by decide)).1 (not_not_intro ?_), fun name hname => ?_⟩
  · rintro ⟨_, ⟨⟩, -, -, hnumber⟩
    exact hnumber (by decide)
  · rintro ⟨_, ⟨⟩, -, -, hnumber⟩
    exact hnumber (by decide)
  · exact ⟨_, rfl, by decide, by decide +kernel, by decide⟩
  · have hgiven : b.Abandons (namelessBody name) := ⟨blankRead, haborts name hname⟩
    obtain ⟨hintact, -, hunfinished, -⟩ := lowerEach_failure _ hns (haborts name hname)
    obtain ⟨-, p, ⟨⟩, hleft⟩ := hunfinished hgiven
    exact ⟨mt hintact.1 (not_not_intro hgiven), hleft⟩

end Ir.Builder

end Kaleidoscope
