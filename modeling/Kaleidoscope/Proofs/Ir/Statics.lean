/-
  The builder finds what is wrong with a construct.

  - `Builder.declared`, `entered`, `built`, `givenUp`: the builder with the function of a prototype,
    while its body is built, once it is built, and after a body that failed;
  - `Builder.judges`: the plans for expressions find the first fault, and only add instructions to
    the function that is being built;
  - `lowerFresh_prototype`, `lowerFresh_function`: a declaration or a definition ends with its first
    fault, and so does what others know of the functions, names of expressions at top level apart;
  - `Orphans`: the definitions that leave their function behind although they fail. They are those
    of a new name that is not listed as it is spelled.
-/
import Kaleidoscope.Ir.Backend
import Kaleidoscope.Proofs.Ir.Table

namespace Kaleidoscope

namespace Ir

namespace Builder

/-! ## Names -/

/-- A name that no expression at top level is given. -/
def Plain (name : String) : Prop := ∀ k, name ≠ anonymousName k

theorem anonymousName_toList (k : Nat) :
    (anonymousName k).toList = "__anon_expr".toList ++ (toString k).toList := by
  rw [anonymousName, String.toList_append]

/-- Every name that an expression at top level is given has an underscore. -/
theorem plain_of_no_underscore {name : String} (h : '_' ∉ name.toList) : Plain name := by
  rintro k rfl
  rw [anonymousName_toList] at h
  exact h (List.mem_append_left _ (by decide))

theorem listedName_anonymousName (k : Nat) : listedName (anonymousName k) = anonymousName k := by
  have hnone : signedNumber? (anonymousName k) = none := by
    rw [signedNumber?, anonymousName_toList]
    simp [isDigits]
  rw [listedName, hnone]

/-- A name that spells a number is listed by another one, in quotes. -/
theorem listedName_ne_iff (name : String) : listedName name ≠ name ↔ signedNumber? name ≠ none := by
  cases hnumber : signedNumber? name with
  | none => simp [listedName, hnumber]
  | some n =>
    refine ⟨fun _ => Option.some_ne_none n, fun _ heq => ?_⟩
    -- a name that begins with a quote spells no number
    have hlist : name.toList = '\x22' :: ((toString n).toList ++ ['\x22']) := by
      rw [← heq, listedName, hnumber]
      simp [String.toList_append]
    rw [signedNumber?, hlist] at hnumber
    simp [isDigits] at hnumber

/-- What the name of a parameter stands for is its position. -/
theorem get?_parameters {params : List String} (h : params.Nodup) (serial : Nat) (name : String) :
    (parameters serial params).get? name =
      if name ∈ params then some (.param serial (params.idxOf name)) else none := by
  suffices hfold : ∀ (params : List String) (k : Nat) (t : SymbolTable Value), params.Nodup →
      ((params.zipIdx k).foldl (fun t x => t.add x.1 (.param serial x.2)) t).get? name =
        if name ∈ params then some (.param serial (k + params.idxOf name)) else t.get? name by
    refine (hfold params 0 .empty h).trans ?_
    rw [SymbolTable.get?_empty, Nat.zero_add]
  intro params
  induction params with
  | nil => intro k t _; rfl
  | cons first rest ih =>
    intro k t h
    obtain ⟨hfirst, hrest⟩ := List.nodup_cons.1 h
    rw [List.zipIdx_cons, List.foldl_cons, ih (k + 1) _ hrest]
    by_cases hname : name = first
    · subst hname
      rw [if_neg hfirst, SymbolTable.get?_add, if_pos rfl, if_pos List.mem_cons_self,
        List.idxOf_cons_self, Nat.add_zero]
    · rw [SymbolTable.get?_add, if_neg (Ne.symm hname), List.idxOf_cons_ne _ (Ne.symm hname)]
      simp only [List.mem_cons, hname, false_or]
      split
      · congr 2; omega
      · rfl

/-! ## The function of a prototype -/

/-- The function of a prototype before it gets a body. One without a name is always a new one. -/
def target (b : Builder) (p : Prototype) : Function :=
  if p.isAnonymous then .declared (anonymousName b.anonymous) p.params
  else
    match b.find? p.name with
    | some (_, f) => f
    | none => .declared p.name p.params

/-- The function of a prototype, by its serial number, in a builder that has it. -/
def declared (b : Builder) (p : Prototype) : Nat × Builder :=
  if p.isAnonymous then
    (b.store.size,
      { (b.create (.declared (anonymousName b.anonymous) p.params)).2 with
        anonymous := b.anonymous + 1 })
  else
    match b.find? p.name with
    | some (serial, _) => (serial, b)
    | none => b.create (.declared p.name p.params)

/-- Whether the function of a prototype is a new one. -/
def isNew (b : Builder) (p : Prototype) : Bool := p.isAnonymous || (b.find? p.name).isNone

/-- What the plan of a prototype does. -/
theorem run_prototype (b : Builder) (p : Prototype) (children : List (Action Builder Value Value))
    (pass : Pass Value) :
    (prototype p).run children b pass =
      match Directory.declarationFault? b.signature? p with
      | some e => (.error e, b, pass)
      | none => (.ok (.function (b.declared p).1), (b.declared p).2, pass) := by
  simp only [prototype, Plan.run_bind, Prototype.validate_eq, Directory.declarationFault?,
    Directory.declarationConflict?, declared]
  cases p.fault? with
  | some e => rfl
  | none =>
    simp only [Plan.run_ofExcept_ok, Action.andThen_ok, Plan.run_get, Option.none_or]
    cases hname : p.isAnonymous with
    | true => simp only [if_true, Plan.run_write, Plan.run_done]; rfl
    | false =>
      simp only [Bool.false_eq_true, if_false]
      cases hfind : b.find? p.name with
      | none => simp only [signature?_eq_none_iff.2 hfind, Plan.run_write, Plan.run_done]
      | some found =>
        obtain ⟨serial, f⟩ := found
        rw [signature?_of_find? hfind]
        by_cases harity : f.params.length = p.params.length
        · simp only [Function.signature, harity, ne_eq, not_true_eq_false, if_false, Plan.run_pure]
        · simp only [Function.signature, harity, ne_eq, not_false_eq_true, if_true, Plan.run_fail]

theorem function?_declared (b : Builder) (p : Prototype) :
    (b.declared p).2.function? (b.declared p).1 = some (b.target p) := by
  unfold declared target
  cases p.isAnonymous with
  | true => exact function?_create_self b _
  | false =>
    cases hfind : b.find? p.name with
    | none => exact function?_create_self b _
    | some found => exact (find?_eq_some.1 hfind).2

/-- A new function is the next of the store, and comes last in the module. -/
theorem declared_of_isNew {b : Builder} {p : Prototype} (h : b.isNew p = true) :
    (b.declared p).1 = b.store.size ∧
      (b.declared p).2.entries = b.entries ++ [.function b.store.size] := by
  unfold declared
  unfold isNew at h
  cases hname : p.isAnonymous with
  | true => exact ⟨rfl, rfl⟩
  | false =>
    cases hfind : b.find? p.name with
    | none => exact ⟨rfl, rfl⟩
    | some found => rw [hname, hfind] at h; cases h

/-- A function that is not new is known by its name. -/
theorem exists_find?_of_isNew {b : Builder} {p : Prototype} (h : b.isNew p = false) :
    p.isAnonymous = false ∧ ∃ serial f, b.find? p.name = some (serial, f) := by
  obtain ⟨hname, hfind⟩ := Bool.or_eq_false_iff.1 h
  obtain ⟨⟨serial, f⟩, hfind⟩ := Option.isSome_iff_exists.1 (by simpa using hfind)
  exact ⟨hname, serial, f, hfind⟩

theorem declared_of_known {b : Builder} {p : Prototype} (hname : p.isAnonymous = false)
    {serial : Nat} {f : Function} (hfind : b.find? p.name = some (serial, f)) :
    b.declared p = (serial, b) ∧ b.target p = f := by
  simp only [declared, target, hname, hfind, Bool.false_eq_true, if_false, and_self]

theorem function?_declared_ne {b : Builder} {p : Prototype} {serial : Nat}
    (h : serial ≠ (b.declared p).1) : (b.declared p).2.function? serial = b.function? serial := by
  unfold declared at h ⊢
  cases hname : p.isAnonymous with
  | true =>
    simp only [hname, if_true] at h ⊢
    exact function?_create_ne h _
  | false =>
    cases hfind : b.find? p.name with
    | none =>
      simp only [hname, hfind, Bool.false_eq_true, if_false] at h ⊢
      exact function?_create_ne h _
    | some found => rfl

/-- Where a builder has no conflict with a definition, its function has no body yet, and as many
parameters as the definition. -/
theorem target_of_conflict {b : Builder} {p : Prototype}
    (hconflict : Directory.definitionConflict? b.signature? p = none) :
    (b.target p).blocks = [] ∧ (b.target p).params.length = p.params.length := by
  unfold target
  cases hname : p.isAnonymous with
  | true => exact ⟨rfl, rfl⟩
  | false =>
    cases hfind : b.find? p.name with
    | none => exact ⟨rfl, rfl⟩
    | some found =>
      obtain ⟨serial, f⟩ := found
      rcases Directory.cases_of_definitionConflict? hname hconflict with hnone | hknown
      · rw [signature?_of_find? hfind] at hnone; cases hnone
      · obtain ⟨known, hsome, hdefined, hlength⟩ := hknown
        rw [signature?_of_find? hfind] at hsome
        injection hsome with hsome
        subst hsome
        exact ⟨by simpa [Function.signature] using hdefined, hlength⟩

namespace Sound
variable {b : Builder} (h : b.Sound) (p : Prototype)
include h

theorem declared : (b.declared p).2.Sound := by
  unfold Builder.declared
  split
  · exact ⟨(h.create _).known⟩
  · split
    · exact h
    · exact h.create _

/-- The name of a prototype's function stands for it. -/
theorem names_declared :
    (b.declared p).2.names.get? (b.target p).name = some (b.declared p).1 := by
  unfold Builder.declared target
  cases hname : p.isAnonymous with
  | true =>
    exact (find?_eq_some.1
      (find?_create_self b (.declared (anonymousName b.anonymous) p.params))).1
  | false =>
    cases hfind : b.find? p.name with
    | none => exact (find?_eq_some.1 (find?_create_self b (.declared p.name p.params))).1
    | some found =>
      obtain ⟨serial, f⟩ := found
      obtain ⟨hget, hf⟩ := find?_eq_some.1 hfind
      obtain ⟨g, hg, hn⟩ := h.known hget
      rw [hf] at hg
      injection hg with hg
      subst hg
      simpa [hn] using hget

theorem target_name {p : Prototype} (hname : p.isAnonymous = false) :
    (b.target p).name = p.name := by
  unfold target
  cases hfind : b.find? p.name with
  | none => simp only [hname, Bool.false_eq_true, if_false]; rfl
  | some found =>
    obtain ⟨hget, hf⟩ := find?_eq_some.1 hfind
    obtain ⟨g, hg, hn⟩ := h.known hget
    rw [hf] at hg
    injection hg with hg
    subst hg
    simpa [hname] using hn

/-- What is known once the function of a prototype is known, names of expressions at top level
apart. -/
theorem signature?_declared {name : String} (hplain : Plain name) :
    (b.declared p).2.signature? name = Directory.declare b.signature? p name := by
  unfold Builder.declared
  cases hname : p.isAnonymous with
  | true =>
    rw [Directory.declare_of_anonymous _ hname]
    show (b.create _).2.signature? name = _
    rw [h.signature?_create]
    exact if_neg (hplain _)
  | false =>
    simp only [Bool.false_eq_true, if_false, Directory.declare, Directory.entry, hname,
      not_false_eq_true, and_true]
    cases hfind : b.find? p.name with
    | none =>
      simp only [h.signature?_create, signature?_eq_none_iff.2 hfind, Option.getD_none]; rfl
    | some found =>
      have hknown := signature?_of_find? hfind
      simp only [hknown, Option.getD_some]
      split
      · rename_i heq; rw [heq, hknown]
      · rfl

end Sound

/-! ## Bodies -/

/-- The function of a prototype with the parameters of the prototype, and with a body. -/
def withCode (b : Builder) (p : Prototype) (code : List Instr) (returned : Option Value) :
    Function :=
  ((b.target p).withParams p.params).withBody code returned

/-- The builder while the body of a prototype's function is built. -/
def entered (b : Builder) (p : Prototype) (code : List Instr) : Builder :=
  { (b.declared p).2.put (b.declared p).1 (b.withCode p code none) with
    current := some (b.declared p).1
    values := parameters (b.declared p).1 p.params }

/-- The builder once the body of a prototype's function is built. -/
def built (b : Builder) (p : Prototype) (code : List Instr) (value : Value) : Builder :=
  (b.declared p).2.put (b.declared p).1 (b.withCode p code (some value))

/-- The builder after a body that broke off. -/
def brokenOff (b : Builder) (p : Prototype) (code : List Instr) : Builder :=
  (b.declared p).2.put (b.declared p).1 (b.withCode p code none)

/-- The builder after a body that failed: a new function is taken out again, and one that was
declared before loses its block. -/
def givenUp (b : Builder) (p : Prototype) (code : List Instr) : Builder :=
  if b.isNew p then (b.brokenOff p code).remove (b.declared p).1
  else (b.declared p).2.put (b.declared p).1 (b.withCode p code none).dropBlocks

/-- The result of the instruction at a position in the body of a prototype's function. -/
def resultAt (b : Builder) (p : Prototype) (index : Nat) : Value :=
  .result (b.declared p).1 (b.target p).dropped index

section
variable {b : Builder} {p : Prototype} {code : List Instr}

theorem function?_entered (b : Builder) (p : Prototype) (code : List Instr) :
    (b.entered p code).function? (b.declared p).1 = some (b.withCode p code none) :=
  function?_put_self (function?_declared b p) _

theorem function?_brokenOff (b : Builder) (p : Prototype) (code : List Instr) :
    (b.brokenOff p code).function? (b.declared p).1 = some (b.withCode p code none) :=
  function?_put_self (function?_declared b p) _

theorem enterBody_declared (hconflict : Directory.definitionConflict? b.signature? p = none) :
    (b.declared p).2.enterBody (b.declared p).1 p.params = b.entered p [] := by
  simp only [enterBody, modifyFunction_eq_put (function?_declared b p),
    Function.openBlock_eq (target_of_conflict hconflict).1]
  rfl

theorem leaveBody_entered :
    (b.entered p code).leaveBody (b.declared p).2.current (b.declared p).2.values =
      b.brokenOff p code := rfl

theorem leaveBody_finish (v : Value) :
    ((b.entered p code).modifyFunction (b.declared p).1 (·.finishWith v)).leaveBody
        (b.declared p).2.current (b.declared p).2.values = b.built p code v := by
  rw [modifyFunction_eq_put (function?_entered b p code)]
  show (b.brokenOff p code).put (b.declared p).1 (b.withCode p code (some v)) = _
  rw [brokenOff, put_put, built]

theorem leaveBody_giveUp :
    ((b.entered p code).giveUpBody (b.declared p).1 (b.isNew p)).leaveBody
        (b.declared p).2.current (b.declared p).2.values = b.givenUp p code := by
  unfold giveUpBody givenUp
  split
  · simp only [remove, function?_entered, function?_brokenOff]; rfl
  · rw [modifyFunction_eq_put (function?_entered b p code)]
    show (b.brokenOff p code).put (b.declared p).1 (b.withCode p code none).dropBlocks = _
    rw [brokenOff, put_put]

/-- What the plan of a body does, given what comes of the expression. -/
theorem run_body (hconflict : Directory.definitionConflict? b.signature? p = none)
    (lowerProto : Action Builder Value Value) {lowerBody : Action Builder Value Value}
    {pass pass' : Pass Value}
    {o : Outcome Value} (hbody : lowerBody (b.entered p []) pass = (o, b.entered p code, pass')) :
    (body p (b.declared p).1 (b.isNew p)).run [lowerProto, lowerBody] (b.declared p).2 pass =
      match o with
      | .ok v => (.ok (.function (b.declared p).1), b.built p code v, pass')
      | .error e => (.error e, b.givenUp p code, pass')
      | .abort reason => (.abort reason, b.brokenOff p code, pass') := by
  simp only [body, Plan.run_bind, Plan.run_get, Action.andThen_ok, Plan.run_modify,
    enterBody_declared hconflict, Plan.run_child [lowerProto, lowerBody] _ _ (i := 1) rfl, hbody]
  cases o with
  | ok v =>
    simp only [Action.andThen_ok, Plan.run_bind, Plan.run_modify, leaveBody_finish, Plan.run_pure]
  | error e =>
    simp only [Action.andThen_ok, Plan.run_bind, Plan.run_modify, leaveBody_giveUp, Plan.run_fail]
  | abort reason => simp only [Action.andThen_abort, leaveBody_entered]

/-- An instruction of the body goes to the function of the prototype. -/
theorem emit_entered (b : Builder) (p : Prototype) (code : List Instr) (i : Instr) :
    (b.entered p code).emit (b.declared p).1 i =
      (b.resultAt p code.length, b.entered p (code ++ [i])) := by
  have hput : (b.entered p code).put (b.declared p).1 (b.withCode p (code ++ [i]) none) =
      b.entered p (code ++ [i]) := by
    show { (b.brokenOff p code).put (b.declared p).1 (b.withCode p (code ++ [i]) none) with
      current := some (b.declared p).1
      values := parameters (b.declared p).1 p.params } = _
    rw [brokenOff, put_put, entered]
  rw [emit_eq (function?_entered b p code), show ((b.target p).withParams p.params).withBody
    (code ++ [i]) none = b.withCode p (code ++ [i]) none from rfl, hput]
  rfl

/-- An instruction of the body. -/
theorem run_append (children : List (Action Builder Value Value)) (pass : Pass Value) (i : Instr) :
    (append i).run children (b.entered p code) pass =
      (.ok (b.resultAt p code.length), b.entered p (code ++ [i]), pass) := by
  have hcurrent : (b.entered p code).current = some (b.declared p).1 := rfl
  simp only [append, Plan.run_bind, Plan.run_get, Action.andThen_ok, hcurrent, emit_entered,
    Plan.run_write, Plan.run_done]

end

/-- The instructions of an operator; the result of a comparison is `bit`. -/
def instrs (op : Operator) (left right bit : Value) : List Instr :=
  match op with
  | .add => [.arithmetic .add left right]
  | .subtract => [.arithmetic .subtract left right]
  | .multiply => [.arithmetic .multiply left right]
  | .divide => [.arithmetic .divide left right]
  | .less => [.compare .less left right, .widen bit]
  | .greater => [.compare .greater left right, .widen bit]

theorem run_operator (b : Builder) (p : Prototype) (code : List Instr)
    (children : List (Action Builder Value Value)) (pass : Pass Value) (op : Operator)
    (left right : Value) :
    (operator op left right).run children (b.entered p code) pass =
      let more := instrs op left right (b.resultAt p code.length)
      (.ok (b.resultAt p (code.length + (more.length - 1))), b.entered p (code ++ more), pass) := by
  cases op with
  | add | subtract | multiply | divide => exact run_append children pass _
  | less | greater =>
    simp only [operator, Plan.run_bind, run_append, Action.andThen_ok, instrs, List.append_assoc,
      List.cons_append, List.nil_append, List.length_append, List.length_cons, List.length_nil]

/-! ## Expressions -/

/-- The scope of the body of a prototype's function. -/
def bodyScope (b : Builder) (p : Prototype) : Scope where
  params := p.params
  arity? name := ((b.declared p).2.signature? name).map (·.params.length)

section
variable {b : Builder} {p : Prototype}

theorem arity?_entered (hconflict : Directory.definitionConflict? b.signature? p = none)
    (code : List Instr) (callee : String) :
    ((b.entered p code).find? callee).map (·.2.params.length) = (b.bodyScope p).arity? callee := by
  have hput := signature?_put (function?_declared b p) (b.withCode p code none) callee
  have hmap : ((b.entered p code).find? callee).map (·.2.params.length) =
      ((b.brokenOff p code).signature? callee).map (·.params.length) := by
    rw [signature?, Option.map_map]; rfl
  rw [hmap, brokenOff, hput, bodyScope]
  split
  · rename_i hget
    have hfind := find?_eq_some.2 ⟨hget, function?_declared b p⟩
    simp only [signature?_of_find? hfind]
    exact congrArg some (target_of_conflict hconflict).2.symm
  · rfl

/-- A parameter stands for its position. -/
theorem run_identifier (hproto : p.fault? = none) (code : List Instr)
    (children : List (Action Builder Value Value)) (pass : Pass Value) (name : String) :
    (identifier name).run children (b.entered p code) pass =
      if name ∈ p.params then
        (.ok (.param (b.declared p).1 (p.params.idxOf name)), b.entered p code, pass)
      else (.error (.undefinedVariable name), b.entered p code, pass) := by
  have hvalues : (b.entered p code).values = parameters (b.declared p).1 p.params := rfl
  have hget := get?_parameters (Prototype.fault?_eq_none_iff.1 hproto).2 (b.declared p).1 name
  simp only [identifier, Plan.run_bind, Plan.run_get, Action.andThen_ok, hvalues, hget]
  by_cases hname : name ∈ p.params
  · simp only [hname, if_true, Plan.run_pure]
  · simp only [hname, if_false, Plan.run_fail]

/-- **The plans for expressions find the first fault**, and only add instructions. -/
theorem judges (hproto : p.fault? = none)
    (hconflict : Directory.definitionConflict? b.signature? p = none) :
    backend.Judges (b.bodyScope p) (fun s => ∃ code, s = b.entered p code) fun _ => True where
  number sound value := by
    rintro s pass ⟨code, rfl⟩ hp
    exact ⟨_, _, pass, rfl, trivial, ⟨code, rfl⟩, hp⟩
  identifier sound name := by
    rintro s pass ⟨code, rfl⟩ hp
    have hrun := run_identifier (b := b) hproto code [] pass name
    by_cases hname : name ∈ p.params
    · rw [if_pos hname] at hrun
      refine ⟨_, _, pass, hrun, ?_, ⟨code, rfl⟩, hp⟩
      simp only [Scope.variableFault?, bodyScope, hname, if_true]; trivial
    · rw [if_neg hname] at hrun
      refine ⟨_, _, pass, hrun, ?_, ⟨code, rfl⟩, hp⟩
      simp only [Scope.variableFault?, bodyScope, hname, if_false]
      exact ⟨rfl, by rintro _ ⟨⟩⟩
  binary op := by
    refine ⟨_, rfl, fun sound children left right _ _ => ?_⟩
    rintro s pass ⟨code, rfl⟩ hp
    have hcurrent : (b.entered p code).current.isNone = false := rfl
    cases hop : op.operator? with
    | none =>
      refine ⟨.error (.operation op), b.entered p code, pass, ?_, ?_, ⟨code, rfl⟩, hp⟩
      · simp only [Plan.run_bind, Plan.run_get, Action.andThen_ok, hcurrent, Bool.false_eq_true,
          if_false, Plan.run_fail]
      · simp only [OpCode.fault?, hop, Option.isNone_none, if_true]
        exact ⟨rfl, by rintro _ ⟨⟩⟩
    | some op' =>
      let more := instrs op' left right (b.resultAt p code.length)
      refine ⟨.ok (b.resultAt p (code.length + (more.length - 1))), b.entered p (code ++ more), pass,
        ?_, ?_, ⟨_, rfl⟩, hp⟩
      · simp only [Plan.run_bind, Plan.run_get, Action.andThen_ok, hcurrent, Bool.false_eq_true,
          if_false, run_operator, more]
      · simp only [OpCode.fault?, hop, Option.isNone_some, Bool.false_eq_true, if_false]; trivial
  hollow _ := rfl
  call callee args := by
    rintro s ⟨code, rfl⟩
    have harity := arity?_entered hconflict code callee
    simp only [Scope.callFault?, ← harity]
    cases hcallee : (b.entered p code).find? callee with
    | none =>
      intro pass
      simp only [backend, call, Plan.run_bind, Plan.run_get, Action.andThen_ok, hcallee,
        Plan.run_fail]
    | some found =>
      obtain ⟨serial, f⟩ := found
      by_cases hcount : f.params.length = args.length
      · simp only [Option.map_some, hcount, ne_eq, not_true_eq_false, if_false]
        refine ⟨fun rs => append (.call f.name rs), fun pass => ?_, fun sound rs => ?_⟩
        · simp only [backend, call, Plan.run_bind, Plan.run_get, Action.andThen_ok, hcallee, hcount,
            ne_eq, not_true_eq_false, if_false, Plan.run_lowerFrom_zero]
        · rintro s pass ⟨code', rfl⟩ hp
          exact ⟨_, _, pass, run_append args pass _, trivial, ⟨_, rfl⟩, hp⟩
      · simp only [Option.map_some, hcount, ne_eq, not_false_eq_true, if_true]
        intro pass
        simp only [backend, call, Plan.run_bind, Plan.run_get, Action.andThen_ok, hcallee, hcount,
          ne_eq, not_false_eq_true, if_true, Plan.run_fail]

end

/-! ## Constructs -/

/-- The pass that meets the body of a definition: it has lowered the prototype only if the function
is a new one. -/
def bodyPass (b : Builder) (p : Prototype) (protoId : NodeId) : Pass Value :=
  if b.isNew p then
    ((Pass.empty.enter.enter).record protoId (.function (b.declared p).1)).leave
  else Pass.empty.enter

theorem result?_bodyPass (b : Builder) (p : Prototype) {protoId other : NodeId}
    (h : other ≠ protoId) : (b.bodyPass p protoId).result? other = none := by
  unfold bodyPass
  split
  · exact Pass.result?_record_empty _ h
  · exact Pass.result?_empty other

section
variable {b : Builder} {id protoId : NodeId} {p : Prototype}

/-- **A declaration ends with its first fault**, and the builder as it was. -/
theorem lowerFresh_prototype (b : Builder) (id : NodeId) (p : Prototype) :
    (Node.prototype (.proto id p)).lowerFresh backend b =
      match Directory.declarationFault? b.signature? p with
      | some e => (.error e, b)
      | none => (.ok (.function (b.declared p).1), (b.declared p).2) := by
  simp only [Node.lowerFresh, Node.lower, Node.action, ProtoNode.action, ProtoNode.id,
    ProtoNode.content?, visit_of_missing (Pass.result?_empty id), backend, run_prototype]
  cases Directory.declarationFault? b.signature? p <;> rfl

/-- A definition with a wrong prototype ends with its fault, and the builder as it was. -/
theorem lowerFresh_of_conflict {body : Term} {e : Error}
    (h : p.fault?.or (Directory.definitionConflict? b.signature? p) = some e) :
    (Node.function ⟨id, .proto protoId p, body⟩).lowerFresh backend b = (.error e, b) := by
  simp only [Node.lowerFresh, Node.lower, Node.action, FunctionNode.action, ProtoNode.content?,
    visit_of_missing (Pass.result?_empty id), backend, function, Plan.run_bind,
    Prototype.validate_eq]
  cases hproto : p.fault? with
  | some e' =>
    rw [hproto] at h
    injection h with h
    simp only [Plan.run_ofExcept_error, Action.andThen_error, settle, h]
  | none =>
    simp only [hproto, Option.none_or, Directory.definitionConflict?] at h
    simp only [Plan.run_ofExcept_ok, Action.andThen_ok, Plan.run_get]
    cases hname : p.isAnonymous with
    | true => simp [hname] at h
    | false =>
      simp only [hname, Bool.false_eq_true, if_false] at h ⊢
      cases hfind : b.find? p.name with
      | none => simp [signature?_eq_none_iff.2 hfind] at h
      | some found =>
        obtain ⟨serial, f⟩ := found
        simp only [signature?_of_find? hfind, Function.signature] at h
        by_cases hdefined : (!f.blocks.isEmpty) = true
        · simp only [hdefined, if_true, Option.some.injEq] at h
          simp only [hdefined, if_true, Plan.run_fail, settle, h]
        · by_cases harity : f.params.length = p.params.length
          · simp [hdefined, harity] at h
          · simp only [hdefined, Bool.false_eq_true, if_false, harity, ne_eq, not_false_eq_true,
              if_true, Option.some.injEq] at h
            simp only [hdefined, Bool.false_eq_true, if_false, harity, ne_eq, not_false_eq_true,
              if_true, Plan.run_fail, settle, h]

/-- A definition with a right prototype, given what comes of the expression. -/
theorem lowerFresh_of_body {body : Term} (hproto : p.fault? = none)
    (hconflict : Directory.definitionConflict? b.signature? p = none) {o : Outcome Value}
    {code : List Instr} {pass : Pass Value}
    (hbody : body.action backend (b.entered p []) (b.bodyPass p protoId) =
      (o, b.entered p code, pass)) :
    (Node.function ⟨id, .proto protoId p, body⟩).lowerFresh backend b =
      match o with
      | .ok v => (.ok (.function (b.declared p).1), b.built p code v)
      | .error e => (.error e, b.givenUp p code)
      | .abort reason => (.error (.aborted reason), b.brokenOff p code) := by
  have hrun := run_body hconflict ((ProtoNode.proto protoId p).action backend) hbody
  have hplan : (function p).run [(ProtoNode.proto protoId p).action backend, body.action backend] b
      Pass.empty.enter =
        (Builder.body p (b.declared p).1 (b.isNew p)).run
          [(ProtoNode.proto protoId p).action backend, body.action backend] (b.declared p).2
          (b.bodyPass p protoId) := by
    simp only [function, Plan.run_bind, Prototype.validate_eq, hproto, Plan.run_ofExcept_ok,
      Action.andThen_ok, Plan.run_get]
    cases hfind : if p.isAnonymous then none else b.find? p.name with
    | none =>
      have hnew : b.isNew p = true := by
        cases hname : p.isAnonymous with
        | true => simp only [isNew, hname, Bool.true_or]
        | false =>
          rw [hname] at hfind
          simp only [isNew, show b.find? p.name = none from hfind, Option.isNone_none, Bool.or_true]
      have hlower : (ProtoNode.proto protoId p).action backend b Pass.empty.enter =
          (.ok (.function (b.declared p).1), (b.declared p).2, b.bodyPass p protoId) := by
        simp only [ProtoNode.action, ProtoNode.id, ProtoNode.content?, backend, run_prototype,
          Directory.declarationFault?_of_definition hproto hconflict,
          visit_of_missing (p := Pass.empty.enter) (Pass.result?_empty protoId), settle, bodyPass,
          hnew, if_true]
      simp only [Plan.run_bind, Plan.run_lower [_, body.action backend] _ _ (i := 0) rfl, hlower,
        Action.andThen_ok, hnew]
    | some found =>
      obtain ⟨serial, f⟩ := found
      cases hname : p.isAnonymous with
      | true => rw [hname] at hfind; cases hfind
      | false =>
        rw [hname] at hfind
        have hfind : b.find? p.name = some (serial, f) := hfind
        have hf : b.target p = f := by
          simp only [target, hname, Bool.false_eq_true, if_false, hfind]
        obtain ⟨hblocks, hlength⟩ := target_of_conflict hconflict
        rw [hf] at hblocks hlength
        have hnew : b.isNew p = false := by
          simp only [isNew, hname, hfind, Option.isNone_some, Bool.false_or]
        have hdeclared : b.declared p = (serial, b) := by
          simp only [declared, hname, Bool.false_eq_true, if_false, hfind]
        simp only [hblocks, List.isEmpty_nil, Bool.not_true, Bool.false_eq_true, if_false, hlength,
          ne_eq, not_true_eq_false, hdeclared, hnew, bodyPass]
  simp only [Node.lowerFresh, Node.lower, Node.action, FunctionNode.action, ProtoNode.content?,
    visit_of_missing (Pass.result?_empty id), show backend.function (some p) = function p from rfl,
    hplan, hrun]
  cases o <;> rfl

/-- What comes of a definition with a right prototype is what the first fault of its body asks for. -/
theorem lowerFresh_meets {body : Term} (hf : (FunctionNode.mk id (.proto protoId p) body).Coherent)
    (hfull : ∀ u ∈ body.subterms, u ≠ .blank) (hproto : p.fault? = none)
    (hconflict : Directory.definitionConflict? b.signature? p = none) :
    ∃ (o : Outcome Value) (code : List Instr),
      o.Meets (fun _ => True) (body.fault? (b.bodyScope p)) ∧
      (Node.function ⟨id, .proto protoId p, body⟩).lowerFresh backend b =
        match o with
        | .ok v => (.ok (.function (b.declared p).1), b.built p code v)
        | .error e => (.error e, b.givenUp p code)
        | .abort reason => (.error (.aborted reason), b.brokenOff p code) := by
  have hvouches := hf.vouches (b.bodyScope p) (fun _ : Value => True)
    (p := b.bodyPass p protoId) fun other hother => result?_bodyPass b p hother
  obtain ⟨o, _, pass, hbody, hmeets, ⟨code, rfl⟩, -⟩ :=
    (judges hproto hconflict).finds hf.body hfull body (fun _ hu => hu) _ _ ⟨[], rfl⟩ hvouches
  refine ⟨o, code, hmeets, ?_⟩
  rw [lowerFresh_of_body hproto hconflict hbody]
  cases o <;> rfl

theorem lowerFresh_of_lacksPrototype {n : Node} (h : n.LacksPrototype) (b : Builder) :
    n.lowerFresh backend b = (.error (.aborted blankRead), b) :=
  h.lowerFresh rfl rfl rfl b

/-! ## What others know after a construct -/

/-- The name of a prototype's function stands for it alone, names of expressions at top level
apart. -/
theorem Sound.names_declared_iff (h : b.Sound) {name : String} (hplain : Plain name) :
    (b.declared p).2.names.get? name = some (b.declared p).1 ↔
      name = p.name ∧ ¬p.isAnonymous := by
  rw [(h.declared p).names_get? (h.names_declared p)]
  cases hname : p.isAnonymous with
  | true =>
    have htarget : (b.target p).name = anonymousName b.anonymous := by
      simp only [target, hname, if_true]; rfl
    simp [htarget, hplain b.anonymous]
  | false => simp [h.target_name hname]

/-- A replaced function of a prototype is known by its new signature. -/
theorem Sound.signature?_put_declared (h : b.Sound) (g : Function) {name : String}
    (hplain : Plain name) :
    ((b.declared p).2.put (b.declared p).1 g).signature? name =
      if name = p.name ∧ ¬p.isAnonymous then some g.signature else b.signature? name := by
  rw [signature?_put (function?_declared b p), h.signature?_declared p hplain, Directory.declare]
  simp only [h.names_declared_iff hplain]
  split <;> rfl

/-- **A body makes its function a defined one**, also one that was broken off. -/
theorem Sound.agrees_withCode (h : b.Sound)
    (hconflict : Directory.definitionConflict? b.signature? p = none) (code : List Instr)
    (returned : Option Value) :
    Directory.Agrees Plain
      ((b.declared p).2.put (b.declared p).1 (b.withCode p code returned)).signature?
      (Directory.define b.signature? p) := by
  intro name hplain
  rw [h.signature?_put_declared _ hplain, Directory.define]
  split
  · rename_i hname
    have hlength : (Directory.entry b.signature? p).params.length = p.params.length := by
      rcases Directory.cases_of_definitionConflict? (by simpa using hname.2) hconflict with
        hnew | ⟨known, hknown, -, hlength⟩
      · rw [Directory.entry, hnew]; rfl
      · rw [Directory.entry, hknown]; exact hlength
    simp only [Option.map_some, Signature.standing, hlength]; rfl
  · rfl

/-- Whether a definition fails and still leaves its function behind: its prototype is right, its
name is a new one that spells a number, and its body has a fault. -/
def Orphans (G : Directory) (p : Prototype) (body : Term) : Prop :=
  p.fault? = none ∧ G p.name = none ∧ signedNumber? p.name ≠ none ∧ body.fault? (G.scope p) ≠ none

theorem isAnonymous_of_signedNumber? (hnumber : signedNumber? p.name ≠ none) :
    p.isAnonymous = false := by
  rw [Bool.eq_false_iff]
  intro hname
  rw [String.isEmpty_iff.1 hname] at hnumber
  exact hnumber (by decide)

/-- A body that fails leaves a new function behind if its name spells a number. -/
theorem Sound.signature?_givenUp_of_number (h : b.Sound) (hplain : Plain p.name)
    (hnew : b.signature? p.name = none) (hnumber : signedNumber? p.name ≠ none)
    (code : List Instr) : (b.givenUp p code).signature? p.name ≠ none := by
  have hname := isAnonymous_of_signedNumber? hnumber
  have hisNew : b.isNew p = true := by
    rw [isNew, signature?_eq_none_iff.1 hnew, Option.isNone_none, Bool.or_true]
  have hlisted : p.name ≠ listedName (b.withCode p code none).name := by
    show p.name ≠ listedName (b.target p).name
    rw [h.target_name hname]
    exact Ne.symm ((listedName_ne_iff p.name).2 hnumber)
  rw [givenUp, if_pos hisNew, signature?_remove (function?_brokenOff b p code), if_neg hlisted,
    brokenOff, h.signature?_put_declared _ hplain, if_pos ⟨rfl, by simp [hname]⟩]
  exact Option.some_ne_none _

/-- A body that fails leaves nothing behind if its name spells no number, or if it is known. -/
theorem Sound.agrees_givenUp (h : b.Sound)
    (hconflict : Directory.definitionConflict? b.signature? p = none)
    (hlisted : b.signature? p.name = none → signedNumber? p.name = none) (code : List Instr) :
    Directory.Agrees Plain (b.givenUp p code).signature? b.signature? := by
  intro name hplain
  cases hname : p.isAnonymous with
  | true =>
    have hisNew : b.isNew p = true := by rw [isNew, hname, Bool.true_or]
    have hanonymous : listedName (b.withCode p code none).name = anonymousName b.anonymous := by
      show listedName (b.target p).name = _
      simp only [target, hname, if_true]
      exact listedName_anonymousName _
    rw [givenUp, if_pos hisNew, signature?_remove (function?_brokenOff b p code), hanonymous,
      if_neg (hplain _), brokenOff, h.signature?_put_declared _ hplain, if_neg (by simp [hname])]
  | false =>
    rcases Directory.cases_of_definitionConflict? hname hconflict with
      hnew | ⟨known, hknown, hdefined, hlength⟩
    · have hisNew : b.isNew p = true := by
        rw [isNew, signature?_eq_none_iff.1 hnew, Option.isNone_none, Bool.or_true]
      have hlisted : listedName (b.withCode p code none).name = p.name := by
        show listedName (b.target p).name = _
        rw [h.target_name hname, listedName, hlisted hnew]
      rw [givenUp, if_pos hisNew, signature?_remove (function?_brokenOff b p code), hlisted]
      split
      · rename_i heq; rw [heq, hnew]
      · rename_i hne
        rw [brokenOff, h.signature?_put_declared _ hplain, if_neg fun hand => hne hand.1]
    · have hisNew : b.isNew p = false := by
        cases hfind : b.find? p.name with
        | none => rw [signature?_eq_none_iff.2 hfind] at hknown; cases hknown
        | some found => simp [isNew, hname, hfind]
      rw [givenUp, hisNew, if_neg Bool.false_ne_true, h.signature?_put_declared _ hplain]
      split
      · rename_i heq
        rw [heq.1, hknown]
        simp only [Option.map_some, Signature.standing, hdefined, hlength]; rfl
      · rfl

/-- **A body that fails leaves nothing behind**, unless the definition is one of those that leave their
function behind. -/
theorem Sound.agrees_givenUp_iff (h : b.Sound) (hproto : p.fault? = none)
    (hconflict : Directory.definitionConflict? b.signature? p = none) (hplain : Plain p.name)
    {body : Term} (hfault : body.fault? (Directory.scope b.signature? p) ≠ none)
    (code : List Instr) :
    Directory.Agrees Plain (b.givenUp p code).signature? b.signature? ↔
      ¬Orphans b.signature? p body := by
  constructor
  · rintro hagrees ⟨-, hnew, hnumber, -⟩
    have hknown := hagrees p.name hplain
    rw [hnew, Option.map_none, Option.map_eq_none_iff] at hknown
    exact h.signature?_givenUp_of_number hplain hnew hnumber code hknown
  · intro hkept
    refine h.agrees_givenUp hconflict (fun hnew => ?_) code
    by_contra hnumber
    exact hkept ⟨hproto, hnew, hnumber, hfault⟩

theorem Sound.givenUp (h : b.Sound) (p : Prototype) (code : List Instr) :
    (b.givenUp p code).Sound := by
  have hname : (b.withCode p code none).name = (b.target p).name := rfl
  unfold Builder.givenUp
  split
  · exact ((h.declared p).put (function?_declared b p) hname).remove _
  · exact (h.declared p).put (function?_declared b p) rfl

/-- The arities that the body of a definition can see, names of expressions at top level apart. -/
theorem Sound.fault?_bodyScope (h : b.Sound) (p : Prototype) {body : Term}
    (hcalls : body.Calls Plain) :
    body.fault? (b.bodyScope p) = body.fault? (Directory.scope b.signature? p) := by
  refine Term.fault?_congr (b.bodyScope p) (Directory.scope b.signature? p) rfl body
    fun id callee args hu => ?_
  simp only [bodyScope, Directory.scope, h.signature?_declared p (hcalls id callee args hu)]

/-- **A definition ends with its first fault.** What others know stays as it was after a fault,
unless the definition is one of those that leave their function behind. One that is given up leaves a
function with a body. -/
theorem lowerFresh_function (h : b.Sound) {body : Term}
    (hf : (FunctionNode.mk id (.proto protoId p) body).Coherent)
    (hfull : ∀ u ∈ body.subterms, u ≠ .blank) (hplain : Plain p.name) (hcalls : body.Calls Plain) :
    ∃ r b', (Node.function ⟨id, .proto protoId p, body⟩).lowerFresh backend b = (r, b') ∧
      b'.Sound ∧
      (¬Directory.GivesUp b.signature? p body →
        match Directory.definitionFault? b.signature? p body with
        | none => (∃ v, r = .ok v) ∧
          Directory.Agrees Plain b'.signature? (Directory.define b.signature? p)
        | some e => r = .error e ∧
          (Directory.Agrees Plain b'.signature? b.signature? ↔ ¬Orphans b.signature? p body)) ∧
      ∀ reason, Directory.definitionFault? b.signature? p body = some (.aborted reason) →
        r = .error (.aborted reason) ∧
          Directory.Agrees Plain b'.signature? (Directory.define b.signature? p) := by
  unfold Directory.GivesUp
  cases hfirst : p.fault?.or (Directory.definitionConflict? b.signature? p) with
  | some e =>
    have hfault : Directory.definitionFault? b.signature? p body = some e := by
      rw [Directory.definitionFault?, ← Option.or_assoc, hfirst, Option.some_or]
    refine ⟨.error e, b, lowerFresh_of_conflict hfirst, h, fun _ => ?_, fun reason habort => ?_⟩
    · rw [hfault]
      refine ⟨rfl, fun _ => ?_, fun _ => fun _ _ => rfl⟩
      rintro ⟨hproto, hnew, -, -⟩
      simp [hproto, Directory.definitionConflict?, hnew] at hfirst
    · rw [hfault] at habort
      exact absurd (Option.some.inj habort) (Directory.inner_of_conflict hfirst reason)
  | none =>
    obtain ⟨hproto, hconflict⟩ := Option.or_eq_none_iff.1 hfirst
    obtain ⟨o, code, hmeets, hrun⟩ := lowerFresh_meets hf hfull hproto hconflict
    have hfault : Directory.definitionFault? b.signature? p body = body.fault? (b.bodyScope p) := by
      rw [h.fault?_bodyScope p hcalls, Directory.definitionFault?, hproto, hconflict,
        Option.none_or, Option.none_or]
    rw [hfault]
    rcases hmeets.cases with ⟨v, rfl, hnone, -⟩ | ⟨e, rfl, hsome, hinner⟩ | ⟨reason, rfl, hsome⟩
    · refine ⟨_, _, hrun, (h.declared p).put (function?_declared b p) rfl, ?_⟩
      rw [hnone]
      exact ⟨fun _ => ⟨⟨_, rfl⟩, h.agrees_withCode hconflict code (some v)⟩, by rintro _ ⟨⟩⟩
    · refine ⟨_, _, hrun, h.givenUp p code, fun _ => ?_, fun reason habort => ?_⟩
      · rw [hsome]
        refine ⟨rfl, h.agrees_givenUp_iff hproto hconflict hplain ?_ code⟩
        rw [← h.fault?_bodyScope p hcalls, hsome]
        exact Option.some_ne_none e
      · rw [hsome] at habort
        exact absurd (Option.some.inj habort) (hinner reason)
    · refine ⟨_, _, hrun, (h.declared p).put (function?_declared b p) rfl,
        fun hkept => absurd ⟨reason, hsome⟩ hkept, fun other habort => ?_⟩
      rw [hsome] at habort
      cases habort
      exact ⟨rfl, h.agrees_withCode hconflict code none⟩

end

end Builder

end Ir

end Kaleidoscope
