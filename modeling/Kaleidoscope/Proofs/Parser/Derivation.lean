/-
  The grammar, as derivations of token lists.

  - `Operator.atLevel`: the operators of a level. Comparisons bind loosest, then sums, products and
    quotients;
  - `Derives`: the expressions of a level. An operator of the level stands between an expression of
    the same level on its left and one of the next level on its right. Level 5 is that of operands;
  - `DerivesArguments`: expressions with commas between them;
  - `DerivesPrototype`, `DerivesConstruct`: the pieces of a program;
  - `Derives.loosen`: an expression of a level is one of every looser level;
  - `Token.Begins`: the tokens that an expression starts with;
  - `Token.Kind.Live`, `DerivesConstruct.live`: what is derived holds neither the end of input, nor a
    semicolon, nor a token that cannot be read.
-/
import Kaleidoscope.Construct
import Kaleidoscope.Token.Basic

namespace Kaleidoscope

/-- The operators of a level. -/
def Operator.atLevel : Nat → List Operator
  | 1 => [.less, .greater]
  | 2 => [.add, .subtract]
  | 3 => [.multiply]
  | 4 => [.divide]
  | _ => []

mutual

/-- The tokens derive the expression at a level. -/
inductive Derives : Nat → List Token → Expr → Prop
  /-- An operator of the level between its operands; chains lean to the left. -/
  | operation {level : Nat} {ls rs : List Token} {left right : Expr} {op : Operator} {t : Token}
      (hleft : Derives level ls left) (hop : op ∈ Operator.atLevel level)
      (ht : t.is op.symbol = true) (hright : Derives (level + 1) rs right) :
      Derives level (ls ++ t :: rs) (.binary op left right)
  /-- An expression of the next level. -/
  | tighter {level : Nat} {ts : List Token} {e : Expr} (hlevel : level < 5)
      (h : Derives (level + 1) ts e) : Derives level ts e
  /-- A number. -/
  | number {t : Token} {value : Binary64} (ht : t.kind = .number value) :
      Derives 5 [t] (.number value)
  /-- A variable. -/
  | identifier {t : Token} (ht : t.kind = .identifier) : Derives 5 [t] (.identifier t.text)
  /-- A call without arguments. -/
  | emptyCall {t u v : Token} (ht : t.kind = .identifier) (hu : u.is '(' = true)
      (hv : v.is ')' = true) : Derives 5 [t, u, v] (.call t.text [])
  /-- A call with arguments. -/
  | call {t u v : Token} {ts : List Token} {args : List Expr} (ht : t.kind = .identifier)
      (hu : u.is '(' = true) (hargs : DerivesArguments ts args) (hv : v.is ')' = true) :
      Derives 5 (t :: u :: (ts ++ [v])) (.call t.text args)
  /-- An expression in parentheses, which leave no trace in the tree. -/
  | group {t u : Token} {ts : List Token} {e : Expr} (ht : t.is '(' = true)
      (h : Derives 1 ts e) (hu : u.is ')' = true) : Derives 5 (t :: (ts ++ [u])) e

/-- The tokens derive one or more expressions, with commas between them. -/
inductive DerivesArguments : List Token → List Expr → Prop
  | last {ts : List Token} {e : Expr} (h : Derives 1 ts e) : DerivesArguments ts [e]
  | cons {ts us : List Token} {e : Expr} {es : List Expr} {t : Token} (h : Derives 1 ts e)
      (ht : t.is ',' = true) (hs : DerivesArguments us es) :
      DerivesArguments (ts ++ t :: us) (e :: es)

end

/-- The tokens derive the prototype: a name, and names in parentheses. -/
inductive DerivesPrototype : List Token → Prototype → Prop
  | intro {t u v : Token} {params : List Token} (ht : t.kind = .identifier) (hu : u.is '(' = true)
      (hparams : ∀ w ∈ params, w.kind = .identifier) (hv : v.is ')' = true) :
      DerivesPrototype (t :: u :: (params ++ [v])) ⟨t.text, params.map (·.text)⟩

/-- The tokens derive the construct. -/
inductive DerivesConstruct : List Token → Construct → Prop
  /-- The keyword of a definition, a prototype and a body. -/
  | definition {t : Token} {ts us : List Token} {proto : Prototype} {body : Expr}
      (ht : t.kind = .define) (hproto : DerivesPrototype ts proto) (hbody : Derives 1 us body) :
      DerivesConstruct (t :: (ts ++ us)) (.definition proto body)
  /-- The keyword of a declaration and a prototype. -/
  | declaration {t : Token} {ts : List Token} {proto : Prototype} (ht : t.kind = .declare)
      (hproto : DerivesPrototype ts proto) : DerivesConstruct (t :: ts) (.declaration proto)
  /-- An expression, which stands for a function without name and parameters. -/
  | evaluation {ts : List Token} {body : Expr} (hbody : Derives 1 ts body) :
      DerivesConstruct ts (.evaluation body)

/-! ## Levels -/

theorem Operator.mem_atLevel {op : Operator} {level : Nat} :
    op ∈ atLevel level ↔ op.precedence = level := by
  match level with
  | 0 | 1 | 2 | 3 | 4 | _ + 5 => cases op <;> simp [atLevel, precedence]

theorem Operator.precedence_lt (op : Operator) : op.precedence < 5 := by
  cases op <;> decide

theorem Operator.symbol_ne_semicolon (op : Operator) : op.symbol ≠ ';' := by
  cases op <;> decide

theorem Token.operator?_eq_some {t : Token} {op : Operator} :
    t.operator? = some op ↔ t.is op.symbol = true := by
  simp only [Token.operator?, Token.is, decide_eq_true_eq]
  constructor
  · intro h
    split at h
    · rename_i c hkind
      rw [hkind, Operator.symbol_of_ofSymbol? h]
    · cases h
  · intro h
    rw [h]
    exact Operator.ofSymbol?_symbol op

namespace Derives
variable {level : Nat} {ts : List Token} {e : Expr}

theorem ne_nil : ∀ {level ts e}, Derives level ts e → ts ≠ []
  | _, _, _, .operation .. => by simp
  | _, _, _, .tighter _ h => h.ne_nil
  | _, _, _, .number _ | _, _, _, .identifier _ | _, _, _, .emptyCall .. | _, _, _, .call ..
  | _, _, _, .group .. => by simp

theorem level_le (h : Derives level ts e) : level ≤ 5 := by
  cases h with
  | operation _ hop _ _ => exact Operator.mem_atLevel.1 hop ▸ Nat.le_of_lt (Operator.precedence_lt _)
  | tighter hlevel _ => exact Nat.le_of_lt hlevel
  | _ => exact Nat.le_refl 5

/-- An expression of a level is one of every looser level. -/
theorem loosen (h : Derives level ts e) {looser : Nat} (hle : looser ≤ level) :
    Derives looser ts e := by
  obtain ⟨steps, rfl⟩ := Nat.exists_eq_add_of_le hle
  induction steps with
  | zero => exact h
  | succ steps ih => exact ih (.tighter h.level_le h) (Nat.le_add_right _ _)

/-- No operator is looser than the first level. -/
theorem of_zero (h : Derives 0 ts e) : Derives 1 ts e := by
  cases h with
  | operation _ hop _ _ => cases hop
  | tighter _ h => exact h

end Derives

/-! ## The first token -/

/-- The token is one that an expression starts with: a number, a name, or an opening parenthesis. -/
def Token.Begins (t : Token) : Prop :=
  (∃ value, t.kind = .number value) ∨ t.kind = .identifier ∨ t.is '(' = true

theorem Token.is_eq_false {t : Token} {c d : Char} (h : t.is c = true) (hne : c ≠ d) :
    t.is d = false := by
  simp only [Token.is, decide_eq_true_eq, decide_eq_false_iff_not] at h ⊢
  rw [h]
  exact fun hkind => hne (Token.Kind.symbol.inj hkind)

theorem Token.Begins.is_eq_false {t : Token} (h : t.Begins) {c : Char} (hc : c ≠ '(') :
    t.is c = false := by
  rcases h with ⟨value, hkind⟩ | hkind | hopen
  · simp [Token.is, hkind]
  · simp [Token.is, hkind]
  · exact Token.is_eq_false hopen (Ne.symm hc)

theorem Derives.begins : ∀ {level : Nat} {ts : List Token} {e : Expr}, Derives level ts e →
    ∃ t us, ts = t :: us ∧ t.Begins
  | _, _, _, .operation h _ _ _ => by
    obtain ⟨t, us, rfl, ht⟩ := h.begins
    exact ⟨t, _, rfl, ht⟩
  | _, _, _, .tighter _ h => h.begins
  | _, _, _, .number ht => ⟨_, _, rfl, Or.inl ⟨_, ht⟩⟩
  | _, _, _, .identifier ht | _, _, _, .emptyCall ht _ _ | _, _, _, .call ht _ _ _ =>
    ⟨_, _, rfl, Or.inr (Or.inl ht)⟩
  | _, _, _, .group ht _ _ => ⟨_, _, rfl, Or.inr (Or.inr ht)⟩

theorem DerivesArguments.begins {ts : List Token} {es : List Expr} (h : DerivesArguments ts es) :
    ∃ t us, ts = t :: us ∧ t.Begins := by
  cases h with
  | last h => exact h.begins
  | cons h _ _ =>
    obtain ⟨t, us, rfl, ht⟩ := h.begins
    exact ⟨t, _, rfl, ht⟩

/-- A construct does not start with a semicolon. -/
theorem DerivesConstruct.begins {ts : List Token} {c : Construct} (h : DerivesConstruct ts c) :
    ∃ t us, ts = t :: us ∧ t.is ';' = false := by
  cases h with
  | definition ht _ _ => exact ⟨_, _, rfl, by simp [Token.is, ht]⟩
  | declaration ht _ => exact ⟨_, _, rfl, by simp [Token.is, ht]⟩
  | evaluation hbody =>
    obtain ⟨t, us, rfl, ht⟩ := hbody.begins
    exact ⟨t, us, rfl, ht.is_eq_false (by decide)⟩

/-! ## The tokens of a derivation -/

namespace Token

/-- The token is not the end of input. -/
def Inside (t : Token) : Prop := t.kind ≠ .endOfInput

theorem inside_of_is {t : Token} {c : Char} (ht : t.is c = true) : t.Inside := by
  simp only [is, decide_eq_true_eq] at ht
  simp [Inside, ht]

/-- The kinds that a recognizer may look for. -/
structure Kind.Live (k : Kind) : Prop where
  endOfInput : k ≠ .endOfInput
  semicolon : k ≠ .symbol ';'
  malformed : ∀ cause, k ≠ .malformed cause

theorem Kind.live_symbol {c : Char} (h : c ≠ ';') : (Kind.symbol c).Live :=
  ⟨by simp, fun heq => h (Kind.symbol.inj heq), by simp⟩

theorem Kind.live_number (value : Binary64) : (Kind.number value).Live := ⟨by simp, by simp, by simp⟩

theorem Kind.live_identifier : Kind.identifier.Live := ⟨by simp, by simp, by simp⟩

theorem Kind.live_define : Kind.define.Live := ⟨by simp, by simp, by simp⟩

theorem Kind.live_declare : Kind.declare.Live := ⟨by simp, by simp, by simp⟩

theorem live_of_is {t : Token} {c : Char} (ht : t.is c = true) (hc : c ≠ ';') : t.kind.Live := by
  rw [of_decide_eq_true ht]
  exact Kind.live_symbol hc

theorem live_of_number {t : Token} {value : Binary64} (ht : t.kind = .number value) :
    t.kind.Live :=
  ht ▸ Kind.live_number value

theorem live_of_identifier {t : Token} (ht : t.kind = .identifier) : t.kind.Live :=
  ht ▸ Kind.live_identifier

end Token

mutual

theorem Derives.live : ∀ {level : Nat} {ts : List Token} {e : Expr}, Derives level ts e →
    ∀ t ∈ ts, t.kind.Live
  | _, _, _, .operation hleft _ ht hright => by
    have hl := hleft.live
    have hr := hright.live
    simp only [List.forall_mem_append, List.forall_mem_cons]
    exact ⟨hl, Token.live_of_is ht (Operator.symbol_ne_semicolon _), hr⟩
  | _, _, _, .tighter _ h => h.live
  | _, _, _, .number ht => List.forall_mem_singleton.2 (Token.live_of_number ht)
  | _, _, _, .identifier ht => List.forall_mem_singleton.2 (Token.live_of_identifier ht)
  | _, _, _, .emptyCall ht hu hv => by
    simp only [List.forall_mem_cons]
    exact ⟨Token.live_of_identifier ht, Token.live_of_is hu (by decide),
      Token.live_of_is hv (by decide), List.forall_mem_nil _⟩
  | _, _, _, .call ht hu hargs hv => by
    have ha := hargs.live
    simp only [List.forall_mem_cons, List.forall_mem_append]
    exact ⟨Token.live_of_identifier ht, Token.live_of_is hu (by decide), ha,
      Token.live_of_is hv (by decide), List.forall_mem_nil _⟩
  | _, _, _, .group ht h hu => by
    have he := h.live
    simp only [List.forall_mem_cons, List.forall_mem_append]
    exact ⟨Token.live_of_is ht (by decide), he, Token.live_of_is hu (by decide),
      List.forall_mem_nil _⟩

theorem DerivesArguments.live : ∀ {ts : List Token} {es : List Expr}, DerivesArguments ts es →
    ∀ t ∈ ts, t.kind.Live
  | _, _, .last h => h.live
  | _, _, .cons h ht hs => by
    have he := h.live
    have hes := hs.live
    simp only [List.forall_mem_append, List.forall_mem_cons]
    exact ⟨he, Token.live_of_is ht (by decide), hes⟩

end

theorem DerivesPrototype.live {ts : List Token} {proto : Prototype}
    (h : DerivesPrototype ts proto) : ∀ t ∈ ts, t.kind.Live := by
  obtain ⟨ht, hu, hparams, hv⟩ := h
  simp only [List.forall_mem_cons, List.forall_mem_append]
  exact ⟨Token.live_of_identifier ht, Token.live_of_is hu (by decide),
    fun w hw => Token.live_of_identifier (hparams w hw), Token.live_of_is hv (by decide),
    List.forall_mem_nil _⟩

/-- **What is derived holds only tokens that a recognizer may look for.** -/
theorem DerivesConstruct.live {ts : List Token} {c : Construct} (h : DerivesConstruct ts c) :
    ∀ t ∈ ts, t.kind.Live := by
  cases h with
  | definition ht hproto hbody =>
    simp only [List.forall_mem_cons, List.forall_mem_append]
    exact ⟨ht ▸ Token.Kind.live_define, hproto.live, hbody.live⟩
  | declaration ht hproto =>
    simp only [List.forall_mem_cons]
    exact ⟨ht ▸ Token.Kind.live_declare, hproto.live⟩
  | evaluation hbody => exact hbody.live

theorem DerivesConstruct.no_end {ts : List Token} {c : Construct} (h : DerivesConstruct ts c) :
    ∀ t ∈ ts, t.Inside :=
  fun t ht => (h.live t ht).endOfInput

end Kaleidoscope
