/-
  An expression is read exactly as the grammar derives it.

  - `Apart`: a name at the end of what was read is not the callee of a call that follows;
  - `primary_sound`, `climb_sound`, `expression_sound`, `arguments_sound`: what is read is derived;
  - `Leads`, `Readable`: of an expression the first operand is read, and the operators after it lead
    to the whole, unless the tokens behind it extend it;
  - `readable`, `readableArguments`: so it is with everything that is derived;
  - `primary_iff`, `expression_iff`, `recognize_expression_iff`: both directions together.
-/
import Kaleidoscope.Proofs.Parser.Derivation
import Kaleidoscope.Proofs.Parser.Reader

namespace Kaleidoscope.Parser

/-- A name at the end of `pre` is not the callee of a call that `rest` opens. -/
def Apart (pre rest : List Token) : Prop :=
  ∀ t ∈ pre.getLast?, t.kind = .identifier → starts '(' rest = false

theorem apart_append {pre mid : List Token} (h : mid ≠ []) (rest : List Token) :
    Apart (pre ++ mid) rest ↔ Apart mid rest := by
  rw [Apart, List.getLast?_append, List.getLast?_eq_some_getLast h, Option.some_or, Apart,
    List.getLast?_eq_some_getLast h]

theorem apart_of_symbol {c : Char} {t : Token} (ht : t.is c = true) (pre rest : List Token) :
    Apart (pre ++ [t]) rest := by
  intro u hu hkind
  rw [List.getLast?_concat] at hu
  cases hu
  simp [Token.is, hkind] at ht

/-! ## What is read is derived -/

mutual

/-- An operand that is read is derived. -/
theorem primary_sound {ts rest : List Token} {e : Expr} (h : reader primary ts = .ok e rest) :
    ∃ pre, ts = pre ++ rest ∧ Derives 5 pre e ∧ Apart pre rest := by
  cases primaryStart ts with
  | @number t us value hkind =>
    rw [reader_primary_number hkind] at h
    cases h
    exact ⟨[t], rfl, .number hkind, fun u hu => by cases hu; simp [hkind]⟩
  | @name t us hkind hopen =>
    rw [reader_primary_name hkind hopen] at h
    cases h
    exact ⟨[t], rfl, .identifier hkind, fun _ _ _ => hopen⟩
  | @emptyCall t u v us hkind hopen hclose =>
    rw [reader_primary_emptyCall hkind hopen hclose] at h
    cases h
    exact ⟨[t, u, v], rfl, .emptyCall hkind hopen hclose, apart_of_symbol hclose [t, u] _⟩
  | @call t u us hkind hopen hclose =>
    rw [reader_primary_call hkind hopen hclose] at h
    obtain ⟨args, hargs, rfl⟩ := Reader.map_eq_ok.1 h
    obtain ⟨pre, v, rfl, hderives, hv⟩ := arguments_sound hargs
    exact ⟨t :: u :: (pre ++ [v]), by simp, .call hkind hopen hderives hv,
      apart_of_symbol hv (t :: u :: pre) _⟩
  | @group t us hopen =>
    rw [reader_primary_group hopen] at h
    obtain ⟨e', mid, he, htail⟩ := Reader.bind_eq_ok.1 h
    obtain ⟨_, mid', hclose, hvalue⟩ := Reader.bind_eq_ok.1 htail
    obtain ⟨v, rfl, hv, -⟩ := one_eq_ok.1 hclose
    cases hvalue
    obtain ⟨pre, rfl, hderives, -⟩ := expression_sound he
    exact ⟨t :: (pre ++ [v]), by simp, .group hopen hderives hv, apart_of_symbol hv (t :: pre) _⟩
  | other hnumber hname hopen =>
    rw [reader_primary_other hnumber hname hopen] at h
    cases h
termination_by 4 * ts.length

/-- Operators that are read extend a derivation: whatever comes first binds no tighter than what was
derived before. -/
theorem climb_sound {least level : Nat} {left e : Expr} {ts rest pre : List Token}
    (h : reader (climb least left) ts = .ok e rest) (hleft : Derives level pre left)
    (hleast : least ≤ level)
    (hahead : ∀ op, operatorAhead? ts = some op → least ≤ op.precedence → op.precedence ≤ level)
    (hapart : Apart pre ts) :
    ∃ mid, ts = mid ++ rest ∧ Derives least (pre ++ mid) e ∧ Stops least rest ∧
      Apart (pre ++ mid) rest := by
  rcases stops_or_operator least ts with hstops | ⟨t, us, op, rfl, hop, hle⟩
  · rw [reader_climb_stop hstops] at h
    cases h
    exact ⟨[], rfl, by simpa using hleft.loosen hleast, hstops, by simpa using hapart⟩
  · rw [reader_climb_operator hop hle] at h
    obtain ⟨operand, mid₁, hoperand, htail⟩ := Reader.bind_eq_ok.1 h
    obtain ⟨right, mid₂, hright, hrest⟩ := Reader.bind_eq_ok.1 htail
    obtain ⟨pre₁, rfl, hderives₁, hapart₁⟩ := primary_sound hoperand
    have hlength₁ := length_lt_of_reader hoperand
    -- the right operand takes all operators that bind tighter
    obtain ⟨pre₂, rfl, hderives₂, hstops₂, hapart₂⟩ :=
      climb_sound hright hderives₁ op.precedence_lt
        (fun op' _ _ => Nat.le_of_lt op'.precedence_lt) hapart₁
    have hlength₂ := length_lt_of_reader hright
    have hbinary : Derives op.precedence (pre ++ t :: (pre₁ ++ pre₂)) (.binary op left right) :=
      .operation (hleft.loosen (hahead op hop hle)) (Operator.mem_atLevel.2 rfl)
        (Token.operator?_eq_some.1 hop) hderives₂
    have hapart' : Apart (pre ++ t :: (pre₁ ++ pre₂)) mid₂ := by
      rw [List.append_cons, apart_append hderives₂.ne_nil]
      exact hapart₂
    -- so the next operator of this chain binds no tighter than the last one
    obtain ⟨mid, rfl, hderives, hstops, hend⟩ := climb_sound hrest hbinary hle
      (fun op' hop' _ => Nat.lt_succ_iff.1 (hstops₂ op' hop')) hapart'
    refine ⟨t :: (pre₁ ++ pre₂ ++ mid), by simp, ?_, hstops, ?_⟩
    · simpa using hderives
    · simpa using hend
termination_by 4 * ts.length + 3

/-- An expression that is read is derived, and no operator comes after it. -/
theorem expression_sound {ts rest : List Token} {e : Expr}
    (h : reader expression ts = .ok e rest) :
    ∃ pre, ts = pre ++ rest ∧ Derives 1 pre e ∧ operatorAhead? rest = none ∧ Apart pre rest := by
  rw [reader_expression] at h
  obtain ⟨operand, mid, hoperand, hclimb⟩ := Reader.bind_eq_ok.1 h
  have hlength := length_lt_of_reader hoperand
  obtain ⟨pre, rfl, hderives, hapart⟩ := primary_sound hoperand
  obtain ⟨pre', rfl, hderives', hstops, hapart'⟩ := climb_sound hclimb hderives (Nat.zero_le 5)
    (fun op _ _ => Nat.le_of_lt op.precedence_lt) hapart
  refine ⟨pre ++ pre', by simp, hderives'.of_zero, ?_, hapart'⟩
  exact Option.eq_none_iff_forall_ne_some.2 fun op hop => Nat.not_lt_zero _ (hstops op hop)
termination_by 4 * ts.length + 1

/-- Arguments that are read are derived, and are closed by a parenthesis. -/
theorem arguments_sound {ts rest : List Token} {es : List Expr}
    (h : reader arguments ts = .ok es rest) :
    ∃ pre v, ts = pre ++ v :: rest ∧ DerivesArguments pre es ∧ v.is ')' = true := by
  rw [reader_arguments] at h
  obtain ⟨e, mid, he, htail⟩ := Reader.bind_eq_ok.1 h
  have hlength := length_lt_of_reader he
  obtain ⟨pre, rfl, hderives, -⟩ := expression_sound he
  unfold argumentsTail at htail
  split at htail
  · rename_i hcomma
    cases mid with
    | nil => cases hcomma
    | cons t us =>
      obtain ⟨es', hes, rfl⟩ := Reader.map_eq_ok.1 htail
      obtain ⟨pre', v, rfl, hderives', hv⟩ := arguments_sound hes
      exact ⟨pre ++ t :: pre', v, by simp, .cons hderives hcomma hderives', hv⟩
  · obtain ⟨_, mid', hclose, hvalue⟩ := Reader.bind_eq_ok.1 htail
    obtain ⟨v, rfl, hv, -⟩ := one_eq_ok.1 hclose
    cases hvalue
    exact ⟨pre, v, rfl, .last hderives, hv⟩
termination_by 4 * ts.length + 2

end

/-! ## What is derived is read -/

theorem operator?_eq_none {t : Token} {c : Char} (h : t.is c = true)
    (hc : Operator.ofSymbol? c = none) : t.operator? = none := by
  simp only [Token.is, decide_eq_true_eq] at h
  rw [Token.operator?, h]
  exact hc

/-- In front of `rest`, the first operand of `pre` is read, and the operators after it lead to the
whole expression. -/
def Leads (level : Nat) (pre : List Token) (e : Expr) (rest : List Token) : Prop :=
  ∃ operand mid, reader primary (pre ++ rest) = .ok operand (mid ++ rest) ∧
    ∀ least ≤ level, reader (climb least operand) (mid ++ rest) = reader (climb least e) rest

theorem Leads.of_primary {level : Nat} {pre rest : List Token} {e : Expr}
    (h : reader primary (pre ++ rest) = .ok e rest) : Leads level pre e rest :=
  ⟨e, [], h, fun _ _ => rfl⟩

theorem Leads.whole {level : Nat} {pre rest : List Token} {e : Expr}
    (h : Leads level pre e rest) (hnone : operatorAhead? rest = none) :
    reader expression (pre ++ rest) = .ok e rest := by
  obtain ⟨operand, mid, hoperand, hclimb⟩ := h
  have hstops : Stops 0 rest := fun op hop => by rw [hnone] at hop; cases hop
  rw [reader_expression, Reader.bind_of_ok hoperand, hclimb 0 (Nat.zero_le _),
    reader_climb_stop hstops]

/-- An operator leads from its left operand to the whole, if its right operand is read. -/
theorem Leads.operation {level : Nat} {ls rs rest : List Token} {left right : Expr} {t : Token}
    {op : Operator} (hop : t.operator? = some op) (hlevel : op.precedence = level)
    (hleft : Leads level ls left (t :: (rs ++ rest))) (hright : Leads (level + 1) rs right rest)
    (hahead : ∀ op, operatorAhead? rest = some op → op.precedence ≤ level) :
    Leads level (ls ++ t :: rs) (.binary op left right) rest := by
  subst hlevel
  obtain ⟨x, mid, hx, hclimbx⟩ := hleft
  obtain ⟨y, mid', hy, hclimby⟩ := hright
  have hstops : Stops (op.precedence + 1) rest := fun op' hop' =>
    Nat.lt_succ_of_le (hahead op' hop')
  refine ⟨x, mid ++ t :: rs, by simpa using hx, fun least hle => ?_⟩
  calc reader (climb least x) (mid ++ t :: rs ++ rest)
      = reader (climb least left) (t :: (rs ++ rest)) := by simpa using hclimbx least hle
    _ = reader (climb least (.binary op left right)) rest := by
      rw [reader_climb_operator hop hle, Reader.bind_of_ok hy]
      refine Reader.bind_of_ok ?_
      rw [hclimby _ (Nat.le_refl _), reader_climb_stop hstops]

/-- What does not extend an expression lets it be read. -/
def Readable (level : Nat) (pre : List Token) (e : Expr) : Prop :=
  ∀ rest, (∀ op, operatorAhead? rest = some op → op.precedence ≤ level) → Apart pre rest →
    Leads level pre e rest

theorem Readable.whole {level : Nat} {pre rest : List Token} {e : Expr}
    (h : Readable level pre e) (hnone : operatorAhead? rest = none) (hapart : Apart pre rest) :
    reader expression (pre ++ rest) = .ok e rest :=
  (h rest (fun op hop => by rw [hnone] at hop; cases hop) hapart).whole hnone

/-- A comma or a closing parenthesis does not extend an expression. -/
theorem Readable.before {level : Nat} {pre : List Token} {e : Expr} (h : Readable level pre e)
    {c : Char} {t : Token} (ht : t.is c = true) (hc : Operator.ofSymbol? c = none) (hopen : c ≠ '(')
    (rest : List Token) : reader expression (pre ++ t :: rest) = .ok e (t :: rest) :=
  h.whole (operator?_eq_none ht hc) fun _ _ _ => Token.is_eq_false ht hopen

mutual

/-- **An expression that is derived is read.** -/
theorem readable : ∀ {level : Nat} {pre : List Token} {e : Expr}, Derives level pre e →
    Readable level pre e
  | level, _, _, @Derives.operation _ ls rs _ _ op t hleft hop ht hright => by
    intro rest hahead hapart
    have hlevel := Operator.mem_atLevel.1 hop
    have hspelled := Token.operator?_eq_some.2 ht
    have hleads := readable hleft (t :: (rs ++ rest))
      (fun op' hop' => by rw [operatorAhead?_cons, hspelled] at hop'; cases hop'; omega)
      fun _ _ _ => Token.is_eq_false ht (by cases op <;> decide)
    have hleads' := readable hright rest (fun op' hop' => Nat.le_succ_of_le (hahead op' hop')) (by
      rw [List.append_cons, apart_append hright.ne_nil] at hapart
      exact hapart)
    exact .operation hspelled hlevel hleads hleads' hahead
  | level, _, _, .tighter _ h => by
    intro rest hahead hapart
    obtain ⟨operand, mid, hoperand, hclimb⟩ :=
      readable h rest (fun op hop => Nat.le_succ_of_le (hahead op hop)) hapart
    exact ⟨operand, mid, hoperand, fun least hle => hclimb least (Nat.le_succ_of_le hle)⟩
  | _, _, _, .number ht => fun rest _ _ => .of_primary (reader_primary_number ht)
  | _, _, _, .identifier ht => fun rest _ hapart =>
    .of_primary (reader_primary_name ht (hapart _ rfl ht))
  | _, _, _, .emptyCall ht hu hv => fun rest _ _ =>
    .of_primary (reader_primary_emptyCall ht hu hv)
  | _, _, _, @Derives.call _ _ v ts _ ht hu hargs hv => by
    intro rest _ _
    have hclose : starts ')' (ts ++ v :: rest) = false := by
      obtain ⟨w, ws, hts, hw⟩ := hargs.begins
      rw [hts]
      exact hw.is_eq_false (by decide)
    refine .of_primary ?_
    rw [List.cons_append, List.cons_append, List.append_assoc, List.singleton_append,
      reader_primary_call ht hu hclose]
    exact Reader.map_eq_ok.2 ⟨_, readableArguments hargs hv rest, rfl⟩
  | _, _, _, .group ht h hu => by
    intro rest _ _
    have hread := Readable.before (readable h) hu (by decide) (by decide) rest
    refine .of_primary ?_
    rw [List.cons_append, List.append_assoc, List.singleton_append, reader_primary_group ht,
      Reader.bind_of_ok hread, Reader.bind_of_ok (one_of_true hu _ _)]
    rfl

/-- **Arguments that are derived are read** with the parenthesis that closes them. -/
theorem readableArguments : ∀ {pre : List Token} {es : List Expr}, DerivesArguments pre es →
    ∀ {v : Token}, v.is ')' = true → ∀ rest, reader arguments (pre ++ v :: rest) = .ok es rest
  | _, _, .last h, v, hv, rest => by
    have hread := Readable.before (readable h) hv (by decide) (by decide) rest
    have hcomma : ¬starts ',' (v :: rest) = true := by
      rw [starts_cons, Token.is_eq_false hv (by decide)]
      exact Bool.false_ne_true
    rw [reader_arguments, Reader.bind_of_ok hread, argumentsTail, if_neg hcomma,
      Reader.bind_of_ok (one_of_true hv _ _)]
    rfl
  | _, _, @DerivesArguments.cons _ us _ _ t h ht hs, v, hv, rest => by
    have hread := Readable.before (readable h) ht (by decide) (by decide) (us ++ v :: rest)
    rw [List.append_assoc, List.cons_append, reader_arguments, Reader.bind_of_ok hread,
      argumentsTail, starts_cons, if_pos ht]
    exact Reader.map_eq_ok.2 ⟨_, readableArguments hs hv rest, rfl⟩

end

/-! ## Both directions -/

theorem primary_iff {ts rest : List Token} {e : Expr} :
    reader primary ts = .ok e rest ↔
      ∃ pre, ts = pre ++ rest ∧ Derives 5 pre e ∧ Apart pre rest := by
  constructor
  · exact primary_sound
  · rintro ⟨pre, rfl, hderives, hapart⟩
    obtain ⟨operand, mid, hoperand, hclimb⟩ :=
      readable hderives rest (fun op _ => Nat.le_of_lt op.precedence_lt) hapart
    -- no operator binds tightly enough to come after the operand
    have hstops : ∀ us, Stops 5 us := fun _ op _ => op.precedence_lt
    have hwhole := hclimb 5 (Nat.le_refl 5)
    rw [reader_climb_stop (hstops _), reader_climb_stop (hstops _)] at hwhole
    injection hwhole with hvalue hrest
    rw [hoperand, hvalue, hrest]

theorem expression_iff {ts rest : List Token} {e : Expr} :
    reader expression ts = .ok e rest ↔
      ∃ pre, ts = pre ++ rest ∧ Derives 1 pre e ∧ operatorAhead? rest = none ∧ Apart pre rest := by
  constructor
  · exact expression_sound
  · rintro ⟨pre, rfl, hderives, hnone, hapart⟩
    exact (readable hderives).whole hnone hapart

/-- What a recognizer makes of a parser. -/
theorem recognize_eq_ok {α : Type} {recognizer : (ts : List Token) → Reading α ts.length}
    {p q : Parser} {value : α} :
    p.recognize recognizer = (.ok value, q) ↔
      reader recognizer p.tokens = .ok value q.tokens ∧ q.finish = p.finish := by
  obtain ⟨rest, finish⟩ := q
  unfold recognize reader
  cases recognizer p.tokens with
  | accept v rest' _ =>
    simp only [Reading.answer, Prod.mk.injEq, Except.ok.injEq, TokenStream.mk.injEq,
      EStateM.Result.ok.injEq]
    constructor
    · rintro ⟨rfl, rfl, rfl⟩
      exact ⟨⟨rfl, rfl⟩, rfl⟩
    · rintro ⟨⟨rfl, rfl⟩, rfl⟩
      exact ⟨rfl, rfl, rfl⟩
  | reject expected rest' _ =>
    constructor
    · rintro ⟨⟩
    · rintro ⟨⟨⟩, -⟩

/-- The next token of a parser, among the tokens that are left. -/
theorem is_peek (p : Parser) (c : Char) : p.peek.is c = starts c p.tokens := by
  obtain ⟨tokens, finish⟩ := p
  cases tokens <;> rfl

theorem operatorAhead?_eq_none {ts : List Token} :
    operatorAhead? ts = none ↔ ∀ op : Operator, starts op.symbol ts = false := by
  cases ts with
  | nil => exact ⟨fun _ _ => rfl, fun _ => rfl⟩
  | cons t us =>
    simp only [operatorAhead?_cons, starts_cons, Option.eq_none_iff_forall_ne_some, ne_eq,
      Token.operator?_eq_some, Bool.not_eq_true]

/-- **The exact grammar of expressions.** A parser reads an expression and stops in front of the
rest exactly if the tokens before the rest derive it, none of the six operators comes next, and no
parenthesis opens after a name at the end. -/
theorem recognize_expression_iff (p q : Parser) (e : Expr) :
    p.recognize expression = (.ok e, q) ↔
      ∃ pre, p.tokens = pre ++ q.tokens ∧ q.finish = p.finish ∧ Derives 1 pre e ∧
        (∀ op : Operator, q.peek.is op.symbol = false) ∧
        ∀ t, pre.getLast? = some t → t.kind = .identifier → q.peek.is '(' = false := by
  simp only [is_peek, ← operatorAhead?_eq_none, recognize_eq_ok, expression_iff]
  constructor
  · rintro ⟨⟨pre, htokens, hderives, hnone, hapart⟩, hfinish⟩
    exact ⟨pre, htokens, hfinish, hderives, hnone, hapart⟩
  · rintro ⟨pre, htokens, hfinish, hderives, hnone, hapart⟩
    exact ⟨⟨pre, htokens, hderives, hnone, hapart⟩, hfinish⟩

end Kaleidoscope.Parser
