/-
  A recognizer that fails has stopped as early as it could.

  - `Token.zero`, `Token.ofSymbol`, `Token.named`: the tokens that complete what was read before a
    failure;
  - `primary_completes`, `climb_completes`, `expression_completes`, `arguments_completes`,
    `prototype_completes`, `construct_completes`: what was read before a failure is the start of
    something derived;
  - `Reader.Local.stuck`: a reader that fails does so on whatever comes after the token at which it
    failed;
  - `IsExpression`, `IsDefinition`, `IsDeclaration`: the tokens that each grammar derives;
  - `FailsEarliest`: where a recognizer stops when it fails, and with which error;
    `recognizers_failEarliest`: so it is with all three.
-/
import Kaleidoscope.Proofs.Parser.Segment

namespace Kaleidoscope

/-! ## Tokens for the rest -/

namespace Token

/-- A number. -/
def zero : Token := ⟨.number ⟨0⟩, "0", none⟩

/-- A character that stands for itself. -/
def ofSymbol (c : Char) : Token := ⟨.symbol c, String.singleton c, none⟩

/-- A name. -/
def named (name : String) : Token := ⟨.identifier, name, none⟩

@[simp] theorem is_ofSymbol (c : Char) : (ofSymbol c).is c = true := decide_eq_true rfl

theorem derives_zero : Derives 5 [zero] (.number ⟨0⟩) := .number rfl

end Token

theorem derivesPrototype {t u : Token} (ht : t.kind = .identifier) (hu : u.is '(' = true)
    {params : List Token} (hparams : ∀ w ∈ params, w.kind = .identifier) :
    DerivesPrototype (t :: u :: (params ++ [Token.ofSymbol ')'])) ⟨t.text, params.map (·.text)⟩ :=
  .intro ht hu hparams (Token.is_ofSymbol ')')

/-! ## Where a reader fails -/

/-- The next token of a stream looks like what is left in it. -/
theorem sight_peek (p : TokenStream) (more : List Token) :
    sight (p.peek :: more) = sight p.tokens := by
  obtain ⟨tokens, finish⟩ := p
  cases tokens <;> rfl

/-- Whatever comes after the token at which a reader failed, it fails. -/
theorem Reader.Local.stuck {α : Type} {r : Reader α} {pre : List Token} {q : TokenStream}
    {x : Expectation} (hlocal : r.Local (pre ++ q.tokens))
    (h : r (pre ++ q.tokens) = .error x q.tokens) (more : List Token) :
    r.value? (pre ++ q.peek :: more) = none := by
  obtain ⟨hvalue, hleft⟩ := Reader.eq_error_iff.1 ⟨x, h⟩
  obtain ⟨pre', hsplit, hsame⟩ := hlocal
  rw [hleft] at hsplit hsame
  obtain rfl := List.append_cancel_right hsplit
  rw [← hvalue]
  exact (hsame pre (q.peek :: more) rfl (sight_peek q more)).1

namespace Parser
variable {ts rest : List Token} {x : Expectation}

/-! ## What was read can be completed -/

mutual

/-- An operand that fails can be completed up to there. -/
theorem primary_completes {ts rest : List Token} {x : Expectation}
    (h : reader primary ts = .error x rest) :
    ∃ pre, ts = pre ++ rest ∧ ∃ more e, Derives 5 (pre ++ more) e := by
  cases primaryStart ts with
  | number hkind =>
    rw [reader_primary_number hkind] at h
    cases h
  | name hkind hopen =>
    rw [reader_primary_name hkind hopen] at h
    cases h
  | emptyCall hkind hopen hclose =>
    rw [reader_primary_emptyCall hkind hopen hclose] at h
    cases h
  | @call t u us hkind hopen hclose =>
    rw [reader_primary_call hkind hopen hclose, Reader.map_eq_error] at h
    obtain ⟨pre, rfl, more, args, hargs⟩ := arguments_completes h
    refine ⟨t :: u :: pre, rfl, more ++ [.ofSymbol ')'], .call t.text args, ?_⟩
    simpa using Derives.call hkind hopen hargs (Token.is_ofSymbol ')')
  | @group t us hopen =>
    rw [reader_primary_group hopen] at h
    rcases Reader.bind_eq_error.1 h with hinside | ⟨e, mid, he, h₁⟩
    · obtain ⟨pre, rfl, more, e, hderives⟩ := expression_completes hinside
      refine ⟨t :: pre, rfl, more ++ [.ofSymbol ')'], e, ?_⟩
      simpa using Derives.group hopen hderives (Token.is_ofSymbol ')')
    · -- only the parenthesis is missing
      rcases Reader.bind_eq_error.1 h₁ with hclose | ⟨_, _, -, ⟨⟩⟩
      obtain ⟨pre, rfl, hderives, -⟩ := expression_sound he
      rw [eq_of_one_error hclose]
      exact ⟨t :: pre, rfl, [.ofSymbol ')'], e, .group hopen hderives (Token.is_ofSymbol ')')⟩
  | other hnumber hname hopen =>
    rw [reader_primary_other hnumber hname hopen] at h
    cases h
    exact ⟨[], rfl, [.zero], _, Token.derives_zero⟩
termination_by 4 * ts.length

/-- Operators that fail after a derivation can be completed together with it. -/
theorem climb_completes {least level : Nat} {left : Expr} {ts rest pre : List Token}
    {x : Expectation} (h : reader (climb least left) ts = .error x rest)
    (hleft : Derives level pre left)
    (hahead : ∀ op, operatorAhead? ts = some op → least ≤ op.precedence → op.precedence ≤ level) :
    ∃ mid, ts = mid ++ rest ∧ ∃ more e, Derives least (pre ++ (mid ++ more)) e := by
  rcases stops_or_operator least ts with hstops | ⟨t, us, op, rfl, hop, hle⟩
  · rw [reader_climb_stop hstops] at h
    cases h
  · have hoperation : ∀ {rs : List Token} {right : Expr}, Derives (op.precedence + 1) rs right →
        Derives op.precedence (pre ++ t :: rs) (.binary op left right) := fun hright =>
      .operation (hleft.loosen (hahead op hop hle)) (Operator.mem_atLevel.2 rfl)
        (Token.operator?_eq_some.1 hop) hright
    rw [reader_climb_operator hop hle] at h
    rcases Reader.bind_eq_error.1 h with hoperand | ⟨operand, mid₁, hoperand, h₁⟩
    · obtain ⟨pre₁, rfl, more, e, hderives⟩ := primary_completes hoperand
      exact ⟨t :: pre₁, rfl, more, _, (hoperation (hderives.loosen op.precedence_lt)).loosen hle⟩
    obtain ⟨pre₁, rfl, hderives₁, hapart₁⟩ := primary_sound hoperand
    have hlength₁ := length_lt_of_reader hoperand
    rcases Reader.bind_eq_error.1 h₁ with hright | ⟨right, mid₂, hright, hrest⟩
    · obtain ⟨mid, rfl, more, e, hderives⟩ :=
        climb_completes hright hderives₁ fun op' _ _ => Nat.le_of_lt op'.precedence_lt
      refine ⟨t :: (pre₁ ++ mid), by simp, more, .binary op left e, ?_⟩
      simpa using (hoperation hderives).loosen hle
    · obtain ⟨pre₂, rfl, hderives₂, hstops₂, -⟩ :=
        climb_sound hright hderives₁ op.precedence_lt
          (fun op' _ _ => Nat.le_of_lt op'.precedence_lt) hapart₁
      have hlength₂ := length_lt_of_reader hright
      obtain ⟨mid, rfl, more, e, hderives⟩ := climb_completes hrest (hoperation hderives₂)
        fun op' hop' _ => Nat.lt_succ_iff.1 (hstops₂ op' hop')
      refine ⟨t :: (pre₁ ++ pre₂ ++ mid), by simp, more, e, ?_⟩
      simpa using hderives
termination_by 4 * ts.length + 3

/-- An expression that fails can be completed up to there. -/
theorem expression_completes {ts rest : List Token} {x : Expectation}
    (h : reader expression ts = .error x rest) :
    ∃ pre, ts = pre ++ rest ∧ ∃ more e, Derives 1 (pre ++ more) e := by
  rw [reader_expression] at h
  rcases Reader.bind_eq_error.1 h with hoperand | ⟨operand, mid, hoperand, hclimb⟩
  · obtain ⟨pre, rfl, more, e, hderives⟩ := primary_completes hoperand
    exact ⟨pre, rfl, more, e, hderives.loosen (by decide)⟩
  · have hlength := length_lt_of_reader hoperand
    obtain ⟨pre, rfl, hderives, -⟩ := primary_sound hoperand
    obtain ⟨mid, rfl, more, e, hderives'⟩ := climb_completes hclimb hderives
      fun op _ _ => Nat.le_of_lt op.precedence_lt
    refine ⟨pre ++ mid, by simp, more, e, ?_⟩
    simpa using hderives'.of_zero
termination_by 4 * ts.length + 1

/-- Arguments that fail can be completed up to there. -/
theorem arguments_completes {ts rest : List Token} {x : Expectation}
    (h : reader arguments ts = .error x rest) :
    ∃ pre, ts = pre ++ rest ∧ ∃ more es, DerivesArguments (pre ++ more) es := by
  rw [reader_arguments] at h
  rcases Reader.bind_eq_error.1 h with hfirst | ⟨e, mid, he, htail⟩
  · obtain ⟨pre, rfl, more, e, hderives⟩ := expression_completes hfirst
    exact ⟨pre, rfl, more, [e], .last hderives⟩
  · have hlength := length_lt_of_reader he
    obtain ⟨pre, rfl, hderives, -⟩ := expression_sound he
    unfold argumentsTail at htail
    split at htail
    · rename_i hcomma
      cases mid with
      | nil => cases hcomma
      | cons t us =>
        obtain ⟨pre', rfl, more, es, hderives'⟩ :=
          arguments_completes (Reader.map_eq_error.1 htail)
        refine ⟨pre ++ t :: pre', by simp, more, e :: es, ?_⟩
        simpa using DerivesArguments.cons hderives hcomma hderives'
    · rcases Reader.bind_eq_error.1 htail with hclose | ⟨_, _, -, ⟨⟩⟩
      rw [eq_of_one_error hclose]
      exact ⟨pre, rfl, [], [e], by simpa using DerivesArguments.last hderives⟩
termination_by 4 * ts.length + 2

end

theorem prototype_completes (h : reader prototype ts = .error x rest) :
    ∃ pre, ts = pre ++ rest ∧ ∃ more proto, DerivesPrototype (pre ++ more) proto := by
  have hnone : ∀ w ∈ ([] : List Token), w.kind = .identifier := List.forall_mem_nil _
  rw [reader_prototype] at h
  rcases Reader.bind_eq_error.1 h with hname | ⟨_, us, hname, h₁⟩
  · rw [eq_of_one_error hname]
    exact ⟨[], rfl, [.named "f", .ofSymbol '(', .ofSymbol ')'], _,
      derivesPrototype rfl (Token.is_ofSymbol '(') hnone⟩
  obtain ⟨t, rfl, ht, -⟩ := one_eq_ok.1 hname
  have hkind : t.kind = .identifier := by simpa [isName] using ht
  rcases Reader.bind_eq_error.1 h₁ with hopen | ⟨_, vs, hopen, h₂⟩
  · rw [eq_of_one_error hopen]
    exact ⟨[t], rfl, [.ofSymbol '(', .ofSymbol ')'], _,
      derivesPrototype hkind (Token.is_ofSymbol '(') hnone⟩
  obtain ⟨u, rfl, hu, -⟩ := one_eq_ok.1 hopen
  rcases Reader.bind_eq_error.1 h₂ with ⟨⟨⟩⟩ | ⟨params, ws, hparams, h₃⟩
  rcases Reader.bind_eq_error.1 h₃ with hclose | ⟨_, _, -, ⟨⟩⟩
  cases hparams
  rw [eq_of_one_error hclose]
  refine ⟨t :: u :: vs.takeWhile isName, ?_, [.ofSymbol ')'], _,
    derivesPrototype hkind hu fun w hw => ?_⟩
  · rw [List.cons_append, List.cons_append, List.takeWhile_append_dropWhile]
  · simpa [isName] using List.mem_takeWhile_imp hw

/-! ## The three grammars -/

/-- The tokens derive an expression. -/
def IsExpression (ts : List Token) : Prop := ∃ e, Derives 1 ts e

/-- The tokens derive a definition. -/
def IsDefinition (ts : List Token) : Prop :=
  ∃ proto body, DerivesConstruct ts (.definition proto body)

/-- The tokens derive a declaration. -/
def IsDeclaration (ts : List Token) : Prop := ∃ proto, DerivesConstruct ts (.declaration proto)

theorem definition_completes (h : reader definition ts = .error x rest) :
    ∃ pre, ts = pre ++ rest ∧ ∃ more, IsDefinition (pre ++ more) := by
  have hbody : Derives 1 [Token.zero] _ := Token.derives_zero.loosen (by decide)
  rw [reader_definition] at h
  rcases Reader.bind_eq_error.1 h with hkeyword | ⟨_, us, hkeyword, h₁⟩
  · rw [eq_of_one_error hkeyword]
    have hproto := derivesPrototype (t := .named "f") rfl (Token.is_ofSymbol '(')
      (List.forall_mem_nil _)
    exact ⟨[], rfl, _, _, _, .definition (t := ⟨.define, "def", none⟩) rfl hproto hbody⟩
  obtain ⟨t, rfl, ht, -⟩ := one_eq_ok.1 hkeyword
  have hkind : t.kind = .define := by simpa [isDefine] using ht
  rcases Reader.bind_eq_error.1 h₁ with hproto | ⟨proto, mid, hproto, h₂⟩
  · obtain ⟨pre, rfl, more, proto, hderives⟩ := prototype_completes hproto
    refine ⟨t :: pre, rfl, more ++ [.zero], proto, .number ⟨0⟩, ?_⟩
    simpa using DerivesConstruct.definition hkind hderives hbody
  · rcases Reader.bind_eq_error.1 h₂ with hbody | ⟨_, _, -, ⟨⟩⟩
    obtain ⟨pre, rfl, hderives⟩ := prototype_iff.1 hproto
    obtain ⟨pre', rfl, more, e, hderives'⟩ := expression_completes hbody
    refine ⟨t :: (pre ++ pre'), by simp, more, proto, e, ?_⟩
    simpa using DerivesConstruct.definition hkind hderives hderives'

theorem declaration_completes (h : reader declaration ts = .error x rest) :
    ∃ pre, ts = pre ++ rest ∧ ∃ more, IsDeclaration (pre ++ more) := by
  rw [reader_declaration] at h
  rcases Reader.bind_eq_error.1 h with hkeyword | ⟨_, us, hkeyword, h₁⟩
  · rw [eq_of_one_error hkeyword]
    have hproto := derivesPrototype (t := .named "f") rfl (Token.is_ofSymbol '(')
      (List.forall_mem_nil _)
    exact ⟨[], rfl, _, _, .declaration (t := ⟨.declare, "extern", none⟩) rfl hproto⟩
  obtain ⟨t, rfl, ht, -⟩ := one_eq_ok.1 hkeyword
  obtain ⟨pre, rfl, more, proto, hderives⟩ := prototype_completes h₁
  exact ⟨t :: pre, rfl, more, proto, .declaration (by simpa [isDeclare] using ht) hderives⟩

theorem construct_completes (h : reader construct ts = .error x rest) :
    ∃ pre, ts = pre ++ rest ∧ ∃ more c, DerivesConstruct (pre ++ more) c := by
  rw [reader_construct] at h
  split at h
  · obtain ⟨pre, hts, more, proto, body, hderives⟩ :=
      definition_completes (Reader.map_eq_error.1 h)
    exact ⟨pre, hts, more, _, hderives⟩
  · split at h
    · obtain ⟨pre, hts, more, proto, hderives⟩ := declaration_completes (Reader.map_eq_error.1 h)
      exact ⟨pre, hts, more, _, hderives⟩
    · obtain ⟨pre, hts, more, e, hderives⟩ := expression_completes (Reader.map_eq_error.1 h)
      exact ⟨pre, hts, more, _, .evaluation hderives⟩

/-! ## Failures -/

/-- A recognizer fails as early as it can, for a grammar that derives the tokens `derived`. What it
has read is the start of derived tokens, and no derived tokens start with that and the token at which
it stops. It does not read that token, and the error is the token's own, if it carries one, and else
that of an expectation at its place. -/
def FailsEarliest {α : Type} (recognizer : (ts : List Token) → Reading α ts.length)
    (derived : List Token → Prop) : Prop :=
  ∀ (p q : Parser) (e : Error), p.recognize recognizer = (.error e, q) →
    ∃ read, p.tokens = read ++ q.tokens ∧ q.finish = p.finish ∧
      (∃ more, derived (read ++ more)) ∧ (∀ more, ¬derived (read ++ q.peek :: more)) ∧
      (∀ cause, q.peek.kind = .malformed (some cause) → e = cause) ∧
      ((∀ cause, q.peek.kind ≠ .malformed (some cause)) →
        ∃ expected, e = .syntactic (q.peek.loc.getD ⟨0, 0⟩) expected)

/-- The error of a failed recognizer is that of its next token. -/
theorem errorAt_cases (finish : Option Location) (expected : Expectation) (ts : List Token) :
    let t := (TokenStream.mk ts finish).peek
    (∀ cause, t.kind = .malformed (some cause) → errorAt finish expected ts = cause) ∧
      ((∀ cause, t.kind ≠ .malformed (some cause)) →
        errorAt finish expected ts = .syntactic (t.loc.getD ⟨0, 0⟩) expected) := by
  intro t
  constructor
  · intro cause hcause
    simp only [errorAt, t, hcause] at hcause ⊢
  · intro hnone
    simp only [errorAt]
    split
    · rename_i cause hcause
      exact absurd hcause (hnone cause)
    · rfl

/-- A local reader that reads all that is derived, and that can be completed where it fails, fails as
early as it can. -/
theorem failsEarliest_of_local {α : Type} {recognizer : (ts : List Token) → Reading α ts.length}
    {derived : List Token → Prop} (hlocal : ∀ ts, (reader recognizer).Local ts)
    (hreads : ∀ ts, derived ts → ∃ a, reader recognizer ts = .ok a [])
    (hcompletes : ∀ ts rest x, reader recognizer ts = .error x rest →
      ∃ pre, ts = pre ++ rest ∧ ∃ more, derived (pre ++ more)) :
    FailsEarliest recognizer derived := by
  rintro ⟨ts, finish⟩ ⟨rest, finish'⟩ e h
  have hfinish : finish' = finish := by
    unfold recognize at h
    split at h <;> cases h
    rfl
  subst hfinish
  obtain ⟨x, hread, rfl⟩ := recognize_eq_error.1 h
  obtain ⟨read, rfl, hmore⟩ := hcompletes ts rest x hread
  obtain ⟨hown, hexpected⟩ := errorAt_cases finish' x rest
  refine ⟨read, rfl, rfl, hmore, fun more hderived => ?_, hown, fun hnone => ⟨x, hexpected hnone⟩⟩
  obtain ⟨a, ha⟩ := hreads _ hderived
  have hstuck := (hlocal _).stuck (q := ⟨rest, finish'⟩) hread more
  rw [(Reader.eq_ok_iff.1 ha).1] at hstuck
  cases hstuck

/-- **Errors are found at the earliest token.** Whenever the recognizer of definitions, that of
declarations or that of expressions fails, on whatever tokens, then what it has read is the start of
something that its grammar derives, and together with the token at which it stops it is not. That
token is left unread. The error is the token's own, if it carries one, and else one of the parser at
its place. -/
theorem recognizers_failEarliest :
    FailsEarliest definition IsDefinition ∧ FailsEarliest declaration IsDeclaration ∧
      FailsEarliest expression IsExpression := by
  refine ⟨failsEarliest_of_local local_definition ?_ fun _ _ _ => definition_completes,
    failsEarliest_of_local local_declaration ?_ fun _ _ _ => declaration_completes,
    failsEarliest_of_local local_expression ?_ fun _ _ _ => expression_completes⟩
  · rintro ts ⟨proto, body, hderives⟩
    exact ⟨_, definition_iff.2 ⟨ts, by simp, hderives, rfl, fun _ _ _ => rfl⟩⟩
  · rintro ts ⟨proto, hderives⟩
    exact ⟨_, declaration_iff.2 ⟨ts, by simp, hderives⟩⟩
  · rintro ts ⟨e, hderives⟩
    exact ⟨_, expression_iff.2 ⟨ts, by simp, hderives, rfl, fun _ _ _ => rfl⟩⟩

/-- A definition with a comma between its parameters. -/
def commas : Parser := ofBytes "def f(x, y) x".toUTF8

/-- What comes before the comma is the start of a definition, and with the comma it is not. -/
theorem recognize_commas :
    (commas.recognize definition).1 = .error (.syntactic ⟨1, 8⟩ .parametersClose) ∧
      (∃ more, IsDefinition (commas.tokens.take 4 ++ more)) ∧
      ∀ more, ¬IsDefinition (commas.tokens.take 5 ++ more) := by
  have herror : (commas.recognize definition).1 = .error (.syntactic ⟨1, 8⟩ .parametersClose) := by
    decide +kernel
  have hleft : (commas.recognize definition).2.tokens = commas.tokens.drop 4 := by decide +kernel
  have hnext : commas.tokens.take 5 =
      commas.tokens.take 4 ++ [(commas.recognize definition).2.peek] := by decide +kernel
  obtain ⟨read, htokens, -, hmore, hnone, -⟩ :=
    recognizers_failEarliest.1 commas _ _ (Prod.ext herror rfl)
  have hsplit : read ++ commas.tokens.drop 4 = commas.tokens.take 4 ++ commas.tokens.drop 4 := by
    rw [List.take_append_drop, ← hleft]
    exact htokens.symm
  rw [List.append_cancel_right hsplit] at hmore hnone
  refine ⟨herror, hmore, fun more => ?_⟩
  rw [hnext, List.append_assoc]
  exact hnone more

end Parser

end Kaleidoscope
