/-
  A parser that asks for its tokens one at a time, and never asks for too many.

  - `Source`: answers each call with a token; `TokenStream.answers` is the source that a stream is;
  - `OnDemand.primary` … `OnDemand.construct`: the recognizers as programs that hold one token and
    ask for the next. They do not know how many there are, so they recurse on fuel alone;
  - `OnDemand.round`, `OnDemand.loop`, `OnDemand.parse`: the rounds of the parser, until it holds
    the end of input;
  - `Halts`: a program ends, given enough fuel;
  - `Follows`: a program on a stream comes to what a reader comes to on its tokens, with one call
    for each token that the reader reads. `follows_construct` says so of all recognizers;
  - `round_goes`: a round ends, and unless it is the last one it has asked for a token;
  - `parse_ends`: the parser ends on every stream, and how often it has asked.
-/
import Kaleidoscope.Proofs.Parser.Lookahead

namespace Kaleidoscope

namespace Parser

/-! ## The parser -/

namespace OnDemand

/-- A source of tokens: its answer to each call, one after another. A token that comes with an error
is malformed. -/
abbrev Source := Nat → Token

/-- The token that the parser holds, and the number of calls so far. -/
structure Ahead where
  token : Token
  calls : Nat

/-- A program that asks for tokens. It may fail to end, and then there is no outcome. -/
abbrev Asks (α : Type) := StateT Ahead Option α

/-- A recognizer that asks for tokens. -/
abbrev Recognizer (α : Type) := ExceptT Error (StateT Ahead Option) α

/-- A program has not ended when its fuel is used up. -/
def exhausted {α : Type} : Asks α := fun _ => none

/-- The program ends with that outcome, if it is given enough fuel. -/
def Halts {α : Type} (run : Nat → Option α) (outcome : α) : Prop :=
  ∃ enough, ∀ fuel, enough ≤ fuel → run fuel = some outcome

section
variable (source : Source)

/-- Asks for the next token. -/
def next : Asks Unit := modify fun s => ⟨source s.calls, s.calls + 1⟩

/-- The token that is held. -/
def held : Asks Token := return (← get).token

/-- Gives up at the token that is held. -/
def fail {α : Type} (expected : Expectation) : Recognizer α := do
  throw (errorAt none expected [← held])

/-- Goes past a token that satisfies `p`, and gives its text. -/
def expect (p : Token → Bool) (expected : Expectation) : Recognizer String := do
  let t ← held
  if p t then
    next source
    return t.text
  else fail expected

mutual

/-- A number, a variable, a call, or an expression in parentheses. -/
def primary : Nat → Recognizer Expr
  | 0 => exhausted
  | fuel + 1 => do
    let t ← held
    match t.kind with
    | .number value =>
      next source
      return .number value
    | .identifier =>
      next source
      if (← held).is '(' then call fuel t.text else return .identifier t.text
    | kind =>
      if t.is '(' then
        next source
        let e ← expression fuel
        let _ ← expect source (·.is ')') .groupClose
        return e
      else fail (.expression kind.name)

/-- The call of a function, from the parenthesis on. -/
def call : Nat → String → Recognizer Expr
  | 0, _ => exhausted
  | fuel + 1, name => do
    next source
    if (← held).is ')' then
      next source
      return .call name []
    else return .call name (← arguments fuel)

/-- One or more arguments, and the parenthesis that closes them. -/
def arguments : Nat → Recognizer (List Expr)
  | 0 => exhausted
  | fuel + 1 => do
    let e ← expression fuel
    if (← held).is ',' then
      next source
      return e :: (← arguments fuel)
    else
      let _ ← expect source (·.is ')') .argumentsClose
      return [e]

/-- An operand, extended by all operators that follow. -/
def expression : Nat → Recognizer Expr
  | 0 => exhausted
  | fuel + 1 => do
    let operand ← primary fuel
    climb fuel 0 operand

/-- Extends `left` by operators that bind at least as tightly as `least`, with their operands. An
operator that binds tighter than the one before it takes the operand between them. -/
def climb : Nat → (least : Nat) → (left : Expr) → Recognizer Expr
  | 0, _, _ => exhausted
  | fuel + 1, least, left => do
    match (← held).operator? with
    | none => return left
    | some op =>
      if op.precedence < least then return left
      else
        next source
        let operand ← primary fuel
        let right ←
          if (← held).operator?.any (op.precedence < ·.precedence) then
            climb fuel (op.precedence + 1) operand
          else pure operand
        climb fuel least (.binary op left right)

end

/-- Names, as long as there are any. -/
def names : Nat → Recognizer (List String)
  | 0 => exhausted
  | fuel + 1 => do
    let t ← held
    if isName t then
      next source
      return t.text :: (← names fuel)
    else return []

/-- A name, and parameters in parentheses. -/
def prototype (fuel : Nat) : Recognizer Prototype := do
  let name ← expect source isName .functionName
  let _ ← expect source (·.is '(') .parametersOpen
  let params ← names source fuel
  let _ ← expect source (·.is ')') .parametersClose
  return ⟨name, params⟩

/-- The keyword of a definition, a prototype and a body. -/
def definition (fuel : Nat) : Recognizer (Prototype × Expr) := do
  let _ ← expect source isDefine .definitionKeyword
  let proto ← prototype source fuel
  let body ← expression source fuel
  return (proto, body)

/-- The keyword of a declaration and a prototype. -/
def declaration (fuel : Nat) : Recognizer Prototype := do
  let _ ← expect source isDeclare .declarationKeyword
  prototype source fuel

/-- The construct that the token announces which is held. -/
def construct (fuel : Nat) : Recognizer Construct := do
  let t ← held
  if isDefine t then
    let d ← definition source fuel
    return .definition d.1 d.2
  else if isDeclare t then return .declaration (← declaration source fuel)
  else return .evaluation (← expression source fuel)

/-- How a round of the parser ends. -/
inductive Round where
  /-- The end of input is held: this was the last round. -/
  | finished
  /-- A semicolon was skipped. -/
  | separator
  /-- A construct was delivered, or a failure reported. -/
  | event (e : Event)

/-- One round. After a failure the token is skipped that is held. -/
def round (fuel : Nat) : Asks Round := do
  let t ← held
  if t.kind = .endOfInput then return .finished
  else if t.is ';' then
    next source
    return .separator
  else
    match ← (construct source fuel).run with
    | .ok c => return .event (.construct c)
    | .error e =>
      next source
      return .event (.report e)

/-- One round after another, up to the last one. -/
def loop : Nat → Asks (List Event)
  | 0 => exhausted
  | fuel + 1 => do
    match ← round source fuel with
    | .finished => return []
    | .separator => loop fuel
    | .event e => return e :: (← loop fuel)

/-- The parser that holds token `i`. -/
def holding (i : Nat) : Ahead := ⟨source i, i + 1⟩

/-- A parser asks for the first token when it is made, and then goes through its rounds. -/
def parse (fuel : Nat) : Option (List Event × Ahead) := loop source fuel (holding source 0)

end

end OnDemand

end Parser

/-- The answers that a stream gives, one after another: its tokens, and then the end of input for
ever. -/
def TokenStream.answers (p : TokenStream) : Parser.OnDemand.Source :=
  fun i => p.tokens[i]?.getD (Token.finish p.finish)

namespace Parser.OnDemand

theorem answers_eq_peek (p : TokenStream) (i : Nat) :
    p.answers i = (TokenStream.mk (p.tokens.drop i) p.finish).peek := by
  rw [TokenStream.answers, TokenStream.peek, ← List.head?_drop]
  cases p.tokens.drop i <;> rfl

/-! ## Following a reader -/

/-- What a reader comes to, and the tokens that it leaves. -/
def settle {α : Type} (finish : Option Location) :
    EStateM.Result Expectation (List Token) α → Except Error α × List Token
  | .ok a rest => (.ok a, rest)
  | .error expected rest => (.error (errorAt finish expected rest), rest)

section
variable {α β : Type} (p : TokenStream)

/-- Where it holds the first of the tokens `ts`, the program ends: it comes to what the reader has
come to, holds the first token that the reader leaves, and has made one call for each token that the
reader has read. -/
def Follows (x : Recognizer α) (ts : List Token)
    (result : EStateM.Result Expectation (List Token) α) : Prop :=
  ∀ i, p.tokens.drop i = ts → ∃ j, p.tokens.drop j = (settle p.finish result).2 ∧
    j + (settle p.finish result).2.length = i + ts.length ∧
    x (holding p.answers i) = some ((settle p.finish result).1, holding p.answers j)

variable {p} {x : Recognizer α} {ts us : List Token}
  {result : EStateM.Result Expectation (List Token) α}

theorem follows_pure (a : α) (ts : List Token) : Follows p (pure a) ts (.ok a ts) :=
  fun i hi => ⟨i, hi, rfl, rfl⟩

theorem follows_fail (expected : Expectation) (ts : List Token) :
    Follows p (fail expected : Recognizer α) ts (.error expected ts) := by
  intro i hi
  refine ⟨i, hi, rfl, ?_⟩
  show some (Except.error (errorAt none expected [p.answers i]), _) = _
  rw [answers_eq_peek, hi]
  rfl

/-- What depends on the token that is held goes by the first token. -/
theorem Follows.held {f : Token → Recognizer α}
    (h : Follows p (f (TokenStream.mk ts p.finish).peek) ts result) :
    Follows p (do f (← held)) ts result := by
  intro i hi
  obtain ⟨j, hdrop, hcalls, hrun⟩ := h i hi
  refine ⟨j, hdrop, hcalls, ?_⟩
  rw [← hrun, ← hi, ← answers_eq_peek]
  rfl

theorem Follows.next {t : Token} (h : Follows p x us result) :
    Follows p (do next p.answers; x) (t :: us) result := by
  intro i hi
  have hnext : p.tokens.drop (i + 1) = us := by rw [← List.tail_drop, hi, List.tail_cons]
  obtain ⟨j, hdrop, hcalls, hrun⟩ := h (i + 1) hnext
  refine ⟨j, hdrop, ?_, hrun⟩
  rw [hcalls, List.length_cons, Nat.add_assoc, Nat.add_comm 1]

theorem Follows.bind {f : α → Recognizer β} {r : Reader α} {g : α → Reader β}
    (hx : Follows p x ts (r ts))
    (hf : ∀ a rest, r ts = .ok a rest → Follows p (f a) rest (g a rest)) :
    Follows p (x >>= f) ts ((r >>= g) ts) := by
  intro i hi
  obtain ⟨j, hdrop, hcalls, hrun⟩ := hx i hi
  cases hr : r ts with
  | ok a rest =>
    rw [hr] at hdrop hcalls hrun
    rw [Reader.bind_of_ok hr]
    obtain ⟨k, hdrop', hcalls', hrun'⟩ := hf a rest hr j hdrop
    refine ⟨k, hdrop', hcalls'.trans hcalls, ?_⟩
    rw [← hrun']
    show (x (holding p.answers i) >>= _) = _
    rw [hrun]
    rfl
  | error expected rest =>
    rw [hr] at hdrop hcalls hrun
    rw [Reader.bind_of_error hr]
    refine ⟨j, hdrop, hcalls, ?_⟩
    show (x (holding p.answers i) >>= _) = _
    rw [hrun]
    rfl

theorem Follows.map {r : Reader α} (hx : Follows p x ts (r ts)) (f : α → β) :
    Follows p (do return f (← x)) ts ((f <$> r) ts) := by
  rw [← bind_pure_comp]
  exact hx.bind fun a rest _ => follows_pure (f a) rest

end

/-! ## Recognizers -/

section
variable {p : TokenStream}

/-- What is asked of the token that is held is asked of the first token. -/
theorem peek_any (accepts : Token → Bool) (finish : Option Location)
    (hend : accepts (Token.finish finish) = false) (ts : List Token) :
    accepts (TokenStream.mk ts finish).peek = ts.head?.any accepts := by
  cases ts with
  | nil => exact hend
  | cons t us => rfl

theorem peek_is (finish : Option Location) (c : Char) (ts : List Token) :
    (TokenStream.mk ts finish).peek.is c = starts c ts :=
  peek_any (·.is c) finish rfl ts

theorem peek_operator? (finish : Option Location) (ts : List Token) :
    (TokenStream.mk ts finish).peek.operator? = operatorAhead? ts := by
  cases ts <;> rfl

theorem unexpected_eq (finish : Option Location) (ts : List Token) :
    unexpected ts = .expression (TokenStream.mk ts finish).peek.kind.name := by
  cases ts <;> rfl

theorem follows_expect {accepts : Token → Bool} (hend : accepts (Token.finish p.finish) = false)
    (expected : Expectation) (ts : List Token) :
    Follows p (expect p.answers accepts expected) ts (one accepts expected ts) := by
  refine Follows.held ?_
  rw [peek_any accepts p.finish hend]
  cases ts with
  | nil => exact follows_fail expected []
  | cons t us =>
    by_cases ht : accepts t = true
    · rw [one_of_true ht, List.head?_cons, Option.any_some, if_pos ht]
      exact (follows_pure t.text us).next
    · rw [one_of_false ht, List.head?_cons, Option.any_some, if_neg ht]
      exact follows_fail expected (t :: us)

theorem follows_emptyCall {fuel : Nat} (hfuel : 0 < fuel) (name : String) (u : Token) {v : Token}
    (hclose : v.is ')' = true) (us : List Token) :
    Follows p (call p.answers fuel name) (u :: v :: us) (.ok (.call name []) us) := by
  obtain _ | fuel := fuel
  · exact absurd hfuel (Nat.not_lt_zero _)
  rw [call]
  refine Follows.next (Follows.held ?_)
  rw [peek_is, starts_cons, if_pos hclose]
  exact (follows_pure (Expr.call name []) us).next

-- The fuel that each program needs is what the recursion of its reader goes down by: four for each
-- token, and less than four for the calls that read none.
mutual

theorem follows_primary {fuel : Nat} {ts : List Token} (hfuel : 4 * ts.length < fuel) :
    Follows p (primary p.answers fuel) ts (reader Parser.primary ts) := by
  obtain _ | fuel := fuel
  · exact absurd hfuel (Nat.not_lt_zero _)
  rw [primary]
  refine Follows.held ?_
  cases primaryStart ts with
  | @number t us value hkind =>
    rw [reader_primary_number hkind]
    simp only [TokenStream.peek, hkind]
    exact (follows_pure (Expr.number value) us).next
  | @name t us hkind hopen =>
    rw [reader_primary_name hkind hopen]
    simp only [TokenStream.peek, hkind]
    refine Follows.next (Follows.held ?_)
    rw [peek_is, hopen, if_neg Bool.false_ne_true]
    exact follows_pure (Expr.identifier t.text) us
  | @emptyCall t u v us hkind hopen hclose =>
    rw [reader_primary_emptyCall hkind hopen hclose]
    simp only [TokenStream.peek, hkind]
    refine Follows.next (Follows.held ?_)
    rw [peek_is, starts_cons, if_pos hopen]
    exact follows_emptyCall (by simp only [List.length_cons] at hfuel; omega) t.text u hclose us
  | @call t u us hkind hopen hclose =>
    simp only [List.length_cons] at hfuel
    rw [reader_primary_call hkind hopen hclose]
    simp only [TokenStream.peek, hkind]
    refine Follows.next (Follows.held ?_)
    rw [peek_is, starts_cons, if_pos hopen]
    exact follows_call (by omega) t.text u hclose
  | @group t us hopen =>
    have hkind : t.kind = .symbol '(' := of_decide_eq_true hopen
    rw [List.length_cons] at hfuel
    rw [reader_primary_group hopen]
    simp only [TokenStream.peek, hkind, hopen, if_true]
    refine Follows.next ((follows_expression (by omega)).bind fun e rest _ => ?_)
    exact (follows_expect rfl _ rest).bind fun _ rest' _ => follows_pure e rest'
  | other hnumber hname hopen =>
    rw [reader_primary_other hnumber hname hopen]
    split
    · rename_i value hkind
      have hother := (peek_any (·.kind = .number value) p.finish rfl ts).trans (hnumber value)
      exact absurd hkind (of_decide_eq_false hother)
    · rename_i hkind
      have hother := (peek_any isName p.finish rfl ts).trans hname
      exact absurd hkind (of_decide_eq_false hother)
    · rw [peek_is, hopen, if_neg Bool.false_ne_true, ← unexpected_eq]
      exact follows_fail (unexpected ts) ts
termination_by 4 * ts.length

theorem follows_call {fuel : Nat} {us : List Token} (hfuel : 4 * us.length + 3 < fuel)
    (name : String) (u : Token) (hclose : starts ')' us = false) :
    Follows p (call p.answers fuel name) (u :: us)
      ((Expr.call name <$> reader Parser.arguments) us) := by
  obtain _ | fuel := fuel
  · exact absurd hfuel (Nat.not_lt_zero _)
  rw [call]
  refine Follows.next (Follows.held ?_)
  rw [peek_is, hclose, if_neg Bool.false_ne_true]
  exact (follows_arguments (by omega)).map (Expr.call name)
termination_by 4 * us.length + 3

theorem follows_climb {fuel least : Nat} {left : Expr} {ts : List Token}
    (hfuel : 4 * ts.length + 3 < fuel) :
    Follows p (climb p.answers fuel least left) ts (reader (Parser.climb least left) ts) := by
  obtain _ | fuel := fuel
  · exact absurd hfuel (Nat.not_lt_zero _)
  rw [climb]
  refine Follows.held ?_
  rw [peek_operator?]
  rcases stops_or_operator least ts with hstops | ⟨t, us, op, hts, hop, hle⟩
  · rw [reader_climb_stop hstops]
    cases hop : operatorAhead? ts with
    | none => exact follows_pure left ts
    | some op =>
      simp only [hstops op hop, if_true]
      exact follows_pure left ts
  · have hfirst : ts.length = us.length + 1 := by rw [hts, List.length_cons]
    rw [hts, reader_climb_operator hop hle, operatorAhead?_cons, hop]
    simp only [Nat.not_lt.2 hle, if_false]
    refine Follows.next ((follows_primary (by omega)).bind fun operand rest hoperand => ?_)
    have hlength := length_lt_of_reader hoperand
    have hrest : ∀ right rest',
        reader (Parser.climb (op.precedence + 1) operand) rest = .ok right rest' →
          Follows p (climb p.answers fuel least (.binary op left right)) rest'
            (reader (Parser.climb least (.binary op left right)) rest') := by
      intro right rest' hright
      have hlength' := length_lt_of_reader hright
      exact follows_climb (by omega)
    refine Follows.held ?_
    rw [peek_operator?]
    split
    · exact (follows_climb (by omega)).bind hrest
    · rename_i hlooser
      -- an operator that binds no tighter ends the climb at once
      have hstops : Stops (op.precedence + 1) rest := fun op' hop' => by
        rw [hop', Option.any_some, decide_eq_true_eq] at hlooser
        exact Nat.lt_succ_of_le (Nat.le_of_not_lt hlooser)
      refine Follows.bind ?_ hrest
      rw [reader_climb_stop hstops]
      exact follows_pure operand rest
termination_by 4 * ts.length + 3

theorem follows_expression {fuel : Nat} {ts : List Token} (hfuel : 4 * ts.length + 1 < fuel) :
    Follows p (expression p.answers fuel) ts (reader Parser.expression ts) := by
  obtain _ | fuel := fuel
  · exact absurd hfuel (Nat.not_lt_zero _)
  rw [expression, reader_expression]
  refine (follows_primary (by omega)).bind fun operand rest hoperand => ?_
  have hlength := length_lt_of_reader hoperand
  exact follows_climb (by omega)
termination_by 4 * ts.length + 1

theorem follows_arguments {fuel : Nat} {ts : List Token} (hfuel : 4 * ts.length + 2 < fuel) :
    Follows p (arguments p.answers fuel) ts (reader Parser.arguments ts) := by
  obtain _ | fuel := fuel
  · exact absurd hfuel (Nat.not_lt_zero _)
  rw [arguments, reader_arguments]
  refine (follows_expression (by omega)).bind fun e rest he => Follows.held ?_
  have hlength := length_lt_of_reader he
  rw [peek_is]
  by_cases hcomma : starts ',' rest = true
  · cases rest with
    | nil => cases hcomma
    | cons t us =>
      have hshorter : us.length < ts.length := Nat.lt_of_succ_lt hlength
      rw [argumentsTail, if_pos hcomma, if_pos hcomma]
      exact ((follows_arguments (by omega)).map (e :: ·)).next
  · rw [argumentsTail, if_neg hcomma, if_neg hcomma]
    exact (follows_expect rfl _ rest).bind fun _ rest' _ => follows_pure [e] rest'
termination_by 4 * ts.length + 2

end

theorem follows_names {fuel : Nat} {ts : List Token} (hfuel : ts.length < fuel) :
    Follows p (names p.answers fuel) ts (Parser.names ts) := by
  induction fuel generalizing ts with
  | zero => exact absurd hfuel (Nat.not_lt_zero _)
  | succ fuel ih =>
    rw [names]
    refine Follows.held ?_
    rw [peek_any isName p.finish rfl]
    by_cases hname : ts.head?.any isName = true
    · cases ts with
      | nil => cases hname
      | cons t us =>
        rw [if_pos hname, names_cons hname]
        exact ((ih (Nat.lt_of_succ_lt_succ hfuel)).map (t.text :: ·)).next
    · rw [if_neg hname, names_stop hname]
      exact follows_pure [] ts

theorem length_lt_of_one {accepts : Token → Bool} {expected : Expectation} {ts rest : List Token}
    {text : String} (h : one accepts expected ts = .ok text rest) : rest.length < ts.length := by
  obtain ⟨t, rfl, -⟩ := one_eq_ok.1 h
  exact Nat.lt_succ_self _

theorem follows_prototype {fuel : Nat} {ts : List Token} (hfuel : ts.length < fuel) :
    Follows p (prototype p.answers fuel) ts (reader Parser.prototype ts) := by
  rw [reader_prototype]
  refine (follows_expect rfl _ ts).bind fun name us hname => ?_
  refine (follows_expect rfl _ us).bind fun _ vs hopen => ?_
  have hlength := length_lt_of_one hname
  have hlength' := length_lt_of_one hopen
  refine (follows_names (by omega)).bind fun params rest _ => ?_
  exact (follows_expect rfl _ rest).bind fun _ rest' _ => follows_pure _ rest'

section
variable {fuel : Nat} {ts : List Token} (hfuel : 4 * ts.length + 1 < fuel)
include hfuel

theorem follows_definition :
    Follows p (definition p.answers fuel) ts (reader Parser.definition ts) := by
  rw [reader_definition]
  refine (follows_expect rfl _ ts).bind fun _ us hkeyword => ?_
  have hlength := length_lt_of_one hkeyword
  refine (follows_prototype (by omega)).bind fun proto rest hproto => ?_
  have hlength' := length_lt_of_reader hproto
  exact (follows_expression (by omega)).bind fun body rest' _ => follows_pure _ rest'

theorem follows_declaration :
    Follows p (declaration p.answers fuel) ts (reader Parser.declaration ts) := by
  rw [reader_declaration]
  refine (follows_expect rfl _ ts).bind fun _ us hkeyword => ?_
  have hlength := length_lt_of_one hkeyword
  exact follows_prototype (by omega)

/-- **The recognizer of constructs ends at every token of every stream**, with what it comes to on
the list of the tokens, and with one call for each token that it reads. -/
theorem follows_construct :
    Follows p (construct p.answers fuel) ts (reader Parser.construct ts) := by
  refine Follows.held ?_
  rw [reader_construct, peek_any isDefine p.finish rfl, peek_any isDeclare p.finish rfl]
  split
  · exact (follows_definition hfuel).map fun d => Construct.definition d.1 d.2
  · split
    · exact (follows_declaration hfuel).map Construct.declaration
    · exact (follows_expression hfuel).map Construct.evaluation

end

end

/-! ## Rounds -/

section
variable {source : Source} {s s' : Ahead} {fuel : Nat}

theorem round_of_end (h : s.token.kind = .endOfInput) :
    round source fuel s = some (.finished, s) := by
  show (if s.token.kind = .endOfInput then _ else _ : Asks Round) s = _
  rw [if_pos h]
  rfl

theorem round_of_separator (h : s.token.is ';' = true) :
    round source fuel s = some (.separator, ⟨source s.calls, s.calls + 1⟩) := by
  have hend : s.token.kind ≠ .endOfInput := fun hend => by
    rw [Token.is, hend] at h
    cases h
  show (if s.token.kind = .endOfInput then _ else _ : Asks Round) s = _
  rw [if_neg hend, if_pos h]
  rfl

section
variable (hend : s.token.kind ≠ .endOfInput) (hseparator : ¬s.token.is ';' = true)
include hend hseparator

theorem round_of_ok {c : Construct} (h : construct source fuel s = some (.ok c, s')) :
    round source fuel s = some (.event (.construct c), s') := by
  show (if s.token.kind = .endOfInput then _ else _ : Asks Round) s = _
  rw [if_neg hend, if_neg hseparator]
  show (construct source fuel s >>= _) = _
  rw [h]
  rfl

theorem round_of_error {e : Error} (h : construct source fuel s = some (.error e, s')) :
    round source fuel s = some (.event (.report e), ⟨source s'.calls, s'.calls + 1⟩) := by
  show (if s.token.kind = .endOfInput then _ else _ : Asks Round) s = _
  rw [if_neg hend, if_neg hseparator]
  show (construct source fuel s >>= _) = _
  rw [h]
  rfl

end

theorem loop_of_finished (h : round source fuel s = some (.finished, s')) :
    loop source (fuel + 1) s = some ([], s') := by
  show (round source fuel s >>= _) = _
  rw [h]
  rfl

theorem loop_of_separator (h : round source fuel s = some (.separator, s')) :
    loop source (fuel + 1) s = loop source fuel s' := by
  show (round source fuel s >>= _) = _
  rw [h]
  rfl

theorem loop_of_event {e : Event} {events : List Event} {last : Ahead}
    (h : round source fuel s = some (.event e, s'))
    (hrest : loop source fuel s' = some (events, last)) :
    loop source (fuel + 1) s = some (e :: events, last) := by
  show (round source fuel s >>= _) = _
  rw [h]
  show (loop source fuel s' >>= _) = _
  rw [hrest]
  rfl

end

section
variable (p : TokenStream)

/-- The events of the stream from token `i` on. -/
def eventsAt (i : Nat) : List Event := (eventsFrom p.finish (p.tokens.drop i)).1

/-- How a round goes that starts where token `i` is held, and ends where token `j` is. Unless it is
the last one, it asks for a token at least, and for one beyond the end of input at most. -/
inductive Goes (i : Nat) : Round → Nat → Prop
  | finished (hlast : eventsAt p i = []) : Goes i .finished i
  | separator (hle : i < p.tokens.length) (hrest : eventsAt p i = eventsAt p (i + 1)) :
      Goes i .separator (i + 1)
  | event {e : Event} {j : Nat} (hlt : i < j) (hle : j ≤ p.tokens.length + 1)
      (hrest : eventsAt p i = e :: eventsAt p j) : Goes i (.event e) j

/-- Enough fuel for recognizers to go through all tokens. -/
def Ample (fuel : Nat) : Prop := 4 * p.tokens.length + 1 < fuel

variable {p}

/-- The recognizer of constructs ends with any ample fuel in the same way. -/
theorem construct_ends {i : Nat} {ts : List Token} (hi : p.tokens.drop i = ts) :
    ∃ j, p.tokens.drop j = (settle p.finish (reader Parser.construct ts)).2 ∧
      j + (settle p.finish (reader Parser.construct ts)).2.length = i + ts.length ∧
      ∀ fuel, Ample p fuel → construct p.answers fuel (holding p.answers i) =
        some ((settle p.finish (reader Parser.construct ts)).1, holding p.answers j) := by
  have hlength : ts.length ≤ p.tokens.length := by
    rw [← hi, List.length_drop]
    exact Nat.sub_le _ _
  have hfollows : ∀ fuel, Ample p fuel →
      Follows p (construct p.answers fuel) ts (reader Parser.construct ts) := by
    intro fuel hfuel
    unfold Ample at hfuel
    exact follows_construct (by omega)
  obtain ⟨j, hj, hcalls, -⟩ := hfollows (4 * p.tokens.length + 2) (Nat.lt_succ_self _) i hi
  refine ⟨j, hj, hcalls, fun fuel hfuel => ?_⟩
  -- where it ends is fixed by the tokens that it leaves
  obtain ⟨k, -, hcalls', hrun⟩ := hfollows fuel hfuel i hi
  obtain rfl : k = j := Nat.add_right_cancel (hcalls'.trans hcalls.symm)
  exact hrun

/-- A round that attempts a construct ends. A failure costs one call more than what was read: it is
what takes the parser beyond the end of input. -/
theorem round_attempt {i : Nat} {t : Token} {us : List Token} (hi : p.tokens.drop i = t :: us)
    (hend : t.kind ≠ .endOfInput) (hseparator : ¬t.is ';' = true) : ∃ e j, Goes p i (.event e) j ∧
    ∀ fuel, Ample p fuel →
      round p.answers fuel (holding p.answers i) = some (.event e, holding p.answers j) := by
  have hheld : (holding p.answers i).token = t := by rw [holding, answers_eq_peek, hi]; rfl
  have hlength := List.length_drop (i := i) (l := p.tokens)
  rw [hi, List.length_cons] at hlength
  obtain ⟨j, hj, hcalls, hrun⟩ := construct_ends hi
  cases hread : Parser.construct (t :: us) with
  | accept c rest hlt =>
    rw [reader_of_accept hread] at hj hcalls hrun
    replace hcalls : j + rest.length = i + (us.length + 1) := hcalls
    rw [List.length_cons] at hlt
    refine ⟨_, j, .event (by omega) (by omega) ?_, fun fuel hfuel =>
      round_of_ok (hheld ▸ hend) (hheld ▸ hseparator) (hrun fuel hfuel)⟩
    rw [eventsAt, eventsAt, hi, hj, eventsFrom, if_neg hend, if_neg hseparator, hread]
    rfl
  | reject expected rest hle =>
    rw [reader_of_reject hread] at hj hcalls hrun
    replace hcalls : j + rest.length = i + (us.length + 1) := hcalls
    rw [List.length_cons] at hle
    refine ⟨_, j + 1, .event (by omega) (by omega) ?_, fun fuel hfuel =>
      round_of_error (hheld ▸ hend) (hheld ▸ hseparator) (hrun fuel hfuel)⟩
    rw [eventsAt, eventsAt, hi, ← List.drop_drop, hj, eventsFrom, if_neg hend, if_neg hseparator,
      hread]
    rfl

/-- **Every round ends**, wherever it starts. -/
theorem round_goes (i : Nat) : ∃ r j, Goes p i r j ∧ ∀ fuel, Ample p fuel →
    round p.answers fuel (holding p.answers i) = some (r, holding p.answers j) := by
  have hheld := answers_eq_peek p i
  cases hi : p.tokens.drop i with
  | nil =>
    rw [hi] at hheld
    refine ⟨.finished, i, .finished ?_, fun fuel _ => round_of_end (congrArg Token.kind hheld)⟩
    rw [eventsAt, hi, eventsFrom]
  | cons t us =>
    rw [hi] at hheld
    replace hheld : (holding p.answers i).token = t := hheld
    by_cases hend : t.kind = .endOfInput
    · refine ⟨.finished, i, .finished ?_, fun fuel _ => round_of_end (hheld ▸ hend)⟩
      rw [eventsAt, hi, eventsFrom, if_pos hend]
    · by_cases hseparator : t.is ';' = true
      · have hle : i < p.tokens.length :=
          Nat.lt_of_not_le fun hle => by simp [List.drop_eq_nil_of_le hle] at hi
        refine ⟨.separator, i + 1, .separator hle ?_,
          fun fuel _ => round_of_separator (hheld ▸ hseparator)⟩
        rw [eventsAt, eventsAt, ← List.tail_drop, hi, eventsFrom, if_neg hend, if_pos hseparator,
          List.tail_cons]
      · obtain ⟨e, j, hgoes, hround⟩ := round_attempt hi hend hseparator
        exact ⟨.event e, j, hgoes, hround⟩

/-- **The rounds come to an end**, with the events of the stream. Each of these has cost a call. -/
theorem loop_ends (i : Nat) : ∃ j,
    (eventsAt p i).length + i ≤ j ∧ j ≤ max i (p.tokens.length + 1) ∧
    ∀ fuel, 4 * p.tokens.length + 2 + (p.tokens.length + 2 - i) ≤ fuel →
      loop p.answers (fuel + 1) (holding p.answers i) =
        some (eventsAt p i, holding p.answers j) := by
  obtain ⟨r, j, hgoes, hround⟩ := round_goes (p := p) i
  replace hround := fun fuel hfuel => hround fuel (show 4 * p.tokens.length + 1 < fuel from hfuel)
  cases hgoes with
  | finished hlast =>
    refine ⟨i, by simp [hlast], Nat.le_max_left _ _, fun fuel hfuel => ?_⟩
    rw [hlast]
    exact loop_of_finished (hround fuel (by omega))
  | separator hle hrest =>
    obtain ⟨k, hlength, hk, hloop⟩ := loop_ends (i + 1)
    refine ⟨k, by rw [hrest]; omega, by omega, fun fuel hfuel => ?_⟩
    obtain _ | fuel := fuel
    · omega
    rw [hrest, loop_of_separator (hround _ (by omega))]
    exact hloop fuel (by omega)
  | @event e _ hlt hle hrest =>
    obtain ⟨k, hlength, hk, hloop⟩ := loop_ends j
    refine ⟨k, by rw [hrest, List.length_cons]; omega, by omega, fun fuel hfuel => ?_⟩
    obtain _ | fuel := fuel
    · omega
    rw [hrest]
    exact loop_of_event (hround _ (by omega)) (hloop fuel (by omega))
termination_by p.tokens.length + 1 - i

end

/-- **The parser ends on every stream of tokens.** It comes to the events of the stream. It has made
at least one call more than there are events, and at most two more than there are tokens: so there
is at most one event more than there are tokens. Every round ends, wherever it starts, and unless it
is the last one it has made a call. -/
theorem parse_ends (p : Parser) :
    (∃ last, Halts (parse p.answers) (p.events.1, last) ∧
      p.events.1.length + 1 ≤ last.calls ∧ last.calls ≤ p.tokens.length + 2) ∧
    ∀ i, ∃ r j,
      Halts (fun fuel => round p.answers fuel (holding p.answers i)) (r, holding p.answers j) ∧
      (r = .finished ∨ (holding p.answers i).calls < (holding p.answers j).calls) := by
  refine ⟨?_, fun i => ?_⟩
  · obtain ⟨j, hevents, hj, hloop⟩ := loop_ends (p := p) 0
    refine ⟨holding p.answers j, ⟨5 * p.tokens.length + 5, fun fuel hfuel => ?_⟩,
      Nat.succ_le_succ hevents, ?_⟩
    · obtain _ | fuel := fuel
      · omega
      exact hloop fuel (by omega)
    · show j + 1 ≤ _
      omega
  · obtain ⟨r, j, hgoes, hround⟩ := round_goes (p := p) i
    refine ⟨r, j, ⟨4 * p.tokens.length + 2, hround⟩, ?_⟩
    cases hgoes with
    | finished => exact .inl rfl
    | separator => exact .inr (Nat.lt_succ_self _)
    | event hlt => exact .inr (Nat.succ_lt_succ hlt)

/-- A keyword at the end of input costs two calls more than there are tokens. -/
example :
    (parse (TokenStream.mk [⟨.define, "def", none⟩] none).answers 5).map (·.2.calls) = some 3 :=
  rfl

end Parser.OnDemand

end Kaleidoscope
