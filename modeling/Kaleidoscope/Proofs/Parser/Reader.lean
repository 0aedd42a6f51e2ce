/-
  Recognizers as programs that take tokens from the front of a list.

  - `Reader`: gives a value or fails, and leaves the tokens that it has not read either way;
  - `reader`: a recognizer as a reader, without the bound on what it leaves;
  - `one`, `names`: the smallest readers;
  - `reader_primary_…`, `reader_climb_…`: what an operand and the operators after it are read as, by
    the first tokens; `PrimaryStart` lists the ways an operand starts;
  - `reader_expression`, `reader_arguments`, `reader_prototype`, `reader_definition`,
    `reader_declaration`, `reader_construct`: the other recognizers, each by the recognizers that it
    is made of.
-/
import Kaleidoscope.Parser.Events

namespace Kaleidoscope

/-! ## Readers -/

/-- Takes tokens from the front of a list. -/
abbrev Reader (α : Type) := EStateM Expectation (List Token) α

/-- The answer of a recognizer, without the bound. -/
def Reading.answer {α : Type} {bound : Nat} :
    Reading α bound → EStateM.Result Expectation (List Token) α
  | .accept value rest _ => .ok value rest
  | .reject expected rest _ => .error expected rest

namespace Reader
variable {α β : Type}

theorem bind_eq_ok {x : Reader α} {f : α → Reader β} {ts rest : List Token} {b : β} :
    (x >>= f) ts = .ok b rest ↔ ∃ a mid, x ts = .ok a mid ∧ f a mid = .ok b rest := by
  show EStateM.bind x f ts = _ ↔ _
  unfold EStateM.bind
  cases x ts with
  | ok a mid =>
    constructor
    · exact fun h => ⟨a, mid, rfl, h⟩
    · rintro ⟨_, _, ⟨⟩, h⟩
      exact h
  | error e mid =>
    constructor
    · intro h; cases h
    · rintro ⟨_, _, h, -⟩; cases h

theorem bind_of_ok {x : Reader α} {f : α → Reader β} {ts mid : List Token} {a : α}
    (h : x ts = .ok a mid) : (x >>= f) ts = f a mid := by
  show EStateM.bind x f ts = _
  simp only [EStateM.bind, h]

theorem bind_of_error {x : Reader α} {f : α → Reader β} {ts mid : List Token} {e : Expectation}
    (h : x ts = .error e mid) : (x >>= f) ts = .error e mid := by
  show EStateM.bind x f ts = _
  simp only [EStateM.bind, h]

/-- What is put together of two readers fails where the first one does, or where the second one
does. -/
theorem bind_eq_error {x : Reader α} {f : α → Reader β} {ts rest : List Token} {e : Expectation} :
    (x >>= f) ts = .error e rest ↔
      x ts = .error e rest ∨ ∃ a mid, x ts = .ok a mid ∧ f a mid = .error e rest := by
  cases hx : x ts with
  | ok a mid =>
    rw [bind_of_ok hx]
    constructor
    · exact fun h => Or.inr ⟨a, mid, rfl, h⟩
    · rintro (⟨⟨⟩⟩ | ⟨_, _, ⟨⟩, h⟩)
      exact h
  | error e' mid =>
    rw [bind_of_error hx]
    constructor
    · rintro ⟨⟩
      exact Or.inl rfl
    · rintro (⟨⟨⟩⟩ | ⟨_, _, ⟨⟩, -⟩)
      rfl

theorem map_eq_ok {x : Reader α} {f : α → β} {ts rest : List Token} {b : β} :
    (f <$> x) ts = .ok b rest ↔ ∃ a, x ts = .ok a rest ∧ f a = b := by
  show EStateM.map f x ts = _ ↔ _
  unfold EStateM.map
  cases x ts with
  | ok a mid =>
    constructor
    · rintro ⟨⟩
      exact ⟨a, rfl, rfl⟩
    · rintro ⟨_, ⟨⟩, rfl⟩
      rfl
  | error e mid =>
    constructor
    · intro h; cases h
    · rintro ⟨_, h, -⟩; cases h

theorem map_eq_error {x : Reader α} {f : α → β} {ts rest : List Token} {e : Expectation} :
    (f <$> x) ts = .error e rest ↔ x ts = .error e rest := by
  rw [← bind_pure_comp, bind_eq_error, or_iff_left]
  rintro ⟨_, _, -, ⟨⟩⟩

end Reader

namespace Parser
variable {α : Type}

/-- A recognizer as a reader. -/
def reader {bound : List Token → Nat} (recognizer : (ts : List Token) → Reading α (bound ts)) :
    Reader α := fun ts => (recognizer ts).answer

section
variable {bound : List Token → Nat} {recognizer : (ts : List Token) → Reading α (bound ts)}
  {ts rest : List Token}

theorem reader_of_accept {value : α} {h : rest.length < bound ts}
    (heq : recognizer ts = .accept value rest h) : reader recognizer ts = .ok value rest := by
  rw [reader, heq]; rfl

theorem reader_of_reject {expected : Expectation} {h : rest.length ≤ bound ts}
    (heq : recognizer ts = .reject expected rest h) :
    reader recognizer ts = .error expected rest := by
  rw [reader, heq]; rfl

theorem length_lt_of_reader {value : α} (h : reader recognizer ts = .ok value rest) :
    rest.length < bound ts := by
  unfold reader at h
  cases hr : recognizer ts with
  | accept value rest hlt => rw [hr] at h; cases h; exact hlt
  | reject expected rest hle => rw [hr] at h; cases h

end

/-- Whether the first token is the character `c`. -/
def starts (c : Char) (ts : List Token) : Bool := ts.head?.any (·.is c)

@[simp] theorem starts_nil (c : Char) : starts c [] = false := rfl

@[simp] theorem starts_cons (c : Char) (t : Token) (ts : List Token) :
    starts c (t :: ts) = t.is c := rfl

/-- Reads a token that satisfies `p`, and gives its text. -/
def one (p : Token → Bool) (expected : Expectation) : Reader String
  | [] => .error expected []
  | t :: ts => if p t then .ok t.text ts else .error expected (t :: ts)

theorem one_of_true {p : Token → Bool} {t : Token} (h : p t = true) (expected : Expectation)
    (ts : List Token) : one p expected (t :: ts) = .ok t.text ts := by
  simp only [one, h, if_true]

theorem one_of_false {p : Token → Bool} {t : Token} (h : ¬p t = true) (expected : Expectation)
    (ts : List Token) : one p expected (t :: ts) = .error expected (t :: ts) := by
  simp only [one, h, if_false, Bool.false_eq_true]

theorem one_eq_ok {p : Token → Bool} {expected : Expectation} {ts rest : List Token}
    {text : String} : one p expected ts = .ok text rest ↔
      ∃ t, ts = t :: rest ∧ p t = true ∧ t.text = text := by
  cases ts with
  | nil =>
    constructor
    · intro h; cases h
    · rintro ⟨_, h, -⟩; cases h
  | cons t us =>
    by_cases ht : p t = true
    · rw [one_of_true ht]
      constructor
      · rintro ⟨⟩
        exact ⟨t, rfl, ht, rfl⟩
      · rintro ⟨_, ⟨⟩, -, rfl⟩
        rfl
    · rw [one_of_false ht]
      constructor
      · intro h; cases h
      · rintro ⟨_, ⟨⟩, h, -⟩
        exact absurd h ht

theorem eq_of_one_error {p : Token → Bool} {expected e : Expectation} {ts rest : List Token}
    (h : one p expected ts = .error e rest) : rest = ts := by
  unfold one at h
  split at h
  · cases h; rfl
  · split at h
    · cases h
    · cases h; rfl

/-- Whether the token is a name. -/
def isName (t : Token) : Bool := t.kind = .identifier

/-- Reads names as long as there are any. -/
def names : Reader (List String) := fun ts =>
  .ok ((ts.takeWhile isName).map (·.text)) (ts.dropWhile isName)

/-! ## Operands -/

/-- The ways an operand starts, and all others. -/
inductive PrimaryStart : List Token → Prop
  | number {t : Token} {us : List Token} {value : Binary64} (h : t.kind = .number value) :
      PrimaryStart (t :: us)
  | name {t : Token} {us : List Token} (h : t.kind = .identifier)
      (hopen : starts '(' us = false) : PrimaryStart (t :: us)
  | emptyCall {t u v : Token} {us : List Token} (h : t.kind = .identifier)
      (hopen : u.is '(' = true) (hclose : v.is ')' = true) : PrimaryStart (t :: u :: v :: us)
  | call {t u : Token} {us : List Token} (h : t.kind = .identifier) (hopen : u.is '(' = true)
      (hclose : starts ')' us = false) : PrimaryStart (t :: u :: us)
  | group {t : Token} {us : List Token} (h : t.is '(' = true) : PrimaryStart (t :: us)
  | other {ts : List Token} (hnumber : ∀ value, ts.head?.any (·.kind = .number value) = false)
      (hname : ts.head?.any isName = false) (hopen : starts '(' ts = false) : PrimaryStart ts

theorem primaryStart (ts : List Token) : PrimaryStart ts := by
  cases ts with
  | nil => exact .other (fun _ => rfl) rfl rfl
  | cons t us =>
    by_cases hopen : t.is '(' = true
    · exact .group hopen
    · cases hkind : t.kind with
      | number value => exact .number hkind
      | identifier =>
        by_cases hcall : starts '(' us = true
        · cases us with
          | nil => cases hcall
          | cons u vs =>
            by_cases hclose : starts ')' vs = true
            · cases vs with
              | nil => cases hclose
              | cons v ws => exact .emptyCall hkind hcall hclose
            · exact .call hkind hcall (by simpa using hclose)
        · exact .name hkind (by simpa using hcall)
      | _ => exact .other (by simp [hkind]) (by simp [isName, hkind]) (by simpa using hopen)

section
variable {t u v : Token} {us : List Token}

theorem reader_primary_number {value : Binary64} (h : t.kind = .number value) :
    reader primary (t :: us) = .ok (.number value) us := by
  show (primary (t :: us)).answer = _
  rw [primary.eq_def]
  simp only [h, Reading.answer]

theorem reader_primary_name (h : t.kind = .identifier) (hopen : starts '(' us = false) :
    reader primary (t :: us) = .ok (.identifier t.text) us := by
  show (primary (t :: us)).answer = _
  rw [primary.eq_def]
  cases us with
  | nil => simp only [h, Reading.answer]
  | cons u us =>
    rw [starts_cons] at hopen
    simp only [h, hopen, Bool.false_eq_true, if_false, Reading.answer]

theorem reader_primary_emptyCall (h : t.kind = .identifier) (hopen : u.is '(' = true)
    (hclose : v.is ')' = true) :
    reader primary (t :: u :: v :: us) = .ok (.call t.text []) us := by
  show (primary (t :: u :: v :: us)).answer = _
  rw [primary.eq_def]
  simp only [h, hopen, hclose, if_true, Reading.answer]

theorem reader_primary_group (h : t.is '(' = true) :
    reader primary (t :: us) = (do
      let e ← reader expression
      let _ ← one (·.is ')') .groupClose
      return e) us := by
  have hkind : t.kind = .symbol '(' := by simpa [Token.is] using h
  show (primary (t :: us)).answer = _
  rw [primary.eq_def]
  simp only [hkind, h, if_true]
  split
  · rename_i expected rest _ heq
    rw [Reader.bind_of_error (reader_of_reject heq)]
    rfl
  · rename_i e _ heq
    rw [Reader.bind_of_ok (reader_of_accept heq)]
    rfl
  · rename_i e v rest _ heq
    rw [Reader.bind_of_ok (reader_of_accept heq)]
    split
    · rename_i hclose
      rw [Reader.bind_of_ok (one_of_true hclose _ _)]
      rfl
    · rename_i hclose
      exact (Reader.bind_of_error (one_of_false hclose _ _)).symm

theorem reader_primary_other {ts : List Token}
    (hnumber : ∀ value, ts.head?.any (·.kind = .number value) = false)
    (hname : ts.head?.any isName = false) (hopen : starts '(' ts = false) :
    reader primary ts = .error (unexpected ts) ts := by
  cases ts with
  | nil => simp only [reader, primary, Reading.answer]
  | cons t us =>
    rw [starts_cons] at hopen
    show (primary (t :: us)).answer = _
    rw [primary.eq_def]
    simp only
    split
    · rename_i value hkind
      simp [hkind] at hnumber
    · rename_i hkind
      simp [isName, hkind] at hname
    · rw [if_neg (by simp [hopen])]
      rfl

end

/-! ## Operators -/

/-- The operator that comes first. -/
def operatorAhead? (ts : List Token) : Option Operator := ts.head?.bind Token.operator?

@[simp] theorem operatorAhead?_nil : operatorAhead? [] = none := rfl

@[simp] theorem operatorAhead?_cons (t : Token) (ts : List Token) :
    operatorAhead? (t :: ts) = t.operator? := rfl

/-- No operator that binds as tightly as `least` comes first. -/
def Stops (least : Nat) (ts : List Token) : Prop :=
  ∀ op, operatorAhead? ts = some op → op.precedence < least

theorem stops_or_operator (least : Nat) (ts : List Token) :
    Stops least ts ∨ ∃ t us op, ts = t :: us ∧ t.operator? = some op ∧ least ≤ op.precedence := by
  cases ts with
  | nil => exact Or.inl fun op hop => by cases hop
  | cons t us =>
    cases hop : t.operator? with
    | none => exact Or.inl fun op hahead => by simp [hop] at hahead
    | some op =>
      by_cases hle : least ≤ op.precedence
      · exact Or.inr ⟨t, us, op, rfl, hop, hle⟩
      · refine Or.inl fun op' hahead => ?_
        rw [operatorAhead?_cons, hop] at hahead
        injection hahead with hahead
        exact hahead ▸ Nat.lt_of_not_le hle

theorem reader_climb_stop {least : Nat} {ts : List Token} (h : Stops least ts) (left : Expr) :
    reader (climb least left) ts = .ok left ts := by
  show (climb least left ts).answer = _
  rw [climb.eq_def]
  split
  · rfl
  · rename_i t us
    split
    · rfl
    · rename_i op hop
      rw [if_pos (h op hop)]
      rfl

theorem reader_climb_operator {least : Nat} {t : Token} {op : Operator} (hop : t.operator? = some op)
    (hle : least ≤ op.precedence) (left : Expr) (us : List Token) :
    reader (climb least left) (t :: us) = (do
      let operand ← reader primary
      let right ← reader (climb (op.precedence + 1) operand)
      reader (climb least (.binary op left right))) us := by
  show (climb least left (t :: us)).answer = _
  rw [climb.eq_def]
  simp only [hop, Nat.not_lt.2 hle, if_false]
  split
  · rename_i heq
    rw [Reader.bind_of_error (reader_of_reject heq)]
    rfl
  · rename_i operand rest _ heq
    rw [Reader.bind_of_ok (reader_of_accept heq)]
    split
    · rename_i heq'
      rw [Reader.bind_of_error (reader_of_reject heq')]
      rfl
    · rename_i right rest' _ heq'
      rw [Reader.bind_of_ok (reader_of_accept heq')]
      split
      · rename_i heq''
        exact (reader_of_reject heq'').symm
      · rename_i heq''
        exact (reader_of_accept heq'').symm

/-! ## The other recognizers -/

theorem reader_expression : reader expression = (do
    let operand ← reader primary
    reader (climb 0 operand)) := by
  funext ts
  show (expression ts).answer = _
  rw [expression]
  split
  · rename_i heq
    rw [Reader.bind_of_error (reader_of_reject heq)]
    rfl
  · rename_i operand rest _ heq
    rw [Reader.bind_of_ok (reader_of_accept heq)]
    split
    · rename_i heq'
      exact (reader_of_reject heq').symm
    · rename_i heq'
      exact (reader_of_accept heq').symm

/-- What may come after an argument: a comma and further arguments, or the parenthesis that closes
them. -/
def argumentsTail (e : Expr) : Reader (List Expr) := fun ts =>
  if starts ',' ts then ((e :: ·) <$> reader arguments) ts.tail
  else (do
    let _ ← one (·.is ')') .argumentsClose
    return [e]) ts

theorem reader_arguments : reader arguments = reader expression >>= argumentsTail := by
  funext ts
  show (arguments ts).answer = _
  rw [arguments]
  split
  · rename_i heq
    rw [Reader.bind_of_error (reader_of_reject heq)]
    rfl
  · rename_i heq
    rw [Reader.bind_of_ok (reader_of_accept heq)]
    rfl
  · rename_i e t us _ heq
    rw [Reader.bind_of_ok (reader_of_accept heq)]
    unfold argumentsTail
    rw [starts_cons]
    split
    · show _ = EStateM.map _ _ us
      unfold EStateM.map
      split
      · rename_i heq'
        rw [reader_of_reject heq']
        rfl
      · rename_i heq'
        rw [reader_of_accept heq']
        rfl
    · split
      · rename_i hclose
        rw [Reader.bind_of_ok (one_of_true hclose _ _)]
        rfl
      · rename_i hclose
        exact (Reader.bind_of_error (one_of_false hclose _ _)).symm

theorem reader_primary_call {t u : Token} {us : List Token} (h : t.kind = .identifier)
    (hopen : u.is '(' = true) (hclose : starts ')' us = false) :
    reader primary (t :: u :: us) = (Expr.call t.text <$> reader arguments) us := by
  show _ = EStateM.map _ _ us
  unfold EStateM.map
  cases us with
  | nil =>
    have hnone : reader arguments [] = .error (unexpected []) [] := by
      rw [reader_arguments, reader_expression]
      refine Reader.bind_of_error (Reader.bind_of_error ?_)
      exact reader_primary_other (fun _ => rfl) rfl rfl
    simp only [hnone]
    simp only [reader, primary, h, hopen, if_true, Reading.answer]
  | cons v vs =>
    rw [starts_cons] at hclose
    show (primary (t :: u :: v :: vs)).answer = _
    rw [primary]
    simp only [h, hopen, if_true, hclose, Bool.false_eq_true, if_false]
    split
    · rename_i heq
      rw [reader_of_accept heq]
      rfl
    · rename_i heq
      rw [reader_of_reject heq]
      rfl

theorem reader_prototype : reader prototype = (do
    let name ← one isName .functionName
    let _ ← one (·.is '(') .parametersOpen
    let params ← names
    let _ ← one (·.is ')') .parametersClose
    return ⟨name, params⟩) := by
  funext ts
  show (prototype ts).answer = _
  unfold prototype
  split
  · rfl
  · rename_i t us
    split
    · rename_i hname
      rw [Reader.bind_of_ok (one_of_true (by simpa [isName] using hname) _ _)]
      split
      · rfl
      · rename_i u vs
        split
        · rename_i hopen
          rw [Reader.bind_of_ok (one_of_true hopen _ _)]
          have hnames : names vs = .ok ((vs.takeWhile isName).map (·.text)) (vs.dropWhile isName) :=
            rfl
          rw [Reader.bind_of_ok hnames]
          split
          · rename_i hrest
            rw [show vs.dropWhile isName = [] from hrest]
            rfl
          · rename_i w rest hrest
            rw [show vs.dropWhile isName = w :: rest from hrest]
            split
            · rename_i hclose
              rw [Reader.bind_of_ok (one_of_true hclose _ _)]
              rfl
            · rename_i hclose
              exact (Reader.bind_of_error (one_of_false hclose _ _)).symm
        · rename_i hopen
          exact (Reader.bind_of_error (one_of_false hopen _ _)).symm
    · rename_i hname
      exact (Reader.bind_of_error (one_of_false (by simpa [isName] using hname) _ _)).symm

/-- Whether the token is the keyword of a definition. -/
def isDefine (t : Token) : Bool := t.kind = .define

/-- Whether the token is the keyword of a declaration. -/
def isDeclare (t : Token) : Bool := t.kind = .declare

theorem reader_definition : reader definition = (do
    let _ ← one isDefine .definitionKeyword
    let proto ← reader prototype
    let body ← reader expression
    return (proto, body)) := by
  funext ts
  show (definition ts).answer = _
  unfold definition
  split
  · rfl
  · rename_i t us
    split
    · rename_i hkind
      rw [Reader.bind_of_ok (one_of_true (by simpa [isDefine] using hkind) _ _)]
      split
      · rename_i heq
        rw [Reader.bind_of_error (reader_of_reject heq)]
        rfl
      · rename_i heq
        rw [Reader.bind_of_ok (reader_of_accept heq)]
        split
        · rename_i heq'
          rw [Reader.bind_of_error (reader_of_reject heq')]
          rfl
        · rename_i heq'
          rw [Reader.bind_of_ok (reader_of_accept heq')]
          rfl
    · rename_i hkind
      exact (Reader.bind_of_error (one_of_false (by simpa [isDefine] using hkind) _ _)).symm

theorem reader_declaration : reader declaration = (do
    let _ ← one isDeclare .declarationKeyword
    reader prototype) := by
  funext ts
  show (declaration ts).answer = _
  unfold declaration
  split
  · rfl
  · rename_i t us
    split
    · rename_i hkind
      rw [Reader.bind_of_ok (one_of_true (by simpa [isDeclare] using hkind) _ _)]
      split
      · rename_i heq
        exact (reader_of_reject heq).symm
      · rename_i heq
        exact (reader_of_accept heq).symm
    · rename_i hkind
      exact (Reader.bind_of_error (one_of_false (by simpa [isDeclare] using hkind) _ _)).symm

theorem answer_map {β : Type} {bound : List Token → Nat} (f : α → β)
    (recognizer : (ts : List Token) → Reading α (bound ts)) (ts : List Token) :
    ((recognizer ts).map f).answer = (f <$> reader recognizer) ts := by
  show _ = EStateM.map f (reader recognizer) ts
  unfold EStateM.map reader
  cases recognizer ts <;> rfl

/-- The construct that the first token announces. -/
theorem reader_construct (ts : List Token) : reader construct ts =
    if ts.head?.any isDefine then
      ((fun d => Construct.definition d.1 d.2) <$> reader definition) ts
    else if ts.head?.any isDeclare then (Construct.declaration <$> reader declaration) ts
    else (Construct.evaluation <$> reader expression) ts := by
  cases ts with
  | nil => exact answer_map Construct.evaluation expression []
  | cons t us =>
    simp only [List.head?_cons, Option.any_some, isDefine, isDeclare, decide_eq_true_eq]
    show (construct (t :: us)).answer = _
    simp only [construct]
    split
    · rename_i hkind
      rw [if_pos hkind]
      exact answer_map (fun d => Construct.definition d.1 d.2) definition (t :: us)
    · rename_i hkind
      rw [if_neg (by simp [hkind]), if_pos hkind]
      exact answer_map Construct.declaration declaration (t :: us)
    · rename_i hdefine hdeclare
      rw [if_neg hdefine, if_neg hdeclare]
      exact answer_map Construct.evaluation expression (t :: us)

end Parser

end Kaleidoscope
