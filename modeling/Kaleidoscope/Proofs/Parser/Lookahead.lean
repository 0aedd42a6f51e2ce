/-
  A recognizer sees the tokens that it reads, and the one after them.

  - `Token.seen`: what a recognizer sees of a token. A semicolon looks like the end of input, for no
    recognizer goes on at either;
  - `sight`: what it sees of the first token of a list;
  - `Reader.Local`: on tokens that look the same as far as it reads, and one token beyond, a reader
    ends in the same way and in the same place. Readers that are put together from such readers are
    such readers;
  - `local_expression`, `local_construct`: so are all recognizers.
-/
import Kaleidoscope.Proofs.Parser.Derivation
import Kaleidoscope.Proofs.Parser.Reader
import Kaleidoscope.Proofs.Token.Join

namespace Kaleidoscope

/-! ## What is seen of a token -/

namespace Token

/-- Whether no recognizer goes on at the token: the end of input, or a semicolon. -/
def isIdle (t : Token) : Bool := t.kind = .endOfInput || t.is ';'

/-- What a recognizer sees of a token. -/
def seen (t : Token) : Token := if t.isIdle then Token.finish none else t.bare

theorem kind_seen {k : Kind} (h : k.Live) (t : Token) : t.seen.kind = k ↔ t.kind = k := by
  unfold seen
  split
  · rename_i hidle
    simp only [isIdle, is, Bool.or_eq_true, decide_eq_true_eq] at hidle
    refine ⟨fun heq => absurd heq.symm h.endOfInput, fun heq => ?_⟩
    rcases hidle with hend | hsemicolon
    · exact absurd (heq.symm.trans hend) h.endOfInput
    · exact absurd (heq.symm.trans hsemicolon) h.semicolon
  · exact Kind.bare_eq_iff h.malformed

/-- Tokens that look the same are of the same kind, as far as a recognizer asks. -/
theorem kind_of_seen {t u : Token} (h : t.seen = u.seen) {k : Kind} (hk : k.Live) :
    t.kind = k ↔ u.kind = k := by
  rw [← kind_seen hk t, h, kind_seen hk u]

theorem text_seen {t : Token} (h : t.kind.Live) : t.seen.text = t.text := by
  have hidle : ¬t.isIdle = true := by
    simp only [isIdle, is, Bool.or_eq_true, decide_eq_true_eq]
    exact fun hidle => hidle.elim h.endOfInput h.semicolon
  rw [seen, if_neg hidle]
  rfl

theorem text_of_seen {t u : Token} (h : t.seen = u.seen) (hk : t.kind.Live) : t.text = u.text := by
  have hk' : u.kind = t.kind := (kind_of_seen h hk).1 rfl
  rw [← text_seen hk, h, text_seen (hk' ▸ hk)]

theorem is_of_seen {t u : Token} (h : t.seen = u.seen) {c : Char} (hc : c ≠ ';') :
    t.is c = u.is c := by
  rw [Bool.eq_iff_iff, is, is, decide_eq_true_eq, decide_eq_true_eq]
  exact kind_of_seen h (Kind.live_symbol hc)

theorem operator?_of_seen {t u : Token} (h : t.seen = u.seen) {op : Operator} :
    t.operator? = some op ↔ u.operator? = some op := by
  rw [operator?_eq_some, operator?_eq_some, is_of_seen h op.symbol_ne_semicolon]

theorem seen_of_bare {t u : Token} (h : t.bare = u.bare) : t.seen = u.seen := by
  have hidle : t.isIdle = u.isIdle := by
    rw [Bool.eq_iff_iff]
    simp only [isIdle, is, Bool.or_eq_true, decide_eq_true_eq]
    rw [kind_of_bare h (k := .endOfInput) (by simp), kind_of_bare h (k := .symbol ';') (by simp)]
  rw [seen, seen, hidle, h]

theorem map_seen_of_bare {ts us : List Token} (h : ts.map bare = us.map bare) :
    ts.map seen = us.map seen := by
  have hseen : seen = seen ∘ bare := funext fun t => (seen_of_bare t.bare_bare).symm
  rw [hseen, ← List.map_map, h, List.map_map]

theorem seen_semicolon {t : Token} (h : t.is ';' = true) : t.seen = Token.finish none := by
  simp [seen, isIdle, h]

end Token

/-- What is seen of the first token of a list. -/
def sight : List Token → Token
  | [] => Token.finish none
  | t :: _ => t.seen

section
variable {ts us pre pre' rest rest' : List Token}

theorem sight_append (hpre : pre'.map Token.seen = pre.map Token.seen)
    (hrest : sight rest' = sight rest) : sight (pre' ++ rest') = sight (pre ++ rest) := by
  cases pre with
  | nil => rw [List.map_eq_nil_iff.1 hpre]; exact hrest
  | cons t pre =>
    obtain ⟨t', tail, rfl, ht, -⟩ := List.map_eq_cons_iff.1 hpre
    exact ht

end

namespace Reader
variable {α β : Type}

/-- The value that a reader gives. -/
def value? (x : Reader α) (ts : List Token) : Option α :=
  match x ts with
  | .ok a _ => some a
  | .error _ _ => none

/-- The tokens that a reader leaves. -/
def left (x : Reader α) (ts : List Token) : List Token :=
  match x ts with
  | .ok _ rest => rest
  | .error _ rest => rest

/-- The reader ends in the same way, and in the same place, on all tokens that look like `ts` as far
as it reads and one token beyond. -/
def Local (x : Reader α) (ts : List Token) : Prop :=
  ∃ pre, ts = pre ++ x.left ts ∧ ∀ pre' rest', pre'.map Token.seen = pre.map Token.seen →
    sight rest' = sight (x.left ts) →
      x.value? (pre' ++ rest') = x.value? ts ∧ x.left (pre' ++ rest') = rest'

theorem local_pure (a : α) (ts : List Token) : (pure a : Reader α).Local ts := by
  refine ⟨[], rfl, fun pre' rest' hpre _ => ?_⟩
  rw [List.map_eq_nil_iff.1 hpre]
  exact ⟨rfl, rfl⟩

/-- A reader is as local as what it comes to after some tokens that it reads. -/
theorem Local.after {x y : Reader α} {us : List Token} (hy : y.Local us) (pre : List Token)
    (h : ∀ pre' us', pre'.map Token.seen = pre.map Token.seen → sight us' = sight us →
      x (pre' ++ us') = y us') : x.Local (pre ++ us) := by
  have hvalue : ∀ pre' us', pre'.map Token.seen = pre.map Token.seen → sight us' = sight us →
      x.value? (pre' ++ us') = y.value? us' ∧ x.left (pre' ++ us') = y.left us' := by
    intro pre' us' hpre hsight
    rw [value?, left, h pre' us' hpre hsight]
    exact ⟨rfl, rfl⟩
  obtain ⟨hx, hleft⟩ := hvalue pre us rfl rfl
  obtain ⟨mid, hus, hlocal⟩ := hy
  refine ⟨pre ++ mid, ?_, fun pre' rest' hpre hrest => ?_⟩
  · rw [hleft, List.append_assoc, ← hus]
  · rw [List.map_append] at hpre
    obtain ⟨pre₁, mid', rfl, hpre₁, hmid⟩ := List.map_eq_append_iff.1 hpre
    rw [hleft] at hrest
    have hsight : sight (mid' ++ rest') = sight us := by
      rw [hus]
      exact sight_append hmid hrest
    obtain ⟨hx', hleft'⟩ := hvalue pre₁ (mid' ++ rest') hpre₁ hsight
    rw [List.append_assoc, hx', hleft', hx]
    exact hlocal mid' rest' hmid hrest

theorem Local.congr {x y : Reader α} {us : List Token} (hy : y.Local us)
    (h : ∀ us', sight us' = sight us → x us' = y us') : x.Local us := by
  refine hy.after [] fun pre' us' hpre hsight => ?_
  rw [List.map_eq_nil_iff.1 hpre]
  exact h us' hsight

theorem Local.cons {x y : Reader α} {us : List Token} (hy : y.Local us) (t : Token)
    (h : ∀ t' us', t'.seen = t.seen → sight us' = sight us → x (t' :: us') = y us') :
    x.Local (t :: us) := by
  refine hy.after [t] fun pre' us' hpre hsight => ?_
  obtain ⟨t', rfl, ht'⟩ := List.map_eq_singleton_iff.1 hpre
  exact h t' us' ht' hsight

theorem eq_ok_iff {x : Reader α} {ts rest : List Token} {a : α} :
    x ts = .ok a rest ↔ x.value? ts = some a ∧ x.left ts = rest := by
  unfold value? left
  cases x ts with
  | ok a' rest' => simp
  | error e rest' => simp

theorem eq_error_iff {x : Reader α} {ts rest : List Token} :
    (∃ e, x ts = .error e rest) ↔ x.value? ts = none ∧ x.left ts = rest := by
  unfold value? left
  cases x ts with
  | ok a rest' => simp
  | error e rest' => simp

/-- A reader that fails at the first token is local. -/
theorem local_of_error {x : Reader α} {ts : List Token}
    (h : ∀ us, sight us = sight ts → ∃ e, x us = .error e us) : x.Local ts := by
  obtain ⟨hvalue, hleft⟩ := eq_error_iff.1 (h ts rfl)
  rw [Local, hvalue, hleft]
  refine ⟨[], rfl, fun pre' rest' hpre hsight => ?_⟩
  rw [List.map_eq_nil_iff.1 hpre]
  exact eq_error_iff.1 (h rest' hsight)

theorem Local.bind {x : Reader α} {f : α → Reader β} {ts : List Token} (hx : x.Local ts)
    (hf : ∀ a rest, x ts = .ok a rest → (f a).Local rest) : (x >>= f).Local ts := by
  obtain ⟨pre, hts, hlocal⟩ := hx
  cases hx : x ts with
  | ok a rest =>
    obtain ⟨hvalue, hleft⟩ := eq_ok_iff.1 hx
    rw [hleft] at hts hlocal
    rw [hts]
    refine (hf a rest hx).after pre fun pre' us' hpre hsight => bind_of_ok ?_
    rw [eq_ok_iff, ← hvalue]
    exact hlocal pre' us' hpre hsight
  | error e rest =>
    obtain ⟨hvalue, hleft⟩ := eq_error_iff.1 ⟨e, hx⟩
    rw [hleft] at hts hlocal
    obtain ⟨hvalue', hleft'⟩ := eq_error_iff.1 ⟨e, bind_of_error (f := f) hx⟩
    rw [Local, hvalue', hleft']
    refine ⟨pre, hts, fun pre' rest' hpre hsight => ?_⟩
    obtain ⟨e', hx'⟩ := eq_error_iff.2 (hvalue ▸ hlocal pre' rest' hpre hsight)
    exact eq_error_iff.1 ⟨e', bind_of_error hx'⟩

theorem Local.map {x : Reader α} {ts : List Token} (hx : x.Local ts) (f : α → β) :
    (f <$> x).Local ts := by
  rw [← bind_pure_comp]
  exact hx.bind fun a rest _ => local_pure (f a) rest

end Reader

namespace Parser

/-! ## What is asked of the first token -/

section
variable {ts us : List Token} (h : sight ts = sight us)
include h

theorem head_of_sight {k : Token.Kind} (hk : k.Live) :
    ts.head?.any (·.kind = k) = us.head?.any (·.kind = k) := by
  have hsight : ∀ ts : List Token, ts.head?.any (·.kind = k) = decide ((sight ts).kind = k) := by
    intro ts
    cases ts with
    | nil => exact (decide_eq_false fun heq => hk.endOfInput heq.symm).symm
    | cons t us => exact decide_eq_decide.2 (Token.kind_seen hk t).symm
  rw [hsight, hsight, h]

theorem starts_of_sight {c : Char} (hc : c ≠ ';') : starts c ts = starts c us :=
  head_of_sight h (Token.Kind.live_symbol hc)

theorem name_of_sight : ts.head?.any isName = us.head?.any isName :=
  head_of_sight h Token.Kind.live_identifier

theorem operatorAhead?_of_sight : operatorAhead? ts = operatorAhead? us := by
  refine Option.ext fun op => ?_
  have hsymbol : ∀ {ts : List Token}, operatorAhead? ts = some op ↔ starts op.symbol ts = true := by
    intro ts
    cases ts with
    | nil => simp
    | cons t us => exact Token.operator?_eq_some
  rw [hsymbol, hsymbol, starts_of_sight h op.symbol_ne_semicolon]

end

theorem local_one {k : Token.Kind} (hk : k.Live) (expected : Expectation) (ts : List Token) :
    (one (·.kind = k) expected).Local ts := by
  by_cases hhead : ts.head?.any (·.kind = k) = true
  · cases ts with
    | nil => cases hhead
    | cons t us =>
      refine (Reader.local_pure t.text us).cons t fun t' us' ht' _ => ?_
      have hkind : t.kind = k := by simpa using hhead
      have hkind' : t'.kind = k := (Token.kind_of_seen ht' hk).2 hkind
      have htext : t'.text = t.text := Token.text_of_seen ht' (hkind' ▸ hk)
      rw [one_of_true (by simpa using hkind'), htext]
      rfl
  · refine Reader.local_of_error fun us hsight => ⟨expected, ?_⟩
    rw [← head_of_sight hsight hk] at hhead
    cases us with
    | nil => rfl
    | cons u us => exact one_of_false (by simpa using hhead) _ _

theorem local_symbol (c : Char) (hc : c ≠ ';') (expected : Expectation) (ts : List Token) :
    (one (·.is c) expected).Local ts := local_one (Token.Kind.live_symbol hc) expected ts

theorem names_cons {t : Token} (h : isName t = true) (us : List Token) :
    names (t :: us) = ((t.text :: ·) <$> names) us := by
  rw [names, List.takeWhile_cons_of_pos h, List.dropWhile_cons_of_pos h]
  rfl

theorem names_stop {us : List Token} (h : ¬us.head?.any isName = true) : names us = .ok [] us := by
  cases us with
  | nil => rfl
  | cons u us =>
    have hu : ¬isName u = true := h
    rw [names, List.takeWhile_cons_of_neg hu, List.dropWhile_cons_of_neg hu]
    rfl

theorem name_of_seen {t t' : Token} (h : t'.seen = t.seen) (hkind : t.kind = .identifier) :
    t'.kind = .identifier ∧ t'.text = t.text := by
  have hlive := Token.Kind.live_identifier
  have hkind' := (Token.kind_of_seen h hlive).2 hkind
  exact ⟨hkind', Token.text_of_seen h (hkind' ▸ hlive)⟩

theorem local_names (ts : List Token) : names.Local ts := by
  by_cases hname : ts.head?.any isName = true
  · cases ts with
    | nil => cases hname
    | cons t us =>
      refine ((local_names us).map (t.text :: ·)).cons t fun t' us' ht' _ => ?_
      obtain ⟨hkind, htext⟩ := name_of_seen ht' (by simpa [isName] using hname)
      rw [names_cons (by simpa [isName] using hkind), htext]
  · refine (Reader.local_pure [] ts).congr fun us hsight => names_stop ?_
    rwa [name_of_sight hsight]

/-! ## Recognizers -/

mutual

theorem local_primary (ts : List Token) : (reader primary).Local ts := by
  cases primaryStart ts with
  | @number t us value hkind =>
    refine (Reader.local_pure (.number value) us).cons t fun t' us' ht' _ => ?_
    exact reader_primary_number ((Token.kind_of_seen ht' (Token.Kind.live_number value)).2 hkind)
  | @name t us hkind hopen =>
    refine (Reader.local_pure (.identifier t.text) us).cons t fun t' us' ht' hsight => ?_
    obtain ⟨hkind', htext⟩ := name_of_seen ht' hkind
    rw [← starts_of_sight hsight (by decide)] at hopen
    rw [← htext]
    exact reader_primary_name hkind' hopen
  | @emptyCall t u v us hkind hopen hclose =>
    refine (Reader.local_pure (.call t.text []) us).after [t, u, v] fun pre' us' hpre _ => ?_
    obtain ⟨t', tail, rfl, ht', htail⟩ := List.map_eq_cons_iff.1 hpre
    obtain ⟨u', tail', rfl, hu', htail'⟩ := List.map_eq_cons_iff.1 htail
    obtain ⟨v', rfl, hv'⟩ := List.map_eq_singleton_iff.1 htail'
    obtain ⟨hkind', htext⟩ := name_of_seen ht' hkind
    rw [← Token.is_of_seen hu' (by decide)] at hopen
    rw [← Token.is_of_seen hv' (by decide)] at hclose
    rw [← htext]
    exact reader_primary_emptyCall hkind' hopen hclose
  | @call t u us hkind hopen hclose =>
    have hargs := (local_arguments us).map (Expr.call t.text)
    refine hargs.after [t, u] fun pre' us' hpre hsight => ?_
    obtain ⟨t', tail, rfl, ht', htail⟩ := List.map_eq_cons_iff.1 hpre
    obtain ⟨u', rfl, hu'⟩ := List.map_eq_singleton_iff.1 htail
    obtain ⟨hkind', htext⟩ := name_of_seen ht' hkind
    rw [← Token.is_of_seen hu' (by decide)] at hopen
    rw [← starts_of_sight hsight (by decide)] at hclose
    rw [← htext]
    exact reader_primary_call hkind' hopen hclose
  | @group t us hopen =>
    have hinside := (local_expression us).bind fun e rest _ =>
      (local_symbol ')' (by decide) .groupClose rest).bind fun _ rest' _ =>
        Reader.local_pure e rest'
    refine hinside.cons t fun t' us' ht' _ => ?_
    rw [← Token.is_of_seen ht' (by decide)] at hopen
    exact reader_primary_group hopen
  | other hnumber hname hopen =>
    refine Reader.local_of_error fun us hsight => ⟨unexpected us, reader_primary_other ?_ ?_ ?_⟩
    · intro value
      rw [head_of_sight hsight (Token.Kind.live_number value)]
      exact hnumber value
    · rwa [name_of_sight hsight]
    · rwa [starts_of_sight hsight (by decide)]
termination_by 4 * ts.length

theorem local_climb (least : Nat) (left : Expr) (ts : List Token) :
    (reader (climb least left)).Local ts := by
  rcases stops_or_operator least ts with hstops | ⟨t, us, op, hts, hop, hle⟩
  · refine (Reader.local_pure left ts).congr fun us hsight => reader_climb_stop ?_ left
    intro op hop
    rw [operatorAhead?_of_sight hsight] at hop
    exact hstops op hop
  · have hfirst : ts.length = us.length + 1 := by rw [hts, List.length_cons]
    have hrest := (local_primary us).bind fun operand rest hoperand =>
      have hlength := length_lt_of_reader hoperand
      (local_climb (op.precedence + 1) operand rest).bind fun right rest' hright =>
        have hlength' := length_lt_of_reader hright
        local_climb least (.binary op left right) rest'
    rw [hts]
    refine hrest.cons t fun t' us' ht' _ => ?_
    exact reader_climb_operator ((Token.operator?_of_seen ht').2 hop) hle left us'
termination_by 4 * ts.length + 3

theorem local_expression (ts : List Token) : (reader expression).Local ts := by
  rw [reader_expression]
  refine (local_primary ts).bind fun operand rest hoperand => ?_
  have hlength := length_lt_of_reader hoperand
  exact local_climb 0 operand rest
termination_by 4 * ts.length + 1

theorem local_arguments (ts : List Token) : (reader arguments).Local ts := by
  rw [reader_arguments]
  refine (local_expression ts).bind fun e rest he => ?_
  have hlength := length_lt_of_reader he
  by_cases hcomma : starts ',' rest = true
  · cases rest with
    | nil => cases hcomma
    | cons t us =>
      have hshorter : us.length < ts.length := Nat.lt_of_succ_lt hlength
      refine ((local_arguments us).map (e :: ·)).cons t fun t' us' ht' _ => ?_
      rw [starts_cons, ← Token.is_of_seen ht' (by decide)] at hcomma
      exact if_pos hcomma
  · have hclose := (local_symbol ')' (by decide) .argumentsClose rest).bind fun _ rest' _ =>
      Reader.local_pure [e] rest'
    refine hclose.congr fun us' hsight => ?_
    rw [← starts_of_sight hsight (by decide)] at hcomma
    exact if_neg hcomma
termination_by 4 * ts.length + 2

end

theorem local_prototype (ts : List Token) : (reader prototype).Local ts := by
  rw [reader_prototype]
  refine (local_one Token.Kind.live_identifier _ ts).bind fun name ts _ => ?_
  refine (local_symbol '(' (by decide) _ ts).bind fun _ ts _ => ?_
  refine (local_names ts).bind fun params ts _ => ?_
  refine (local_symbol ')' (by decide) _ ts).bind fun _ ts _ => ?_
  exact Reader.local_pure _ ts

theorem local_definition (ts : List Token) : (reader definition).Local ts := by
  rw [reader_definition]
  refine (local_one Token.Kind.live_define _ ts).bind fun _ ts _ => ?_
  refine (local_prototype ts).bind fun proto ts _ => ?_
  refine (local_expression ts).bind fun body ts _ => ?_
  exact Reader.local_pure _ ts

theorem local_declaration (ts : List Token) : (reader declaration).Local ts := by
  rw [reader_declaration]
  exact (local_one Token.Kind.live_declare _ ts).bind fun _ ts _ => local_prototype ts

/-- **The recognizer of constructs sees the tokens that it reads, and the one after them.** -/
theorem local_construct (ts : List Token) : (reader construct).Local ts := by
  have hdefine : ∀ us, sight us = sight ts → us.head?.any isDefine = ts.head?.any isDefine :=
    fun us h => head_of_sight h Token.Kind.live_define
  have hdeclare : ∀ us, sight us = sight ts → us.head?.any isDeclare = ts.head?.any isDeclare :=
    fun us h => head_of_sight h Token.Kind.live_declare
  by_cases hd : ts.head?.any isDefine = true
  · have hdefinition := (local_definition ts).map fun d => Construct.definition d.1 d.2
    refine hdefinition.congr fun us hsight => ?_
    rw [reader_construct, if_pos ((hdefine us hsight).trans hd)]
  · by_cases hd' : ts.head?.any isDeclare = true
    · refine ((local_declaration ts).map .declaration).congr fun us hsight => ?_
      rw [reader_construct, hdefine us hsight, if_neg hd, if_pos ((hdeclare us hsight).trans hd')]
    · refine ((local_expression ts).map .evaluation).congr fun us hsight => ?_
      rw [reader_construct, hdefine us hsight, if_neg hd, hdeclare us hsight, if_neg hd']

end Parser

end Kaleidoscope
