/-
  What the parser brings about, as a factorisation of its tokens.

  - `prototype_iff`, `construct_iff`: the pieces of a program are read exactly as they are derived;
  - `Segment`: a semicolon, the tokens of a construct, or those of a failed attempt at one with the
    token at which it fails;
  - `Factors`: segments, one after another, make up a list of tokens;
  - `exists_factors`, `Factors.unique`: there is exactly one such factorisation, and the parser's
    events are those of its segments;
  - `Joined`: derivations with semicolons between them.
-/
import Kaleidoscope.Node
import Kaleidoscope.Proofs.Parser.Expression
import Kaleidoscope.Proofs.Parser.Lookahead
import Mathlib.Data.List.TakeWhile

namespace Kaleidoscope

namespace Parser

/-! ## The pieces of a program -/

theorem prototype_iff {ts rest : List Token} {proto : Prototype} :
    reader prototype ts = .ok proto rest ↔
      ∃ pre, ts = pre ++ rest ∧ DerivesPrototype pre proto := by
  rw [reader_prototype]
  constructor
  · intro h
    obtain ⟨name, us, hname, h₁⟩ := Reader.bind_eq_ok.1 h
    obtain ⟨_, vs, hopen, h₂⟩ := Reader.bind_eq_ok.1 h₁
    obtain ⟨params, ws, hparams, h₃⟩ := Reader.bind_eq_ok.1 h₂
    obtain ⟨_, rest', hclose, h₄⟩ := Reader.bind_eq_ok.1 h₃
    obtain ⟨t, rfl, ht, rfl⟩ := one_eq_ok.1 hname
    obtain ⟨u, rfl, hu, -⟩ := one_eq_ok.1 hopen
    obtain ⟨v, rfl, hv, -⟩ := one_eq_ok.1 hclose
    cases h₄
    simp only [names, EStateM.Result.ok.injEq] at hparams
    obtain ⟨rfl, hrest⟩ := hparams
    refine ⟨t :: u :: (vs.takeWhile isName ++ [v]), ?_, .intro (by simpa [isName] using ht) hu ?_ hv⟩
    · rw [List.cons_append, List.cons_append, List.append_assoc, List.singleton_append, ← hrest,
        List.takeWhile_append_dropWhile]
    · intro w hw
      simpa [isName] using List.mem_takeWhile_imp hw
  · rintro ⟨_, rfl, @⟨t, u, v, params, ht, hu, hparams, hv⟩⟩
    have hname : isName t = true := by simpa [isName] using ht
    have hall : ∀ w ∈ params, isName w = true := fun w hw => by simpa [isName] using hparams w hw
    have hend : isName v = false := by
      simp only [Token.is, decide_eq_true_eq] at hv
      simp [isName, hv]
    have hnames : names (params ++ v :: rest) = .ok (params.map (·.text)) (v :: rest) := by
      rw [names, List.takeWhile_append_of_pos hall, List.dropWhile_append_of_pos hall,
        List.takeWhile_cons_of_neg (by simp [hend]), List.dropWhile_cons_of_neg (by simp [hend]),
        List.append_nil]
    rw [List.cons_append, List.cons_append, List.append_assoc, List.singleton_append,
      Reader.bind_of_ok (one_of_true hname _ _), Reader.bind_of_ok (one_of_true hu _ _),
      Reader.bind_of_ok hnames, Reader.bind_of_ok (one_of_true hv _ _)]
    rfl

/-- A construct ends where `rest` starts: if it ends in an expression, nothing extends that. -/
def Ends (pre : List Token) (rest : List Token) : Construct → Prop
  | .definition .. | .evaluation _ => operatorAhead? rest = none ∧ Apart pre rest
  | .declaration _ => True

theorem definition_iff {ts rest : List Token} {proto : Prototype} {body : Expr} :
    reader definition ts = .ok (proto, body) rest ↔
      ∃ pre, ts = pre ++ rest ∧ DerivesConstruct pre (.definition proto body) ∧
        operatorAhead? rest = none ∧ Apart pre rest := by
  rw [reader_definition]
  constructor
  · intro h
    obtain ⟨_, us, hkeyword, h₁⟩ := Reader.bind_eq_ok.1 h
    obtain ⟨proto', vs, hproto, h₂⟩ := Reader.bind_eq_ok.1 h₁
    obtain ⟨body', ws, hbody, h₃⟩ := Reader.bind_eq_ok.1 h₂
    cases h₃
    obtain ⟨t, rfl, ht, -⟩ := one_eq_ok.1 hkeyword
    obtain ⟨pre, rfl, hproto'⟩ := prototype_iff.1 hproto
    obtain ⟨pre', rfl, hbody', hnone, hapart⟩ := expression_iff.1 hbody
    refine ⟨t :: (pre ++ pre'), by simp, .definition (by simpa [isDefine] using ht) hproto' hbody',
      hnone, ?_⟩
    rwa [← List.cons_append, apart_append hbody'.ne_nil]
  · rintro ⟨_, rfl, hderives, hnone, hapart⟩
    cases hderives with
    | @definition t us vs _ _ ht hproto hbody =>
      have hkeyword : isDefine t = true := by simpa [isDefine] using ht
      rw [← List.cons_append, apart_append hbody.ne_nil] at hapart
      rw [List.cons_append, List.append_assoc, Reader.bind_of_ok (one_of_true hkeyword _ _),
        Reader.bind_of_ok (prototype_iff.2 ⟨us, rfl, hproto⟩),
        Reader.bind_of_ok (expression_iff.2 ⟨vs, rfl, hbody, hnone, hapart⟩)]
      rfl

theorem declaration_iff {ts rest : List Token} {proto : Prototype} :
    reader declaration ts = .ok proto rest ↔
      ∃ pre, ts = pre ++ rest ∧ DerivesConstruct pre (.declaration proto) := by
  rw [reader_declaration]
  constructor
  · intro h
    obtain ⟨_, us, hkeyword, hproto⟩ := Reader.bind_eq_ok.1 h
    obtain ⟨t, rfl, ht, -⟩ := one_eq_ok.1 hkeyword
    obtain ⟨pre, rfl, hproto'⟩ := prototype_iff.1 hproto
    exact ⟨t :: pre, rfl, .declaration (by simpa [isDeclare] using ht) hproto'⟩
  · rintro ⟨_, rfl, hderives⟩
    cases hderives with
    | @declaration t us _ ht hproto =>
      have hkeyword : isDeclare t = true := by simpa [isDeclare] using ht
      rw [List.cons_append, Reader.bind_of_ok (one_of_true hkeyword _ _)]
      exact prototype_iff.2 ⟨us, rfl, hproto⟩

/-- **A construct is read exactly as it is derived.** -/
theorem construct_iff {ts rest : List Token} {c : Construct} :
    reader construct ts = .ok c rest ↔
      ∃ pre, ts = pre ++ rest ∧ DerivesConstruct pre c ∧ Ends pre rest c := by
  rw [reader_construct]
  constructor
  · intro h
    split at h
    · obtain ⟨⟨proto, body⟩, hdefinition, rfl⟩ := Reader.map_eq_ok.1 h
      exact definition_iff.1 hdefinition
    · split at h
      · obtain ⟨proto, hdeclaration, rfl⟩ := Reader.map_eq_ok.1 h
        obtain ⟨pre, rfl, hderives⟩ := declaration_iff.1 hdeclaration
        exact ⟨pre, rfl, hderives, trivial⟩
      · obtain ⟨body, hexpression, rfl⟩ := Reader.map_eq_ok.1 h
        obtain ⟨pre, rfl, hderives, hends⟩ := expression_iff.1 hexpression
        exact ⟨pre, rfl, .evaluation hderives, hends⟩
  · rintro ⟨pre, rfl, hderives, hends⟩
    cases hderives with
    | definition ht hproto hbody =>
      rw [if_pos (by simpa [isDefine] using ht)]
      exact Reader.map_eq_ok.2 ⟨_, definition_iff.2 ⟨_, rfl, .definition ht hproto hbody, hends⟩, rfl⟩
    | declaration ht hproto =>
      rw [if_neg (by simp [isDefine, ht]), if_pos (by simpa [isDeclare] using ht)]
      exact Reader.map_eq_ok.2 ⟨_, declaration_iff.2 ⟨_, rfl, .declaration ht hproto⟩, rfl⟩
    | evaluation hbody =>
      have hexpression := expression_iff.2 ⟨pre, rfl, hbody, hends⟩
      obtain ⟨t, us, rfl, ht⟩ := hbody.begins
      have hkind : isDefine t = false ∧ isDeclare t = false := by
        rcases ht with ⟨value, hkind⟩ | hkind | hopen
        · simp [isDefine, isDeclare, hkind]
        · simp [isDefine, isDeclare, hkind]
        · simp only [Token.is, decide_eq_true_eq] at hopen
          simp [isDefine, isDeclare, hopen]
      rw [if_neg (by simp [hkind.1]), if_neg (by simp [hkind.2])]
      exact Reader.map_eq_ok.2 ⟨_, hexpression, rfl⟩

/-! ## Segments -/

/-- A piece of a list of tokens. -/
inductive Segment where
  /-- A semicolon. -/
  | separator (t : Token)
  /-- A construct, and the tokens that it is derived from. -/
  | construct (c : Construct) (tokens : List Token)
  /-- A failed attempt at a construct: the error, the tokens that were read, and the token at which
  the attempt failed, unless that is the end of input. -/
  | failure (e : Error) (read : List Token) (offending : Option Token)

namespace Segment

/-- The tokens of a segment. -/
def tokens : Segment → List Token
  | separator t => [t]
  | construct _ tokens => tokens
  | failure _ read offending => read ++ offending.toList

/-- What a segment brings about. -/
def event? : Segment → Option Event
  | separator _ => none
  | construct c _ => some (.construct c)
  | failure e _ _ => some (.report e)

/-- Whether the segment is a failed attempt. -/
def isFailure : Segment → Bool
  | failure .. => true
  | _ => false

/-- The segment stands in front of `rest`. A construct is derived from its tokens, and nothing
extends it. A failed attempt starts at a token other than a semicolon; the recognizer that this
token announces reads the tokens of the segment up to the last one, and fails there. -/
def Fits (finish : Option Location) (rest : List Token) : Segment → Prop
  | separator t => t.is ';' = true
  | construct c tokens => DerivesConstruct tokens c ∧ Ends tokens rest c
  | failure e read offending =>
    (∃ t us, read ++ offending.toList = t :: us ∧ t.is ';' = false) ∧
      (offending = none → rest = []) ∧
      recognize Parser.construct ⟨read ++ (offending.toList ++ rest), finish⟩ =
        (.error e, ⟨offending.toList ++ rest, finish⟩)

end Segment

/-- The segments, one after another, make up the tokens. -/
inductive Factors (finish : Option Location) : List Segment → List Token → Prop
  | nil : Factors finish [] []
  | cons {s : Segment} {rest : List Token} {segments : List Segment} (hs : s.Fits finish rest)
      (hrest : Factors finish segments rest) : Factors finish (s :: segments) (s.tokens ++ rest)

theorem recognize_eq_error {α : Type} {recognizer : (ts : List Token) → Reading α ts.length}
    {finish : Option Location} {ts rest : List Token} {e : Error} :
    recognize recognizer ⟨ts, finish⟩ = (.error e, ⟨rest, finish⟩) ↔
      ∃ expected, reader recognizer ts = .error expected rest ∧ errorAt finish expected rest = e := by
  unfold recognize reader
  simp only
  cases recognizer ts with
  | accept v rest' _ =>
    constructor
    · rintro ⟨⟩
    · rintro ⟨_, ⟨⟩, -⟩
  | reject expected rest' _ =>
    constructor
    · rintro ⟨⟩
      exact ⟨expected, rfl, rfl⟩
    · rintro ⟨_, ⟨⟩, rfl⟩
      rfl

theorem Factors.flatMap_tokens {finish : Option Location} {segments : List Segment}
    {ts : List Token} (h : Factors finish segments ts) : segments.flatMap Segment.tokens = ts := by
  induction h with
  | nil => rfl
  | cons hs hrest ih => rw [List.flatMap_cons, ih]

/-! ## There is one factorisation -/

theorem head?_toList_append_drop (ts : List Token) : ts.head?.toList ++ ts.drop 1 = ts := by
  cases ts <;> rfl

/-- What the parser brings about is what the segments of its tokens bring about. -/
theorem exists_factors (finish : Option Location) (ts : List Token) (h : ∀ t ∈ ts, t.Inside) :
    ∃ segments, Factors finish segments ts ∧
      eventsFrom finish ts = (segments.filterMap Segment.event?, []) := by
  fun_induction eventsFrom finish ts with
  | case1 => exact ⟨[], .nil, rfl⟩
  | case2 t us hend => exact absurd hend (h t List.mem_cons_self)
  | case3 t us _ hsemicolon ih =>
    obtain ⟨segments, hfactors, hevents⟩ := ih fun u hu => h u (List.mem_cons_of_mem _ hu)
    exact ⟨.separator t :: segments, .cons hsemicolon hfactors, hevents⟩
  | case4 t us _ _ c rest _ haccept events left hrest ih =>
    obtain ⟨pre, hts, hderives, hends⟩ := construct_iff.1 (reader_of_accept haccept)
    rw [hts] at h ⊢
    obtain ⟨segments, hfactors, hevents⟩ := ih fun u hu => h u (List.mem_append_right _ hu)
    rw [hrest] at hevents
    cases hevents
    exact ⟨.construct c pre :: segments, .cons ⟨hderives, hends⟩ hfactors, rfl⟩
  | case5 t us _ hsemicolon expected rest _ hreject events left hrest ih =>
    have hread := reader_of_reject hreject
    obtain ⟨pre, hts, -⟩ := local_construct (t :: us)
    have hleft : (reader construct).left (t :: us) = rest :=
      (Reader.eq_error_iff.1 ⟨expected, hread⟩).2
    rw [hleft] at hts
    have hsplit : t :: us = (pre ++ rest.head?.toList) ++ rest.drop 1 := by
      rw [List.append_assoc, head?_toList_append_drop, hts]
    obtain ⟨segments, hfactors, hevents⟩ := ih fun u hu => h u (by
      rw [hsplit]
      exact List.mem_append_right _ hu)
    rw [hrest] at hevents
    cases hevents
    refine ⟨.failure (errorAt finish expected rest) pre rest.head? :: segments, ?_, rfl⟩
    rw [hsplit]
    refine .cons ⟨?_, ?_, ?_⟩ hfactors
    · cases rest with
      | nil => exact ⟨t, us, by simpa using hts.symm, by simpa using hsemicolon⟩
      | cons u rest =>
        cases pre with
        | nil =>
          cases hts
          exact ⟨t, [], rfl, by simpa using hsemicolon⟩
        | cons v pre =>
          cases hts
          exact ⟨t, pre ++ [u], rfl, by simpa using hsemicolon⟩
    · intro hnone
      rw [List.head?_eq_none_iff.1 hnone, List.drop_nil]
    · rw [head?_toList_append_drop, recognize_eq_error, ← hts]
      exact ⟨expected, hread, rfl⟩

/-- What becomes of an attempt at a construct, and the tokens after it. -/
def attempt (finish : Option Location) (ts : List Token) : Segment × List Token :=
  match reader construct ts with
  | .ok c rest => (.construct c (ts.take (ts.length - rest.length)), rest)
  | .error expected rest =>
    (.failure (errorAt finish expected rest) (ts.take (ts.length - rest.length)) rest.head?,
      rest.drop 1)

/-- The segment that the parser takes first, and the tokens after it. -/
def firstSegment? (finish : Option Location) : List Token → Option (Segment × List Token)
  | [] => none
  | t :: us => some (if t.is ';' then (.separator t, us) else attempt finish (t :: us))

/-- The parser takes whatever segment fits. -/
theorem Segment.Fits.first {finish : Option Location} {s : Segment} {rest : List Token}
    (h : s.Fits finish rest) : firstSegment? finish (s.tokens ++ rest) = some (s, rest) := by
  have htake : ∀ pre rest : List Token,
      (pre ++ rest).take ((pre ++ rest).length - rest.length) = pre := by
    intro pre rest
    rw [List.length_append, Nat.add_sub_cancel, List.take_left]
  cases s with
  | separator t =>
    have ht : t.is ';' = true := h
    rw [tokens, List.singleton_append, firstSegment?, if_pos ht]
  | construct c tokens =>
    obtain ⟨hderives, hends⟩ := h
    have hread := construct_iff.2 ⟨tokens, rfl, hderives, hends⟩
    obtain ⟨t, us, rfl, ht⟩ := hderives.begins
    have hattempt : attempt finish (t :: us ++ rest) = (.construct c (t :: us), rest) := by
      rw [attempt, hread]
      simp only [htake]
    rw [Segment.tokens, List.cons_append, firstSegment?, if_neg (by simp [ht]), ← List.cons_append,
      hattempt]
  | failure e read offending =>
    obtain ⟨⟨t, us, htokens, ht⟩, hend, hfails⟩ := h
    obtain ⟨expected, hread, rfl⟩ := recognize_eq_error.1 hfails
    have hoffending : (offending.toList ++ rest).head? = offending ∧
        (offending.toList ++ rest).drop 1 = rest := by
      cases offending with
      | none => rw [hend rfl]; exact ⟨rfl, rfl⟩
      | some u => exact ⟨rfl, rfl⟩
    have hattempt : attempt finish (read ++ (offending.toList ++ rest)) =
        (.failure (errorAt finish expected (offending.toList ++ rest)) read offending, rest) := by
      rw [attempt, hread]
      simp only [htake, hoffending]
    rw [← List.append_assoc, htokens] at hattempt
    rw [Segment.tokens, htokens, List.cons_append, firstSegment?, if_neg (by simp [ht]),
      ← List.cons_append, hattempt]

/-- **There is only one factorisation.** -/
theorem Factors.unique {finish : Option Location} {segments others : List Segment}
    {ts : List Token} (h : Factors finish segments ts) (h' : Factors finish others ts) :
    others = segments := by
  induction h generalizing others with
  | nil =>
    generalize hts : ([] : List Token) = ts at h'
    cases h' with
    | nil => rfl
    | cons hs hrest =>
      have hfirst := hs.first
      rw [← hts] at hfirst
      cases hfirst
  | @cons s rest segments hs hrest ih =>
    generalize hts : s.tokens ++ rest = ts at h'
    cases h' with
    | nil =>
      have hfirst := hs.first
      rw [hts] at hfirst
      cases hfirst
    | cons hs' hrest' =>
      have hfirst := hs.first
      rw [hts, hs'.first] at hfirst
      cases hfirst
      rw [ih hrest']

/-! ## Derivations with semicolons between them -/

/-- The tokens are derivations of the constructs, with semicolons between them. -/
inductive Joined : List Construct → List Token → Prop
  | nil : Joined [] []
  | last {c : Construct} {ts : List Token} (h : DerivesConstruct ts c) : Joined [c] ts
  | cons {c : Construct} {cs : List Construct} {ts us : List Token} {t : Token}
      (h : DerivesConstruct ts c) (ht : t.is ';' = true) (hrest : Joined cs us) :
      Joined (c :: cs) (ts ++ t :: us)

theorem Joined.no_end {cs : List Construct} {ts : List Token} (h : Joined cs ts) :
    ∀ t ∈ ts, t.Inside := by
  induction h with
  | nil => exact List.forall_mem_nil _
  | last h => exact h.no_end
  | cons h ht _ ih =>
    simp only [List.forall_mem_append, List.forall_mem_cons]
    exact ⟨h.no_end, Token.inside_of_is ht, ih⟩

theorem ends_nil (pre : List Token) (c : Construct) : Ends pre [] c := by
  cases c with
  | declaration proto => trivial
  | _ => exact ⟨rfl, fun _ _ _ => rfl⟩

theorem ends_semicolon {t : Token} (ht : t.is ';' = true) (pre rest : List Token) (c : Construct) :
    Ends pre (t :: rest) c := by
  have hends : operatorAhead? (t :: rest) = none ∧ Apart pre (t :: rest) :=
    ⟨operator?_eq_none ht (by decide), fun _ _ _ => Token.is_eq_false ht (by decide)⟩
  cases c with
  | declaration proto => trivial
  | _ => exact hends

theorem Joined.exists_factors (finish : Option Location) {cs : List Construct} {ts : List Token}
    (h : Joined cs ts) : ∃ segments, Factors finish segments ts ∧
      segments.filterMap Segment.event? = cs.map .construct := by
  induction h with
  | nil => exact ⟨[], .nil, rfl⟩
  | @last c ts h =>
    refine ⟨[.construct c ts], ?_, rfl⟩
    have hfactors : Factors finish [.construct c ts] (ts ++ []) := .cons ⟨h, ends_nil ts c⟩ .nil
    rwa [List.append_nil] at hfactors
  | @cons c cs ts us t h ht _ ih =>
    obtain ⟨segments, hfactors, hevents⟩ := ih
    refine ⟨.construct c ts :: .separator t :: segments, ?_, ?_⟩
    · exact .cons ⟨h, ends_semicolon ht ts us c⟩ (.cons ht hfactors)
    · simp only [List.filterMap_cons, Segment.event?, List.map_cons, hevents]

/-! ## The whole -/

theorem report_mem_events {segments : List Segment} :
    (∀ e, .report e ∉ segments.filterMap Segment.event?) ↔
      ∀ s ∈ segments, s.isFailure = false := by
  simp only [List.mem_filterMap, not_exists, not_and]
  constructor
  · intro h s hs
    cases s with
    | failure e read offending => exact absurd rfl (h e _ hs)
    | _ => rfl
  · intro h e s hs hevent
    cases s with
    | failure e' read offending => cases h _ hs
    | separator t => cases hevent
    | construct c tokens => cases hevent

/-- **The parser takes its tokens apart.** The tokens have exactly one factorisation into segments,
which hold every token once and in order: semicolons, constructs with the tokens that they are
derived from, and failed attempts up to the token at which they fail. The parser reads to the end,
and what it brings about is, in order, one construct for each construct and one report for each
failed attempt. So nothing is reported exactly if no attempt fails; and of derivations with
semicolons between them exactly their constructs are delivered. An expression at top level is
handed over as a function without name and parameters. -/
theorem events_factorise (p : Parser) (h : ∀ t ∈ p.tokens, t.kind ≠ .endOfInput) :
    (∃ segments, Factors p.finish segments p.tokens ∧
      (∀ others, Factors p.finish others p.tokens → others = segments) ∧
      segments.flatMap Segment.tokens = p.tokens ∧
      p.events = (segments.filterMap Segment.event?, { p with tokens := [] }) ∧
      ((∀ e, .report e ∉ p.events.1) ↔ ∀ s ∈ segments, s.isFailure = false)) ∧
    (∀ cs ts, Joined cs ts → (events ⟨ts, p.finish⟩).1 = cs.map .construct) ∧
    ∀ body n, ((Construct.evaluation body).toNode n).1 =
      .function ⟨(body.toTerm n).2 + 1, .proto (body.toTerm n).2 ⟨"", []⟩, (body.toTerm n).1⟩ := by
  obtain ⟨segments, hfactors, hevents⟩ := exists_factors p.finish p.tokens h
  have hall : p.events = (segments.filterMap Segment.event?, { p with tokens := [] }) := by
    rw [events, hevents]
  refine ⟨⟨segments, hfactors, fun _ => hfactors.unique, hfactors.flatMap_tokens, hall, ?_⟩,
    fun cs ts hjoined => ?_, fun _ _ => rfl⟩
  · rw [hall]
    exact report_mem_events
  · obtain ⟨segments', hfactors', hevents'⟩ := exists_factors p.finish ts hjoined.no_end
    obtain ⟨others, hothers, hcs⟩ := hjoined.exists_factors p.finish
    rw [events, hevents', ← hcs, hothers.unique hfactors']

/-- A text with two attempts that fail, one at a semicolon and one at the end. -/
def unfinished : Parser := ofBytes "x; 1 + ; g(".toUTF8

theorem events_unfinished :
    (∀ t ∈ unfinished.tokens, t.kind ≠ .endOfInput) ∧
      ∃ segments, Factors unfinished.finish segments unfinished.tokens ∧
        segments.flatMap Segment.tokens = unfinished.tokens ∧
        segments.filterMap Segment.event? = [.construct (.evaluation (.identifier "x")),
          .report (.syntactic ⟨1, 8⟩ (.expression "';'")),
          .report (.syntactic ⟨1, 12⟩ (.expression "EOF"))] := by
  have h : ∀ t ∈ unfinished.tokens, t.kind ≠ .endOfInput := by decide +kernel
  have hevents : unfinished.events.1 = [.construct (.evaluation (.identifier "x")),
      .report (.syntactic ⟨1, 8⟩ (.expression "';'")),
      .report (.syntactic ⟨1, 12⟩ (.expression "EOF"))] := by decide +kernel
  obtain ⟨⟨segments, hfactors, -, htokens, hall, -⟩, -, -⟩ := events_factorise unfinished h
  refine ⟨h, segments, hfactors, htokens, ?_⟩
  rw [← hevents, hall]

end Parser

end Kaleidoscope
