/-
  What the parser reports, and where.

  - `Parser.reports`: the errors that are reported, in order;
  - `Token.error?`: the error that a token carries;
  - `Segment.Fits.failure`: a failed attempt has read only tokens without an error of their own, and
    its report is about the token at which it failed;
  - `reports_lexical`: the errors of the lexer are reported one by one, and no other such;
  - `reports_ascend`: reports are about one token after another.
-/
import Kaleidoscope.Proofs.Parser.Earliest
import Kaleidoscope.Proofs.Token.Places

namespace Kaleidoscope

/-! ## Errors -/

namespace Error

/-- Whether the error is one of the lexer. -/
def isLexical : Error → Bool
  | .lexical .. => true
  | _ => false

/-- The place that an error names. -/
def place? : Error → Option Location
  | .lexical loc _ _ | .syntactic loc _ => some loc
  | _ => none

end Error

namespace Token

/-- The error that the token carries. -/
def error? (t : Token) : Option Error :=
  match t.kind with
  | .malformed cause => cause
  | _ => none

theorem error?_of_live {t : Token} (h : t.kind.Live) : t.error? = none := by
  unfold error?
  split
  · rename_i cause hkind
    exact absurd hkind (h.malformed cause)
  · rfl

theorem error?_of_is {t : Token} {c : Char} (h : t.is c = true) : t.error? = none := by
  rw [error?, of_decide_eq_true h]

/-- The token stands somewhere, and an error that it carries names that place. -/
structure Placed (t : Token) : Prop where
  stands : t.loc ≠ none
  named : ∀ e, t.error? = some e → e.place? = t.loc

/-- What is reported of a token names its place. -/
theorem Placed.place {t : Token} (h : t.Placed) (expected : Expectation) :
    (t.error?.getD (.syntactic (t.loc.getD .nowhere) expected)).place? = t.loc := by
  cases herror : t.error? with
  | some e => exact h.named e herror
  | none =>
    obtain ⟨loc, hloc⟩ := Option.ne_none_iff_exists'.1 h.stands
    rw [hloc]
    rfl

theorem filterMap_error?_of_live {ts : List Token} (h : ∀ t ∈ ts, t.kind.Live) :
    ts.filterMap error? = [] :=
  List.filterMap_eq_nil_iff.2 fun t ht => error?_of_live (h t ht)

end Token

namespace Parser

/-- The error that was reported, if one was. -/
def Event.error? : Event → Option Error
  | .construct _ => none
  | .report e => some e

/-- The errors that the parser reports, in order. -/
def reports (p : Parser) : List Error := p.events.1.filterMap Event.error?

/-! ## Segments -/

namespace Segment

/-- What is reported of a segment. -/
def error? (s : Segment) : Option Error := s.event?.bind Event.error?

/-- The token at which an attempt failed; if there is none, it is the end of input. -/
def culprit (finish : Option Location) (offending : Option Token) : Token :=
  offending.getD (Token.finish finish)

/-- A failed attempt has read only tokens that recognizers look for. What is reported is the error
that the token carries at which it failed, and else what was expected there. -/
theorem Fits.failure {finish : Option Location} {rest read : List Token} {e : Error}
    {offending : Option Token} (h : (Segment.failure e read offending).Fits finish rest) :
    (∀ t ∈ read, t.kind.Live) ∧ ∃ expected, e = (culprit finish offending).error?.getD
      (.syntactic ((culprit finish offending).loc.getD .nowhere) expected) := by
  obtain ⟨-, hend, hfails⟩ := h
  obtain ⟨expected, hread, rfl⟩ := recognize_eq_error.1 hfails
  have hpeek :
      (TokenStream.mk (offending.toList ++ rest) finish).peek = culprit finish offending := by
    cases offending with
    | none => rw [hend rfl]; rfl
    | some t => rfl
  obtain ⟨pre, hpre, more, c, hderives⟩ := construct_completes hread
  refine ⟨fun t ht => hderives.live t (List.mem_append_left _ ?_), expected, ?_⟩
  · rwa [← List.append_cancel_right hpre]
  · rw [errorAt, hpeek, Token.error?]
    cases (culprit finish offending).kind with
    | malformed cause => cases cause <;> rfl
    | _ => rfl

/-- **Of each segment the errors of the lexer are reported that its tokens carry.** -/
theorem Fits.lexical {finish : Option Location} {rest : List Token} {s : Segment}
    (h : s.Fits finish rest) (hown : ∀ t ∈ s.tokens, ∀ e, t.error? = some e → e.isLexical = true) :
    s.error?.toList.filter Error.isLexical = s.tokens.filterMap Token.error? := by
  cases s with
  | separator t =>
    have ht : t.is ';' = true := h
    simp [error?, event?, tokens, Token.error?_of_is ht]
  | construct c tokens =>
    rw [Segment.tokens, Token.filterMap_error?_of_live h.1.live]
    rfl
  | failure e read offending =>
    obtain ⟨hread, expected, he⟩ := h.failure
    rw [tokens, List.filterMap_append, Token.filterMap_error?_of_live hread, List.nil_append]
    show [e].filter Error.isLexical = _
    cases offending with
    | none =>
      rw [he]
      rfl
    | some t =>
      rw [show culprit finish (some t) = t from rfl] at he
      cases ht : t.error? with
      | none =>
        rw [ht] at he
        simp [he, ht, Error.isLexical]
      | some own =>
        have hlexical := hown t (List.mem_append_right _ List.mem_cons_self) own ht
        rw [ht, Option.getD_some] at he
        simp [he, ht, hlexical]

end Segment

namespace Factors
variable {finish : Option Location} {segments : List Segment} {ts : List Token}

theorem lexical (h : Factors finish segments ts)
    (hown : ∀ t ∈ ts, ∀ e, t.error? = some e → e.isLexical = true) :
    (segments.filterMap Segment.error?).filter Error.isLexical = ts.filterMap Token.error? := by
  induction h with
  | nil => rfl
  | @cons s rest segments hs hrest ih =>
    obtain ⟨hfirst, hrest⟩ := List.forall_mem_append.1 hown
    rw [List.filterMap_append, ← hs.lexical hfirst, ← ih hrest, ← List.filter_append]
    congr 1
    rw [List.filterMap_cons]
    cases s.error? <;> rfl

/-- **The places that the reports name are those of some tokens**, in the same order; the end of
input comes last. -/
theorem places (h : Factors finish segments ts) (hts : ∀ t ∈ ts, t.Placed)
    (hfinish : (Token.finish finish).Placed) :
    ((segments.filterMap Segment.error?).map Error.place?).Sublist
      ((ts ++ [Token.finish finish]).map (·.loc)) := by
  induction h with
  | nil => exact List.nil_sublist _
  | @cons s rest segments hs hrest ih =>
    obtain ⟨hfirst, hlater⟩ := List.forall_mem_append.1 hts
    have hrest' := ih hlater
    rw [List.append_assoc, List.map_append]
    cases s with
    | separator t => exact hrest'.trans (List.sublist_append_right _ _)
    | construct c tokens => exact hrest'.trans (List.sublist_append_right _ _)
    | failure e read offending =>
      obtain ⟨-, expected, he⟩ := hs.failure
      show (e.place? :: _).Sublist _
      rw [Segment.tokens, List.map_append, List.append_assoc]
      refine List.Sublist.trans ?_ (List.sublist_append_right _ _)
      cases offending with
      | none =>
        -- nothing can fail after an attempt that has failed at the end of input
        obtain rfl := hs.2.1 rfl
        rw [← hrest.unique .nil, he,
          (show (Segment.culprit finish none).Placed from hfinish).place]
        exact List.Sublist.refl _
      | some t =>
        have ht : t.Placed := hfirst t (List.mem_append_right _ List.mem_cons_self)
        rw [he, (show (Segment.culprit finish (some t)).Placed from ht).place]
        exact hrest'.cons_cons _

end Factors

/-! ## Source texts -/

/-- A token of a text stands where it was read, and an error that it carries is one of the lexer at
that place. -/
theorem own_of_mem_drain (l : Lexer) : ∀ t ∈ l.drain.1,
    t.Placed ∧ ∀ e, t.error? = some e → e.isLexical = true := by
  refine Lexer.forall_mem_drain (fun l => ?_) l
  have hown : ∀ e, l.read.1.error? = some e → ∃ problem text, e = .lexical l.loc problem text := by
    intro e he
    unfold Token.error? at he
    split at he
    · rename_i cause hkind
      obtain ⟨problem, text, rfl⟩ := Lexer.read_malformed hkind
      exact ⟨problem, text, (Option.some.inj he).symm⟩
    · cases he
  refine ⟨⟨?_, fun e he => ?_⟩, fun e he => ?_⟩
  · rw [l.loc_read]
    exact Option.some_ne_none _
  · obtain ⟨problem, text, rfl⟩ := hown e he
    exact l.loc_read.symm
  · obtain ⟨problem, text, rfl⟩ := hown e he
    rfl

theorem reports_eq {p : Parser} {segments : List Segment}
    (h : eventsFrom p.finish p.tokens = (segments.filterMap Segment.event?, [])) :
    p.reports = segments.filterMap Segment.error? := by
  rw [reports, events, h, List.filterMap_filterMap]
  rfl

/-- **Every error of the lexer is reported exactly once.** Of what the parser reports on a source
text, of any bytes, the errors of the lexer are, in order, those that the lexer produces when it
reads the text up to the end of input. -/
theorem reports_lexical (source : ByteArray) :
    (ofBytes source).reports.filter Error.isLexical =
      (Lexer.ofBytes source).drain.1.filterMap Token.error? := by
  have hdrain := (Lexer.ofBytes source).drain_eq
  have hown := own_of_mem_drain (Lexer.ofBytes source)
  obtain ⟨segments, hfactors, hevents⟩ := exists_factors (ofBytes source).finish
    (ofBytes source).tokens (Lexer.ofBytes source).tokens_inside
  rw [hdrain] at hown ⊢
  rw [reports_eq hevents, hfactors.lexical fun t ht => (hown t (List.mem_append_left _ ht)).2,
    List.filterMap_append]
  exact (List.append_nil _).symm

/-- **Reports are about one token after another.** What the parser reports on a source text, of any
bytes, names places that come one after another, line by line and column by column. Each of them is
that of a token of the text, or that of the end of input. -/
theorem reports_ascend (source : ByteArray) :
    ∃ places : List Location, (ofBytes source).reports.map Error.place? = places.map some ∧
      places.Pairwise Location.Before ∧
      ∀ loc ∈ places, ∃ t ∈ (Lexer.ofBytes source).drain.1, t.loc = some loc := by
  have hdrain := (Lexer.ofBytes source).drain_eq
  have hown := own_of_mem_drain (Lexer.ofBytes source)
  have hascends := (Lexer.ofBytes source).drain_ascends
  obtain ⟨segments, hfactors, hevents⟩ := exists_factors (ofBytes source).finish
    (ofBytes source).tokens (Lexer.ofBytes source).tokens_inside
  rw [hdrain] at hown hascends ⊢
  have hplaces := hfactors.places (fun t ht => (hown t (List.mem_append_left _ ht)).1)
    (hown _ (List.mem_append_right _ List.mem_cons_self)).1
  rw [← reports_eq hevents] at hplaces
  -- the reports are about some of the tokens, and these stand one after another
  obtain ⟨culprits, hculprits, hmap⟩ := List.sublist_map_iff.1 hplaces
  have hstand : ∀ t ∈ culprits, t.loc = some (t.loc.getD .nowhere) := fun t ht => by
    obtain ⟨loc, hloc⟩ := Option.ne_none_iff_exists'.1 (hown t (hculprits.subset ht)).1.stands
    rw [hloc, Option.getD_some]
  refine ⟨culprits.map (·.loc.getD .nowhere), ?_, ?_, ?_⟩
  · rw [hmap, List.map_map]
    exact List.map_congr_left hstand
  · refine List.pairwise_map.2 ((hascends.sublist hculprits).imp ?_)
    rintro t u ⟨a, b, hta, hub, hab⟩
    rwa [hta, hub]
  · intro loc hloc
    obtain ⟨t, ht, rfl⟩ := List.mem_map.1 hloc
    exact ⟨t, hculprits.subset ht, hstand t ht⟩

end Parser

end Kaleidoscope
