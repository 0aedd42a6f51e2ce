/-
  A semicolon parts what stands before it from what stands after it.

  - `Event.construct?`: the construct that was read, if one was;
  - `outcomes`: what comes of the attempts at constructs, up to the end of input;
  - `outcomes_cons`: the first attempt, and where the next one starts;
  - `outcomes_barrier`: at a semicolon every attempt ends as it does at the end of input, and reading
    goes on behind it;
  - `outcomes_ofBytes_barrier`: so it is for source texts with a semicolon on a line of its own
    between them.
-/
import Kaleidoscope.Proofs.Parser.Lookahead

namespace Kaleidoscope.Parser

/-- The construct that was read, if one was. -/
def Event.construct? : Event → Option Construct
  | .construct c => some c
  | .report _ => none

/-- What comes of the attempts at constructs, up to the end of input. -/
def outcomes (p : Parser) : List (Option Construct) := p.events.1.map Event.construct?

section
variable {t : Token} {finish : Option Location}

theorem outcomes_nil : outcomes ⟨[], finish⟩ = [] := by
  simp only [outcomes, events]
  rw [eventsFrom, List.map_nil]

theorem outcomes_semicolon (ht : t.is ';' = true) (us : List Token) :
    outcomes ⟨t :: us, finish⟩ = outcomes ⟨us, finish⟩ := by
  have hend : t.kind ≠ .endOfInput := by
    rw [of_decide_eq_true ht]
    simp
  simp only [outcomes, events]
  rw [eventsFrom, if_neg hend, if_pos ht]

/-- The tokens at which the next attempt starts. One that fails skips the token at which it
fails. -/
def resume (ts : List Token) : List Token :=
  if ((reader construct).value? ts).isSome then (reader construct).left ts
  else ((reader construct).left ts).drop 1

/-- The first attempt, and those after it. -/
theorem outcomes_cons (hend : t.kind ≠ .endOfInput) (ht : ¬t.is ';' = true) (us : List Token) :
    outcomes ⟨t :: us, finish⟩ =
      (reader construct).value? (t :: us) :: outcomes ⟨resume (t :: us), finish⟩ := by
  simp only [outcomes, events]
  rw [eventsFrom, if_neg hend, if_neg ht]
  split
  · rename_i c rest _ haccept
    obtain ⟨hvalue, hleft⟩ := Reader.eq_ok_iff.1 (reader_of_accept haccept)
    rw [resume, hvalue, hleft]
    rfl
  · rename_i expected rest _ hreject
    obtain ⟨hvalue, hleft⟩ := Reader.eq_error_iff.1 ⟨expected, reader_of_reject hreject⟩
    rw [resume, hvalue, hleft]
    rfl

end

/-- An attempt ends in front of a semicolon as it does at the end of input. -/
theorem construct_barrier {ts ts' : List Token} (h : ts'.map Token.bare = ts.map Token.bare)
    {b : Token} (hb : b.is ';' = true) (us : List Token) :
    (reader construct).value? (ts' ++ b :: us) = (reader construct).value? ts ∧
      ∃ rest, rest.map Token.bare = ((reader construct).left ts).map Token.bare ∧
        (reader construct).left (ts' ++ b :: us) = rest ++ b :: us := by
  obtain ⟨pre, hts, hlocal⟩ := local_construct ts
  generalize (reader construct).left ts = left at hts hlocal ⊢
  rw [hts, List.map_append] at h
  obtain ⟨pre', rest, rfl, hpre, hrest⟩ := List.map_eq_append_iff.1 h
  have hsight : sight (rest ++ b :: us) = sight left := by
    cases left with
    | nil =>
      rw [List.map_eq_nil_iff.1 hrest]
      exact Token.seen_semicolon hb
    | cons t left =>
      obtain ⟨t', rest, rfl, ht, -⟩ := List.map_eq_cons_iff.1 hrest
      exact Token.seen_of_bare ht
  obtain ⟨hvalue, hleft⟩ := hlocal pre' (rest ++ b :: us) (Token.map_seen_of_bare hpre) hsight
  rw [List.append_assoc]
  exact ⟨hvalue, rest, hrest, hleft⟩

/-- Where the next attempt starts, in front of a semicolon and at the end of input. The token that
is skipped may be the semicolon. -/
theorem resume_barrier {ts ts' : List Token} (h : ts'.map Token.bare = ts.map Token.bare)
    {b : Token} (hb : b.is ';' = true) (us : List Token) :
    (∃ rest, resume (ts' ++ b :: us) = rest ++ b :: us ∧
        rest.map Token.bare = (resume ts).map Token.bare) ∨
      resume (ts' ++ b :: us) = us ∧ resume ts = [] := by
  obtain ⟨hvalue, rest, hrest, hleft⟩ := construct_barrier h hb us
  unfold resume
  rw [hvalue, hleft]
  split
  · exact .inl ⟨rest, rfl, hrest⟩
  · cases hl : (reader construct).left ts with
    | nil =>
      rw [hl] at hrest
      rw [List.map_eq_nil_iff.1 hrest]
      exact .inr ⟨rfl, rfl⟩
    | cons t left =>
      rw [hl] at hrest
      obtain ⟨t', rest, rfl, -, htail⟩ := List.map_eq_cons_iff.1 hrest
      exact .inl ⟨rest, rfl, htail⟩

theorem left_subset (ts : List Token) : (reader construct).left ts ⊆ ts := by
  obtain ⟨pre, hts, -⟩ := local_construct ts
  intro t ht
  rw [hts]
  exact List.mem_append_right _ ht

theorem resume_subset (ts : List Token) : resume ts ⊆ ts := by
  unfold resume
  split
  · exact left_subset ts
  · exact List.Subset.trans (List.drop_subset 1 _) (left_subset ts)

theorem length_resume_lt {ts : List Token} (h : ts ≠ []) : (resume ts).length < ts.length := by
  obtain ⟨pre, hts, -⟩ := local_construct ts
  have hlength := congrArg List.length hts
  have hpos := List.length_pos_iff.2 h
  unfold resume
  cases hvalue : (reader construct).value? ts with
  | some c => exact length_lt_of_reader (Reader.eq_ok_iff.2 ⟨hvalue, rfl⟩)
  | none =>
    simp only [Option.isSome_none, Bool.false_eq_true, if_false, List.length_drop]
    rw [List.length_append] at hlength
    omega

/-- **At a semicolon every attempt ends as at the end of input**, and reading goes on behind it. -/
theorem outcomes_barrier {ts ts' : List Token} (h : ts'.map Token.bare = ts.map Token.bare)
    (hts : ∀ t ∈ ts, t.kind ≠ .endOfInput) {b : Token} (hb : b.is ';' = true) (us : List Token)
    (finish finish' : Option Location) :
    outcomes ⟨ts' ++ b :: us, finish'⟩ = outcomes ⟨ts, finish⟩ ++ outcomes ⟨us, finish'⟩ := by
  cases ts with
  | nil =>
    rw [List.map_eq_nil_iff.1 h, List.nil_append, outcomes_semicolon hb, outcomes_nil,
      List.nil_append]
  | cons t ts =>
    obtain ⟨t', tail, rfl, ht, htail⟩ := List.map_eq_cons_iff.1 h
    have hend := hts t List.mem_cons_self
    have hend' : t'.kind ≠ .endOfInput :=
      mt (Token.kind_of_bare ht (k := .endOfInput) (by simp)).1 hend
    have hsame := Token.is_of_bare ht ';'
    by_cases hsemicolon : t.is ';' = true
    · rw [List.cons_append, outcomes_semicolon hsemicolon,
        outcomes_semicolon (hsame.trans hsemicolon)]
      exact outcomes_barrier htail (fun u hu => hts u (List.mem_cons_of_mem _ hu)) hb us _ _
    · have hlt := length_resume_lt (List.cons_ne_nil t ts)
      have hinside : ∀ u ∈ resume (t :: ts), u.kind ≠ .endOfInput := fun u hu =>
        hts u (resume_subset _ hu)
      have hvalue := (construct_barrier h hb us).1
      have hresume := resume_barrier h hb us
      rw [List.cons_append] at hvalue hresume ⊢
      rw [outcomes_cons hend hsemicolon, outcomes_cons hend' (hsame ▸ hsemicolon), hvalue,
        List.cons_append]
      -- only an attempt that fails for want of more tokens takes the semicolon with it
      rcases hresume with ⟨rest, hrest, hbare⟩ | ⟨hbehind, hnone⟩
      · rw [hrest, outcomes_barrier hbare hinside hb us finish finish']
      · rw [hbehind, hnone, outcomes_nil, List.nil_append]
termination_by ts.length

/-- What comes of the attempts does not depend on places. -/
theorem outcomes_congr {ts ts' : List Token} (h : ts'.map Token.bare = ts.map Token.bare)
    (hts : ∀ t ∈ ts, t.kind ≠ .endOfInput) (hts' : ∀ t ∈ ts', t.kind ≠ .endOfInput)
    (finish finish' : Option Location) :
    outcomes ⟨ts', finish'⟩ = outcomes ⟨ts, finish⟩ := by
  -- both are what comes of the attempts in front of a semicolon
  have hb : Token.semicolon.is ';' = true := rfl
  have hsame := outcomes_barrier rfl hts' hb [] finish' finish'
  rw [outcomes_barrier h hts hb [] finish finish'] at hsame
  exact (List.append_cancel_right hsame).symm

/-- **A semicolon on a line of its own parts source texts**: what comes of the first, then what
comes of the second. -/
theorem outcomes_ofBytes_barrier (first second : ByteArray) :
    outcomes (ofBytes (first ++ "\n;\n".toUTF8 ++ second)) =
      outcomes (ofBytes first) ++ outcomes (ofBytes second) := by
  obtain ⟨ts, us, hwhole, hfirst, hrest⟩ :=
    List.map_eq_append_iff.1 (Lexer.bareTokens_barrier first second)
  obtain ⟨b, us, rfl, hb, hsecond⟩ := List.map_eq_cons_iff.1 hrest
  have hsemicolon : b.is ';' = true := Token.is_of_bare (u := Token.semicolon) hb ';'
  have hinside := Lexer.tokens_inside (Lexer.ofBytes (first ++ "\n;\n".toUTF8 ++ second))
  rw [hwhole] at hinside
  have hus : ∀ t ∈ us, t.kind ≠ .endOfInput := fun t ht =>
    hinside t (List.mem_append_right _ (List.mem_cons_of_mem _ ht))
  calc outcomes (ofBytes (first ++ "\n;\n".toUTF8 ++ second))
    _ = outcomes ⟨ts ++ b :: us, (ofBytes (first ++ "\n;\n".toUTF8 ++ second)).finish⟩ := by
      rw [← hwhole]
      rfl
    _ = outcomes (ofBytes first) ++ outcomes ⟨us, _⟩ :=
      outcomes_barrier hfirst (Lexer.tokens_inside _) hsemicolon us _ _
    _ = outcomes (ofBytes first) ++ outcomes (ofBytes second) :=
      congrArg _ (outcomes_congr hsecond (Lexer.tokens_inside _) hus _ _)

end Kaleidoscope.Parser
