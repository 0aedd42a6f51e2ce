/-
  Where the tokens of a text stand.

  - `Location.Before`: on an earlier line, or in an earlier column of the same line;
  - `Lexer.Passes`: a lexer goes past characters, and its place goes with them;
  - `passes_skipGap`, `passes_read`: so it goes past a gap, and past a token;
  - `read_malformed`: a token that cannot be read carries an error of the lexer, at its own place;
  - `drain_eq`: the parser gets the tokens of the text, and the end of input where the text ends;
  - `drain_ascends`: every token of a text stands after those before it, and the end of input after
    all of them.
-/
import Kaleidoscope.Proofs.Parser.Spelling
import Kaleidoscope.Proofs.Token.Lossless

namespace Kaleidoscope

/-! ## Places -/

namespace Location

/-- One place comes before another: on an earlier line, or in an earlier column of the same line. -/
def Before (a b : Location) : Prop := a.line < b.line ∨ a.line = b.line ∧ a.column < b.column

theorem Before.trans {a b c : Location} (h : a.Before b) (h' : b.Before c) : a.Before c := by
  unfold Before at h h' ⊢
  omega

theorem before_advance (loc : Location) (c : Char) : loc.Before (loc.advance c) := by
  unfold Before advance
  split
  · exact .inl (Int.lt_succ loc.line)
  · exact .inr ⟨rfl, Int.lt_succ loc.column⟩

/-- **Every character moves the place on.** -/
theorem before_advanceAll (loc : Location) {cs : List Char} (h : cs ≠ []) :
    loc.Before (loc.advanceAll cs) := by
  induction cs generalizing loc with
  | nil => contradiction
  | cons c cs ih =>
    have hfirst := loc.before_advance c
    rw [advanceAll_cons]
    cases cs with
    | nil => exact hfirst
    | cons d cs => exact hfirst.trans (ih _ (List.cons_ne_nil d cs))

end Location

namespace Lexer

/-! ## Going past characters -/

/-- The lexer goes past the characters, and its place goes with them. -/
def Passes (l : Lexer) (cs : List Char) (l' : Lexer) : Prop :=
  l.rest = cs ++ l'.rest ∧ l'.loc = l.loc.advanceAll cs

theorem Passes.trans {l l' l'' : Lexer} {cs ds : List Char} (h : l.Passes cs l')
    (h' : l'.Passes ds l'') : l.Passes (cs ++ ds) l'' :=
  ⟨by rw [h.1, h'.1, List.append_assoc], by rw [h'.2, h.2, Location.advanceAll_append]⟩

theorem passes_afterRun (p : Char → Bool) (l : Lexer) : l.Passes (l.run p) (l.afterRun p) :=
  ⟨List.takeWhile_append_dropWhile.symm, rfl⟩

theorem passes_skipGap (l : Lexer) : ∃ gap, l.Passes gap l.skipGap := by
  fun_induction skipGap l with
  | case1 l l' cs h ih =>
    obtain ⟨gap, hgap⟩ := ih
    exact ⟨_, (l.passes_afterRun Text.isBlank).trans ((l'.passes_afterRun inComment).trans hgap)⟩
  | case2 l l' h => exact ⟨_, l.passes_afterRun Text.isBlank⟩

/-- **A lexer goes past a token by its text.** -/
theorem passes_read (l : Lexer) : l.Passes l.read.1.text.toList l.read.2 := by
  unfold read
  split
  · exact ⟨rfl, rfl⟩
  · rename_i c cs hrest
    split
    · rw [text_nameToken, String.toList_ofList]
      exact l.passes_afterRun inName
    · split
      · rw [text_numberToken, String.toList_ofList]
        exact l.passes_afterRun inNumber
      · exact ⟨by simpa using hrest, by simp⟩

/-! ## Tokens -/

/-- A token stands where the lexer is. -/
theorem loc_read (l : Lexer) : l.read.1.loc = some l.loc := by
  unfold read
  split
  · rfl
  · split
    · unfold nameToken
      split
      · rfl
      · split <;> rfl
    · split
      · unfold numberToken
        dsimp only
        split
        · rfl
        · split <;> rfl
      · rfl

/-- A token that cannot be read carries an error of the lexer, at its own place. -/
theorem read_malformed {l : Lexer} {cause : Option Error} (h : l.read.1.kind = .malformed cause) :
    ∃ problem text, cause = some (.lexical l.loc problem text) := by
  unfold read at h
  split at h
  · cases h
  · split at h
    · rw [kind_nameToken, nameKind] at h
      split at h
      · cases h
      · split at h <;> cases h
    · split at h
      · unfold numberToken at h
        dsimp only at h
        split at h
        · cases h
          exact ⟨_, _, rfl⟩
        · split at h
          · cases h
          · cases h
            exact ⟨_, _, rfl⟩
      · cases h

/-- The end of input stands where the text ends. -/
theorem read_of_end {l : Lexer} (h : l.read.1.kind = .endOfInput) :
    l.read = (Token.finish (some l.loc), l) := by
  have hrest : l.rest = [] := Classical.byContradiction fun hne => read_inside hne h
  rw [read, hrest]

theorem text_read_ne_nil {l : Lexer} (h : l.read.1.kind ≠ .endOfInput) :
    l.read.1.text.toList ≠ [] := by
  intro hnil
  have hrest : l.rest ≠ [] := fun hnil => h (read_nil hnil)
  have hpast := congrArg List.length l.passes_read.1
  rw [hnil, List.nil_append] at hpast
  exact Nat.ne_of_gt (length_read_lt hrest) hpast

/-! ## All tokens -/

/-- **The parser gets the tokens of the text**, and the end of input where the text ends. -/
theorem drain_eq (l : Lexer) : l.drain.1 = l.stream.tokens ++ [Token.finish l.stream.finish] := by
  suffices hlast : l.drain.1 = l.drain.1.dropLast ++ [Token.finish (some l.drain.2.loc)] from hlast
  fun_induction drain l with
  | case1 l t l' hnext hend =>
    have hread : l.skipGap.read = (t, l') := hnext
    rw [read_of_end (by rw [hread]; exact hend)] at hread
    cases hread
    rfl
  | case2 l t l' hnext hend tokens last hdrain ih =>
    rw [hdrain] at ih
    have hne : tokens ≠ [] := by
      have := l'.drain_ne_nil
      rwa [hdrain] at this
    rw [List.dropLast_cons_of_ne_nil hne, List.cons_append, ← ih]

/-- A token stands some characters further on than the lexer. -/
theorem loc_of_mem_drain (l : Lexer) :
    ∀ t ∈ l.drain.1, ∃ cs, t.loc = some (l.loc.advanceAll cs) := by
  fun_induction drain l with
  | case1 l t l' hnext hend =>
    obtain ⟨gap, hgap⟩ := l.passes_skipGap
    intro u hu
    have hloc := l.skipGap.loc_read
    rw [show l.skipGap.read = (t, l') from hnext, hgap.2] at hloc
    exact ⟨gap, List.mem_singleton.1 hu ▸ hloc⟩
  | case2 l t l' hnext hend tokens last hdrain ih =>
    obtain ⟨gap, hgap⟩ := l.passes_skipGap
    have hread : l.skipGap.read = (t, l') := hnext
    rw [hdrain] at ih
    intro u hu
    rcases List.mem_cons.1 hu with rfl | hu
    · have hloc := l.skipGap.loc_read
      rw [hread, hgap.2] at hloc
      exact ⟨gap, hloc⟩
    · obtain ⟨cs, hcs⟩ := ih u hu
      have hpast := hgap.trans l.skipGap.passes_read
      rw [hread] at hpast
      refine ⟨gap ++ t.text.toList ++ cs, ?_⟩
      rw [hcs, hpast.2, ← Location.advanceAll_append]

/-- **Every token stands after those before it**, and the end of input after all of them. -/
theorem drain_ascends (l : Lexer) :
    l.drain.1.Pairwise fun t u => ∃ a b, t.loc = some a ∧ u.loc = some b ∧ a.Before b := by
  fun_induction drain l with
  | case1 l t l' hnext hend => exact List.pairwise_singleton _ t
  | case2 l t l' hnext hend tokens last hdrain ih =>
    have hread : l.skipGap.read = (t, l') := hnext
    have hlater := l'.loc_of_mem_drain
    rw [hdrain] at ih hlater
    refine List.pairwise_cons.2 ⟨fun u hu => ?_, ih⟩
    obtain ⟨cs, hcs⟩ := hlater u hu
    have hloc := l.skipGap.loc_read
    have hpast := l.skipGap.passes_read
    have hne : t.text.toList ≠ [] := by
      have := text_read_ne_nil (l := l.skipGap) (by rw [hread]; exact hend)
      rwa [hread] at this
    rw [hread] at hloc hpast
    refine ⟨_, _, hloc, hcs, ?_⟩
    rw [hpast.2, ← Location.advanceAll_append]
    exact Location.before_advanceAll _ (List.append_ne_nil_of_left_ne_nil hne cs)

end Lexer

end Kaleidoscope
