/-
  The places of tokens, by offset.

  - `Location.ofOffset`: the place at an offset of a text, found from all characters before it;
  - `advanceAll_start`: the place that is kept while reading is that one;
  - `after_succ`, `passes_after`, `drain_eq_map`: the calls of the lexer one after another;
  - `next_at_offset`: every token, with the error that it may carry, stands at the place of its
    offset.
-/
import Kaleidoscope.Proofs.Token.Places
import Mathlib.Data.List.DropRight

namespace Kaleidoscope

/-! ## Offsets -/

namespace Location

/-- The place at an offset of a text. The line feeds before the offset count the lines, and the
characters behind the last of them the columns. -/
def ofOffset (cs : List Char) (k : Nat) : Location :=
  ⟨1 + (cs.take k).count '\n', 1 + ((cs.take k).rtakeWhile (· != '\n')).length⟩

/-- **The place that is kept while reading is that of the offset.** -/
theorem advanceAll_start (cs : List Char) : start.advanceAll cs = ofOffset cs cs.length := by
  unfold ofOffset
  rw [List.take_length]
  induction cs using List.reverseRecOn with
  | nil => rfl
  | append_singleton cs c ih =>
    rw [advanceAll_append, ih, advanceAll_cons, advanceAll_nil, advance, List.count_append]
    by_cases hc : c = '\n'
    · subst hc
      rw [if_pos rfl, List.rtakeWhile_concat_neg _ _ _ (by decide), List.count_singleton_self,
        Int.natCast_add, ← Int.add_assoc]
      rfl
    · have hline : (cs ++ [c]).rtakeWhile (· != '\n') = cs.rtakeWhile (· != '\n') ++ [c] :=
        List.rtakeWhile_concat_pos _ _ _ (bne_iff_ne.2 hc)
      rw [if_neg hc, hline, List.count_singleton, if_neg (by simpa using hc), List.length_append,
        Int.natCast_add _ [c].length, ← Int.add_assoc]
      rfl

theorem ofOffset_append (as bs : List Char) :
    ofOffset (as ++ bs) as.length = start.advanceAll as := by
  rw [advanceAll_start, ofOffset, ofOffset, List.take_left, List.take_length]

end Location

namespace Lexer

/-! ## Call after call -/

theorem after_succ (l : Lexer) (i : Nat) : l.after (i + 1) = (l.after i).next.2 := by
  induction i generalizing l with
  | zero => rfl
  | succ i ih => exact ih l.next.2

/-- The lexer goes past all that the calls take. -/
theorem passes_after (l : Lexer) (i : Nat) : ∃ cs, l.Passes cs (l.after i) := by
  induction i with
  | zero => exact ⟨[], rfl, rfl⟩
  | succ i ih =>
    obtain ⟨cs, hcs⟩ := ih
    obtain ⟨gap, hgap⟩ := (l.after i).passes_skipGap
    rw [after_succ]
    exact ⟨_, hcs.trans (hgap.trans (l.after i).skipGap.passes_read)⟩

/-- **The tokens of a text are what the calls give**, up to the first end of input. -/
theorem drain_eq_map (l : Lexer) :
    l.drain.1 = (List.range l.drain.1.length).map fun i => (l.after i).next.1 := by
  fun_induction drain l with
  | case1 l t l' hnext hend => simp [after, hnext]
  | case2 l t l' hnext hend tokens last hdrain ih =>
    rw [hdrain] at ih
    rw [List.length_cons, List.range_succ_eq_map, List.map_cons, List.map_map]
    have hlater : (fun i => (l.after i).next.1) ∘ Nat.succ = fun i => (l'.after i).next.1 := by
      funext i
      show (l.next.2.after i).next.1 = _
      rw [hnext]
    rw [hlater, ← ih, after, hnext]

/-- **Places are exact.** Whatever the source text and the call of the lexer, the token that it gives
starts at some offset of the text, and what the call leaves stands behind its text. The place of the
token is that of the offset, and so is the place in the error of a token that cannot be read. The end
of input stands at the end of the text. -/
theorem next_at_offset (source : ByteArray) :
    let cs := Text.decode source.toList
    let l := ofBytes source
    (∀ i, ∃ k ≤ cs.length,
      let t := (l.after i).next.1
      cs.drop k = t.text.toList ++ (l.after (i + 1)).rest ∧
        t.loc = some (.ofOffset cs k) ∧
        (∀ cause, t.kind = .malformed cause →
          ∃ problem text, cause = some (.lexical (.ofOffset cs k) problem text)) ∧
        (t.kind = .endOfInput → k = cs.length)) ∧
      l.drain.1 = (List.range l.drain.1.length).map fun i => (l.after i).next.1 := by
  intro cs l
  refine ⟨fun i => ?_, l.drain_eq_map⟩
  obtain ⟨before, hbefore⟩ := l.passes_after i
  obtain ⟨gap, hgap⟩ := (l.after i).passes_skipGap
  obtain ⟨hrest, hloc⟩ := hbefore.trans hgap
  generalize before ++ gap = pre at hrest hloc
  have hcs : cs = pre ++ (l.after i).skipGap.rest := hrest
  have hplace : (l.after i).skipGap.loc = .ofOffset cs pre.length := by
    rw [hloc, hcs, Location.ofOffset_append]
    rfl
  refine ⟨pre.length, ?_, ?_, ?_, fun cause hcause => ?_, fun hend => ?_⟩
  · rw [hcs, List.length_append]
    exact Nat.le_add_right _ _
  · rw [hcs, List.drop_left, after_succ]
    exact (l.after i).skipGap.passes_read.1
  · rw [← hplace]
    exact (l.after i).skipGap.loc_read
  · rw [← hplace]
    exact read_malformed hcause
  · have hnone : (l.after i).skipGap.rest = [] :=
      Classical.byContradiction fun hne => read_inside hne hend
    rw [hcs, hnone, List.append_nil]

end Lexer

end Kaleidoscope
