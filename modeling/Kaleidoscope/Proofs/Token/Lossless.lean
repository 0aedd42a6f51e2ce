/-
  Nothing of a text is lost when it is cut into tokens.

  - `Lexer.Gap`: blanks and comments that stand in front of the rest of a text;
  - `Lexer.Lexeme`: a token is tagged as its text is spelled, and no longer text would do, given
    what stands after it;
  - `skipGap_gap`, `read_lexeme`: a gap is passed over whole, and a token is read whole;
  - `Lexer.after`: the lexer after some calls;
  - `tokens_lossless`: a text is its tokens with gaps between them, and after the last token every
    call gives the end of input.
-/
import Kaleidoscope.Proofs.Token.Join

namespace Kaleidoscope.Lexer

/-! ## Gaps and lexemes -/

/-- Blanks and comments in front of `rest`. A comment goes on up to a line feed, a carriage return,
or the end of the text. -/
inductive Gap (rest : List Char) : List Char → Prop where
  | nil : Gap rest []
  | blank {c : Char} {gap : List Char} : Text.isBlank c = true → Gap rest gap → Gap rest (c :: gap)
  | comment {text gap : List Char} : (∀ c ∈ text, c ≠ '\n' ∧ c ≠ '\r') →
      (∀ c ∈ (gap ++ rest).head?, c = '\n' ∨ c = '\r') → Gap rest gap →
      Gap rest ('#' :: text ++ gap)

/-- The kind of a name. -/
def nameKind (text : String) : Token.Kind :=
  if text = "def" then .define else if text = "extern" then .declare else .identifier

/-- A token in front of `rest`: a name that does not go on there, a run of digits and dots that does
not go on there, or a character that stands for itself. -/
inductive Lexeme (rest : List Char) (t : Token) : Prop where
  | name (c : Char) (cs : List Char) (spelled : t.text.toList = c :: cs)
      (letter : Text.isLetter c = true) (inside : ∀ d ∈ cs, Text.isLetter d = true ∨ d.isDigit = true)
      (ends : ∀ d ∈ rest.head?, ¬(Text.isLetter d = true ∨ d.isDigit = true))
      (kind : t.kind = nameKind t.text)
  | number (nonempty : t.text.toList ≠ [])
      (inside : ∀ d ∈ t.text.toList, d.isDigit = true ∨ d = '.')
      (ends : ∀ d ∈ rest.head?, ¬(d.isDigit = true ∨ d = '.'))
      (kind : (∃ value, t.kind = .number value) ∨ ∃ cause, t.kind = .malformed (some cause))
  | symbol (c : Char) (spelled : t.text.toList = [c]) (kind : t.kind = .symbol c)
      (blank : Text.isBlank c = false) (letter : Text.isLetter c = false)
      (digit : c.isDigit = false) (dot : c ≠ '.') (hash : c ≠ '#')

/-- Tokens, each with the gap after it, as they stand in a text. -/
def spelling (pieces : List (Token × List Char)) : List Char :=
  pieces.flatMap fun (t, gap) => t.text.toList ++ gap

/-! ## One gap, and one token -/

theorem Gap.blanks {rest blanks gap : List Char} (hblanks : ∀ c ∈ blanks, Text.isBlank c = true)
    (h : Gap rest gap) : Gap rest (blanks ++ gap) := by
  induction blanks with
  | nil => exact h
  | cons c blanks ih =>
    obtain ⟨hc, hblanks⟩ := List.forall_mem_cons.1 hblanks
    exact .blank hc (ih hblanks)

/-- What stands after the longest run begins with another character. -/
theorem head?_dropWhile {p : Char → Bool} {cs : List Char} :
    ∀ c ∈ (cs.dropWhile p).head?, p c = false := by
  intro c hc
  have hfirst := List.head?_dropWhile_not p cs
  rw [hc] at hfirst
  exact hfirst

theorem all_takeWhile {p : Char → Bool} {cs : List Char} : ∀ c ∈ cs.takeWhile p, p c = true :=
  fun _ hc => List.all_eq_true.1 List.all_takeWhile _ hc

/-- A character ends a comment if it is a line feed or a carriage return. -/
theorem inComment_eq_false {c : Char} : inComment c = false ↔ c = '\n' ∨ c = '\r' := by
  simp only [inComment, Bool.and_eq_false_iff, bne_eq_false_iff_eq]

/-- **A gap is passed over whole**: after it comes the end of the text, or a character that is
neither blank nor begins a comment. -/
theorem skipGap_gap (l : Lexer) :
    (∃ gap, l.rest = gap ++ l.skipGap.rest ∧ Gap l.skipGap.rest gap) ∧
      ∀ c ∈ l.skipGap.rest.head?, Text.isBlank c = false ∧ c ≠ '#' := by
  fun_induction skipGap l with
  | case1 l l' cs h ih =>
    obtain ⟨⟨gap, hrest, hgap⟩, hhead⟩ := ih
    have hafter : cs.dropWhile inComment = gap ++ (l'.afterRun inComment).skipGap.rest := by
      rw [← hrest]
      show _ = l'.rest.dropWhile inComment
      rw [h, List.dropWhile_cons, if_pos (by decide)]
    refine ⟨⟨l.run Text.isBlank ++ ('#' :: cs.takeWhile inComment ++ gap), ?_, ?_⟩, hhead⟩
    · calc l.rest
        _ = l.run Text.isBlank ++ l'.rest := List.takeWhile_append_dropWhile.symm
        _ = l.run Text.isBlank ++ '#' :: (cs.takeWhile inComment ++ cs.dropWhile inComment) := by
            rw [h, List.takeWhile_append_dropWhile]
        _ = _ := by rw [hafter]; simp only [List.append_assoc, List.cons_append]
    · refine (Gap.comment (fun c hc => ?_) (fun c hc => ?_) hgap).blanks all_takeWhile
      · have hinside := all_takeWhile c hc
        simpa only [inComment, Bool.and_eq_true, bne_iff_ne] using hinside
      · rw [← hafter] at hc
        exact inComment_eq_false.1 (head?_dropWhile c hc)
  | case2 l l' h =>
    refine ⟨⟨l.run Text.isBlank, List.takeWhile_append_dropWhile.symm, ?_⟩, fun c hc => ?_⟩
    · have hblanks : Gap l'.rest (l.run Text.isBlank ++ []) := Gap.nil.blanks all_takeWhile
      rwa [List.append_nil] at hblanks
    · refine ⟨head?_dropWhile c hc, ?_⟩
      rintro rfl
      obtain ⟨cs, hcs⟩ := List.head?_eq_some_iff.1 hc
      exact h cs hcs

theorem text_nameToken (text : String) (loc : Location) : (nameToken text loc).text = text := by
  unfold nameToken
  split
  · rfl
  · split <;> rfl

theorem kind_nameToken (text : String) (loc : Location) :
    (nameToken text loc).kind = nameKind text := by
  unfold nameToken nameKind
  split
  · rfl
  · split <;> rfl

theorem text_numberToken (run : List Char) (loc : Location) :
    (numberToken run loc).text = String.ofList run := by
  unfold numberToken
  dsimp only
  split
  · rfl
  · split <;> rfl

theorem kind_numberToken (run : List Char) (loc : Location) :
    (∃ value, (numberToken run loc).kind = .number value) ∨
      ∃ cause, (numberToken run loc).kind = .malformed (some cause) := by
  unfold numberToken
  dsimp only
  split
  · exact .inr ⟨_, rfl⟩
  · split
    · exact .inl ⟨_, rfl⟩
    · exact .inr ⟨_, rfl⟩

theorem inName_iff {c : Char} : inName c = true ↔ Text.isLetter c = true ∨ c.isDigit = true := by
  rw [inName, Bool.or_eq_true]

theorem inNumber_iff {c : Char} : inNumber c = true ↔ c.isDigit = true ∨ c = '.' := by
  rw [inNumber, Bool.or_eq_true, beq_iff_eq]

/-- **A token is read whole**, where a gap ends before the end of the text. -/
theorem read_lexeme {l : Lexer} (h : l.rest ≠ [])
    (hhead : ∀ c ∈ l.rest.head?, Text.isBlank c = false ∧ c ≠ '#') :
    l.rest = l.read.1.text.toList ++ l.read.2.rest ∧ Lexeme l.read.2.rest l.read.1 := by
  obtain ⟨_ | ⟨c, cs⟩, loc⟩ := l
  · contradiction
  obtain ⟨hblank, hhash⟩ := hhead c rfl
  unfold read
  dsimp only
  split
  · rename_i hletter
    have hname : inName c = true := inName_iff.2 (.inl hletter)
    have htext : (nameToken (String.ofList (run inName ⟨c :: cs, loc⟩)) loc).text.toList =
        c :: cs.takeWhile inName := by
      rw [text_nameToken, String.toList_ofList, run, List.takeWhile_cons, if_pos hname]
    refine ⟨?_, .name c (cs.takeWhile inName) htext hletter (fun d hd => ?_) (fun d hd => ?_) ?_⟩
    · rw [text_nameToken, String.toList_ofList]
      exact List.takeWhile_append_dropWhile.symm
    · exact inName_iff.1 (all_takeWhile d hd)
    · rw [← inName_iff, Bool.not_eq_true]
      exact head?_dropWhile d hd
    · rw [kind_nameToken, text_nameToken]
  · rename_i hletter
    split
    · rename_i hnumber
      refine ⟨?_, .number ?_ (fun d hd => ?_) (fun d hd => ?_) (kind_numberToken _ _)⟩
      · rw [text_numberToken, String.toList_ofList]
        exact List.takeWhile_append_dropWhile.symm
      · rw [text_numberToken, String.toList_ofList, run, List.takeWhile_cons, if_pos hnumber]
        exact List.cons_ne_nil _ _
      · rw [text_numberToken, String.toList_ofList] at hd
        exact inNumber_iff.1 (all_takeWhile d hd)
      · rw [← inNumber_iff, Bool.not_eq_true]
        exact head?_dropWhile d hd
    · rename_i hnumber
      have hneither := mt inNumber_iff.2 hnumber
      rw [not_or, Bool.not_eq_true] at hneither
      refine ⟨by simp, .symbol c (by simp) rfl hblank (by simpa using hletter) hneither.1
        hneither.2 hhash⟩

/-! ## All tokens -/

/-- The lexer after `k` calls. -/
def after (l : Lexer) : Nat → Lexer
  | 0 => l
  | k + 1 => l.next.2.after k

/-- A text is its tokens with gaps between them. -/
theorem exists_pieces (l : Lexer) :
    ∃ gap pieces, pieces.map Prod.fst = l.tokens ∧ l.rest = gap ++ spelling pieces ∧
      Gap (spelling pieces) gap ∧
      ∀ before t gap' later, pieces = before ++ (t, gap') :: later →
        Lexeme (gap' ++ spelling later) t ∧ Gap (spelling later) gap' := by
  obtain ⟨⟨gap, hrest, hgap⟩, hhead⟩ := l.skipGap_gap
  by_cases hend : l.skipGap.rest = []
  · rw [hend] at hrest hgap
    refine ⟨gap, [], (tokens_of_end hend).symm, hrest, hgap, fun before t gap' later h => ?_⟩
    simp at h
  · have hlt := length_next_lt hend
    obtain ⟨hread, hlexeme⟩ := read_lexeme hend hhead
    obtain ⟨gap', pieces, htokens, hnext, hgap', hpieces⟩ := l.next.2.exists_pieces
    have hspelling : l.skipGap.rest = spelling ((l.next.1, gap') :: pieces) := by
      rw [hread, spelling, List.flatMap_cons, List.append_assoc]
      exact congrArg _ hnext
    refine ⟨gap, (l.next.1, gap') :: pieces, ?_, hspelling ▸ hrest, hspelling ▸ hgap, ?_⟩
    · rw [List.map_cons, htokens, tokens_of_token hend]
    · intro before t gap'' later h
      cases before with
      | nil =>
        obtain ⟨⟨rfl, rfl⟩, rfl⟩ := h
        exact ⟨hnext ▸ hlexeme, hgap'⟩
      | cons piece before =>
        injection h with _ h
        exact hpieces before t gap'' later h
termination_by l.rest.length

/-- At the end of a text there are no tokens after the next call either. -/
theorem tokens_next_of_end {l : Lexer} (h : l.skipGap.rest = []) : l.next.2.tokens = [] := by
  have hnext : l.next.2.rest = [] := by
    rw [next, read, h]
    exact h
  refine tokens_of_end ?_
  rw [skipGap_stop (by simp [hnext]), hnext]
  rfl

/-- **The calls give the tokens one after another**, and then the end of input for ever. -/
theorem next_after (l : Lexer) (k : Nat) :
    (∀ t, l.tokens[k]? = some t → (l.after k).next.1 = t) ∧
      (l.tokens.length ≤ k → (l.after k).next.1.kind = .endOfInput) := by
  induction k generalizing l with
  | zero =>
    by_cases hend : l.skipGap.rest = []
    · rw [tokens_of_end hend]
      exact ⟨fun t ht => (by cases ht), fun _ => read_nil hend⟩
    · rw [tokens_of_token hend]
      exact ⟨fun t ht => Option.some.inj ht, fun hle => absurd hle (Nat.not_succ_le_zero _)⟩
  | succ k ih =>
    obtain ⟨htoken, hfinish⟩ := ih l.next.2
    by_cases hend : l.skipGap.rest = []
    · rw [tokens_of_end hend]
      refine ⟨fun t ht => (by cases ht), fun _ => hfinish ?_⟩
      rw [tokens_next_of_end hend]
      exact Nat.zero_le k
    · rw [tokens_of_token hend]
      exact ⟨htoken, fun hle => hfinish (Nat.le_of_succ_le_succ hle)⟩

/-- **Nothing of a text is lost.** The calls of the lexer on a source text, of any bytes, give
finitely many tokens other than the end of input, and then the end of input for ever. The text is
a gap and the texts of the tokens, each with a gap after it. Every gap is made of blanks and
comments, and every token is tagged as it is spelled, and as long as it can be. -/
theorem tokens_lossless (source : ByteArray) :
    let l := ofBytes source
    (∀ k t, l.tokens[k]? = some t → (l.after k).next.1 = t ∧ t.kind ≠ .endOfInput) ∧
      (∀ k, l.tokens.length ≤ k → (l.after k).next.1.kind = .endOfInput) ∧
      ∃ gap pieces, pieces.map Prod.fst = l.tokens ∧
        Text.decode source.toList = gap ++ spelling pieces ∧ Gap (spelling pieces) gap ∧
        ∀ before t gap' later, pieces = before ++ (t, gap') :: later →
          Lexeme (gap' ++ spelling later) t ∧ Gap (spelling later) gap' := by
  intro l
  refine ⟨fun k t ht => ⟨(l.next_after k).1 t ht, ?_⟩, fun k => (l.next_after k).2,
    l.exists_pieces⟩
  exact l.tokens_inside t (List.mem_of_getElem? ht)

end Kaleidoscope.Lexer
