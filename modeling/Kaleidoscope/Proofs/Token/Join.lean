/-
  The tokens of texts that are joined.

  - `Text.decode_append`: an ASCII byte is a character of its own, so what is cut off in front of it
    stays cut off;
  - `Token.bare`: a token without its place, and without the reason why it cannot be read;
  - `Lexer.bareTokens`: the tokens of a text, so stripped;
  - `Lexer.Breaks`: what may stand after a text such that no token and no comment goes on in it;
  - `bareTokens_append`: the tokens of a text come first, and those of what stands after it follow;
  - `bareTokens_barrier`: a semicolon on a line of its own adds its own token and changes no other.
-/
import Kaleidoscope.Token.Lexer

namespace Kaleidoscope

/-! ## Bytes and characters -/

namespace Text

theorem toList_loop (bytes : ByteArray) (i : Nat) (acc : List UInt8) :
    ByteArray.toList.loop bytes i acc = acc.reverse ++ bytes.data.toList.drop i := by
  fun_induction ByteArray.toList.loop bytes i acc with
  | case1 i acc h ih =>
    have hdrop : bytes.data.toList.drop i = bytes.get! i :: bytes.data.toList.drop (i + 1) := by
      rw [List.drop_eq_getElem_cons (by simpa using h)]
      congr 1
      exact (getElem!_pos bytes.data i h).symm
    rw [ih, hdrop, List.reverse_cons, List.append_assoc, List.singleton_append]
  | case2 i acc h => rw [List.drop_eq_nil_of_le (by simpa using h), List.append_nil]

theorem toList_append (as bs : ByteArray) : (as ++ bs).toList = as.toList ++ bs.toList := by
  simp [ByteArray.toList, toList_loop]

theorem tail?_ascii {b : UInt8} (h : b.toNat < 0x80) : tail? b = none :=
  if_neg fun htail => Nat.not_lt.2 htail.1 h

/-- An ASCII byte belongs to no character that begins before it. -/
theorem leading?_append {b : UInt8} (hb : b.toNat < 0x80) (a : UInt8) (rest bs : List UInt8) :
    leading? a (rest ++ b :: bs) = leading? a rest := by
  have hb := tail?_ascii hb
  rcases rest with _ | ⟨x, _ | ⟨y, _ | ⟨z, rest⟩⟩⟩ <;>
    rcases bs with _ | ⟨u, _ | ⟨v, bs⟩⟩ <;> simp [leading?, hb]

theorem length_of_leading? {a : UInt8} {rest : List UInt8} {c : Char} {k : Nat}
    (h : leading? a rest = some (c, k)) : k ≤ rest.length := by
  simp only [leading?, Option.bind_eq_bind, Option.pure_def] at h
  -- a byte is asked for only where there is one
  repeat' split at h
  all_goals grind [Option.bind_eq_some_iff]

/-- **An ASCII byte stands for itself**, whatever is cut off in front of it. -/
theorem decode_append {b : UInt8} (hb : b.toNat < 0x80) (as bs : List UInt8) :
    decode (as ++ b :: bs) = decode as ++ Char.ofNat b.toNat :: decode bs := by
  fun_induction decode as with
  | case1 => exact decode_ascii hb bs
  | case2 a rest c k h ih =>
    rw [List.cons_append, decode, leading?_append hb, h, List.cons_append, ← ih,
      ← List.drop_append_of_le_length (length_of_leading? h)]
  | case3 a rest h ih =>
    rw [List.cons_append, decode, leading?_append hb, h, List.cons_append, ← ih]

end Text

/-! ## Tokens without their places -/

namespace Token

/-- A kind without the reason why a token cannot be read. -/
def Kind.bare : Kind → Kind
  | malformed _ => malformed none
  | k => k

/-- A token without its place, and without the reason why it cannot be read. -/
def bare (t : Token) : Token := { t with kind := t.kind.bare, loc := none }

/-- A semicolon without its place. -/
def semicolon : Token := ⟨.symbol ';', ";", none⟩

theorem Kind.bare_eq_iff {k k' : Kind} (h : ∀ cause, k ≠ .malformed cause) :
    k'.bare = k ↔ k' = k := by
  cases k' with
  | malformed cause => exact ⟨fun heq => absurd heq.symm (h _), fun heq => absurd heq.symm (h _)⟩
  | _ => exact Iff.rfl

theorem bare_bare (t : Token) : t.bare.bare = t.bare := by
  obtain ⟨kind, text, loc⟩ := t
  cases kind <;> rfl

theorem kind_of_bare {t u : Token} (h : t.bare = u.bare) {k : Kind}
    (hk : ∀ cause, k ≠ .malformed cause) : t.kind = k ↔ u.kind = k := by
  have hbare : t.kind.bare = u.kind.bare := congrArg Token.kind h
  rw [← Kind.bare_eq_iff hk, hbare, Kind.bare_eq_iff hk]

theorem is_of_bare {t u : Token} (h : t.bare = u.bare) (c : Char) : t.is c = u.is c := by
  rw [is, is, decide_eq_decide]
  exact kind_of_bare h (by simp)

end Token

namespace Lexer

/-- The tokens of the text without their places. -/
def bareTokens (l : Lexer) : List Token := l.tokens.map Token.bare

theorem bare_nameToken (text : String) (loc loc' : Location) :
    (nameToken text loc).bare = (nameToken text loc').bare := by
  unfold nameToken
  split
  · rfl
  · split <;> rfl

theorem bare_numberToken (run : List Char) (loc loc' : Location) :
    (numberToken run loc).bare = (numberToken run loc').bare := by
  unfold numberToken
  dsimp only
  split
  · rfl
  · split <;> rfl

/-! ## Token by token -/

section
variable {l : Lexer}

theorem read_inside (h : l.rest ≠ []) : l.read.1.kind ≠ .endOfInput := by
  unfold read
  split
  · contradiction
  · split
    · unfold nameToken
      split
      · simp
      · split <;> simp
    · split
      · unfold numberToken
        dsimp only
        split
        · simp
        · split <;> simp
      · simp

theorem drain_ne_nil (l : Lexer) : l.drain.1 ≠ [] := by
  unfold drain
  split <;> exact List.cons_ne_nil _ _

theorem tokens_of_end (h : l.skipGap.rest = []) : l.tokens = [] := by
  have hend : l.next.1.kind = .endOfInput := read_nil h
  rw [tokens, drain]
  simp only [hend, dite_true]
  rfl

theorem tokens_of_token (h : l.skipGap.rest ≠ []) : l.tokens = l.next.1 :: l.next.2.tokens := by
  have htoken : l.next.1.kind ≠ .endOfInput := read_inside h
  rw [tokens, drain]
  simp only [htoken, dite_false]
  exact List.dropLast_cons_of_ne_nil (drain_ne_nil _)

theorem length_next_lt (h : l.skipGap.rest ≠ []) : l.next.2.rest.length < l.rest.length :=
  next_length_lt (read_inside h)

theorem tokens_inside (l : Lexer) : ∀ t ∈ l.tokens, t.kind ≠ .endOfInput := by
  by_cases h : l.skipGap.rest = []
  · rw [tokens_of_end h]
    exact List.forall_mem_nil _
  · have := length_next_lt h
    rw [tokens_of_token h]
    exact List.forall_mem_cons.2 ⟨read_inside h, tokens_inside l.next.2⟩
termination_by l.rest.length

end

/-! ## Texts that are joined -/

/-- What may stand after a text such that no token and no comment goes on in it: nothing, or a line
feed first. -/
def Breaks (tail : List Char) : Prop := ∀ c ∈ tail.head?, c = '\n'

section
variable {p : Char → Bool} (hp : p '\n' = false) {tail : List Char} (htail : Breaks tail)
include hp htail

theorem takeWhile_append_breaks (cs : List Char) : (cs ++ tail).takeWhile p = cs.takeWhile p := by
  induction cs with
  | nil =>
    cases tail with
    | nil => rfl
    | cons c cs => exact List.takeWhile_cons_of_neg (by simp [htail c rfl, hp])
  | cons c cs ih => simp only [List.cons_append, List.takeWhile_cons, ih]

theorem dropWhile_append_breaks (cs : List Char) :
    (cs ++ tail).dropWhile p = cs.dropWhile p ++ tail := by
  induction cs with
  | nil =>
    cases tail with
    | nil => rfl
    | cons c cs => exact List.dropWhile_cons_of_neg (by simp [htail c rfl, hp])
  | cons c cs ih =>
    simp only [List.cons_append, List.dropWhile_cons, ih]
    split <;> rfl

end

theorem skipGap_comment {l : Lexer} {cs : List Char}
    (h : l.rest.dropWhile Text.isBlank = '#' :: cs) :
    l.skipGap = ((l.afterRun Text.isBlank).afterRun inComment).skipGap := by
  rw [skipGap]
  split
  · rfl
  · rename_i hne
    exact absurd h (hne cs)

theorem skipGap_stop {l : Lexer} (h : ∀ cs, l.rest.dropWhile Text.isBlank ≠ '#' :: cs) :
    l.skipGap.rest = l.rest.dropWhile Text.isBlank := by
  rw [skipGap]
  split
  · rename_i cs heq
    exact absurd heq (h cs)
  · rfl

theorem length_comment_lt {l : Lexer} {cs : List Char}
    (h : l.rest.dropWhile Text.isBlank = '#' :: cs) :
    ((l.afterRun Text.isBlank).afterRun inComment).rest.length < l.rest.length :=
  Nat.lt_of_lt_of_le (length_afterRun_lt (l := l.afterRun Text.isBlank) h (by decide))
    (length_afterRun_le _ l)

/-- Where a gap ends depends on the characters after its first blanks only. -/
theorem skipGap_congr {l j : Lexer}
    (h : l.rest.dropWhile Text.isBlank = j.rest.dropWhile Text.isBlank) :
    l.skipGap.rest = j.skipGap.rest := by
  by_cases hcomment : ∃ cs, l.rest.dropWhile Text.isBlank = '#' :: cs
  · obtain ⟨cs, hcs⟩ := hcomment
    rw [skipGap_comment (l := l) hcs, skipGap_comment (l := j) (h ▸ hcs)]
    have hlt := length_comment_lt hcs
    refine skipGap_congr ?_
    simp only [afterRun, h]
  · rw [not_exists] at hcomment
    rw [skipGap_stop hcomment, skipGap_stop (h ▸ hcomment), h]
termination_by l.rest.length

/-- What stands after a text begins where the gap at the end of the text goes on. -/
theorem skipGap_append {l j : Lexer} {tail : List Char} (htail : Breaks tail)
    (hj : j.rest = l.rest ++ tail) :
    j.skipGap.rest =
      if l.skipGap.rest = [] then (ofChars tail).skipGap.rest else l.skipGap.rest ++ tail := by
  have hblanks := @List.dropWhile_append _ Text.isBlank l.rest tail
  rw [← hj] at hblanks
  cases hl : l.rest.dropWhile Text.isBlank with
  | nil =>
    -- only blanks are left of the text, so its gap goes on
    rw [hl, if_pos List.isEmpty_nil] at hblanks
    rw [skipGap_stop (l := l) (by simp [hl]), hl, if_pos rfl]
    exact skipGap_congr hblanks
  | cons c cs =>
    rw [hl, if_neg (by simp)] at hblanks
    by_cases hc : c = '#'
    · -- a comment does not go on behind a line feed
      subst hc
      have hlt := length_comment_lt hl
      rw [skipGap_comment hl, skipGap_comment hblanks]
      refine skipGap_append htail ?_
      show (j.rest.dropWhile Text.isBlank).dropWhile inComment = _
      rw [hblanks, ← hl]
      exact dropWhile_append_breaks (by decide) htail _
    · rw [skipGap_stop (l := l) (by rw [hl]; grind), hl, if_neg (List.cons_ne_nil c cs),
        skipGap_stop (l := j) (by rw [hblanks]; grind), hblanks]
termination_by l.rest.length

/-- A token ends where its text does, if that breaks it. -/
theorem read_append {l j : Lexer} {tail : List Char} (htail : Breaks tail)
    (hj : j.rest = l.rest ++ tail) (h : l.rest ≠ []) :
    j.read.1.bare = l.read.1.bare ∧ j.read.2.rest = l.read.2.rest ++ tail := by
  obtain ⟨_ | ⟨c, cs⟩, loc⟩ := l
  · contradiction
  obtain ⟨rest, loc'⟩ := j
  subst hj
  have hrun : ∀ {p : Char → Bool}, p '\n' = false →
      run p ⟨c :: cs ++ tail, loc'⟩ = run p ⟨c :: cs, loc⟩ ∧
        (afterRun p ⟨c :: cs ++ tail, loc'⟩).rest = (afterRun p ⟨c :: cs, loc⟩).rest ++ tail :=
    fun hp => ⟨takeWhile_append_breaks hp htail _, dropWhile_append_breaks hp htail _⟩
  unfold read
  simp only [List.cons_append] at hrun ⊢
  split
  · obtain ⟨htext, hrest⟩ := hrun (p := inName) (by decide)
    rw [htext]
    exact ⟨bare_nameToken _ _ _, hrest⟩
  · split
    · obtain ⟨htext, hrest⟩ := hrun (p := inNumber) (by decide)
      rw [htext]
      exact ⟨bare_numberToken _ _ _, hrest⟩
    · exact ⟨rfl, rfl⟩

theorem breaks_nil : Breaks [] := by simp [Breaks]

theorem bareTokens_of_end {l : Lexer} (h : l.skipGap.rest = []) : l.bareTokens = [] := by
  rw [bareTokens, tokens_of_end h, List.map_nil]

theorem bareTokens_of_token {l : Lexer} (h : l.skipGap.rest ≠ []) :
    l.bareTokens = l.next.1.bare :: l.next.2.bareTokens := by
  rw [bareTokens, tokens_of_token h, List.map_cons]
  rfl

theorem bareTokens_congr {l j : Lexer} (h : j.skipGap.rest = l.skipGap.rest) :
    j.bareTokens = l.bareTokens := by
  by_cases hend : l.skipGap.rest = []
  · rw [bareTokens_of_end hend, bareTokens_of_end (h.trans hend)]
  · have hlt := length_next_lt hend
    rw [← List.append_nil l.skipGap.rest] at h
    obtain ⟨htoken, hrest⟩ := read_append breaks_nil h hend
    rw [List.append_nil] at h hrest
    rw [bareTokens_of_token hend, bareTokens_of_token (h ▸ hend)]
    exact List.cons_eq_cons.2 ⟨htoken, bareTokens_congr (skipGap_congr (congrArg _ hrest))⟩
termination_by l.rest.length

/-- **The tokens of a text come first**, and those of what stands after it follow. -/
theorem bareTokens_append {l j : Lexer} {tail : List Char} (htail : Breaks tail)
    (hj : j.rest = l.rest ++ tail) : j.bareTokens = l.bareTokens ++ (ofChars tail).bareTokens := by
  have hgap := skipGap_append htail hj
  by_cases hend : l.skipGap.rest = []
  · rw [if_pos hend] at hgap
    rw [bareTokens_of_end hend, List.nil_append]
    exact bareTokens_congr hgap
  · have hlt := length_next_lt hend
    rw [if_neg hend] at hgap
    obtain ⟨htoken, hrest⟩ := read_append htail hgap hend
    have hnext : j.skipGap.rest ≠ [] := by simp [hgap, hend]
    rw [bareTokens_of_token hend, bareTokens_of_token hnext, List.cons_append]
    exact List.cons_eq_cons.2 ⟨htoken, bareTokens_append htail hrest⟩
termination_by l.rest.length

theorem bareTokens_newline (cs : List Char) :
    (ofChars ('\n' :: cs)).bareTokens = (ofChars cs).bareTokens :=
  bareTokens_congr (skipGap_congr (List.dropWhile_cons_of_pos (by decide)))

theorem bareTokens_semicolon : (ofChars [';']).bareTokens = [Token.semicolon] := by decide +kernel

/-- **A semicolon on a line of its own** adds its own token, and changes no other. -/
theorem bareTokens_barrier (first second : ByteArray) :
    (ofBytes (first ++ "\n;\n".toUTF8 ++ second)).bareTokens =
      (ofBytes first).bareTokens ++ Token.semicolon :: (ofBytes second).bareTokens := by
  have hbarrier : "\n;\n".toUTF8.toList = [10, 59, 10] := by decide +kernel
  have hchars : Text.decode (first ++ "\n;\n".toUTF8 ++ second).toList =
      Text.decode first.toList ++ '\n' :: ([';'] ++ '\n' :: Text.decode second.toList) := by
    rw [Text.toList_append, Text.toList_append, hbarrier, List.append_assoc]
    simp only [List.cons_append, List.nil_append]
    rw [Text.decode_append (by decide), Text.decode_ascii (by decide), Text.decode_ascii (by decide)]
    rfl
  have hbreaks : ∀ cs, Breaks ('\n' :: cs) := fun cs c hc => (Option.some.inj hc).symm
  calc (ofBytes (first ++ "\n;\n".toUTF8 ++ second)).bareTokens
    _ = (ofBytes first).bareTokens ++
          (ofChars ('\n' :: ([';'] ++ '\n' :: Text.decode second.toList))).bareTokens :=
        bareTokens_append (hbreaks _) hchars
    _ = (ofBytes first).bareTokens ++ ((ofChars [';']).bareTokens ++
          (ofChars ('\n' :: Text.decode second.toList)).bareTokens) := by
        rw [bareTokens_newline]
        exact congrArg _ (bareTokens_append (l := ofChars [';']) (hbreaks _) rfl)
    _ = (ofBytes first).bareTokens ++ Token.semicolon :: (ofBytes second).bareTokens := by
        rw [bareTokens_semicolon, bareTokens_newline]
        rfl

end Lexer

end Kaleidoscope
