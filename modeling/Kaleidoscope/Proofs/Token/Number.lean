/-
  The tokens of numbers.

  - `runValue`, `runValue_eq`: the value of a run of digits with at most one dot, which is that of the
    decimal that is rounded;
  - `Readable`: a run with at most one dot and a digit, which does not round to infinity;
  - `ofRun?_eq_none_iff`, `isNearest_of_ofRun?`: a run stands for no number if it has no digit or
    rounds to infinity, and for the nearest number otherwise;
  - `read_number`: a run of digits and dots is read whole;
  - `Token.Refused`: a token that cannot be read, by the wording of its error;
  - `next_number`: which runs are refused, with which error, and what number the others stand for.
-/
import Kaleidoscope.Proofs.Binary64.Layout
import Kaleidoscope.Proofs.Binary64.Value
import Kaleidoscope.Proofs.Token.Places

namespace Kaleidoscope

/-! ## Values of runs -/

/-- The digits of a run before the dot. -/
def wholePart (run : List Char) : List Char := run.takeWhile (· != '.')

/-- The digits of a run behind the dot. -/
def fractionPart (run : List Char) : List Char := (run.dropWhile (· != '.')).drop 1

/-- The value of a run of digits with at most one dot. -/
def runValue (run : List Char) : ℚ :=
  valueOf (wholePart run) + valueOf (fractionPart run) / 10 ^ (fractionPart run).length

section
variable {run : List Char}

/-- The value of a run is that of the decimal that is rounded. -/
theorem runValue_eq (run : List Char) :
    let x := Decimal.ofDigits (wholePart run) (fractionPart run)
    runValue run = x.numerator / x.denominator := by
  intro x
  have hvalue : x.coefficient =
      valueOf (wholePart run) * 10 ^ (fractionPart run).length + valueOf (fractionPart run) := by
    show valueOf (wholePart run ++ fractionPart run) = _
    rw [valueOf, Nat.ofDigitChars_append, Nat.ofDigitChars_eq_ofDigitChars_zero, Nat.mul_comm]
  have hexponent : (-x.exponent).toNat = (fractionPart run).length := by
    show (- -((fractionPart run).length : Int)).toNat = _
    rw [neg_neg, Int.toNat_natCast]
  have hnumerator : x.numerator = x.coefficient := by
    have hnone : x.exponent.toNat = 0 :=
      Int.toNat_of_nonpos (Int.neg_nonpos_of_nonneg (Int.natCast_nonneg _))
    rw [Decimal.numerator, hnone]
    exact Nat.mul_one _
  have hten : (10 : ℚ) ^ (fractionPart run).length ≠ 0 := pow_ne_zero _ (by norm_num)
  rw [hnumerator, hvalue, Decimal.denominator, hexponent, Nat.pow_eq]
  push_cast
  rw [add_div, mul_div_assoc, div_self hten, mul_one]
  rfl

/-- A run with at most one dot has no digit if it has none on either side of the dot. -/
theorem no_digit_iff (hinside : ∀ c ∈ run, c.isDigit = true ∨ c = '.') (hdots : run.count '.' ≤ 1) :
    wholePart run = [] ∧ fractionPart run = [] ↔ ∀ c ∈ run, c.isDigit = false := by
  cases run with
  | nil => simp [wholePart, fractionPart]
  | cons c cs =>
    by_cases hc : c = '.'
    · subst hc
      rw [List.count_cons_self] at hdots
      simp only [wholePart, fractionPart, List.takeWhile_cons, List.dropWhile_cons, bne_self_eq_false,
        Bool.false_eq_true, if_false, List.drop_one, List.tail_cons, true_and]
      constructor
      · rintro rfl c hc
        rw [List.mem_singleton.1 hc]
        rfl
      · intro hnone
        refine List.eq_nil_iff_forall_not_mem.2 fun c hc => ?_
        -- what is no digit is a second dot
        have hmem := List.mem_cons_of_mem '.' hc
        have hdot : c = '.' := (hinside c hmem).resolve_left (by rw [hnone c hmem]; exact nofun)
        have hcount := List.count_pos_iff.2 (hdot ▸ hc)
        omega
    · have hdigit := (hinside c List.mem_cons_self).resolve_right hc
      have hfirst : wholePart (c :: cs) ≠ [] := by
        rw [wholePart, List.takeWhile_cons, if_pos (bne_iff_ne.2 hc)]
        exact List.cons_ne_nil _ _
      refine ⟨fun hnone => absurd hnone.1 hfirst, fun hnone => ?_⟩
      rw [hnone c List.mem_cons_self] at hdigit
      cases hdigit

/-! ## Numbers of runs -/

/-- A run with at most one dot and a digit, which does not round to infinity. -/
structure Readable (run : List Char) : Prop where
  dots : run.count '.' < 2
  digit : ∃ c ∈ run, c.isDigit = true
  finite : runValue run < Binary64.overflow

theorem not_readable (h : (∀ c ∈ run, c.isDigit = false) ∨ Binary64.overflow ≤ runValue run) :
    ¬Readable run := by
  intro hreadable
  obtain ⟨c, hc, hdigit⟩ := hreadable.digit
  rcases h with hnone | hinfinite
  · rw [hnone c hc] at hdigit
    cases hdigit
  · exact absurd hreadable.finite (not_lt.2 hinfinite)

/-- **A run stands for no number** if it has no digit or rounds to infinity. -/
theorem ofRun?_eq_none_iff (hinside : ∀ c ∈ run, c.isDigit = true ∨ c = '.')
    (hdots : run.count '.' < 2) :
    Binary64.ofRun? run = none ↔
      (∀ c ∈ run, c.isDigit = false) ∨ Binary64.overflow ≤ runValue run := by
  have hfinite := Binary64.nearestRank_finite
    (Decimal.ofDigits (wholePart run) (fractionPart run)).numerator
    (d := (Decimal.ofDigits (wholePart run) (fractionPart run)).denominator)
    (Nat.pow_pos (by decide))
  rw [← runValue_eq] at hfinite
  rw [← no_digit_iff hinside (Nat.le_of_lt_succ hdots), ← not_lt, ← hfinite]
  unfold Binary64.ofRun?
  simp only [Bool.and_eq_true, List.isEmpty_iff]
  split
  · rename_i hnone
    exact ⟨fun _ => .inl hnone, fun _ => rfl⟩
  · rename_i hdigit
    split
    · rename_i hbound
      exact ⟨nofun, fun h => absurd hbound (h.resolve_left hdigit)⟩
    · rename_i hbound
      exact ⟨fun _ => .inr hbound, fun _ => rfl⟩

/-- **A run stands for the number nearest to its value**, which has no sign. -/
theorem isNearest_of_ofRun? {x : Binary64} (h : Binary64.ofRun? run = some x) :
    x.negative = false ∧ Binary64.IsNearest (runValue run) x := by
  unfold Binary64.ofRun? at h
  dsimp only at h
  split at h
  · cases h
  · split at h
    · rename_i hfinite
      cases h
      rw [runValue_eq]
      exact ⟨(Binary64.ofRank_spec hfinite).2,
        Binary64.isNearest_ofRank (Nat.pow_pos (by decide)) hfinite⟩
    · cases h

end

/-! ## Tokens of runs -/

/-- The token cannot be read: it carries an error of the lexer about its text, at its own place and
with this wording. -/
def Token.Refused (t : Token) (wording : String) : Prop :=
  ∃ loc problem, t.loc = some loc ∧ t.kind = .malformed (some (.lexical loc problem t.text)) ∧
    problem.message = wording

theorem Token.refused_iff {t : Token} {loc : Location} {problem : LexicalProblem}
    (hloc : t.loc = some loc) (h : t.kind = .malformed (some (.lexical loc problem t.text)))
    (wording : String) : t.Refused wording ↔ problem.message = wording := by
  constructor
  · rintro ⟨loc', problem', -, hkind, hmessage⟩
    rw [h] at hkind
    cases hkind
    exact hmessage
  · exact fun hmessage => ⟨loc, problem, hloc, h, hmessage⟩

theorem Token.not_refused {t : Token} {x : Binary64} (h : t.kind = .number x) (wording : String) :
    ¬t.Refused wording := by
  rintro ⟨loc, problem, -, hkind, -⟩
  rw [h] at hkind
  cases hkind

namespace Lexer

/-- A run is refused for its dots, or for its value, or it stands for a number. -/
theorem numberToken_cases {run : List Char} (hinside : ∀ c ∈ run, c.isDigit = true ∨ c = '.')
    (loc : Location) :
    let t := numberToken run loc
    let refused problem := t.kind = .malformed (some (.lexical loc problem t.text))
    2 ≤ run.count '.' ∧ refused .numberFormat ∨
      run.count '.' < 2 ∧
        ((∀ c ∈ run, c.isDigit = false) ∨ Binary64.overflow ≤ runValue run) ∧
          refused .numberValue ∨
      Readable run ∧ ∃ x, Binary64.ofRun? run = some x ∧ t.kind = .number x := by
  intro t refused
  simp only [refused, t, text_numberToken]
  unfold numberToken
  dsimp only
  by_cases hdots : 1 < run.count '.'
  · rw [if_pos hdots]
    exact .inl ⟨hdots, rfl⟩
  · have hfew : run.count '.' < 2 := Nat.lt_of_not_le hdots
    rw [if_neg hdots]
    cases hrun : Binary64.ofRun? run with
    | none => exact .inr (.inl ⟨hfew, (ofRun?_eq_none_iff hinside hfew).1 hrun, rfl⟩)
    | some x =>
      have hsome := mt (ofRun?_eq_none_iff hinside hfew).2 (by rw [hrun]; exact Option.some_ne_none x)
      obtain ⟨hdigit, hfinite⟩ := not_or.1 hsome
      push Not at hdigit hfinite
      refine .inr (.inr ⟨⟨hfew, ?_, hfinite⟩, x, rfl, rfl⟩)
      exact hdigit.imp fun c hc => ⟨hc.1, Bool.eq_true_of_not_eq_false hc.2⟩

/-- **A run of digits and dots is read whole**, if the text does not go on with one. -/
theorem read_number {l : Lexer} {run rest : List Char} (hrest : l.rest = run ++ rest)
    (hrun : run ≠ []) (hinside : ∀ c ∈ run, c.isDigit = true ∨ c = '.')
    (hends : ∀ c ∈ rest.head?, ¬(c.isDigit = true ∨ c = '.')) :
    l.read.1 = numberToken run l.loc ∧ l.read.2.rest = rest := by
  have hall : ∀ c ∈ run, inNumber c = true := fun c hc => inNumber_iff.2 (hinside c hc)
  have hstop : ∀ c ∈ rest.head?, inNumber c = false := fun c hc =>
    Bool.eq_false_iff.2 (mt inNumber_iff.1 (hends c hc))
  obtain ⟨htaken, hleft⟩ := split_unique all_takeWhile hall head?_dropWhile hstop
    (List.takeWhile_append_dropWhile.trans hrest)
  obtain ⟨c, cs, rfl⟩ := List.exists_cons_of_ne_nil hrun
  have hletter : Text.isLetter c = false := by
    rcases hinside c List.mem_cons_self with hdigit | rfl
    · exact isLetter_eq_false (.inl hdigit)
    · decide
  have hread : l.read = (numberToken (l.run inNumber) l.loc, l.afterRun inNumber) := by
    unfold read
    rw [hrest, List.cons_append]
    dsimp only
    rw [hletter, if_neg Bool.false_ne_true, if_pos (hall c List.mem_cons_self)]
  rw [hread]
  exact ⟨congrArg (numberToken · l.loc) htaken, hleft⟩

/-- **Numbers are accepted and valued exactly.** A run of digits and dots that the text does not go
on is one token. It is refused for its format if it has two dots or more. Otherwise it is refused
for its value if it has no digit, or if it rounds to infinity. All other runs are numbers without a
sign, each of them the one that is nearest to the value of the run. -/
theorem next_number {l : Lexer} {run rest : List Char} (hrest : l.skipGap.rest = run ++ rest)
    (hrun : run ≠ []) (hinside : ∀ c ∈ run, c.isDigit = true ∨ c = '.')
    (hends : ∀ c ∈ rest.head?, ¬(c.isDigit = true ∨ c = '.')) :
    let t := l.next.1
    t.text = String.ofList run ∧ l.next.2.rest = rest ∧
      (t.Refused "wrong number format" ↔ 2 ≤ run.count '.') ∧
      (t.Refused "invalid number" ↔ run.count '.' < 2 ∧
        ((∀ c ∈ run, c.isDigit = false) ∨ Binary64.overflow ≤ runValue run)) ∧
      ((∃ x, t.kind = .number x) ↔ Readable run) ∧
      ∀ x, t.kind = .number x ↔
        Readable run ∧ x.negative = false ∧ Binary64.IsNearest (runValue run) x := by
  obtain ⟨htoken, hleft⟩ := read_number hrest hrun hinside hends
  intro t
  have ht : t = numberToken run l.skipGap.loc := htoken
  have hloc : t.loc = some l.skipGap.loc := l.skipGap.loc_read
  refine ⟨by rw [ht, text_numberToken], hleft, ?_⟩
  have hcases := numberToken_cases hinside l.skipGap.loc
  rw [← ht] at hcases
  rcases hcases with ⟨hdots, hkind⟩ | ⟨hdots, hvalue, hkind⟩ | ⟨hreadable, y, hy, hkind⟩
  · -- two dots or more
    have hnot : ¬Readable run := fun h => absurd hdots (Nat.not_le.2 h.dots)
    rw [Token.refused_iff hloc hkind, Token.refused_iff hloc hkind, hkind]
    exact ⟨iff_of_true rfl hdots, iff_of_false (by decide) fun h => absurd hdots (Nat.not_le.2 h.1),
      iff_of_false nofun hnot, fun x => iff_of_false nofun fun h => hnot h.1⟩
  · -- no digit, or no finite value
    have hnot := not_readable hvalue
    rw [Token.refused_iff hloc hkind, Token.refused_iff hloc hkind, hkind]
    exact ⟨iff_of_false (by decide) (Nat.not_le.2 hdots), iff_of_true rfl ⟨hdots, hvalue⟩,
      iff_of_false nofun hnot, fun x => iff_of_false nofun fun h => hnot h.1⟩
  · -- a number
    obtain ⟨hsign, hnearest⟩ := isNearest_of_ofRun? hy
    refine ⟨iff_of_false (Token.not_refused hkind _) (Nat.not_le.2 hreadable.dots),
      iff_of_false (Token.not_refused hkind _) fun h => not_readable h.2 hreadable,
      iff_of_true ⟨y, hkind⟩ hreadable, fun x => ⟨fun hx => ?_, fun ⟨_, hxsign, hxnearest⟩ => ?_⟩⟩
    · rw [hkind] at hx
      cases hx
      exact ⟨hreadable, hsign, hnearest⟩
    · rw [hkind, hnearest.unique hxnearest hsign hxsign]

/-- Halfway between two numbers a run goes to the even one. -/
theorem next_number_halfway :
    let l := ofChars "# 2 ^ 53 + 1\n9007199254740993;".toList
    let run := "9007199254740993".toList
    l.skipGap.rest = run ++ [';'] ∧ l.next.1.kind = .number ⟨0x4340000000000000⟩ ∧
      Readable run ∧ Binary64.IsNearest (runValue run) ⟨0x4340000000000000⟩ := by
  intro l run
  have hrest : l.skipGap.rest = run ++ [';'] := by decide +kernel
  have hkind : l.next.1.kind = .number ⟨0x4340000000000000⟩ := by decide +kernel
  have hdigits : run.all Char.isDigit = true := by decide +kernel
  obtain ⟨-, -, -, -, -, hnumber⟩ := next_number hrest (List.cons_ne_nil _ _)
    (fun c hc => .inl (List.all_eq_true.1 hdigits c hc)) (by rintro _ ⟨⟩; simp)
  obtain ⟨hreadable, -, hnearest⟩ := (hnumber _).1 hkind
  exact ⟨hrest, hkind, hreadable, hnearest⟩

end Lexer

end Kaleidoscope
