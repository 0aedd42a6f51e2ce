/-
  The decimal text of a number tells the number.

  - `split_unique`: a list has one split into a part that satisfies a condition and a rest that does
    not start so;
  - `Numeral`: a decimal text in parts: the digits before and behind the point, and the power of ten;
  - `Numeral.text_injective`: the text determines the parts;
  - `digits_spec`: the digits of a number stand for a decimal that is nearest to it;
  - `Layout.numeral`, `toList_write`, `rankOf_numeral`: the parts of what a layout writes, and the
    number that they stand for;
  - `write_digits_spec`, `eq_of_write_digits`: what the text of a number looks like. No two numbers
    have the same, whatever the layout.
-/
import Kaleidoscope.Binary64.Layout
import Kaleidoscope.Proofs.Binary64.Shortest
import Mathlib.Data.List.DropRight

namespace Kaleidoscope

/-- A list splits in one way into elements that satisfy `p` and a rest that starts otherwise. -/
theorem split_unique {α : Type} {p : α → Bool} {as as' bs bs' : List α} (has : ∀ a ∈ as, p a = true)
    (has' : ∀ a ∈ as', p a = true) (hbs : ∀ b ∈ bs.head?, p b = false)
    (hbs' : ∀ b ∈ bs'.head?, p b = false) (h : as ++ bs = as' ++ bs') : as = as' ∧ bs = bs' := by
  have hfirst : ∀ {as bs : List α}, (∀ a ∈ as, p a = true) → (∀ b ∈ bs.head?, p b = false) →
      (as ++ bs).takeWhile p = as := by
    intro as bs has hbs
    rw [List.takeWhile_append_of_pos has]
    cases bs with
    | nil => simp
    | cons b bs => simp [hbs b rfl]
  have heq : as = as' := by rw [← hfirst has hbs, h, hfirst has' hbs']
  subst heq
  exact ⟨rfl, List.append_cancel_left h⟩

theorem bne_of_holds {p : Char → Bool} {c d : Char} (hc : p c = true) (hd : p d = false) :
    (c != d) = true := by
  rw [bne_iff_ne]
  rintro rfl
  rw [hc] at hd
  cases hd

/-! ## Decimal texts -/

/-- The number that a run of digits stands for. -/
abbrev valueOf (ds : List Char) : Nat := Nat.ofDigitChars 10 ds 0

/-- Every character is a digit. -/
def AreDigits (ds : List Char) : Prop := ∀ c ∈ ds, c.isDigit = true

theorem areDigits_append {ds es : List Char} : AreDigits (ds ++ es) ↔ AreDigits ds ∧ AreDigits es :=
  List.forall_mem_append

theorem areDigits_zeros (k : Nat) : AreDigits (List.replicate k '0') := fun c hc => by
  rw [List.eq_of_mem_replicate hc]
  rfl

theorem areDigits_toDigits (n : Nat) : AreDigits (Nat.toDigits 10 n) := fun _ hc =>
  Nat.isDigit_of_mem_toDigits (by decide) (by decide) hc

theorem AreDigits.ne {ds : List Char} (h : AreDigits ds) {c : Char} (hc : c.isDigit = false) :
    ∀ d ∈ ds, (d != c) = true := fun d hd => bne_of_holds (h d hd) hc

theorem valueOf_zeros_append (k : Nat) (ds : List Char) :
    valueOf (List.replicate k '0' ++ ds) = valueOf ds := by
  rw [valueOf, Nat.ofDigitChars_append, Nat.ofDigitChars_replicate_zero, Nat.mul_zero]

theorem valueOf_append_zeros (ds : List Char) (k : Nat) :
    valueOf (ds ++ List.replicate k '0') = valueOf ds * 10 ^ k := by
  rw [valueOf, Nat.ofDigitChars_append, Nat.ofDigitChars_replicate_zero, Nat.mul_comm]

/-- The text of a power of ten tells the power. -/
theorem Layout.exponent_injective {x y : Int} (h : Layout.exponent x = Layout.exponent y) :
    x = y := by
  have hlist := congrArg String.toList h
  simp only [Layout.exponent, String.toList_ofList, List.cons.injEq] at hlist
  obtain ⟨hsign, hdigits⟩ := hlist
  have hvalue := congrArg valueOf hdigits
  rw [valueOf_zeros_append, valueOf_zeros_append, valueOf, valueOf, Nat.ofDigitChars_ten_toDigits,
    Nat.ofDigitChars_ten_toDigits] at hvalue
  by_cases hx : x < 0 <;> by_cases hy : y < 0 <;>
    simp only [hx, hy, if_true, if_false, Char.reduceEq] at hsign
  · omega
  · omega

/-- The characters of a decimal text. -/
def isNumeric (c : Char) : Bool := c.isDigit || c == '.' || c == 'e' || c == '+' || c == '-'

theorem AreDigits.isNumeric {ds : List Char} (h : AreDigits ds) :
    ∀ c ∈ ds, isNumeric c = true := by
  intro c hc
  simp only [Kaleidoscope.isNumeric, h c hc, Bool.true_or]

theorem Layout.isNumeric_exponent (x : Int) :
    ∀ c ∈ (Layout.exponent x).toList, isNumeric c = true := by
  rw [Layout.exponent, String.toList_ofList, List.forall_mem_cons]
  constructor
  · split <;> rfl
  · exact (areDigits_append.2 ⟨areDigits_zeros _, areDigits_toDigits _⟩).isNumeric

/-- A decimal text in parts: the digits before the point, those behind it, and the power of ten. -/
structure Numeral where
  whole : List Char
  fraction : List Char
  power : Option Int

namespace Numeral

/-- A point and the digits behind it, if there are any. -/
def pointText : List Char → List Char
  | [] => []
  | d :: ds => '.' :: d :: ds

/-- A power of ten, if there is one. -/
def powerText : Option Int → List Char
  | none => []
  | some x => 'e' :: (Layout.exponent x).toList

/-- The text. -/
def text (n : Numeral) : List Char := (n.whole ++ pointText n.fraction) ++ powerText n.power

/-- The decimal that the text stands for. -/
def decimal (n : Numeral) : Decimal :=
  ⟨valueOf (n.whole ++ n.fraction), n.power.getD 0 - n.fraction.length⟩

/-- Both runs consist of digits, and there is a digit before the point. -/
structure Proper (n : Numeral) : Prop where
  whole : AreDigits n.whole
  fraction : AreDigits n.fraction
  nonempty : n.whole ≠ []

theorem head_pointText (ds : List Char) : ∀ c ∈ (pointText ds).head?, (c != '.') = false := by
  cases ds with
  | nil => exact nofun
  | cons d ds => rintro c ⟨⟩; rfl

theorem head_powerText (power : Option Int) :
    ∀ c ∈ (powerText power).head?, (c != 'e') = false := by
  cases power with
  | none => exact nofun
  | some x => rintro c ⟨⟩; rfl

theorem pointText_injective {ds es : List Char} (h : pointText ds = pointText es) : ds = es := by
  cases ds <;> cases es
  · rfl
  · cases h
  · cases h
  · exact List.tail_eq_of_cons_eq h

theorem powerText_injective {x y : Option Int} (h : powerText x = powerText y) : x = y := by
  cases x <;> cases y
  · rfl
  · cases h
  · cases h
  · rw [Layout.exponent_injective (String.toList_inj.1 (List.tail_eq_of_cons_eq h))]

theorem Proper.mantissa {n : Numeral} (h : n.Proper) :
    ∀ c ∈ n.whole ++ pointText n.fraction, (c != 'e') = true := by
  have hfraction := h.fraction
  refine List.forall_mem_append.2 ⟨h.whole.ne rfl, ?_⟩
  generalize n.fraction = ds at hfraction
  cases ds with
  | nil => exact List.forall_mem_nil _
  | cons d ds => exact List.forall_mem_cons.2 ⟨rfl, hfraction.ne rfl⟩

/-- **The text of a numeral tells its parts.** -/
theorem text_injective {n m : Numeral} (hn : n.Proper) (hm : m.Proper) (h : n.text = m.text) :
    n = m := by
  obtain ⟨hmantissa, hpower⟩ := split_unique hn.mantissa hm.mantissa (head_powerText n.power)
    (head_powerText m.power) h
  obtain ⟨hwhole, hfraction⟩ := split_unique (hn.whole.ne rfl) (hm.whole.ne rfl)
    (head_pointText n.fraction) (head_pointText m.fraction) hmantissa
  obtain ⟨whole, fraction, power⟩ := n
  obtain ⟨whole', fraction', power'⟩ := m
  rw [show whole = whole' from hwhole, show fraction = fraction' from pointText_injective hfraction,
    show power = power' from powerText_injective hpower]

theorem Proper.isNumeric_text {n : Numeral} (h : n.Proper) :
    ∀ c ∈ n.text, isNumeric c = true := by
  obtain ⟨whole, fraction, power⟩ := n
  refine List.forall_mem_append.2 ⟨List.forall_mem_append.2 ⟨h.whole.isNumeric, ?_⟩, ?_⟩
  · cases fraction with
    | nil => exact List.forall_mem_nil _
    | cons d ds => exact List.forall_mem_cons.2 ⟨rfl, h.fraction.isNumeric⟩
  · cases power with
    | none => exact List.forall_mem_nil _
    | some x => exact List.forall_mem_cons.2 ⟨rfl, Layout.isNumeric_exponent x⟩

theorem Proper.head_text {n : Numeral} (h : n.Proper) :
    ∃ c cs, n.text = c :: cs ∧ c.isDigit = true := by
  obtain ⟨c, cs, hwhole⟩ := List.exists_cons_of_ne_nil h.nonempty
  refine ⟨c, cs ++ pointText n.fraction ++ powerText n.power, ?_, h.whole c ?_⟩
  · rw [text, hwhole]
    rfl
  · rw [hwhole]
    exact List.mem_cons_self

end Numeral

/-! ## The digits of a number -/

/-- What is dropped at the end of a list of digits are zeros. -/
theorem exists_zeros (ds : List Char) :
    ∃ k, ds = ds.rdropWhile (· == '0') ++ List.replicate k '0' := by
  have hzeros : ∀ c ∈ ds.rtakeWhile (· == '0'), c = '0' := fun c hc => by
    have hzero := List.mem_rtakeWhile_imp hc
    exact eq_of_beq hzero
  refine ⟨(ds.rtakeWhile (· == '0')).length, ?_⟩
  rw [← List.eq_replicate_of_mem hzeros, List.rdropWhile_append_rtakeWhile]

namespace Binary64

/-- The digits of a rank stand for a decimal that is nearest to it. -/
theorem digits_spec (rank : Nat) :
    (digits rank).1 ≠ [] ∧ AreDigits (digits rank).1 ∧
      rankOf ⟨valueOf (digits rank).1, (digits rank).2 + 1 - (digits rank).1.length⟩ = rank := by
  unfold digits
  by_cases hzero : rank = 0
  · rw [if_pos hzero, hzero]
    exact ⟨List.cons_ne_nil _ _, fun c hc => by rw [List.mem_singleton.1 hc]; rfl, rankOf_zero _⟩
  · rw [if_neg hzero]
    have hreads := rankOf_shortest (Nat.pos_of_ne_zero hzero)
    generalize shortest rank = x at hreads ⊢
    obtain ⟨c, e⟩ := x
    simp only
    have hdigits := areDigits_toDigits c
    have hvalue : valueOf (Nat.toDigits 10 c) = c := Nat.ofDigitChars_ten_toDigits
    generalize Nat.toDigits 10 c = all at hdigits hvalue ⊢
    obtain ⟨zeros, hall⟩ := exists_zeros all
    show all.rdropWhile (· == '0') ≠ [] ∧ AreDigits (all.rdropWhile (· == '0')) ∧
      rankOf ⟨valueOf (all.rdropWhile (· == '0')),
        e + all.length - 1 + 1 - (all.rdropWhile (· == '0')).length⟩ = rank
    generalize all.rdropWhile (· == '0') = ds at hall ⊢
    subst hall
    rw [valueOf_append_zeros] at hvalue
    rw [← hvalue, rankOf_shift] at hreads
    refine ⟨?_, (areDigits_append.1 hdigits).1, ?_⟩
    · rintro rfl
      rw [show valueOf [] = 0 from rfl, rankOf_zero] at hreads
      exact hzero hreads.symm
    · rw [← hreads, List.length_append, List.length_replicate]
      congr 2
      omega

end Binary64

/-! ## What a layout writes -/

namespace Layout
variable (layout : Layout) {ds : List Char}

/-- Digits, filled up to `k` with zeros. -/
def padded (k : Nat) (ds : List Char) : List Char := ds ++ List.replicate (k - ds.length) '0'

/-- The digits behind the point. Where there are none, a layout may want a zero. -/
def fraction (ds : List Char) : List Char :=
  if ds = [] ∧ layout.pointed = true then ['0'] else ds

/-- The parts of digits with a point after the first `k`, and of a power of ten. -/
def numeralAt (k : Nat) (ds : List Char) (power : Option Int) : Numeral :=
  ⟨(padded k ds).take k, layout.fraction ((padded k ds).drop k), power⟩

/-- The parts of what a layout writes. -/
def numeral (ds : List Char) (x : Int) : Numeral :=
  if x < layout.least ∨ layout.bound ≤ x then layout.numeralAt 1 ds (some x)
  else if x < 0 then ⟨['0'], List.replicate (-x - 1).toNat '0' ++ ds, none⟩
  else layout.numeralAt (x.toNat + 1) ds none

theorem areDigits_padded (h : AreDigits ds) (k : Nat) : AreDigits (padded k ds) :=
  areDigits_append.2 ⟨h, areDigits_zeros _⟩

theorem length_padded (k : Nat) (ds : List Char) : (padded k ds).length = max k ds.length := by
  rw [padded, List.length_append, List.length_replicate]
  omega

theorem toList_point (k : Nat) (ds : List Char) :
    (layout.point k ds).toList =
      (padded k ds).take k ++ Numeral.pointText (layout.fraction ((padded k ds).drop k)) := by
  show (String.ofList ((padded k ds).take k) ++ if ((padded k ds).drop k).isEmpty then
      (if layout.pointed then ".0" else "") else "." ++ String.ofList ((padded k ds).drop k)).toList
    = _
  rw [String.toList_append, String.toList_ofList]
  congr 1
  generalize (padded k ds).drop k = rest
  unfold fraction
  cases rest with
  | nil => cases layout.pointed <;> simp [Numeral.pointText]
  | cons d ds => simp [Numeral.pointText]

theorem proper_numeralAt (h : AreDigits ds) {k : Nat} (hk : 0 < k) (power : Option Int) :
    (layout.numeralAt k ds power).Proper where
  whole c hc := areDigits_padded h k c (List.mem_of_mem_take hc)
  fraction c hc := by
    have hfraction : c ∈ layout.fraction ((padded k ds).drop k) := hc
    unfold fraction at hfraction
    split at hfraction
    · rw [List.mem_singleton.1 hfraction]
      rfl
    · exact areDigits_padded h k c (List.mem_of_mem_drop hfraction)
  nonempty hnil := by
    have hlength := congrArg List.length (show (padded k ds).take k = [] from hnil)
    rw [List.length_take, length_padded, List.length_nil] at hlength
    omega

/-- Where the point stands makes up for the power of ten. -/
theorem rankOf_numeralAt (k : Nat) (ds : List Char) (power : Option Int) :
    Binary64.rankOf (layout.numeralAt k ds power).decimal =
      Binary64.rankOf ⟨valueOf ds, power.getD 0 + k - ds.length⟩ := by
  unfold Numeral.decimal numeralAt
  by_cases hlength : ds.length ≤ k
  · -- zeros are appended, and one more for a point
    have hfull : (padded k ds).length = k := by rw [length_padded, Nat.max_eq_left hlength]
    have hzeros : ∀ j, valueOf (padded k ds ++ List.replicate j '0') =
        valueOf ds * 10 ^ (k - ds.length + j) := by
      intro j
      rw [padded, List.append_assoc, List.replicate_append_replicate, valueOf_append_zeros]
    obtain ⟨j, hj⟩ : ∃ j, layout.fraction [] = List.replicate j '0' := by
      unfold fraction
      cases layout.pointed
      · exact ⟨0, rfl⟩
      · exact ⟨1, rfl⟩
    simp only [List.take_of_length_le (Nat.le_of_eq hfull),
      List.drop_eq_nil_of_le (Nat.le_of_eq hfull), hj, hzeros, Binary64.rankOf_shift,
      List.length_replicate]
    congr 2
    omega
  · -- the point stands among the digits
    have hsame : padded k ds = ds := by
      rw [padded, Nat.sub_eq_zero_of_le (Nat.le_of_not_le hlength), List.replicate_zero,
        List.append_nil]
    have hrest : ds.drop k ≠ [] := fun hnil => hlength (List.drop_eq_nil_iff.1 hnil)
    have hfraction : layout.fraction (ds.drop k) = ds.drop k :=
      if_neg fun hnone => hrest hnone.1
    simp only [hsame, hfraction, List.take_append_drop, List.length_drop]
    congr 2
    omega

theorem toList_write (hds : ds ≠ []) (x : Int) :
    (layout.write ds x).toList = (layout.numeral ds x).text := by
  unfold write numeral
  split
  · rw [String.toList_append, String.toList_append, toList_point, List.append_assoc]
    rfl
  · split
    · rw [String.toList_append, String.toList_ofList]
      obtain ⟨d, es, hes⟩ := List.exists_cons_of_ne_nil
        (List.append_ne_nil_of_right_ne_nil (List.replicate (-x - 1).toNat '0') hds)
      rw [hes]
      simp [Numeral.text, Numeral.pointText, Numeral.powerText]
    · rw [toList_point]
      exact (List.append_nil _).symm

theorem proper_numeral (h : AreDigits ds) (x : Int) : (layout.numeral ds x).Proper := by
  unfold numeral
  split
  · exact layout.proper_numeralAt h (by decide) _
  · split
    · refine ⟨fun c hc => ?_, areDigits_append.2 ⟨areDigits_zeros _, h⟩, List.cons_ne_nil _ _⟩
      rw [List.mem_singleton.1 hc]
      rfl
    · exact layout.proper_numeralAt h (Nat.succ_pos _) _

/-- What a layout writes stands for the number that its digits stand for. -/
theorem rankOf_numeral (ds : List Char) (x : Int) :
    Binary64.rankOf (layout.numeral ds x).decimal =
      Binary64.rankOf ⟨valueOf ds, x + 1 - ds.length⟩ := by
  unfold numeral
  split
  · exact layout.rankOf_numeralAt 1 ds (some x)
  · split
    · rename_i hneg
      have hvalue : valueOf (['0'] ++ (List.replicate (-x - 1).toNat '0' ++ ds)) = valueOf ds := by
        rw [valueOf, Nat.ofDigitChars_append]
        exact valueOf_zeros_append _ ds
      unfold Numeral.decimal
      simp only [hvalue, List.length_append, List.length_replicate, Option.getD_none]
      congr 2
      omega
    · rename_i hneg
      rw [layout.rankOf_numeralAt]
      congr 2
      simp only [Option.getD_none]
      omega

end Layout

namespace Binary64
variable (layout : Layout)

/-- The text of a number starts with a digit, and has digits, a point and a power of ten. -/
theorem write_digits_spec (rank : Nat) :
    ∃ c cs, (layout.write (digits rank).1 (digits rank).2).toList = c :: cs ∧ c.isDigit = true ∧
      ∀ d ∈ c :: cs, isNumeric d = true := by
  obtain ⟨hne, hdigits, -⟩ := digits_spec rank
  have hproper := layout.proper_numeral hdigits (digits rank).2
  obtain ⟨c, cs, htext, hc⟩ := hproper.head_text
  rw [layout.toList_write hne]
  refine ⟨c, cs, htext, hc, ?_⟩
  rw [← htext]
  exact hproper.isNumeric_text

/-- **No two numbers have the same text**, whatever the layout. -/
theorem eq_of_write_digits {r s : Nat}
    (h : layout.write (digits r).1 (digits r).2 = layout.write (digits s).1 (digits s).2) :
    r = s := by
  obtain ⟨hr, hrdigits, hrvalue⟩ := digits_spec r
  obtain ⟨hs, hsdigits, hsvalue⟩ := digits_spec s
  have htext := congrArg String.toList h
  rw [layout.toList_write hr, layout.toList_write hs] at htext
  have hparts := Numeral.text_injective (layout.proper_numeral hrdigits _)
    (layout.proper_numeral hsdigits _) htext
  rw [← hrvalue, ← layout.rankOf_numeral, hparts, layout.rankOf_numeral, hsvalue]

end Binary64

end Kaleidoscope
