/-
  The values of numbers, and the number nearest to a value.

  - `magnitude`, `value`: the value of a number, read off its sign, exponent and fraction;
  - `magnitude_eq`: it is the value of its rank in parts;
  - `IsNearest`: a number is nearest to a value, and in a tie it is the even one;
  - `overflow`: from where on a value rounds to infinity;
  - `isNearest_ofRank`, `IsNearest.unique`: the number of the nearest rank is nearest to the fraction,
    and it is the only one without a sign;
  - `nearestRank_finite`: a fraction has a finite nearest rank if it does not round to infinity.
-/
import Kaleidoscope.Proofs.Binary64.Rounding
import Kaleidoscope.Proofs.Binary64.Shortest
import Mathlib.Algebra.Order.Field.Power
import Mathlib.Tactic.Positivity

namespace Kaleidoscope

/-! ## Fractions -/

theorem gap_cast (a b : Nat) : (gap a b : ℚ) = |(a : ℚ) - b| := by
  rcases Nat.le_total a b with h | h
  · rw [gap, Nat.sub_eq_zero_of_le h, Nat.zero_add, Nat.cast_sub h, abs_sub_comm,
      abs_of_nonneg (sub_nonneg.2 (Nat.cast_le.2 h))]
  · rw [gap, Nat.sub_eq_zero_of_le h, Nat.add_zero, Nat.cast_sub h,
      abs_of_nonneg (sub_nonneg.2 (Nat.cast_le.2 h))]

/-- How far two fractions are apart. -/
theorem abs_div_sub_div {a b c d : Nat} (hb : 0 < b) (hd : 0 < d) :
    |(a / b : ℚ) - c / d| = gap (a * d) (c * b) / (b * d) := by
  have hb' : (0 : ℚ) < b := Nat.cast_pos.2 hb
  have hd' : (0 : ℚ) < d := Nat.cast_pos.2 hd
  rw [div_sub_div _ _ hb'.ne' hd'.ne', abs_div, abs_of_pos (mul_pos hb' hd'), gap_cast,
    Nat.cast_mul, Nat.cast_mul, mul_comm (c : ℚ)]

namespace Binary64

/-! ## Values -/

/-- The value of a rank. Without an exponent the fraction has no leading bit. -/
def magnitude (rank : Nat) : ℚ :=
  let exponent := rank / fractionSize
  let fraction : ℚ := (rank % fractionSize : Nat) / 2 ^ 52
  if exponent = 0 then fraction * 2 ^ (-1022 : ℤ)
  else (1 + fraction) * 2 ^ ((exponent : ℤ) - 1023)

/-- The value of a finite number. -/
def value (x : Binary64) : ℚ := if x.negative then -magnitude x.rank else magnitude x.rank

/-- Neither infinite nor without a value. -/
def IsFinite (x : Binary64) : Prop := x.rank < infinityRank

/-- No finite number is nearer to the value. If one with another value is as near, the number is the
even one of the two. -/
structure IsNearest (q : ℚ) (x : Binary64) : Prop where
  finite : x.IsFinite
  nearest : ∀ y : Binary64, y.IsFinite → |q - x.value| ≤ |q - y.value|
  even : ∀ y : Binary64, y.IsFinite → y.value ≠ x.value → |q - x.value| = |q - y.value| →
    x.rank % 2 = 0

/-- Half a step above the largest finite number, where values begin to round to infinity. -/
def overflow : ℚ := 2 ^ 1024 - 2 ^ 970

theorem unitsPerOne_cast : (unitsPerOne : ℚ) = 2 ^ (unitBits : ℤ) := by
  unfold unitsPerOne
  generalize unitBits = k
  rw [Nat.pow_eq, Nat.cast_pow, zpow_natCast, Nat.cast_ofNat]

theorem fractionSize_cast : (fractionSize : ℚ) = 2 ^ 52 := by
  rw [fractionSize, Nat.pow_eq, Nat.cast_pow, Nat.cast_ofNat, fractionBits]

/-- The value of a significand at a scale. -/
theorem scaled_eq (q s : Nat) :
    ((q * 2 ^ s : Nat) : ℚ) / unitsPerOne = q / 2 ^ 52 * 2 ^ ((s : ℤ) - 1022) := by
  have hbits : (unitBits : ℤ) = 52 + 1022 := rfl
  rw [unitsPerOne_cast, hbits, zpow_add₀ two_ne_zero, zpow_sub₀ two_ne_zero, Nat.cast_mul,
    Nat.cast_pow, zpow_natCast, Nat.cast_ofNat, mul_div_mul_comm]
  rfl

/-- The value of a rank is that of its parts. -/
theorem magnitude_eq (rank : Nat) : magnitude rank = units rank / unitsPerOne := by
  have hunits : units rank = significand rank * 2 ^ scale rank := rfl
  have hparts := Nat.div_add_mod rank fractionSize
  rw [hunits, scaled_eq, magnitude, significand, scale]
  cases hexponent : rank / fractionSize with
  | zero =>
    rw [hexponent, Nat.mul_zero, Nat.zero_add] at hparts
    simp [hparts]
  | succ s =>
    -- the leading bit is a whole fraction
    have hbit : rank - (s + 1 - 1) * fractionSize = fractionSize + rank % fractionSize := by
      rw [hexponent, Nat.mul_succ, Nat.add_assoc, Nat.mul_comm] at hparts
      rw [Nat.add_sub_cancel]
      exact Nat.sub_eq_of_eq_add (hparts.symm.trans (Nat.add_comm _ _))
    have hscale : ((s + 1 - 1 : Nat) : ℤ) - 1022 = ((s + 1 : Nat) : ℤ) - 1023 := by omega
    rw [if_neg (Nat.succ_ne_zero s), hbit, hscale, Nat.cast_add fractionSize, fractionSize_cast, add_div,
      div_self (pow_ne_zero 52 two_ne_zero)]

theorem magnitude_nonneg (rank : Nat) : 0 ≤ magnitude rank := by
  rw [magnitude_eq]
  positivity

theorem magnitude_zero : magnitude 0 = 0 := by simp [magnitude]

/-- How far a fraction and the value of a rank are apart. -/
theorem abs_sub_magnitude (n : Nat) {d : Nat} (hd : 0 < d) (rank : Nat) :
    |(n / d : ℚ) - magnitude rank| =
      gap (n * unitsPerOne) (units rank * d) / (d * unitsPerOne : Nat) := by
  rw [magnitude_eq, abs_div_sub_div hd unitsPerOne_pos, Nat.cast_mul]

/-- The value of a number without a sign grows with its rank. -/
theorem magnitude_lt {rank other : Nat} (h : rank < other) : magnitude rank < magnitude other := by
  rw [magnitude_eq, magnitude_eq]
  exact div_lt_div_of_pos_right (Nat.cast_lt.2 (units_lt h)) (Nat.cast_pos.2 unitsPerOne_pos)

theorem value_of_unsigned {x : Binary64} (h : x.negative = false) : x.value = magnitude x.rank := by
  rw [value, h]
  rfl

theorem eq_of_rank {x y : Binary64} (hx : x.negative = false) (hy : y.negative = false)
    (h : x.rank = y.rank) : x = y := by
  have hbits : ∀ z : Binary64, z.negative = false → z.rank = z.bits.toNat := fun z hz =>
    Nat.mod_eq_of_lt (Nat.lt_of_not_le (of_decide_eq_false hz))
  rw [hbits x hx, hbits y hy, UInt64.toNat_inj] at h
  cases x
  cases y
  exact congrArg Binary64.mk h

/-- A sign brings a number no nearer to a value that has none. -/
theorem abs_sub_value {q : ℚ} (hq : 0 ≤ q) (y : Binary64) :
    |q - magnitude y.rank| ≤ |q - y.value| := by
  have hnonneg := magnitude_nonneg y.rank
  unfold value
  split
  · rw [sub_neg_eq_add, abs_of_nonneg (add_nonneg hq hnonneg)]
    exact abs_le.2 ⟨by linarith, by linarith⟩
  · exact le_refl _

/-! ## The nearest number -/

section
variable {n d : Nat}

/-- No rank has a value nearer to a fraction than the nearest one. -/
theorem magnitude_nearest (n : Nat) (hd : 0 < d) (rank : Nat) :
    |(n / d : ℚ) - magnitude (nearestRank n d)| ≤ |(n / d : ℚ) - magnitude rank| ∧
      (|(n / d : ℚ) - magnitude (nearestRank n d)| = |(n / d : ℚ) - magnitude rank| →
        rank ≠ nearestRank n d → nearestRank n d % 2 = 0) := by
  have hscale : (0 : ℚ) < (d * unitsPerOne : Nat) :=
    Nat.cast_pos.2 (Nat.mul_pos hd unitsPerOne_pos)
  obtain ⟨hnearest, htie⟩ := nearestRank_nearest n hd rank
  rw [abs_sub_magnitude n hd, abs_sub_magnitude n hd, div_le_div_iff_of_pos_right hscale,
    div_left_inj' hscale.ne', Nat.cast_le, Nat.cast_inj]
  exact ⟨hnearest, htie⟩

/-- **The number of the nearest rank is nearest to the fraction.** -/
theorem isNearest_ofRank (hd : 0 < d) (h : nearestRank n d < infinityRank) :
    IsNearest (n / d : ℚ) (ofRank (nearestRank n d)) := by
  obtain ⟨hrank, hsign⟩ := ofRank_spec h
  have hq : (0 : ℚ) ≤ n / d := by positivity
  have hvalue := value_of_unsigned hsign
  rw [hrank] at hvalue
  refine ⟨by rwa [IsFinite, hrank], fun y _ => ?_, fun y _ hne heq => ?_⟩
  · rw [hvalue]
    exact (magnitude_nearest n hd y.rank).1.trans (abs_sub_value hq y)
  · rw [hvalue] at hne heq
    rw [hrank]
    obtain ⟨hnearest, htie⟩ := magnitude_nearest n hd y.rank
    refine htie (le_antisymm hnearest ((abs_sub_value hq y).trans heq.ge)) fun hsame => hne ?_
    -- a number and its negative are as near only if both are zero
    have hzero := (magnitude_nearest n hd 0).1
    rw [← hsame] at hzero heq ⊢
    rw [magnitude_zero, sub_zero, abs_of_nonneg hq] at hzero
    have hnonneg := magnitude_nonneg y.rank
    unfold value at heq ⊢
    split
    · rename_i hnegative
      rw [if_pos hnegative, sub_neg_eq_add, abs_of_nonneg (add_nonneg hq hnonneg)] at heq
      linarith
    · rfl

end

/-- **Only one number without a sign is nearest to a value.** -/
theorem IsNearest.unique {q : ℚ} {x y : Binary64} (hx : IsNearest q x) (hy : IsNearest q y)
    (hxsign : x.negative = false) (hysign : y.negative = false) : x = y := by
  wlog hle : x.rank ≤ y.rank generalizing x y
  · exact (this hy hx hysign hxsign (Nat.le_of_not_le hle)).symm
  refine eq_of_rank hxsign hysign (Nat.le_antisymm hle (Nat.le_of_not_lt fun hlt => ?_))
  have hne : y.value ≠ x.value := by
    rw [value_of_unsigned hxsign, value_of_unsigned hysign]
    exact (magnitude_lt hlt).ne'
  have heq := le_antisymm (hx.nearest y hy.finite) (hy.nearest x hx.finite)
  have hxeven := hx.even y hy.finite hne heq
  have hyeven := hy.even x hx.finite hne.symm heq.symm
  -- the odd number between the two is nearer
  have hbetween : x.rank + 1 < y.rank := by omega
  have hfinite : x.rank + 1 < infinityRank := hbetween.trans hy.finite
  obtain ⟨hrank, hsign⟩ := ofRank_spec hfinite
  have hxmiddle := hx.nearest (ofRank (x.rank + 1)) (by rwa [IsFinite, hrank])
  have hymiddle := hy.nearest (ofRank (x.rank + 1)) (by rwa [IsFinite, hrank])
  rw [value_of_unsigned hsign, hrank] at hxmiddle hymiddle
  rw [value_of_unsigned hxsign] at hxmiddle
  rw [value_of_unsigned hysign] at hymiddle
  have hlower := magnitude_lt (Nat.lt_add_one x.rank)
  have hupper := magnitude_lt hbetween
  rcases le_total q (magnitude (x.rank + 1)) with hbelow | habove
  · rw [abs_of_nonpos (sub_nonpos.2 hbelow)] at hymiddle
    have := (abs_le.1 hymiddle).1
    linarith
  · rw [abs_of_nonneg (sub_nonneg.2 habove)] at hxmiddle
    have := (abs_le.1 hxmiddle).2
    linarith

/-! ## Rounding to infinity -/

/-- Twice the overflow is the value of the largest finite rank and that of the next one. -/
theorem overflow_eq :
    overflow * 2 * unitsPerOne = (units (infinityRank - 1) + units infinityRank : Nat) := by
  have hlargest : infinityRank - 1 = 2045 * fractionSize + (2 * fractionSize - 1) := by decide
  have hinfinity : infinityRank = 2045 * fractionSize + 2 * fractionSize := by decide
  have hsum : 2 * fractionSize - 1 + 2 * fractionSize = 2 ^ 54 - 1 := by decide
  have hone : (unitsPerOne : ℚ) ≠ 0 := Nat.cast_ne_zero.2 (Nat.ne_of_gt unitsPerOne_pos)
  have hexponent : ((2045 : Nat) : ℤ) - 1022 = (53 + 970 : Nat) := rfl
  rw [hlargest, hinfinity, units_of_scale (.inr (by decide)) (by decide),
    units_of_scale (.inr (by decide)) (Nat.le_refl _), ← Nat.add_mul, hsum, ← eq_div_iff hone,
    scaled_eq, hexponent, zpow_natCast, overflow, show 1024 = 54 + 970 from rfl, pow_add, pow_add]
  generalize (2 : ℚ) ^ 970 = t
  norm_num
  ring

/-- **A fraction has a finite nearest rank if it does not round to infinity.** -/
theorem nearestRank_finite (n : Nat) {d : Nat} (hd : 0 < d) :
    nearestRank n d < infinityRank ↔ (n / d : ℚ) < overflow := by
  have hodd : (infinityRank - 1) % 2 = 1 := by decide
  have hnext : infinityRank - 1 + 1 = infinityRank := by decide
  have hscale : (0 : ℚ) < 2 * unitsPerOne := mul_pos two_pos (Nat.cast_pos.2 unitsPerOne_pos)
  calc nearestRank n d < infinityRank
      ↔ nearestRank n d ≤ infinityRank - 1 := (Nat.le_sub_one_iff_lt (by decide)).symm
    _ ↔ 2 * (n * unitsPerOne) < (units (infinityRank - 1) + units infinityRank) * d := by
      rw [nearestRank_le_iff n hd hodd, hnext]
    _ ↔ (n * (2 * unitsPerOne) : ℚ) < overflow * d * (2 * unitsPerOne) := by
      rw [← Nat.cast_lt (α := ℚ), Nat.cast_mul _ d, ← overflow_eq]
      push_cast
      ring_nf
    _ ↔ (n / d : ℚ) < overflow := by
      rw [mul_lt_mul_iff_left₀ hscale, div_lt_iff₀ (Nat.cast_pos.2 hd)]

end Binary64

end Kaleidoscope
