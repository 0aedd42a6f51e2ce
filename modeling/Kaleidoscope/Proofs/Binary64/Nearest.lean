/-
  The rank nearest to a fraction.

  - `roundHalfEven_of_close`: less than a half away from a whole number, a quotient is rounded to it;
  - `scale_add_significand`, `significand_lt`, `le_significand`: a rank in parts;
  - `ofRank_spec`: the number of a rank;
  - `nearestRank_of_scale`: the scale that a fraction is rounded at;
  - `nearestRank_of_close`: less than half a step away from the value of a rank, a fraction is nearest
    to it. Below a power of two the steps are half as long;
  - `nearestRank_mul`, `rankOf_shift`: only the value of a fraction matters, and so only that of a
    decimal.
-/
import Kaleidoscope.Binary64.Nearest
import Mathlib.Data.Nat.Log
import Mathlib.Tactic.Ring

namespace Kaleidoscope

/-! ## Rounding a quotient -/

theorem roundHalfEven_of_close {n d q : Nat} (habove : 2 * n < 2 * (q * d) + d)
    (hbelow : 2 * (q * d) < 2 * n + d) : roundHalfEven n d = q := by
  have hmod := Nat.mod_eq_sub_div_mul (x := n) (k := d)
  unfold roundHalfEven
  by_cases hle : q * d ≤ n
  · have hdiv : n / d = q := Nat.div_eq_of_lt_le hle (by rw [Nat.add_one_mul]; omega)
    rw [hdiv] at hmod
    simp only [hdiv, hmod]
    rw [if_pos (by omega)]
  · obtain ⟨p, rfl⟩ : ∃ p, q = p + 1 := Nat.exists_eq_succ_of_ne_zero fun hq => by
      rw [hq, Nat.zero_mul] at hle
      exact hle (Nat.zero_le n)
    rw [Nat.add_one_mul p d] at habove hbelow hle
    have hdiv : n / d = p := Nat.div_eq_of_lt_le (by omega) (by rw [Nat.add_one_mul]; omega)
    rw [hdiv] at hmod
    simp only [hdiv, hmod]
    rw [if_neg (by omega), if_pos (by omega)]

theorem roundHalfEven_mul (n d : Nat) {k : Nat} (hk : 0 < k) :
    roundHalfEven (n * k) (d * k) = roundHalfEven n d := by
  have hless : ∀ a b : Nat, a * k < b * k ↔ a < b := fun a b => Nat.mul_lt_mul_right hk
  simp only [roundHalfEven, Nat.mul_div_mul_right _ _ hk, Nat.mul_mod_mul_right, ← Nat.mul_assoc,
    hless]

namespace Binary64

/-! ## A rank in parts -/

theorem fractionSize_pos : 0 < fractionSize := by decide

theorem scale_add_significand (rank : Nat) :
    scale rank * fractionSize + significand rank = rank := by
  have hle : scale rank * fractionSize ≤ rank :=
    (Nat.mul_le_mul_right _ (Nat.sub_le _ 1)).trans (Nat.div_mul_le_self _ _)
  exact Nat.add_sub_cancel' hle

/-- The fraction of a rank, and a leading bit if the rank has more than one scale below it. -/
theorem scale_cases (rank : Nat) :
    (scale rank = 0 ∧ rank < fractionSize) ∨
      rank = (scale rank + 1) * fractionSize + rank % fractionSize := by
  have hparts := Nat.div_add_mod rank fractionSize
  rw [Nat.mul_comm] at hparts
  unfold scale
  cases hq : rank / fractionSize with
  | zero =>
    rw [hq, Nat.zero_mul] at hparts
    exact Or.inl ⟨rfl, by have := Nat.mod_lt rank fractionSize_pos; omega⟩
  | succ k =>
    rw [hq] at hparts
    exact Or.inr hparts.symm

theorem significand_lt (rank : Nat) : significand rank < 2 * fractionSize := by
  have hparts := scale_add_significand rank
  rcases scale_cases rank with ⟨-, hlt⟩ | hrank
  · omega
  · have hmod := Nat.mod_lt rank fractionSize_pos
    rw [Nat.add_one_mul] at hrank
    omega

theorem le_significand {rank : Nat} (h : 0 < scale rank) : fractionSize ≤ significand rank := by
  have hparts := scale_add_significand rank
  rcases scale_cases rank with ⟨hzero, -⟩ | hrank
  · omega
  · rw [Nat.add_one_mul] at hrank
    omega

theorem units_pos {rank : Nat} (h : 0 < rank) : 0 < units rank := by
  have hparts := scale_add_significand rank
  have hsignificand : 0 < significand rank := by
    rcases scale_cases rank with ⟨hzero, -⟩ | hrank
    · rw [hzero, Nat.zero_mul] at hparts
      omega
    · have hpos := fractionSize_pos
      rw [Nat.add_one_mul] at hrank
      omega
  exact Nat.mul_pos hsignificand (Nat.two_pow_pos _)

/-- The number of a finite rank has that rank and no sign. -/
theorem ofRank_spec {rank : Nat} (h : rank < infinityRank) :
    (ofRank rank).rank = rank ∧ (ofRank rank).negative = false := by
  have hbound : infinityRank < signBit := by decide
  have hword : signBit < UInt64.size := by decide
  have hbits : (UInt64.ofNat rank).toNat = rank := UInt64.toNat_ofNat_of_lt (by omega)
  constructor
  · rw [Binary64.rank, ofRank, hbits, Nat.mod_eq_of_lt (by omega)]
  · simp only [negative, ofRank, hbits, decide_eq_false_iff_not]
    omega

/-! ## Fractions near to a rank -/

/-- The scale at which a fraction is rounded is the least one whose significands reach it. -/
theorem nearestRank_of_scale {n d s m : Nat} (hm : n * unitsPerOne = m) (hd : 0 < d)
    (habove : m < 2 * (fractionSize * (2 ^ s * d)))
    (hbelow : s = 0 ∨ fractionSize * (2 ^ s * d) ≤ m) :
    nearestRank n d = s * fractionSize + roundHalfEven m (2 ^ s * d) := by
  have hlog : Nat.log2 (m / d) - fractionBits = s := by
    have hlt : m / d < 2 ^ (s + 52 + 1) := by
      rw [Nat.div_lt_iff_lt_mul hd]
      calc m < 2 * (fractionSize * (2 ^ s * d)) := habove
        _ = 2 ^ (s + 52 + 1) * d := by rw [fractionSize, fractionBits, Nat.pow_eq]; ring
    rcases hbelow with rfl | hbelow
    · by_cases hzero : m / d = 0
      · rw [hzero]; rfl
      · have hlog := (Nat.log2_lt hzero).2 hlt
        exact Nat.sub_eq_zero_of_le (Nat.lt_succ_iff.1 hlog)
    · have hle : 2 ^ (s + 52) ≤ m / d := by
        rw [Nat.le_div_iff_mul_le hd]
        calc 2 ^ (s + 52) * d = fractionSize * (2 ^ s * d) := by
              rw [fractionSize, fractionBits, Nat.pow_eq]; ring
          _ ≤ m := hbelow
      have hne : m / d ≠ 0 := fun h => by
        rw [h] at hle
        exact absurd hle (Nat.not_le.2 (Nat.two_pow_pos _))
      rw [(Nat.log2_eq_iff hne).2 ⟨hle, hlt⟩]
      exact Nat.add_sub_cancel ..
  rw [nearestRank, hm, hlog, Nat.pow_eq, Nat.mul_comm d]

/-- Less than half a step away from the value of a rank, a fraction is nearest to it. Where the steps
are shorter below the value, less than a quarter is asked for. -/
theorem nearestRank_of_close {n d rank : Nat} (hd : 0 < d)
    (habove : 2 * (n * unitsPerOne) < 2 * (units rank * d) + 2 ^ scale rank * d)
    (hbelow : 2 * (units rank * d) < 2 * (n * unitsPerOne) + 2 ^ scale rank * d)
    (hpower : significand rank = fractionSize →
      4 * (units rank * d) < 4 * (n * unitsPerOne) + 2 ^ scale rank * d) :
    nearestRank n d = rank := by
  have hrank := scale_add_significand rank
  rw [units, Nat.pow_eq, Nat.mul_assoc] at habove hbelow hpower
  generalize hm : n * unitsPerOne = m at habove hbelow hpower
  by_cases hreach : scale rank = 0 ∨ fractionSize * (2 ^ scale rank * d) ≤ m
  · -- the fraction is rounded at the scale of the rank
    have hlt := Nat.mul_le_mul_right (2 ^ scale rank * d) (Nat.succ_le_of_lt (significand_lt rank))
    rw [Nat.succ_mul, Nat.mul_assoc 2] at hlt
    rw [nearestRank_of_scale hm hd (by omega) hreach, roundHalfEven_of_close habove hbelow]
    exact hrank
  · -- the value of the rank is a power of two, and the fraction lies below it
    obtain ⟨hscale, hless⟩ := not_or.1 hreach
    have hleast : significand rank = fractionSize := by
      refine Nat.le_antisymm (Nat.le_of_not_lt fun hgt => ?_)
        (le_significand (Nat.pos_of_ne_zero hscale))
      have hnext := Nat.mul_le_mul_right (2 ^ scale rank * d) (Nat.succ_le_of_lt hgt)
      rw [Nat.succ_mul] at hnext
      omega
    obtain ⟨s, hs⟩ : ∃ s, scale rank = s + 1 := Nat.exists_eq_succ_of_ne_zero hscale
    have hquarter := hpower hleast
    rw [hleast, hs, show 2 ^ (s + 1) * d = 2 * (2 ^ s * d) by ring,
      Nat.mul_left_comm fractionSize] at hquarter
    rw [hs, show 2 ^ (s + 1) * d = 2 * (2 ^ s * d) by ring,
      Nat.mul_left_comm fractionSize] at hless
    have hstep : 2 ^ s * d ≤ fractionSize * (2 ^ s * d) :=
      Nat.le_mul_of_pos_left _ fractionSize_pos
    have hround : roundHalfEven m (2 ^ s * d) = 2 * fractionSize :=
      roundHalfEven_of_close (by rw [Nat.mul_assoc 2]; omega) (by rw [Nat.mul_assoc 2]; omega)
    rw [nearestRank_of_scale (s := s) hm hd (by omega) (Or.inr (by omega)), hround, ← hrank, hs,
      hleast]
    ring

/-! ## Only the value matters -/

theorem nearestRank_mul (n d : Nat) {k : Nat} (hk : 0 < k) :
    nearestRank (n * k) (d * k) = nearestRank n d := by
  have hdiv : n * k * unitsPerOne / (d * k) = n * unitsPerOne / d := by
    rw [Nat.mul_right_comm, Nat.mul_div_mul_right _ _ hk]
  simp only [nearestRank, hdiv]
  rw [Nat.mul_right_comm n, Nat.mul_right_comm d, roundHalfEven_mul _ _ hk]

theorem nearestRank_congr {n d n' d' : Nat} (hd : 0 < d) (hd' : 0 < d') (h : n * d' = n' * d) :
    nearestRank n d = nearestRank n' d' := by
  rw [← nearestRank_mul n d hd', h, Nat.mul_comm d, nearestRank_mul n' d' hd]

/-- Zeros at the end of a coefficient may go to its power of ten. -/
theorem rankOf_shift (c k : Nat) (e : Int) : rankOf ⟨c * 10 ^ k, e⟩ = rankOf ⟨c, e + k⟩ := by
  have hten : ∀ k, 0 < Nat.pow 10 k := fun k => Nat.pow_pos (by decide)
  refine nearestRank_congr (hten _) (hten _) ?_
  simp only [Decimal.numerator, Decimal.denominator, Nat.pow_eq]
  rw [Nat.mul_assoc, Nat.mul_assoc, Nat.mul_assoc, ← Nat.pow_add, ← Nat.pow_add, ← Nat.pow_add]
  congr 2
  omega

theorem rankOf_zero (e : Int) : rankOf ⟨0, e⟩ = 0 := by
  have hd : 0 < Decimal.denominator ⟨0, e⟩ := Nat.pow_pos (by decide)
  have hstep : 0 < 2 * (fractionSize * (2 ^ 0 * Decimal.denominator ⟨0, e⟩)) :=
    Nat.mul_pos (by decide) (Nat.mul_pos fractionSize_pos (Nat.mul_pos (by decide) hd))
  have hnumerator : Decimal.numerator ⟨0, e⟩ * unitsPerOne = 0 := by
    rw [Decimal.numerator, Nat.zero_mul, Nat.zero_mul]
  rw [rankOf, nearestRank_of_scale hnumerator hd hstep (Or.inl rfl), Nat.zero_mul, Nat.zero_add]
  exact roundHalfEven_of_close (by omega) (by omega)

end Binary64

end Kaleidoscope
