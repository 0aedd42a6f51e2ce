/-
  Reading a decimal rounds it to the nearest number.

  - `gap`: how far two whole numbers are apart;
  - `roundHalfEven_within`, `roundHalfEven_nearest`: a quotient goes to a whole number not more than a
    half away, so that no other is nearer, and in a tie to the even one;
  - `units_of_scale`, `units_grid`, `units_lt`: the values of ranks: those of one scale are multiples
    of its step, and a larger rank has a larger value;
  - `nearestRank_nearest`: no rank is nearer to a fraction than `nearestRank`, and in a tie that is
    the even one. Here the ranks go on beyond the finite ones;
  - `nearestRank_le_iff`: from where on a fraction is rounded to a larger rank than an odd one.
-/
import Kaleidoscope.Proofs.Binary64.Nearest
import Mathlib.Algebra.Order.Field.Basic
import Mathlib.Tactic.Linarith

namespace Kaleidoscope

/-! ## Whole numbers -/

/-- How far two whole numbers are apart. -/
def gap (a b : Nat) : Nat := (a - b) + (b - a)

/-- Multiples of a step are apart by a step at least. -/
theorem mul_add_le_of_lt {k q : Nat} (h : k < q) (d : Nat) : k * d + d ≤ q * d :=
  (Nat.succ_mul k d).ge.trans (Nat.mul_le_mul_right d h)

section
variable {n d : Nat}

/-- A quotient is rounded by at most a half, and by a half only to an even number. -/
theorem roundHalfEven_within (hd : 0 < d) :
    2 * gap n (roundHalfEven n d * d) ≤ d ∧
      (2 * gap n (roundHalfEven n d * d) = d → roundHalfEven n d % 2 = 0) := by
  have hrest := Nat.mod_lt n hd
  have hdivision := Nat.div_add_mod n d
  rw [Nat.mul_comm] at hdivision
  have hnext : (n / d + 1) * d = n / d * d + d := Nat.succ_mul _ _
  unfold roundHalfEven gap
  dsimp only
  split
  · omega
  · split
    · rw [hnext]; omega
    · rcases Nat.mod_two_eq_zero_or_one (n / d) with heven | hodd
      · rw [heven, Nat.add_zero]; omega
      · rw [hodd, hnext]; omega

/-- **A quotient is rounded to the nearest whole number**, and in a tie to the even one. -/
theorem roundHalfEven_nearest (hd : 0 < d) (k : Nat) :
    gap n (roundHalfEven n d * d) ≤ gap n (k * d) ∧
      (gap n (roundHalfEven n d * d) = gap n (k * d) → k ≠ roundHalfEven n d →
        roundHalfEven n d % 2 = 0) := by
  obtain ⟨hhalf, htie⟩ := roundHalfEven_within (n := n) hd
  generalize roundHalfEven n d = q at hhalf htie
  rcases Nat.lt_trichotomy k q with hlt | rfl | hgt
  · -- the other one is at least a whole step away
    have hstep := mul_add_le_of_lt hlt d
    unfold gap at *
    omega
  · exact ⟨Nat.le_refl _, fun _ hne => absurd rfl hne⟩
  · have hstep := mul_add_le_of_lt hgt d
    unfold gap at *
    omega

/-- What is not above a whole number is not rounded to a larger one. -/
theorem roundHalfEven_le (hd : 0 < d) {k : Nat} (h : n ≤ k * d) : roundHalfEven n d ≤ k := by
  refine Nat.le_of_not_lt fun hgt => ?_
  have hnearest := (roundHalfEven_nearest (n := n) hd k).1
  have hstep := mul_add_le_of_lt hgt d
  unfold gap at hnearest
  omega

/-- What is not below a whole number is not rounded to a smaller one. -/
theorem le_roundHalfEven (hd : 0 < d) {k : Nat} (h : k * d ≤ n) : k ≤ roundHalfEven n d := by
  refine Nat.le_of_not_lt fun hgt => ?_
  have hnearest := (roundHalfEven_nearest (n := n) hd k).1
  have hstep := mul_add_le_of_lt hgt d
  unfold gap at hnearest
  omega

end

namespace Binary64

/-! ## Values of ranks -/

theorem even_fractionSize : fractionSize % 2 = 0 := by decide

theorem parts_of_rank {s q : Nat} (hlow : s = 0 ∨ fractionSize ≤ q) (hhigh : q < 2 * fractionSize) :
    scale (s * fractionSize + q) = s ∧ significand (s * fractionSize + q) = q := by
  have hscale : scale (s * fractionSize + q) = s := by
    unfold scale
    rw [Nat.add_comm, Nat.add_mul_div_right _ _ fractionSize_pos]
    rcases Nat.lt_or_ge q fractionSize with hless | hmore
    · rw [Nat.div_eq_of_lt hless]
      omega
    · rw [Nat.div_eq_of_lt_le (by omega) (by omega : q < (1 + 1) * fractionSize)]
      omega
  exact ⟨hscale, by rw [significand, hscale, Nat.add_sub_cancel_left]⟩

/-- The value of a rank in parts. The significand may also be that of the next power of two, which is
the least one of the next scale. -/
theorem units_of_scale {s q : Nat} (hlow : s = 0 ∨ fractionSize ≤ q)
    (hhigh : q ≤ 2 * fractionSize) : units (s * fractionSize + q) = q * 2 ^ s := by
  rcases Nat.lt_or_eq_of_le hhigh with hless | rfl
  · obtain ⟨hscale, hsignificand⟩ := parts_of_rank hlow hless
    rw [units, hscale, hsignificand, Nat.pow_eq]
  · have hpos := fractionSize_pos
    have hcarry : s * fractionSize + 2 * fractionSize = (s + 1) * fractionSize + fractionSize := by
      ring
    obtain ⟨hscale, hsignificand⟩ :=
      parts_of_rank (s := s + 1) (q := fractionSize) (.inr (Nat.le_refl _)) (by omega)
    rw [hcarry, units, hscale, hsignificand, Nat.pow_eq]
    ring

/-- A rank of a smaller scale has a value below all full significands of the larger one. -/
theorem units_lt_of_scale_lt {rank s : Nat} (h : scale rank < s) :
    units rank < fractionSize * 2 ^ s := by
  obtain ⟨j, rfl⟩ := Nat.exists_eq_add_of_lt h
  calc units rank = significand rank * 2 ^ scale rank := rfl
    _ < 2 * fractionSize * 2 ^ scale rank :=
      Nat.mul_lt_mul_of_pos_right (significand_lt rank) (Nat.two_pow_pos _)
    _ ≤ 2 * fractionSize * 2 ^ (scale rank + j) :=
      Nat.mul_le_mul_left _ (Nat.pow_le_pow_right (by decide) (Nat.le_add_right _ j))
    _ = fractionSize * 2 ^ (scale rank + j + 1) := by ring

/-- The value of a rank is a multiple of the step of a given scale, or it is below all full
significands of that scale. -/
theorem units_grid (rank s : Nat) :
    (∃ k, units rank = k * 2 ^ s) ∨ 0 < s ∧ units rank < fractionSize * 2 ^ s := by
  by_cases hle : s ≤ scale rank
  · obtain ⟨j, hj⟩ := Nat.exists_eq_add_of_le hle
    refine .inl ⟨significand rank * 2 ^ j, ?_⟩
    rw [units, Nat.pow_eq, hj]
    ring
  · have hlt := Nat.lt_of_not_le hle
    exact .inr ⟨Nat.zero_lt_of_lt hlt, units_lt_of_scale_lt hlt⟩

/-- **A larger rank has a larger value.** -/
theorem units_lt {rank other : Nat} (h : rank < other) : units rank < units other := by
  have hscale : scale rank ≤ scale other :=
    Nat.sub_le_sub_right (Nat.div_le_div_right (Nat.le_of_lt h)) 1
  rcases Nat.lt_or_eq_of_le hscale with hlt | heq
  · calc units rank < fractionSize * 2 ^ scale other := units_lt_of_scale_lt hlt
      _ ≤ significand other * 2 ^ scale other :=
        Nat.mul_le_mul_right _ (le_significand (Nat.zero_lt_of_lt hlt))
  · have hrank := scale_add_significand rank
    have hother := scale_add_significand other
    rw [units, units, Nat.pow_eq, Nat.pow_eq]
    rw [heq] at hrank ⊢
    exact Nat.mul_lt_mul_of_pos_right (by omega) (Nat.two_pow_pos _)

theorem units_le {rank other : Nat} (h : rank ≤ other) : units rank ≤ units other := by
  rcases Nat.lt_or_eq_of_le h with hlt | rfl
  · exact Nat.le_of_lt (units_lt hlt)
  · exact Nat.le_refl _

theorem units_injective {rank other : Nat} (h : units rank = units other) : rank = other := by
  rcases Nat.lt_trichotomy rank other with hlt | heq | hgt
  · exact absurd h (Nat.ne_of_lt (units_lt hlt))
  · exact heq
  · exact absurd h (Nat.ne_of_gt (units_lt hgt))

/-! ## The nearest rank -/

/-- A fraction has a least scale whose significands reach it. -/
theorem exists_scale (m : Nat) {d : Nat} (hd : 0 < d) :
    ∃ s, m < 2 * (fractionSize * (2 ^ s * d)) ∧ (s = 0 ∨ fractionSize * (2 ^ s * d) ≤ m) := by
  have hreach : ∃ s, m < 2 * (fractionSize * (2 ^ s * d)) := by
    refine ⟨m, ?_⟩
    calc m < 2 ^ m := Nat.lt_two_pow_self
      _ ≤ 2 ^ m * d := Nat.le_mul_of_pos_right _ hd
      _ ≤ 2 * (fractionSize * (2 ^ m * d)) := by
        rw [← Nat.mul_assoc]
        exact Nat.le_mul_of_pos_left _ (by decide)
  refine ⟨Nat.find hreach, Nat.find_spec hreach, ?_⟩
  cases hleast : Nat.find hreach with
  | zero => exact .inl rfl
  | succ s =>
    have hnot := Nat.find_min hreach (m := s) (by rw [hleast]; exact Nat.lt_succ_self s)
    refine .inr ((Nat.le_of_eq ?_).trans (Nat.le_of_not_lt hnot))
    ring

/-- **No rank is nearer to a fraction than the nearest one**, and in a tie that is the even one. -/
theorem nearestRank_nearest (n : Nat) {d : Nat} (hd : 0 < d) (rank : Nat) :
    gap (n * unitsPerOne) (units (nearestRank n d) * d) ≤ gap (n * unitsPerOne) (units rank * d) ∧
      (gap (n * unitsPerOne) (units (nearestRank n d) * d) =
          gap (n * unitsPerOne) (units rank * d) →
        rank ≠ nearestRank n d → nearestRank n d % 2 = 0) := by
  generalize hm : n * unitsPerOne = m
  obtain ⟨s, habove, hbelow⟩ := exists_scale m hd
  have hstep : 0 < 2 ^ s * d := Nat.mul_pos (Nat.two_pow_pos _) hd
  rw [← Nat.mul_assoc 2] at habove
  have hhigh := roundHalfEven_le hstep (Nat.le_of_lt habove)
  have hlow : s = 0 ∨ fractionSize ≤ roundHalfEven m (2 ^ s * d) :=
    hbelow.imp_right (le_roundHalfEven hstep)
  rw [nearestRank_of_scale hm hd (by rwa [← Nat.mul_assoc 2]) hbelow, units_of_scale hlow hhigh,
    Nat.mul_assoc]
  rcases units_grid rank s with ⟨k, hk⟩ | ⟨hpos, hless⟩
  · -- both values are multiples of one step
    obtain ⟨hnearest, htie⟩ := roundHalfEven_nearest (n := m) hstep k
    rw [hk, Nat.mul_assoc]
    refine ⟨hnearest, fun heq hne => ?_⟩
    have hk : k ≠ roundHalfEven m (2 ^ s * d) := by
      rintro rfl
      exact hne (units_injective (by rw [hk, units_of_scale hlow hhigh]))
    rw [Nat.add_mod, Nat.mul_mod, even_fractionSize, htie heq hk]
    rfl
  · -- the least full significand of the scale is already strictly nearer
    have hreach := hbelow.resolve_left (Nat.ne_of_gt hpos)
    have hfull := (roundHalfEven_nearest (n := m) hstep fractionSize).1
    have hfar := Nat.mul_lt_mul_of_pos_right hless hd
    rw [Nat.mul_assoc] at hfar
    unfold gap at *
    omega

/-- **A fraction is rounded down to an odd rank from below the middle only.** The middle itself goes
to the even rank above. -/
theorem nearestRank_le_iff (n : Nat) {d : Nat} (hd : 0 < d) {rank : Nat} (hodd : rank % 2 = 1) :
    nearestRank n d ≤ rank ↔ 2 * (n * unitsPerOne) < (units rank + units (rank + 1)) * d := by
  have hbelow := (nearestRank_nearest n hd rank).1
  obtain ⟨habove, htie⟩ := nearestRank_nearest n hd (rank + 1)
  have hstep := Nat.mul_lt_mul_of_pos_right (units_lt (Nat.lt_add_one rank)) hd
  rw [Nat.add_mul]
  constructor
  · intro hle
    have hvalue := Nat.mul_le_mul_right d (units_le hle)
    refine Nat.lt_of_not_le fun hmiddle => ?_
    -- only the middle is left, where the rank would be even
    have heq : units (nearestRank n d) * d = units rank * d := by
      unfold gap at habove
      omega
    rw [units_injective (Nat.eq_of_mul_eq_mul_right hd heq)] at habove htie
    have heven := htie (by unfold gap at *; omega) (Nat.succ_ne_self rank)
    omega
  · intro hmiddle
    refine Nat.le_of_not_lt fun hgt => ?_
    have hvalue := Nat.mul_le_mul_right d (units_le (show rank + 1 ≤ nearestRank n d from hgt))
    unfold gap at hbelow
    omega

end Binary64

end Kaleidoscope
