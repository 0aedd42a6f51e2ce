/-
  The shortest decimal of a number reads back.

  - `pow_le_of_digitCount`: the power of ten of a first digit;
  - `Grid`: the decimals with a given power of ten around the value of a rank, in whole numbers;
  - `Grid.reads`: if the power of ten is small against the value, one of the two next to it reads
    back;
  - `grid_seventeen`: that of seventeen digits is;
  - `rankOf_shortest`: so some decimal of up to seventeen digits reads back, and the shortest is one.
-/
import Kaleidoscope.Binary64.Shortest
import Kaleidoscope.Proofs.Binary64.Nearest

namespace Kaleidoscope.Binary64

/-! ## The decimal that is chosen -/

section
variable {reads : Decimal → Bool} {distance : Decimal → Nat} {below above x : Decimal}

theorem reads_of_select? (h : select? reads distance below above = some x) : reads x = true := by
  unfold select? at h
  split at h
  · rename_i hbelow habove
    have hboth : x = below ∨ x = above := by
      split at h
      · exact Or.inl (Option.some.inj h).symm
      · split at h
        · exact Or.inr (Option.some.inj h).symm
        · rw [← Option.some.inj h]
          exact ite_eq_or_eq _ below above
    rcases hboth with rfl | rfl
    · exact hbelow
    · exact habove
  · rename_i hbelow _
    exact Option.some.inj h ▸ hbelow
  · rename_i _ habove
    exact Option.some.inj h ▸ habove
  · cases h

theorem select?_isSome (h : reads below = true ∨ reads above = true) :
    (select? reads distance below above).isSome = true := by
  unfold select?
  split
  · split
    · rfl
    · split <;> rfl
  · rfl
  · rfl
  · rename_i hbelow habove
    rw [hbelow, habove] at h
    rcases h with h | h <;> cases h

end

section
variable {rank k : Nat}

theorem rankOf_of_closest? {x : Decimal} (h : closest? rank k = some x) : rankOf x = rank := by
  unfold closest? at h
  exact eq_of_beq (reads_of_select? h)

theorem closest?_isSome
    (h : rankOf (neighbours rank k).1 = rank ∨ rankOf (neighbours rank k).2 = rank) :
    (closest? rank k).isSome = true := by
  unfold closest?
  refine select?_isSome ?_
  rw [beq_iff_eq, beq_iff_eq]
  exact h

end

/-! ## Decimals around a value -/

/-- The value of a rank, times `d`, lies from `count` times `step` up to the next multiple. -/
structure Grid (rank d step count : Nat) : Prop where
  below : count * step ≤ units rank * d
  above : units rank * d < (count + 1) * step
  /-- The step is small against the value. -/
  fine : step * 10 ^ 16 ≤ units rank * d

namespace Grid
variable {rank d step count : Nat}

/-- The step is shorter than that from one rank to the next. -/
theorem step_lt (h : Grid rank d step count) (hd : 0 < d) :
    step < 2 ^ scale rank * d ∧
      (significand rank = fractionSize → 2 * step < 2 ^ scale rank * d) := by
  have hdigits : 2 * fractionSize < 10 ^ 16 := by decide
  have hfine := h.fine
  have hpos : 0 < 2 ^ scale rank * d := Nat.mul_pos (Nat.two_pow_pos _) hd
  rw [units, Nat.pow_eq, Nat.mul_assoc] at hfine
  constructor
  · refine Nat.lt_of_mul_lt_mul_right (a := 10 ^ 16) ?_
    calc step * 10 ^ 16 ≤ significand rank * (2 ^ scale rank * d) := hfine
      _ ≤ 2 * fractionSize * (2 ^ scale rank * d) :=
        Nat.mul_le_mul_right _ (significand_lt rank).le
      _ < 10 ^ 16 * (2 ^ scale rank * d) := Nat.mul_lt_mul_of_pos_right hdigits hpos
      _ = 2 ^ scale rank * d * 10 ^ 16 := Nat.mul_comm _ _
  · intro hleast
    refine Nat.lt_of_mul_lt_mul_right (a := 10 ^ 16) ?_
    calc 2 * step * 10 ^ 16 = 2 * (step * 10 ^ 16) := Nat.mul_assoc _ _ _
      _ ≤ 2 * (fractionSize * (2 ^ scale rank * d)) := Nat.mul_le_mul_left _ (hleast ▸ hfine)
      _ = 2 * fractionSize * (2 ^ scale rank * d) := (Nat.mul_assoc _ _ _).symm
      _ < 10 ^ 16 * (2 ^ scale rank * d) := Nat.mul_lt_mul_of_pos_right hdigits hpos
      _ = 2 ^ scale rank * d * 10 ^ 16 := Nat.mul_comm _ _

/-- The nearer one of the two multiples is nearest to the rank. -/
theorem reads (h : Grid rank d step count) (hd : 0 < d) :
    (∀ n, n * unitsPerOne = count * step → nearestRank n d = rank) ∨
      ∀ n, n * unitsPerOne = (count + 1) * step → nearestRank n d = rank := by
  obtain ⟨hstep, hleast⟩ := h.step_lt hd
  obtain ⟨hbelow, habove, -⟩ := h
  rw [Nat.add_one_mul] at habove
  by_cases hnear : 2 * (units rank * d) ≤ 2 * (count * step) + step
  · refine Or.inl fun n hn => nearestRank_of_close hd ?_ ?_ fun hpower => ?_
    · omega
    · omega
    · have := hleast hpower
      omega
  · refine Or.inr fun n hn => ?_
    rw [Nat.add_one_mul] at hn
    refine nearestRank_of_close hd ?_ ?_ fun hpower => ?_
    · omega
    · omega
    · have := hleast hpower
      omega

end Grid

/-! ## Seventeen digits -/

theorem pow_le_of_digitCount {n : Nat} (h : 0 < n) : 10 ^ (digitCount n - 1) ≤ n := by
  by_contra hlt
  have hpos : 0 < digitCount n := Nat.length_toDigits_pos
  have hone : 0 < digitCount n - 1 := Nat.pos_of_ne_zero fun hzero => by
    rw [hzero] at hlt
    exact hlt h
  have hle := (Nat.length_toDigits_le_iff (by decide) hone).2 (Nat.lt_of_not_le hlt)
  exact absurd hle (Nat.not_le.2 (Nat.sub_lt hpos (by decide)))

theorem unitsPerOne_pos : 0 < unitsPerOne := by
  unfold unitsPerOne
  generalize unitBits = k
  exact Nat.pow_pos (by decide)

theorem unitsPerOne_le {k : Nat} (hk : 358 ≤ k) : unitsPerOne ≤ Nat.pow 10 k := by
  -- ten is more than two to the third
  have hbits : ∀ j, Nat.pow 2 (3 * j) ≤ Nat.pow 10 j := by
    intro j
    rw [Nat.pow_eq, Nat.pow_eq, Nat.pow_mul]
    exact Nat.pow_le_pow_left (by decide) j
  have hmore : unitBits ≤ 3 * k := by
    rw [unitBits]
    omega
  unfold unitsPerOne
  generalize unitBits = bits at hmore
  exact (Nat.pow_le_pow_right (by decide) hmore).trans (hbits k)

section
variable {rank : Nat}

theorem pow_le_units (h : 0 < rank) {t : Nat} (ht : 358 ≤ t) :
    0 < digitCount (units rank * Nat.pow 10 t / unitsPerOne) ∧
      10 ^ (digitCount (units rank * Nat.pow 10 t / unitsPerOne) - 1) * unitsPerOne ≤
        units rank * 10 ^ t := by
  have hreach : unitsPerOne ≤ units rank * Nat.pow 10 t :=
    (unitsPerOne_le ht).trans (Nat.le_mul_of_pos_left _ (units_pos h))
  exact ⟨Nat.length_toDigits_pos, (Nat.le_div_iff_mul_le unitsPerOne_pos).1
    (pow_le_of_digitCount (Nat.div_pos hreach unitsPerOne_pos))⟩

/-- The value of a rank is at least the power of ten of its first digit. -/
theorem leadingExponent_spec (h : 0 < rank) : ∃ c t : Nat, leadingExponent rank = c - t ∧
    10 ^ c * unitsPerOne ≤ units rank * 10 ^ t := by
  -- the exponent gets a name, so that its power is no number to compute
  obtain ⟨t, ht⟩ : ∃ t, t = 400 := ⟨_, rfl⟩
  obtain ⟨hcount, hfirst⟩ := pow_le_units h (t := t) (by omega)
  refine ⟨_, t, ?_, hfirst⟩
  rw [leadingExponent, ← ht]
  omega

/-- A comparison of powers of ten, with the powers on other sides. -/
theorem mul_pow_le {u v a b c p t : Nat} (h : 10 ^ c * u ≤ v * 10 ^ t)
    (hexp : b + p + t = a + c) : u * 10 ^ b * 10 ^ p ≤ v * 10 ^ a := by
  refine Nat.le_of_mul_le_mul_right (c := 10 ^ t) ?_ (Nat.pow_pos (by decide))
  calc u * 10 ^ b * 10 ^ p * 10 ^ t = u * 10 ^ (b + p + t) := by ring
    _ = 10 ^ a * (10 ^ c * u) := by rw [hexp]; ring
    _ ≤ 10 ^ a * (v * 10 ^ t) := Nat.mul_le_mul_left _ h
    _ = v * 10 ^ a * 10 ^ t := by ring

/-- **Seventeen digits are enough**: one of the two decimals of seventeen digits around the value of
a rank reads back. -/
theorem rankOf_neighbours (h : 0 < rank) :
    rankOf (neighbours rank 17).1 = rank ∨ rankOf (neighbours rank 17).2 = rank := by
  have hten : ∀ k, 0 < Nat.pow 10 k := fun k => Nat.pow_pos (by decide)
  obtain ⟨c, t, hexponent, hfirst⟩ := leadingExponent_spec h
  obtain ⟨e, he⟩ : ∃ e, e = leadingExponent rank + 1 - (17 : Nat) := ⟨_, rfl⟩
  have hgrid : Grid rank (Nat.pow 10 (-e).toNat) (unitsPerOne * Nat.pow 10 e.toNat)
      (units rank * Nat.pow 10 (-e).toNat / (unitsPerOne * Nat.pow 10 e.toNat)) := by
    refine ⟨Nat.div_mul_le_self _ _, ?_, mul_pow_le hfirst ?_⟩
    · exact Nat.lt_mul_of_div_lt (Nat.lt_succ_self _) (Nat.mul_pos unitsPerOne_pos (hten _))
    · omega
  have hpair : neighbours rank 17 =
      (⟨units rank * Nat.pow 10 (-e).toNat / (unitsPerOne * Nat.pow 10 e.toNat), e⟩,
        ⟨units rank * Nat.pow 10 (-e).toNat / (unitsPerOne * Nat.pow 10 e.toNat) + 1, e⟩) := by
    rw [neighbours, he]
  have hmul : ∀ n, n * Nat.pow 10 e.toNat * unitsPerOne = n * (unitsPerOne * Nat.pow 10 e.toNat) :=
    fun n => by ring
  rw [hpair]
  exact (hgrid.reads (hten _)).imp (fun hreads => hreads _ (hmul _)) fun hreads => hreads _ (hmul _)

end

/-- **The shortest decimal of a positive number reads back.** -/
theorem rankOf_shortest {rank : Nat} (h : 0 < rank) : rankOf (shortest rank) = rank := by
  unfold shortest
  cases hfound : (List.range' 1 17).findSome? (closest? rank) with
  | some x =>
    obtain ⟨k, -, hk⟩ := List.exists_of_findSome?_eq_some hfound
    exact rankOf_of_closest? hk
  | none =>
    have hnone := List.findSome?_eq_none_iff.1 hfound 17 (by decide)
    have hsome := closest?_isSome (rankOf_neighbours h)
    rw [hnone] at hsome
    cases hsome

end Kaleidoscope.Binary64
