import Criteria.Proofs.Truncation

/-!
# Nearness

The double nearest to a whole number is nearer than every other.

A ratio is rounded by a division on a grid that depends on its size, and which grid this is
was chosen so that 53 digits are left. Nothing in that mentions the other doubles. Here it is
seen that none of them has been overlooked. A double that stands on the grid, or on a coarser
one, is a multiple of its steps, and of the multiples a division with rounding finds the
nearest. A double that does not stand on the grid belongs to a finer one. It is smaller than
all doubles of the stretch in which the ratio lies, and the first of these is a multiple of
the steps that lies between it and the ratio.

If two doubles are equally near, the last bit of the one that is chosen is zero. All of it is
said of distances between whole numbers of units, as one statement with three cases
(`Preferred`), since in each step the same case of it gives the same case of the next.

## Main definitions

* `Binary64.Preferred`: One number is nearer to a target than another, or else is even.
* `Binary64.IsNearest`: A double is the nearest one to a number.

## Theorems

* `Binary64.roundHalfEven_preferred`: Division with rounding finds the nearest multiple.
* `Binary64.units_preferred`: The nearest magnitude is nearer than all others.
* `Binary64.isNearest_ofInt`: So is the nearest double to a whole number.
* `Binary64.scaled_ofInt_mono`: Rounding keeps the order of whole numbers.
-/

namespace Criteria

namespace Binary64

/-- Of two numbers the first is nearer to a target, or they are the same, or they are equally
    near and something distinguishes the first. -/
def Preferred (x y target : Int) (even : Prop) : Prop :=
  (x - target).natAbs < (y - target).natAbs ∨ y = x ∨
    (x - target).natAbs = (y - target).natAbs ∧ even

namespace Preferred

variable {x y target : Int} {even : Prop}

/-- Distances do not change with all signs. -/
theorem neg (h : Preferred x y target even) : Preferred (-x) (-y) (-target) even := by
  have hdist : ∀ z : Int, (-z - -target).natAbs = (z - target).natAbs := by omega
  unfold Preferred at *
  rwa [hdist, hdist, neg_inj]

/-- A number on the other side of zero is farther away than the opposite one. -/
theorem opposite {u v k : Nat} (h : Preferred u v k even) (hzero : Preferred u 0 k even) :
    Preferred u (-v : Int) k even := by
  unfold Preferred at *
  rcases h with h | h | ⟨h, heven⟩
  · exact Or.inl (by omega)
  · by_cases hu : u = 0
    · exact Or.inr (Or.inl (by omega))
    · rcases hzero with hzero | hzero | ⟨hzero, -⟩
      · exact Or.inl (by omega)
      · exact absurd hzero (by omega)
      · exact Or.inl (by omega)
  · by_cases hk : v = 0 ∨ k = 0
    · exact Or.inr (Or.inr ⟨by omega, heven⟩)
    · exact Or.inl (by omega)

end Preferred

section Magnitudes

/-- Of the multiples of a divisor none is nearer than the rounded quotient of it. -/
theorem roundHalfEven_preferred (num : Nat) {den : Nat} (hden : 0 < den) (u : Nat) :
    Preferred (roundHalfEven num den * den : Nat) (u * den : Nat) num
      (2 ∣ roundHalfEven num den) := by
  have hdivmod := Nat.div_add_mod' num den
  have hmod := Nat.mod_lt num hden
  generalize hquotient : num / den = q at *
  have hsucc : (q + 1) * den = q * den + den := Nat.succ_mul q den
  -- The multiple is that of the quotient or lies below it, or else that of the next number.
  have hsides : u = q ∨ u = q + 1 ∨ (u + 1) * den ≤ q * den ∨ (q + 1 + 1) * den ≤ u * den := by
    rcases Nat.lt_trichotomy u q with h | h | h
    · exact Or.inr (Or.inr (Or.inl (Nat.mul_le_mul_right den h)))
    · exact Or.inl h
    · rcases Nat.lt_or_eq_of_le h with h | h
      · exact Or.inr (Or.inr (Or.inr (Nat.mul_le_mul_right den h)))
      · exact Or.inr (Or.inl h.symm)
  rw [Nat.succ_mul, Nat.succ_mul] at hsides
  unfold roundHalfEven Preferred
  rw [hquotient]
  split
  · rcases hsides with rfl | rfl | h | h <;> omega
  · split
    · rw [hsucc]
      rcases hsides with rfl | rfl | h | h <;> omega
    · rcases Nat.mod_two_eq_zero_or_one q with heven | hodd
      · rw [heven, Nat.add_zero]
        rcases hsides with rfl | rfl | h | h <;> omega
      · rw [hodd, hsucc]
        rcases hsides with rfl | rfl | h | h <;> omega

/-- A magnitude below infinity that a ratio is rounded to is nearer to it than every other. -/
theorem units_preferred {num den : Nat} (hden : 0 < den) (hfinite : nearest num den < infinityBits)
    (bits : Nat) :
    Preferred (units (nearest num den) * den : Nat) (units bits * den : Nat) (num * one : Nat)
      (2 ∣ nearest num den) := by
  rw [← shiftLeft_one]
  have hupper := roundHalfEven_le (num <<< 1074) den
  have hlower := leadingBit_le_roundHalfEven (num <<< 1074) den
  have hbelow := leadingBit_le_div (num <<< 1074) den
  have hnearest : nearest num den = min infinityBits
      (((num <<< 1074 / den).log2 - 52) * leadingBit +
        roundHalfEven (num <<< 1074) (den <<< ((num <<< 1074 / den).log2 - 52))) := rfl
  generalize num <<< 1074 = scaled at *
  generalize hshift : (scaled / den).log2 - 52 = s at *
  have hgrid : 0 < den <<< s := by
    rw [Nat.shiftLeft_eq]
    exact Nat.mul_pos hden (Nat.two_pow_pos s)
  have hround := roundHalfEven_preferred scaled hgrid
  generalize roundHalfEven scaled (den <<< s) = r at *
  have hbits : nearest num den = s * leadingBit + r := by omega
  have hunits : units (nearest num den) = r <<< s := by
    rw [hbits]
    exact units_compose s r (or_iff_not_imp_left.2 hlower) hupper
  have hsteps : ∀ k, k <<< s * den = k * den <<< s := by
    intro k
    rw [Nat.shiftLeft_eq, Nat.shiftLeft_eq, Nat.mul_assoc, Nat.mul_comm (2 ^ s)]
  have heven : 2 ∣ r → 2 ∣ nearest num den := by
    intro h
    have hleading : 2 ∣ leadingBit := by decide
    rw [hbits]
    exact Nat.dvd_add (Nat.dvd_mul_left_of_dvd hleading s) h
  rw [hunits, hsteps]
  by_cases hcoarse : s ≤ shift bits
  · -- What stands on a grid at least as coarse is a multiple of the steps.
    have hmultiple : units bits = (significand bits <<< (shift bits - s)) <<< s := by
      rw [← Nat.shiftLeft_add, Nat.sub_add_cancel hcoarse, units]
    rw [hmultiple, hsteps]
    rcases hround (significand bits <<< (shift bits - s)) with h | h | ⟨h, hr⟩
    · exact Or.inl h
    · exact Or.inr (Or.inl h)
    · exact Or.inr (Or.inr ⟨h, heven hr⟩)
  · -- What stands on a finer grid lies below the first number of the stretch.
    have hfiner : units bits < leadingBit <<< s := by
      rw [units, Nat.shiftLeft_eq, Nat.shiftLeft_eq]
      calc significand bits * 2 ^ shift bits
          < 2 * leadingBit * 2 ^ shift bits :=
            Nat.mul_lt_mul_of_pos_right (significand_lt bits) (Nat.two_pow_pos _)
        _ = leadingBit * 2 ^ (shift bits + 1) := by
            rw [Nat.pow_succ', ← Nat.mul_assoc, Nat.mul_comm 2]
        _ ≤ leadingBit * 2 ^ s :=
            Nat.mul_le_mul_left _ (Nat.pow_le_pow_right (by decide) (by omega))
    have hfirst : units bits * den < leadingBit * den <<< s := by
      rw [← hsteps]
      exact Nat.mul_lt_mul_of_pos_right hfiner hden
    have hle : leadingBit * den <<< s ≤ scaled :=
      (Nat.le_div_iff_mul_le hgrid).1 (hbelow (by omega))
    refine Or.inl ?_
    rcases hround leadingBit with h | h | ⟨h, -⟩
    · omega
    · rw [← h]
      omega
    · omega

end Magnitudes

section WholeNumbers

/-- A finite double is the nearest one to a number if no other finite double is nearer, and if
    its last bit is zero where another one is as near. -/
structure IsNearest (x : Float) (q : ℚ) : Prop where
  finite : x.isFinite = true
  nearest : ∀ y : Float, y.isFinite = true → |value x - q| ≤ |value y - q|
  even : ∀ y : Float, y.isFinite = true → |value y - q| = |value x - q| → value y ≠ value x →
    2 ∣ magnitude x

/-- Distances from a whole number are whole numbers of units. -/
theorem abs_value_sub {x : Float} (h : x.isFinite = true) (n : Int) :
    |value x - n| = ((scaled x - n * one).natAbs : ℚ) / one := by
  have hone : (one : ℚ) ≠ 0 := Nat.cast_ne_zero.2 one_pos.ne'
  have hdiff : value x - n = ((scaled x - n * one : Int) : ℚ) / one := by
    rw [value_eq h, Int.cast_sub, Int.cast_mul, Int.cast_natCast, sub_div,
      mul_div_cancel_right₀ _ hone]
  rw [hdiff, abs_div, Nat.abs_cast, ← Int.cast_abs, Int.abs_eq_natAbs, Int.cast_natCast]

/-- The magnitudes that all whole numbers of at most 64 bits are rounded to. -/
theorem nearest_lt_infinityBits {k : Nat} (h : k ≤ 2 ^ 64) : nearest k 1 < infinityBits := by
  obtain ⟨hlast, -⟩ := @nearest_two_pow 64 (by decide)
  have hmono := @nearest_mono k (2 ^ 64) 1 h
  rw [hlast] at hmono
  exact Nat.lt_of_le_of_lt hmono (by decide)

theorem natAbs_scaled (x : Float) : (scaled x).natAbs = units (magnitude x) := by
  unfold scaled
  split
  · rw [Int.natAbs_neg, Int.natAbs_natCast]
  · rw [Int.natAbs_natCast]

/-- A double for a whole number is preferred to every other finite double, on either side of
    zero. -/
theorem scaled_preferred {n : Int} (hfinite : nearest n.natAbs 1 < infinityBits) (y : Float) :
    Preferred (scaled (ofInt n)) (scaled y) (n * one) (2 ∣ magnitude (ofInt n)) := by
  have hmagnitude : magnitude (ofInt n) = nearest n.natAbs 1 := by
    rw [ofInt, magnitude_ofMagnitude _ (Nat.le_of_lt hfinite)]
  have hzero := units_preferred Nat.one_pos hfinite 0
  have hpreferred := units_preferred Nat.one_pos hfinite (magnitude y)
  have hnone : units 0 = 0 := by decide
  rw [hnone, Nat.mul_one, Nat.zero_mul] at hzero
  rw [Nat.mul_one, Nat.mul_one] at hpreferred
  have hsides : ∀ z : Int, z.natAbs = units (magnitude y) →
      Preferred (units (nearest n.natAbs 1)) z (n.natAbs * one : Nat) (2 ∣ nearest n.natAbs 1) := by
    intro z hz
    rcases Int.natAbs_eq z with hsign | hsign
    · rw [hsign, hz]
      exact hpreferred
    · rw [hsign, hz]
      exact hpreferred.opposite hzero
  rw [scaled_ofInt rfl (Nat.le_of_lt hfinite), hmagnitude]
  split
  · -- Below zero all signs are changed.
    have htarget : n * one = -((n.natAbs * one : Nat) : Int) := by
      rw [Int.natCast_mul, Int.ofNat_natAbs_of_nonpos (by omega), Int.neg_mul, Int.neg_neg]
    have hopposite := (hsides (-scaled y) (by rw [Int.natAbs_neg, natAbs_scaled])).neg
    rwa [Int.neg_neg, ← htarget] at hopposite
  · have htarget : n * one = ((n.natAbs * one : Nat) : Int) := by
      rw [Int.natCast_mul, Int.natAbs_of_nonneg (by omega)]
    rw [htarget]
    exact hsides (scaled y) (natAbs_scaled y)

/-- The double for a whole number is the nearest one, ties being broken toward even. -/
theorem isNearest_ofInt {n : Int} (h : nearest n.natAbs 1 < infinityBits) :
    IsNearest (ofInt n) n := by
  have hfinite : (ofInt n).isFinite = true := isFinite_ofInt rfl h
  have hone : (0 : ℚ) < one := Nat.cast_pos.2 one_pos
  have hle : ∀ y : Float,
      (scaled (ofInt n) - n * one).natAbs ≤ (scaled y - n * one).natAbs := by
    intro y
    rcases scaled_preferred h y with hless | hsame | ⟨hequal, -⟩
    · exact Nat.le_of_lt hless
    · rw [hsame]
    · exact Nat.le_of_eq hequal
  refine ⟨hfinite, fun y hy => ?_, fun y hy htie hne => ?_⟩
  · rw [abs_value_sub hfinite, abs_value_sub hy]
    exact div_le_div_of_nonneg_right (Nat.cast_le.2 (hle y)) hone.le
  · rw [abs_value_sub hfinite, abs_value_sub hy, div_left_inj' hone.ne', Nat.cast_inj] at htie
    rcases scaled_preferred h y with hless | hsame | ⟨-, heven⟩
    · exact absurd htie hless.ne'
    · exact absurd (by rw [value_eq hy, value_eq hfinite, hsame]) hne
    · exact heven

/-- Rounding keeps the order of whole numbers. -/
theorem scaled_ofInt_mono {k n : Int} (h : k ≤ n) : scaled (ofInt k) ≤ scaled (ofInt n) := by
  have hworth : ∀ i : Int, scaled (ofInt i) =
      if i < 0 then -(units (nearest i.natAbs 1) : Int) else units (nearest i.natAbs 1) :=
    fun i => scaled_ofInt rfl (nearest_le_infinityBits _ _)
  have hmono : ∀ {i j : Int}, i.natAbs ≤ j.natAbs →
      units (nearest i.natAbs 1) ≤ units (nearest j.natAbs 1) :=
    fun hij => units_mono (nearest_mono 1 hij)
  rw [hworth, hworth]
  -- Below zero the greater number has the smaller magnitude.
  by_cases hk : k < 0
  · rw [if_pos hk]
    by_cases hn : n < 0
    · rw [if_pos hn]
      have hle := @hmono n k (by omega)
      omega
    · rw [if_neg hn]
      omega
  · rw [if_neg hk, if_neg (by omega)]
    have hle := @hmono k n (by omega)
    omega

end WholeNumbers

end Binary64

end Criteria
