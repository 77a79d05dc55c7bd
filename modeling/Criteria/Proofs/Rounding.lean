import Criteria.Decimal.Basic
import Mathlib

/-!
# Rounding

Which double is nearest to a number, as a fact about whole numbers.

A magnitude is `shift * leadingBit + significand`, and what it is worth is its
significand, scaled by two to the power of its shift. Rounding goes the other
way, from a ratio to a magnitude. Three things are asked of it here. It must not
matter how the ratio is written, since one number has many decimals. A ratio that
some magnitude is worth exactly must come to this magnitude. And the tests by
which `Decimal.nearest` avoids great powers of ten must not be seen from outside:
they give what the computation itself would have given.

## Main definitions

* `Binary64.one`: What the number one is worth.
* `Decimal.numerator`, `Decimal.denominator`: A decimal as a ratio.

## Theorems

* `Binary64.units_compose`: What a shift and a significand are worth together.
* `Binary64.nearest_congr`: Equal ratios have the same nearest magnitude.
* `Binary64.nearest_of_units`: A magnitude is nearest to what it is worth.
* `Binary64.nearest_mono`, `Binary64.units_mono`: Rounding keeps the order, and so
  does what magnitudes are worth.
* `Decimal.nearest_eq`: Reading a decimal is rounding its ratio.
* `Decimal.nearest_shift`: Zeros at the end can be traded for the exponent.
-/

namespace Criteria

namespace Binary64

/-- What the number one is worth, counted in the unit of magnitudes. -/
def one : Nat := 1 <<< 1074

section Shifts

-- The exponent is a variable here, so that no power is computed on the way.
variable (n k e : Nat)

theorem shiftLeft_eq_mul : n <<< e = n * 1 <<< e := by
  rw [Nat.shiftLeft_eq, Nat.one_shiftLeft]

theorem shiftRight_eq_div : n >>> e = n / 1 <<< e := by
  rw [Nat.shiftRight_eq_div_pow, Nat.one_shiftLeft]

theorem two_pow_mul_shiftLeft : 2 ^ k * 1 <<< e = 2 ^ (k + e) := by
  rw [Nat.one_shiftLeft, Nat.pow_add]

theorem one_shiftLeft_pos : 0 < 1 <<< e := by
  rw [Nat.one_shiftLeft]
  exact Nat.two_pow_pos e

end Shifts

theorem two_pow_mul_one (k : Nat) : 2 ^ k * one = 2 ^ (k + 1074) :=
  two_pow_mul_shiftLeft k 1074

theorem one_pos : 0 < one :=
  one_shiftLeft_pos 1074

theorem shiftLeft_one (n : Nat) : n <<< 1074 = n * one :=
  shiftLeft_eq_mul n 1074

theorem shiftRight_one (n : Nat) : n >>> 1074 = n / one :=
  shiftRight_eq_div n 1074

/-- A magnitude is made of its shift and its significand. -/
theorem compose_shift_significand (bits : Nat) :
    shift bits * leadingBit + significand bits = bits := by
  have hdivmod := Nat.div_add_mod bits leadingBit
  unfold shift significand
  by_cases hlow : bits < leadingBit
  · rw [if_pos hlow, Nat.div_eq_of_lt hlow]
    omega
  · rw [if_neg hlow]
    have hstretch : 1 ≤ bits / leadingBit := (Nat.one_le_div_iff (by decide)).2 (by omega)
    have hsplit : bits / leadingBit = bits / leadingBit - 1 + 1 := by omega
    rw [hsplit, Nat.mul_add] at hdivmod
    rw [Nat.mul_comm]
    omega

theorem shift_mono {a b : Nat} (h : a ≤ b) : shift a ≤ shift b :=
  Nat.sub_le_sub_right (Nat.div_le_div_right h) 1

/-- A significand has at most 53 binary digits, and fewer only where nothing is
    shifted. -/
theorem significand_lt (bits : Nat) : significand bits < 2 * leadingBit := by
  have hmod := Nat.mod_lt bits (show 0 < leadingBit by decide)
  unfold significand
  split <;> omega

theorem leadingBit_le_significand (bits : Nat) (h : shift bits ≠ 0) :
    leadingBit ≤ significand bits := by
  unfold significand
  split
  · next hlow =>
      rw [shift, Nat.div_eq_of_lt hlow] at h
      exact absurd rfl h
  · exact Nat.le_add_right _ _

/-- What a shift and a significand are worth together. A significand that has
    just reached `2 * leadingBit`, as rounding up may leave it, is the first one
    of the next stretch and worth the same there. -/
theorem units_compose (s r : Nat) (hlow : s = 0 ∨ leadingBit ≤ r) (hhigh : r ≤ 2 * leadingBit) :
    units (s * leadingBit + r) = r <<< s := by
  have hpos : 0 < leadingBit := by decide
  unfold units significand shift
  by_cases hsmall : r < leadingBit
  · have hs : s = 0 := hlow.resolve_right (by omega)
    subst hs
    rw [Nat.zero_mul, Nat.zero_add, if_pos hsmall, Nat.div_eq_of_lt hsmall]
  · rw [if_neg (by have := Nat.zero_le (s * leadingBit); omega)]
    by_cases hlast : r < 2 * leadingBit
    · have hdiv : (s * leadingBit + r) / leadingBit = s + 1 := by
        rw [Nat.add_comm, Nat.add_mul_div_right _ _ hpos,
          Nat.div_eq_of_lt_le (k := 1) (by omega) (by omega), Nat.add_comm]
      have hmod : (s * leadingBit + r) % leadingBit = r - leadingBit := by
        rw [Nat.add_comm, Nat.add_mul_mod_self_right, Nat.mod_eq_sub_mod (by omega),
          Nat.mod_eq_of_lt (by omega)]
      rw [hdiv, hmod, Nat.add_sub_cancel, Nat.add_sub_cancel' (by omega)]
    · have hr : r = 2 * leadingBit := by omega
      have hsum : s * leadingBit + r = (s + 2) * leadingBit := by
        rw [hr, Nat.add_mul]
      rw [hsum, Nat.mul_mod_left, Nat.mul_div_left _ hpos, Nat.add_zero, hr]
      rw [show s + 2 - 1 = s + 1 by omega, Nat.shiftLeft_eq, Nat.shiftLeft_eq, Nat.pow_succ,
        Nat.mul_comm 2, Nat.mul_assoc, Nat.mul_comm 2]

/-- The shift of a magnitude, read off what it is worth. -/
theorem log2_units (bits : Nat) : (units bits).log2 - 52 = shift bits := by
  have hlt := significand_lt bits
  unfold units
  by_cases hs : shift bits = 0
  · rw [hs, Nat.shiftLeft_zero]
    by_cases hzero : significand bits = 0
    · rw [hzero]
      rfl
    · have hlog : (significand bits).log2 < 53 := (Nat.log2_lt hzero).2 hlt
      omega
  · have hle := leadingBit_le_significand bits hs
    have hne : significand bits * 2 ^ shift bits ≠ 0 := by
      have hpos : 0 < leadingBit := by decide
      exact Nat.mul_ne_zero (by omega) (Nat.two_pow_pos _).ne'
    have hlog : (significand bits * 2 ^ shift bits).log2 = 52 + shift bits := by
      refine (Nat.log2_eq_iff hne).2 ⟨?_, ?_⟩
      · rw [Nat.pow_add]
        exact Nat.mul_le_mul_right _ hle
      · rw [Nat.add_right_comm, Nat.pow_add]
        exact Nat.mul_lt_mul_of_pos_right hlt (Nat.two_pow_pos _)
    rw [Nat.shiftLeft_eq, hlog]
    omega

theorem roundHalfEven_mul_right (num den k : Nat) (hk : 0 < k) :
    roundHalfEven (num * k) (den * k) = roundHalfEven num den := by
  have hlt : ∀ a b : Nat, a * k < b * k ↔ a < b := fun a b => Nat.mul_lt_mul_right hk
  unfold roundHalfEven
  rw [Nat.mul_div_mul_right _ _ hk, Nat.mul_mod_mul_right, ← Nat.mul_assoc]
  simp only [hlt]

theorem roundHalfEven_mul_self (n den : Nat) (hden : 0 < den) :
    roundHalfEven (n * den) den = n := by
  unfold roundHalfEven
  rw [Nat.mul_mod_left, Nat.mul_zero, if_pos hden, Nat.mul_div_left _ hden]

/-- The nearest magnitude depends on the ratio and not on how it is written. -/
theorem nearest_mul_right (num den k : Nat) (hk : 0 < k) :
    nearest (num * k) (den * k) = nearest num den := by
  have hnum : (num * k) <<< 1074 = num <<< 1074 * k := by
    rw [shiftLeft_one, shiftLeft_one, Nat.mul_right_comm]
  have hden : ∀ s, (den * k) <<< s = den <<< s * k := by
    intro s
    rw [Nat.shiftLeft_eq, Nat.shiftLeft_eq, Nat.mul_right_comm]
  simp only [nearest, hnum, hden, Nat.mul_div_mul_right _ _ hk, roundHalfEven_mul_right _ _ k hk]

theorem nearest_congr {num den num' den' : Nat} (hden : 0 < den) (hden' : 0 < den')
    (h : num * den' = num' * den) : nearest num den = nearest num' den' := by
  rw [← nearest_mul_right num den den' hden', h, Nat.mul_comm den den',
    nearest_mul_right num' den' den hden]

/-- A magnitude is the nearest one to what it is worth. -/
theorem nearest_of_units {num den bits : Nat} (hden : 0 < den) (hbits : bits ≤ infinityBits)
    (h : num * one = units bits * den) : nearest num den = bits := by
  have hscaled : num <<< 1074 = units bits * den := by rw [shiftLeft_one, h]
  -- On the grid of the magnitude's own shift the ratio is a whole number of steps.
  have hsteps : units bits * den = significand bits * den <<< shift bits := by
    rw [units, Nat.shiftLeft_eq, Nat.shiftLeft_eq, Nat.mul_assoc, Nat.mul_comm (2 ^ shift bits)]
  have hgrid : 0 < den <<< shift bits := by
    rw [Nat.shiftLeft_eq]
    exact Nat.mul_pos hden (Nat.two_pow_pos _)
  simp only [nearest, hscaled]
  rw [Nat.mul_div_left _ hden, log2_units, hsteps, roundHalfEven_mul_self _ _ hgrid,
    compose_shift_significand, Nat.min_eq_right hbits]

theorem div_le_roundHalfEven (num den : Nat) : num / den ≤ roundHalfEven num den := by
  unfold roundHalfEven
  split
  · exact Nat.le_refl _
  · split <;> omega

theorem roundHalfEven_le_div (num den : Nat) : roundHalfEven num den ≤ num / den + 1 := by
  unfold roundHalfEven
  split
  · exact Nat.le_succ _
  · split <;> omega

theorem roundHalfEven_mono {num num' : Nat} (den : Nat) (h : num ≤ num') :
    roundHalfEven num den ≤ roundHalfEven num' den := by
  rcases Nat.lt_or_eq_of_le (Nat.div_le_div_right (c := den) h) with hlt | heq
  · have hbelow := roundHalfEven_le_div num den
    have habove := div_le_roundHalfEven num' den
    omega
  · -- Between the same two whole numbers the greater remainder is rounded up first.
    have hdivmod := Nat.div_add_mod num den
    have hdivmod' := Nat.div_add_mod num' den
    rw [heq] at hdivmod
    have hmod : num % den ≤ num' % den := by omega
    unfold roundHalfEven
    rw [heq]
    split <;> split <;> try split
    all_goals try split
    all_goals omega

/-- On its grid a ratio has at most 53 binary digits, or comes to the first number
    that has more. -/
theorem roundHalfEven_le (scaled den : Nat) :
    roundHalfEven scaled (den <<< ((scaled / den).log2 - 52)) ≤ 2 * leadingBit := by
  have hdiv : scaled / (den <<< ((scaled / den).log2 - 52)) < 2 * leadingBit := by
    rw [Nat.shiftLeft_eq, ← Nat.div_div_eq_div_mul, Nat.div_lt_iff_lt_mul (Nat.two_pow_pos _)]
    have hlt : scaled / den < 2 ^ ((scaled / den).log2 + 1) := Nat.lt_log2_self
    have hle : 2 ^ ((scaled / den).log2 + 1) ≤ 2 ^ 53 * 2 ^ ((scaled / den).log2 - 52) := by
      rw [← Nat.pow_add]
      exact Nat.pow_le_pow_right (by decide) (by omega)
    exact Nat.lt_of_lt_of_le hlt hle
  have hround := roundHalfEven_le_div scaled (den <<< ((scaled / den).log2 - 52))
  omega

/-- Where the grid is coarser than the finest one, a ratio has 53 digits in front of the
    point. -/
theorem leadingBit_le_div (scaled den : Nat) (h : (scaled / den).log2 - 52 ≠ 0) :
    leadingBit ≤ scaled / (den <<< ((scaled / den).log2 - 52)) := by
  have hne : scaled / den ≠ 0 := by
    intro hzero
    rw [hzero] at h
    exact absurd rfl h
  rw [Nat.shiftLeft_eq, ← Nat.div_div_eq_div_mul, Nat.le_div_iff_mul_le (Nat.two_pow_pos _)]
  have hle : 2 ^ 52 * 2 ^ ((scaled / den).log2 - 52) ≤ 2 ^ (scaled / den).log2 := by
    rw [← Nat.pow_add]
    exact Nat.pow_le_pow_right (by decide) (by omega)
  exact Nat.le_trans hle (Nat.log2_self_le hne)

/-- So all 53 digits are used. -/
theorem leadingBit_le_roundHalfEven (scaled den : Nat) (h : (scaled / den).log2 - 52 ≠ 0) :
    leadingBit ≤ roundHalfEven scaled (den <<< ((scaled / den).log2 - 52)) :=
  Nat.le_trans (leadingBit_le_div scaled den h) (div_le_roundHalfEven _ _)

/-- Rounding keeps the order of numbers. -/
theorem nearest_mono {num num' : Nat} (den : Nat) (h : num ≤ num') :
    nearest num den ≤ nearest num' den := by
  have hscaled : num <<< 1074 ≤ num' <<< 1074 := by
    rw [shiftLeft_one, shiftLeft_one]
    exact Nat.mul_le_mul_right _ h
  have hdiv : num <<< 1074 / den ≤ num' <<< 1074 / den := Nat.div_le_div_right hscaled
  have hlog : (num <<< 1074 / den).log2 ≤ (num' <<< 1074 / den).log2 := by
    rw [Nat.log2_eq_log_two, Nat.log2_eq_log_two]
    exact Nat.log_mono_right hdiv
  have hupper := roundHalfEven_le (num <<< 1074) den
  have hlower := leadingBit_le_roundHalfEven (num' <<< 1074) den
  simp only [nearest]
  generalize infinityBits = top
  generalize num <<< 1074 = scaled at *
  generalize num' <<< 1074 = scaled' at *
  generalize leadingBit = leading at *
  rcases Nat.lt_or_eq_of_le (Nat.sub_le_sub_right hlog 52) with hlt | heq
  · -- The greater number stands on a coarser grid, a whole stretch of magnitudes away.
    have hstretch := Nat.mul_le_mul_right leading hlt
    have hleading := hlower (by omega)
    rw [Nat.succ_mul] at hstretch
    have hle : ((scaled / den).log2 - 52) * leading +
        roundHalfEven scaled (den <<< ((scaled / den).log2 - 52)) ≤
        ((scaled' / den).log2 - 52) * leading +
        roundHalfEven scaled' (den <<< ((scaled' / den).log2 - 52)) := by omega
    omega
  · have hround := roundHalfEven_mono (den <<< ((scaled' / den).log2 - 52)) hscaled
    rw [heq]
    omega

theorem nearest_le_infinityBits (num den : Nat) : nearest num den ≤ infinityBits :=
  Nat.min_le_left _ _

/-- Magnitudes are ordered as what they are worth. -/
theorem units_mono {a b : Nat} (h : a ≤ b) : units a ≤ units b := by
  have ha := compose_shift_significand a
  have hb := compose_shift_significand b
  have hlt := significand_lt a
  have hpositive : 0 < leadingBit := by decide
  have hshift := shift_mono h
  unfold units
  rw [Nat.shiftLeft_eq, Nat.shiftLeft_eq]
  rcases Nat.lt_or_eq_of_le hshift with hless | hequal
  · -- One step of the shift is worth more than the whole significand below it.
    have hleading : leadingBit ≤ significand b := leadingBit_le_significand b (by omega)
    calc significand a * 2 ^ shift a
        ≤ leadingBit * 2 * 2 ^ shift a := Nat.mul_le_mul_right _ (by omega)
      _ = leadingBit * 2 ^ (shift a + 1) := by rw [Nat.pow_succ', Nat.mul_assoc]
      _ ≤ leadingBit * 2 ^ shift b :=
        Nat.mul_le_mul_left _ (Nat.pow_le_pow_right (by decide) hless)
      _ ≤ significand b * 2 ^ shift b := Nat.mul_le_mul_right _ hleading
  · rw [hequal] at ha ⊢
    exact Nat.mul_le_mul_right _ (by omega)

/-- A power of two is a magnitude by itself. -/
theorem nearest_two_pow {k : Nat} (h : k ≤ 1023) :
    nearest (2 ^ k) 1 = (1023 + k) * leadingBit ∧
      units ((1023 + k) * leadingBit) = 2 ^ k * one := by
  have hbits : (1023 + k) * leadingBit = (1022 + k) * leadingBit + leadingBit := by
    rw [show 1023 + k = 1022 + k + 1 by omega, Nat.add_mul, Nat.one_mul]
  have hunits : units ((1023 + k) * leadingBit) = 2 ^ k * one := by
    have hleading : leadingBit = 2 ^ 52 := by decide
    rw [hbits, units_compose _ _ (Or.inr (Nat.le_refl _)) (by omega), Nat.shiftLeft_eq,
      two_pow_mul_one, hleading, ← Nat.pow_add]
    congr 1
    omega
  refine ⟨nearest_of_units Nat.one_pos ?_ (by rw [hunits, Nat.mul_one]), hunits⟩
  have hinfinity : infinityBits = 2047 * leadingBit := by decide
  rw [hinfinity]
  exact Nat.mul_le_mul_right _ (by omega)

/-- A ratio from `2 ^ 1025` on is infinite. -/
theorem nearest_of_great {num den k : Nat} (hden : 0 < den) (hk : 1025 ≤ k)
    (h : 2 ^ k * den ≤ num) : nearest num den = infinityBits := by
  have hle : 2 ^ (k + 1074) ≤ num <<< 1074 / den := by
    rw [Nat.le_div_iff_mul_le hden, Nat.shiftLeft_eq, Nat.pow_add, Nat.mul_right_comm]
    exact Nat.mul_le_mul_right _ h
  have hne : num <<< 1074 / den ≠ 0 := (Nat.lt_of_lt_of_le (Nat.two_pow_pos _) hle).ne'
  have hlog : k + 1074 ≤ (num <<< 1074 / den).log2 := (Nat.le_log2 hne).2 hle
  -- Infinity stands where the shift 2047 begins.
  have hlast : infinityBits = 2047 * leadingBit := by decide
  have hshift : 2047 ≤ (num <<< 1074 / den).log2 - 52 := by omega
  refine Nat.min_eq_left ?_
  rw [hlast]
  exact Nat.le_trans (Nat.mul_le_mul_right _ hshift) (Nat.le_add_right _ _)

/-- A ratio of less than half the smallest double is zero. -/
theorem nearest_of_small {num den : Nat} (h : 2 * (num * one) < den) :
    nearest num den = 0 := by
  have hscaled : num <<< 1074 < den := by
    rw [shiftLeft_one]
    omega
  have hzero : num <<< 1074 / den = 0 := Nat.div_eq_of_lt hscaled
  have hround : roundHalfEven (num <<< 1074) den = 0 := by
    unfold roundHalfEven
    rw [hzero, Nat.mod_eq_of_lt hscaled, shiftLeft_one, if_pos h]
  have hshift : Nat.log2 0 - 52 = 0 := rfl
  simp only [nearest, hzero, hshift, Nat.shiftLeft_zero, hround]
  omega

end Binary64

namespace Decimal

/-- A decimal is this number over its denominator. -/
def numerator (d : Decimal) : Nat :=
  d.coefficient * 10 ^ d.exponent.toNat

/-- The power of ten below the line of a decimal. -/
def denominator (d : Decimal) : Nat :=
  10 ^ (-d.exponent).toNat

theorem denominator_pos (d : Decimal) : 0 < d.denominator :=
  Nat.pow_pos (by decide)

theorem two_pow_le_ten_pow (n : Nat) : 2 ^ (3 * n) ≤ 10 ^ n := by
  rw [Nat.pow_mul]
  exact Nat.pow_le_pow_left (by decide) n

/-- A power of ten that is out of reach of a double is so for every coefficient. -/
theorem nearest_of_great {d : Decimal} (hcoefficient : d.coefficient ≠ 0)
    (h : 400 < d.exponent) : Binary64.nearest d.numerator d.denominator = Binary64.infinityBits := by
  have hone : d.denominator = 1 := by
    rw [denominator, show (-d.exponent).toNat = 0 by omega, Nat.pow_zero]
  have hexponent : 1025 ≤ 3 * d.exponent.toNat := by omega
  refine Binary64.nearest_of_great d.denominator_pos hexponent ?_
  rw [hone, Nat.mul_one, numerator]
  exact Nat.le_trans (two_pow_le_ten_pow _)
    (Nat.le_mul_of_pos_left _ (Nat.pos_of_ne_zero hcoefficient))

/-- A decimal that is small against the number of its binary digits is zero. -/
theorem nearest_of_small {d : Decimal}
    (h : d.exponent < -(400 + (d.coefficient.log2 : Int))) :
    Binary64.nearest d.numerator d.denominator = 0 := by
  have hcoefficient : d.coefficient < 2 ^ (d.coefficient.log2 + 1) := Nat.lt_log2_self
  have hnumerator : d.numerator = d.coefficient := by
    rw [numerator, show d.exponent.toNat = 0 by omega, Nat.pow_zero, Nat.mul_one]
  -- The power of ten pays for the unit and for the digits of the coefficient.
  have hexponent : 1 + (d.coefficient.log2 + 1) + 1074 ≤ 3 * (-d.exponent).toNat := by omega
  refine Binary64.nearest_of_small ?_
  rw [hnumerator, denominator]
  calc 2 * (d.coefficient * Binary64.one)
      < 2 * (2 ^ (d.coefficient.log2 + 1) * Binary64.one) := by
        refine Nat.mul_lt_mul_of_pos_left ?_ (by decide)
        exact Nat.mul_lt_mul_of_pos_right hcoefficient Binary64.one_pos
    _ = 2 ^ (1 + (d.coefficient.log2 + 1) + 1074) := by
        rw [← Binary64.two_pow_mul_one, Nat.pow_add 2 1, Nat.pow_one, Nat.mul_assoc]
    _ ≤ 2 ^ (3 * (-d.exponent).toNat) := Nat.pow_le_pow_right (by decide) hexponent
    _ ≤ 10 ^ (-d.exponent).toNat := two_pow_le_ten_pow _

/-- Reading a decimal is rounding its ratio: the tests made first change nothing. -/
theorem nearest_eq (d : Decimal) : d.nearest = Binary64.nearest d.numerator d.denominator := by
  unfold nearest
  by_cases hzero : d.coefficient = 0
  · rw [if_pos hzero, Binary64.nearest_of_small]
    rw [numerator, hzero, Nat.zero_mul, Nat.zero_mul]
    exact d.denominator_pos
  rw [if_neg hzero]
  by_cases hgreat : 400 < d.exponent
  · rw [if_pos hgreat, nearest_of_great hzero hgreat]
  rw [if_neg hgreat]
  by_cases hsmall : d.exponent < -(400 + (d.coefficient.log2 : Int))
  · rw [if_pos hsmall, nearest_of_small hsmall]
  · rw [if_neg hsmall]
    rfl

/-- Zeros at the end of a coefficient can be traded for the exponent. -/
theorem nearest_shift (coefficient k : Nat) (exponent : Int) :
    nearest ⟨coefficient * 10 ^ k, exponent⟩ = nearest ⟨coefficient, exponent + k⟩ := by
  rw [nearest_eq, nearest_eq]
  refine Binary64.nearest_congr (denominator_pos _) (denominator_pos _) ?_
  have hexponents : k + exponent.toNat + (-(exponent + k)).toNat =
      (exponent + k).toNat + (-exponent).toNat := by omega
  simp only [numerator, denominator]
  rw [Nat.mul_assoc, Nat.mul_assoc, Nat.mul_assoc, ← Nat.pow_add, ← Nat.pow_add, ← Nat.pow_add,
    ← Nat.add_assoc, hexponents]

end Decimal

end Criteria
