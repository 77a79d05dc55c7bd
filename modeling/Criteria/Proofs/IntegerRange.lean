import Criteria.Caster.Data
import Criteria.Proofs.Comparisons

/-!
# The Range of Integers

Which doubles have a whole part that is a signed integer, found out by comparing doubles.

The greatest integer is not a double. The one nearest to it is `2 ^ 63`, so a comparison with
it has to be strict where the one with the least integer is not. Two things make the
comparisons exact all the same. No double lies between `2 ^ 63` and the next whole number
(`Binary64.units_le_iff`), so that nothing is lost at the lower end, where the fraction would
count. And what is kept by the comparisons is in range, so that the conversion, which would
put what is beyond the range at the end of it, never does so.

From here on the cast of a number is known by the whole part alone (`Json.castInt64_number`),
and no other module opens it.

## Main definitions

* `Json.Number.truncate`: A number with its fraction cut off.

## Theorems

* `Binary64.units_le_iff`: There is no double just above `2 ^ 63`.
* `Binary64.inRange_iff`: The range in terms of comparisons of doubles.
* `Binary64.toInt64_of_inRange`: Within the range the conversion cuts off the fraction.
* `Json.castInt64_number`: A number is cast to its whole part, if that is in range.
-/

namespace Criteria

namespace Binary64

/-- Doubles of `2 ^ 52` or more have no fraction. -/
theorem one_dvd_units {bits : Nat} (h : 1074 ≤ shift bits) : one ∣ units bits := by
  obtain ⟨k, hk⟩ : ∃ k, shift bits = k + 1074 := ⟨shift bits - 1074, by omega⟩
  rw [units, hk, Nat.shiftLeft_eq, ← two_pow_mul_one, ← Nat.mul_assoc]
  exact Nat.dvd_mul_left _ _

/-- No double lies between `2 ^ 63` and the next whole number. -/
theorem units_le_iff {bits : Nat} (h : bits ≤ infinityBits) :
    units bits ≤ 2 ^ 63 * one ↔ units bits / one ≤ 2 ^ 63 := by
  constructor
  · intro hle
    exact Nat.div_le_of_le_mul (by rwa [Nat.mul_comm])
  · intro hle
    by_contra hlt
    have hbits : (1023 + 63) * leadingBit < bits := by
      obtain ⟨-, hunits⟩ := @nearest_two_pow 63 (by decide)
      rwa [← hunits, Nat.not_le, units_lt_iff (by decide) h] at hlt
    have hshift : 1074 ≤ shift bits := by
      have hmono := shift_mono (Nat.le_of_lt hbits)
      have hbound : shift ((1023 + 63) * leadingBit) = 1085 := by decide
      omega
    -- A double of this size is whole, so cutting off its fraction has not made it smaller.
    have hwhole := Nat.div_mul_cancel (one_dvd_units hshift)
    have hmul := Nat.mul_le_mul_right one hle
    omega

theorem units_lt_iff_div (bits : Nat) : units bits < 2 ^ 63 * one ↔ units bits / one < 2 ^ 63 :=
  (Nat.div_lt_iff_lt_mul one_pos).symm

theorem scaled_ofInt {n : Int} {bits : Nat} (h : nearest n.natAbs 1 = bits)
    (hbits : bits ≤ infinityBits) :
    scaled (ofInt n) = if n < 0 then -(units bits : Int) else units bits := by
  rw [ofInt, h, scaled, magnitude_ofMagnitude _ hbits, isNegative_ofMagnitude _ hbits]
  simp only [decide_eq_true_eq]

theorem isFinite_ofInt {n : Int} {bits : Nat} (h : nearest n.natAbs 1 = bits)
    (hbits : bits < infinityBits) : (ofInt n).isFinite = true := by
  rw [isFinite_iff, ofInt, h, magnitude_ofMagnitude _ (Nat.le_of_lt hbits)]
  exact hbits

/-- The least integer is a double. -/
theorem ofInt_least : (ofInt (-2 ^ 63)).isFinite = true ∧
    scaled (ofInt (-2 ^ 63)) = -((2 ^ 63 * one : Nat) : Int) := by
  have habs : (-2 ^ 63 : Int).natAbs = 2 ^ 63 := by decide
  obtain ⟨hnearest, hunits⟩ := @nearest_two_pow 63 (by decide)
  rw [← habs] at hnearest
  refine ⟨isFinite_ofInt hnearest (by decide), ?_⟩
  rw [scaled_ofInt hnearest (by decide), if_pos (by decide), hunits]

/-- The greatest integer is none, and the nearest one is one more. -/
theorem ofInt_greatest : (ofInt (2 ^ 63 - 1)).isFinite = true ∧
    scaled (ofInt (2 ^ 63 - 1)) = ((2 ^ 63 * one : Nat) : Int) := by
  -- Rounding carries into the next power of two.
  have hnearest : nearest (2 ^ 63 - 1 : Int).natAbs 1 = (1023 + 63) * leadingBit := by
    decide +kernel
  obtain ⟨-, hunits⟩ := @nearest_two_pow 63 (by decide)
  refine ⟨isFinite_ofInt hnearest (by decide), ?_⟩
  rw [scaled_ofInt hnearest (by decide), if_neg (by decide), hunits]

/-- A comparison of a double with the ends of the range, the upper one being rounded up to
    `2 ^ 63`, finds out whether its whole part is a signed integer. -/
theorem inRange_iff {x : Float} (h : x.isFinite = true) :
    (ofInt (-2 ^ 63) ≤ x ∧ x < ofInt (2 ^ 63 - 1)) ↔
      -2 ^ 63 ≤ truncate x ∧ truncate x ≤ 2 ^ 63 - 1 := by
  have hle := units_le_iff (Nat.le_of_lt ((isFinite_iff x).1 h))
  have hlt := units_lt_iff_div (magnitude x)
  have hone := one_pos
  rw [le_iff ofInt_least.1 h, lt_iff h ofInt_greatest.1, ofInt_least.2, ofInt_greatest.2, truncate,
    shiftRight_one, scaled]
  -- What matters of the quotient is only how it compares with the bound.
  generalize units (magnitude x) / one = whole at *
  by_cases hneg : isNegative x = true
  · rw [if_pos hneg, if_pos hneg]
    omega
  · rw [if_neg hneg, if_neg hneg]
    omega

/-- Within the range the conversion only cuts off the fraction. -/
theorem toInt64_of_inRange {x : Float} (h : x.isFinite = true)
    (hrange : -2 ^ 63 ≤ truncate x ∧ truncate x ≤ 2 ^ 63 - 1) :
    toInt64 x = Int64.ofInt (truncate x) := by
  have hnumber : ¬x.isNaN = true := by
    rw [isNaN_of_isFinite h]
    exact Bool.false_ne_true
  rw [toInt64, if_neg hnumber, Int64.toInt_minValue, Int64.toInt_maxValue, min_eq_left hrange.2,
    max_eq_right hrange.1]

end Binary64

namespace Json

/-- A number with its fraction cut off. -/
def Number.truncate : Number → Int
  | .int n _ => n
  | .float x _ => Binary64.truncate x

/-- A number is cast to its whole part if that is a signed integer, and refused if not. -/
theorem castInt64_number (n : Number) :
    (Json.number n).castInt64 =
      match Whole.toInt64? n.truncate with
      | some i => .ok i
      | none => .error (.coercion n.text .int64 Refusal.outOfRange.text) := by
  cases n with
  | int n inRange =>
      simp only [castInt64, Number.toInt64?, Number.truncate]
      cases hint : Whole.toInt64? n with
      | some i => rfl
      | none =>
          -- A whole number that is no signed integer is beyond them, and so unsigned.
          have hunsigned : (Number.int n inRange).isUInt64 = true := by
            rw [Number.isUInt64, decide_eq_true_eq]
            by_contra hneg
            rw [Whole.toInt64?, if_pos ⟨inRange.1, by omega⟩] at hint
            cases hint
          simp only [hunsigned, if_true]
  | float x h =>
      have hrange := Binary64.inRange_iff h
      simp only [castInt64, Number.toInt64?, Number.truncate, Number.toFloat, Number.isUInt64, h,
        Bool.false_eq_true, if_false, true_and, Int64.toInt_minValue, Int64.toInt_maxValue, hrange]
      by_cases hin : -2 ^ 63 ≤ Binary64.truncate x ∧ Binary64.truncate x ≤ 2 ^ 63 - 1
      · have hint : Whole.toInt64? (Binary64.truncate x) = some (Int64.ofInt (Binary64.truncate x)) :=
          if_pos (by omega)
        rw [if_pos hin, hint, Binary64.toInt64_of_inRange h hin]
      · have hint : Whole.toInt64? (Binary64.truncate x) = none := if_neg (by omega)
        rw [if_neg hin, hint]

end Json

end Criteria
