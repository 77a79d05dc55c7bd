import Criteria.Proofs.Operands
import Mathlib.Data.Rat.Floor

/-!
# Whole Parts

The integer for a number that may have a fraction.

A number becomes an integer by losing its fraction, and where the whole part is no integer
of 64 bits there is no integer for the number. That is simple to say of rational numbers,
and here it is shown of the cast, which has to do with doubles and with comparisons of them
(`Json.castInt64_number`).

What a double is worth is read off its parts as the definition of doubles has them
(`Binary64.value`). `Binary64.value_eq` is the bridge to the units that all the rest is
counted in: the worth of a double is a quotient of whole numbers, and its whole part is the
quotient that the division of integers gives.

## Main definitions

* `wholePart`: A rational number with its fraction cut off.
* `Binary64.value`, `Json.Number.value`: What a double and a number in data are worth.
* `Json.Number.TruncatedBy`: A cast gives the whole part or refuses it.

## Theorems

* `wholePart_div`: The whole part of a quotient.
* `Binary64.value_eq`: The worth of a double in units.
* `Binary64.truncate_eq`: Cutting off the fraction of a double.
* `Caster.numbers_truncated`: Numbers are cast to their whole part or not at all.
-/

namespace Criteria

/-- A rational number with its fraction cut off. -/
def wholePart (q : ℚ) : ℤ :=
  if 0 ≤ q then ⌊q⌋ else ⌈q⌉

/-- The whole part of a quotient is the quotient of integers. -/
theorem wholePart_div (a : ℤ) {b : ℕ} (hb : 0 < b) : wholePart (a / b) = a.tdiv b := by
  have hpos : (0 : ℚ) < b := Nat.cast_pos.2 hb
  unfold wholePart
  by_cases ha : 0 ≤ a
  · have hq : (0 : ℚ) ≤ a / b := div_nonneg (Int.cast_nonneg ha) hpos.le
    rw [if_pos hq, Rat.floor_intCast_div_natCast, Int.tdiv_eq_ediv_of_nonneg ha]
  · have hneg : (a : ℚ) < 0 := Int.cast_lt_zero.2 (by omega)
    have hq : ¬(0 : ℚ) ≤ a / b := not_le.2 (div_neg_of_neg_of_pos hneg hpos)
    obtain ⟨c, rfl⟩ : ∃ c : ℤ, a = -c := ⟨-a, by omega⟩
    -- Below zero the ceiling is what the floor is of the opposite number.
    rw [if_neg hq, Int.cast_neg, neg_div, Int.ceil_neg, Rat.floor_intCast_div_natCast,
      Int.neg_tdiv, Int.tdiv_eq_ediv_of_nonneg (by omega)]

namespace Binary64

section Value

open Float.Model Float.Model.UnpackedFloat

/-- What the parts of a double stand for: the mantissa times a power of two, with its sign.
    For what is not finite there is no such number. -/
def worth : UnpackedFloat → ℚ
  | .finite .positive m e _ => m * (2 : ℚ) ^ e
  | .finite .negative m e _ => -(m * (2 : ℚ) ^ e)
  | _ => 0

/-- What a finite double is worth. -/
def value (x : Float) : ℚ :=
  worth x.toModel.unpack

/-- Shifts as powers of two, for any exponent so that no power is computed on the way. -/
theorem cast_shiftLeft_div (m k e : ℕ) :
    (m : ℚ) * (2 : ℚ) ^ ((k : ℤ) - e) = ((m <<< k : ℕ) : ℚ) / ((1 <<< e : ℕ) : ℚ) := by
  rw [Nat.shiftLeft_eq, Nat.one_shiftLeft, zpow_sub₀ two_ne_zero, zpow_natCast, zpow_natCast,
    ← mul_div_assoc]
  push_cast
  rfl

theorem cast_units (bits : Nat) :
    (significand bits : ℚ) * (2 : ℚ) ^ ((shift bits : ℤ) - 1074) = (units bits : ℚ) / one :=
  cast_shiftLeft_div (significand bits) (shift bits) 1074

/-- The worth of a finite double is a whole number of units. -/
theorem value_eq {x : Float} (h : x.isFinite = true) : value x = (scaled x : ℚ) / one := by
  unfold value
  rcases unpack_cases h with ⟨s, hunpack, hscaled⟩ | ⟨_, hunpack, hscaled, _⟩ |
    ⟨_, hunpack, hscaled, _⟩
  · rw [hunpack, hscaled, Int.cast_zero, zero_div]
    rfl
  · rw [hunpack, hscaled, Int.cast_natCast, ← cast_units]
    rfl
  · rw [hunpack, hscaled, Int.cast_neg, Int.cast_natCast, neg_div, ← cast_units]
    rfl

theorem truncate_eq_tdiv (x : Float) : truncate x = (scaled x).tdiv one := by
  unfold truncate scaled
  rw [shiftRight_one]
  by_cases hneg : isNegative x = true
  · rw [if_pos hneg, if_pos hneg, Int.neg_tdiv]
    rfl
  · rw [if_neg hneg, if_neg hneg]
    rfl

/-- Cutting off the fraction of a double is cutting off that of the number it is worth. -/
theorem truncate_eq {x : Float} (h : x.isFinite = true) : truncate x = wholePart (value x) := by
  rw [value_eq h, wholePart_div _ one_pos, truncate_eq_tdiv]

end Value

end Binary64

namespace Json.Number

/-- What a number is worth, exactly. -/
def value : Number → ℚ
  | .int n _ => n
  | .float x _ => Binary64.value x

theorem truncate_eq (n : Number) : n.truncate = wholePart n.value := by
  cases n with
  | int n h =>
      have hone : ((n : ℚ) / (1 : ℕ)) = n := by rw [Nat.cast_one, div_one]
      rw [truncate, value, ← hone, wholePart_div n Nat.one_pos, Nat.cast_one, Int.tdiv_one]
  | float x h => exact Binary64.truncate_eq h

/-- Whether a cast gives the whole part of a number as an integer of 64 bits if there is
    one, and refuses it otherwise. -/
def TruncatedBy (n : Number) (r : Outcome Id Value) : Prop :=
  (∀ k : Int64, r = pure (.int k) ↔ k.toInt = wholePart n.value) ∧
    ((∃ k : Int64, r = pure (.int k)) ↔
      -2 ^ 63 ≤ wholePart n.value ∧ wholePart n.value ≤ 2 ^ 63 - 1) ∧
    (¬(-2 ^ 63 ≤ wholePart n.value ∧ wholePart n.value ≤ 2 ^ 63 - 1) →
      r = throw (.coercion n.text .int64 "out of range"))

theorem truncatedBy_cast (n : Number) :
    n.TruncatedBy ((Caster.json : Caster Id).cast (.number n) .int64) := by
  have hdef : (Caster.json : Caster Id).cast (.number n) .int64 =
      Outcome.ofExcept ((Json.number n).cast .int64) := rfl
  have hsome := Whole.toInt64?_eq_some_iff (wholePart n.value)
  rw [TruncatedBy, hdef, Json.cast, Json.castInt64_number, truncate_eq]
  by_cases hrange : -2 ^ 63 ≤ wholePart n.value ∧ wholePart n.value ≤ 2 ^ 63 - 1
  · have hint : Whole.toInt64? (wholePart n.value) = some (Int64.ofInt (wholePart n.value)) :=
      if_pos (by omega)
    rw [hint]
    refine ⟨fun k => ?_, iff_of_true ⟨_, rfl⟩ hrange, absurd hrange⟩
    rw [← hsome k, hint]
    constructor
    · intro h
      cases h
      rfl
    · intro h
      cases h
      rfl
  · have hint : Whole.toInt64? (wholePart n.value) = none := if_neg (by omega)
    rw [hint]
    have hrefused : ∀ k : Int64,
        (Outcome.ofExcept (.error (.coercion n.text .int64 "out of range")) : Outcome Id Value) ≠
          pure (.int k) := by
      intro k h
      cases h
    refine ⟨fun k => ?_, iff_of_false (fun h => hrefused _ h.choose_spec) hrange, fun _ => rfl⟩
    rw [← hsome k, hint]
    exact iff_of_false (hrefused k) (Option.some_ne_none k).symm

end Json.Number

/-- The cast of any number to an integer is exact or refused. So is that of any finite
    double as a value. And as far as doubles are concerned, a comparison with the two ends
    of the range, the upper one as the double nearest to it, is enough to tell which. -/
theorem Caster.numbers_truncated :
    (∀ n : Json.Number, n.TruncatedBy ((Caster.json : Caster Id).cast (.number n) .int64)) ∧
      (∀ (x : Float) (h : x.isFinite = true), (Json.Number.float x h).TruncatedBy
        ((Caster.json : Caster Id).castValue (.float x) .int64)) ∧
      ∀ x : Float, x.isFinite = true →
        ((Binary64.ofInt (-2 ^ 63) ≤ x ∧ x < Binary64.ofInt (2 ^ 63 - 1)) ↔
          -2 ^ 63 ≤ wholePart (Binary64.value x) ∧
            wholePart (Binary64.value x) ≤ 2 ^ 63 - 1) := by
  refine ⟨Json.Number.truncatedBy_cast, fun x h => ?_, fun x h => ?_⟩
  · have hfinite : ∀ y, Value.float x = .float y → y.isFinite = true := by
      intro y hy
      rwa [← Value.float.inj hy]
    rw [castValue_json_toJson hfinite, Value.toJson_float x h]
    exact Json.Number.truncatedBy_cast _
  · rw [← Binary64.truncate_eq h]
    exact Binary64.inRange_iff h

/-- The least integer is given for the double that is worth as much, and the double one past
    the greatest integer is refused. -/
theorem Caster.numbers_truncated_ends :
    (Caster.json : Caster Id).castValue (.float (Float.ofBits 0xC3E0000000000000)) .int64 =
        pure (.int Int64.minValue) ∧
      ∃ text, (Caster.json : Caster Id).castValue (.float (Float.ofBits 0x43E0000000000000))
        .int64 = throw (.coercion text .int64 "out of range") := by
  have hleast : (Float.ofBits 0xC3E0000000000000).isFinite = true := by decide
  have hpast : (Float.ofBits 0x43E0000000000000).isFinite = true := by decide
  have hleastWhole : Binary64.truncate (Float.ofBits 0xC3E0000000000000) = -2 ^ 63 := by
    decide +kernel
  have hpastWhole : Binary64.truncate (Float.ofBits 0x43E0000000000000) = 2 ^ 63 := by
    decide +kernel
  refine ⟨((numbers_truncated.2.1 _ hleast).1 Int64.minValue).2 ?_, _,
    (numbers_truncated.2.1 _ hpast).2.2 ?_⟩
  · rw [← Json.Number.truncate_eq, Json.Number.truncate, hleastWhole]
    rfl
  · rw [← Json.Number.truncate_eq, Json.Number.truncate, hpastWhole]
    decide

end Criteria
