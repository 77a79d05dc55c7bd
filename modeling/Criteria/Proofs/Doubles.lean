import Criteria.Binary64
import Mathlib

/-!
# Doubles

A double and its magnitude.

A double is its sign and its magnitude, put together again by `ofMagnitude`. It is
finite exactly where its magnitude lies below that of infinity, so that whatever
is known of magnitudes up to there is known of finite doubles.

The bits of a double are read in two ways: as one number, in this library, and as
fields of 1, 11 and 52 bits, in the definition of `Float`. The two are compared
once, field by field, and only here.

## Theorems

* `Binary64.ofMagnitude_magnitude`: A double is made of its sign and magnitude.
* `Binary64.magnitude_ofMagnitude`, `Binary64.isNegative_ofMagnitude`: These are
  what it was made of, unless it is not a number.
* `Binary64.isFinite_iff`: Finite doubles have the magnitudes below infinity.
* `Binary64.isNaN_of_isFinite`: A finite double is a number.
* `Binary64.eq_ofBits_of_isNaN`, `Binary64.magnitude_of_infinite`: Which doubles are
  not finite.
-/

namespace Criteria

namespace Binary64

/-- A double is made of its sign and its magnitude. -/
theorem ofMagnitude_magnitude (x : Float) : ofMagnitude (isNegative x) (magnitude x) = x := by
  have hlt : x.toBits.toNat < 2 * signBit := x.toBits.toNat_lt
  have hbits : (if isNegative x then signBit + magnitude x else magnitude x) = x.toBits.toNat := by
    unfold isNegative magnitude
    by_cases hsign : signBit ≤ x.toBits.toNat
    · rw [decide_eq_true hsign, if_pos rfl, Nat.mod_eq_sub_mod hsign, Nat.mod_eq_of_lt (by omega)]
      omega
    · rw [decide_eq_false hsign, if_neg Bool.false_ne_true, Nat.mod_eq_of_lt (by omega)]
  rw [ofMagnitude, hbits, UInt64.ofNat_toNat, Float.ofBits_toBits]

section Fields

open Float.Model Float.Model.UnpackedFloat

theorem toNat_unpackExponent (u : UInt64) :
    (@unpackExponent Format.binary64 u.toBitVec).toNat = u.toNat / leadingBit % 2048 := by
  rw [unpackExponent_def, BitVec.extractLsb'_toNat, Nat.shiftRight_eq_div_pow]
  rfl

theorem toNat_unpackMantissa (u : UInt64) :
    (@unpackMantissa Format.binary64 u.toBitVec).toNat = u.toNat % leadingBit := by
  rw [unpackMantissa_def, BitVec.extractLsb'_toNat, Nat.shiftRight_zero]
  rfl

/-- The field of the exponent is full from infinity on. -/
theorem unpackExponent_eq_iff (u : UInt64) :
    @unpackExponent Format.binary64 u.toBitVec = -1#11 ↔
      infinityBits ≤ u.toNat % signBit := by
  have hones : (-1#11).toNat = 2047 := by decide
  rw [← BitVec.toNat_inj, toNat_unpackExponent, hones]
  simp only [leadingBit, infinityBits, signBit]
  omega

/-- The finite doubles are those with a magnitude below that of infinity. -/
theorem isFinite_iff (x : Float) : x.isFinite = true ↔ magnitude x < infinityBits := by
  have hfields : x.isFinite = (UnpackedFloat.unpack Format.binary64 x.toBits.toBitVec).isFinite :=
    rfl
  rw [hfields, magnitude, ← Nat.not_le, ← unpackExponent_eq_iff]
  unfold UnpackedFloat.unpack
  dsimp only
  split
  · next hfull => split <;> exact iff_of_false Bool.false_ne_true (not_not_intro hfull)
  · next hfull =>
      -- Zeros, subnormal and normal numbers are finite alike.
      split
      · split <;> exact iff_of_true rfl hfull
      · exact iff_of_true rfl hfull

theorem isNaN_of_isFinite {x : Float} (h : x.isFinite = true) : x.isNaN = false := by
  have hfinite : x.isFinite = x.toModel.unpack.isFinite := rfl
  have hnan : x.isNaN = x.toModel.unpack.isNaN := rfl
  rw [hfinite] at h
  rw [hnan]
  cases hx : x.toModel.unpack with
  | notANumber =>
      rw [hx] at h
      exact absurd h Bool.false_ne_true
  | infinity s => rfl
  | zero s => rfl
  | finite s m e hm => rfl

/-- There is one double that is not a number. -/
theorem eq_ofBits_of_isNaN {x : Float} (h : x.isNaN = true) :
    x = Float.ofBits 0x7FF8000000000000 := by
  have hpacked : ∀ u : UInt64, Float.ofBits u =
      .ofModel (.pack (UnpackedFloat.unpack Format.binary64 u.toBitVec)) := fun _ => rfl
  have hnan : x.isNaN = (UnpackedFloat.unpack Format.binary64 x.toBits.toBitVec).isNaN := rfl
  have hcanonical : UnpackedFloat.unpack Format.binary64 (0x7FF8000000000000 : UInt64).toBitVec =
      .notANumber := rfl
  rw [hnan] at h
  rw [hpacked, hcanonical, ← Float.ofBits_toBits x, hpacked]
  cases hx : UnpackedFloat.unpack Format.binary64 x.toBits.toBitVec with
  | notANumber => rfl
  | infinity s | zero s | finite s m e hm =>
      rw [hx] at h
      exact absurd h Bool.false_ne_true

/-- The doubles that are numbers and not finite have the magnitude of infinity. -/
theorem magnitude_of_infinite {x : Float} (hfinite : x.isFinite = false) (hnan : x.isNaN = false) :
    magnitude x = infinityBits := by
  have hfull : infinityBits ≤ magnitude x := by
    refine Nat.not_lt.1 fun hlt => ?_
    rw [(isFinite_iff x).2 hlt] at hfinite
    cases hfinite
  have hfields : x.isNaN = (UnpackedFloat.unpack Format.binary64 x.toBits.toBitVec).isNaN := rfl
  have hexponent := (unpackExponent_eq_iff x.toBits).2 hfull
  rw [hfields] at hnan
  unfold UnpackedFloat.unpack at hnan
  dsimp only at hnan
  rw [if_pos hexponent] at hnan
  -- The exponent is full, so the rest tells infinity from what is not a number.
  have hmantissa : @unpackMantissa Format.binary64 x.toBits.toBitVec = 0#52 := by
    by_contra hne
    rw [if_neg hne] at hnan
    cases hnan
  have hrest : x.toBits.toNat % leadingBit = 0 := by
    rw [← toNat_unpackMantissa, hmantissa]
    rfl
  unfold magnitude at *
  simp only [leadingBit, infinityBits, signBit] at *
  omega

/-- Bits up to those of infinity are those of a number, and are kept as they are. -/
theorem toBits_ofBits (u : UInt64) (h : u.toNat % signBit ≤ infinityBits) :
    (Float.ofBits u).toBits = u := by
  have hnumber : ¬@isNaNBits Format.binary64 u.toBitVec := by
    unfold isNaNBits
    rw [decide_eq_true_iff, unpackExponent_eq_iff]
    rintro ⟨hexponent, hmantissa⟩
    refine hmantissa ?_
    rw [← BitVec.toNat_inj, toNat_unpackMantissa]
    simp only [leadingBit, infinityBits, signBit, BitVec.toNat_zero] at *
    omega
  refine UInt64.toBitVec_inj.1 ?_
  have hpack : (Float.ofBits u).toBits.toBitVec =
      UnpackedFloat.pack Format.binary64 (UnpackedFloat.unpack Format.binary64 u.toBitVec) := rfl
  rw [hpack, pack_unpack, if_neg hnumber]

end Fields

theorem toBits_ofMagnitude (negative : Bool) {bits : Nat} (h : bits ≤ infinityBits) :
    (ofMagnitude negative bits).toBits.toNat = if negative then signBit + bits else bits := by
  have hlt : (if negative then signBit + bits else bits) < 2 ^ 64 := by
    simp only [signBit, infinityBits] at *
    split <;> omega
  have hbits : (UInt64.ofNat (if negative then signBit + bits else bits)).toNat =
      if negative then signBit + bits else bits := UInt64.toNat_ofNat_of_lt' hlt
  have hmod : (if negative then signBit + bits else bits) % signBit ≤ infinityBits := by
    simp only [signBit, infinityBits] at *
    split <;> omega
  rw [ofMagnitude, toBits_ofBits _ (by rw [hbits]; exact hmod), hbits]

theorem magnitude_ofMagnitude (negative : Bool) {bits : Nat} (h : bits ≤ infinityBits) :
    magnitude (ofMagnitude negative bits) = bits := by
  rw [magnitude, toBits_ofMagnitude negative h]
  simp only [signBit, infinityBits] at *
  split <;> omega

theorem isNegative_ofMagnitude (negative : Bool) {bits : Nat} (h : bits ≤ infinityBits) :
    isNegative (ofMagnitude negative bits) = negative := by
  rw [isNegative, toBits_ofMagnitude negative h]
  simp only [signBit, infinityBits] at *
  cases negative with
  | true => exact decide_eq_true (by rw [if_pos rfl]; omega)
  | false => exact decide_eq_false (by rw [if_neg Bool.false_ne_true]; omega)

end Binary64

end Criteria
