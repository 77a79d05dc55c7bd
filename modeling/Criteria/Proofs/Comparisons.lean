import Criteria.Proofs.Doubles
import Criteria.Proofs.Rounding

/-!
# Comparing Doubles

What the comparisons of doubles compare.

A comparison of doubles is defined on their three parts: it looks at the signs first, then
at the exponents and at last at the mantissas, with cases of their own for zeros, for
infinities and for what is not a number. The other modules speak of a finite double as of
a whole number of units `2 ^ -1074`. `compare_of_isFinite` says that these are two views of
one order, so that a claim about `<` is one about whole numbers, and the case distinction
does not come up again.

Two things are in the way. The model of a double splits off the leading bit of the mantissa
and so does `significand`, but they come to it by different roads, and `unpack_of_isFinite`
shows that they meet. And the parts of a double are compared one after the other, which is
the order of what they stand for only because magnitudes are worth strictly more the
greater they are (`units_lt_iff`).

What is said of all doubles, and not of the finite ones alone, is that it does not matter
on which side of `==` they stand.

## Main definitions

* `Binary64.scaled`: What a finite double is worth, as a whole number of units.

## Theorems

* `Binary64.unpack_of_isFinite`: The parts of a finite double.
* `Binary64.units_lt_iff`: Magnitudes are worth strictly more the greater they are.
* `Binary64.compare_of_isFinite`: Finite doubles compare as what they are worth.
* `Binary64.lt_iff`, `Binary64.le_iff`, `Binary64.beq_iff`: The same of each comparison.
* `Binary64.beq_comm`: Equality of doubles has no sides.
-/

namespace Criteria

namespace Binary64

section Parts

open Float.Model Float.Model.UnpackedFloat

/-- The sign of a double as the definition of doubles has it. -/
def sign (x : Float) : Sign :=
  if isNegative x then .negative else .positive

theorem unpackSign_eq (x : Float) :
    Sign.ofBitVec (@unpackSign Format.binary64 x.toBits.toBitVec) = sign x := by
  have hfield : (@unpackSign Format.binary64 x.toBits.toBitVec).toNat =
      x.toBits.toNat / signBit % 2 := by
    rw [unpackSign_def, BitVec.extractLsb'_toNat, Nat.shiftRight_eq_div_pow]
    rfl
  have hlt : x.toBits.toNat < 2 * signBit := x.toBits.toNat_lt
  unfold Sign.ofBitVec sign isNegative
  simp only [← BitVec.toNat_inj, hfield, decide_eq_true_eq]
  by_cases hsign : signBit ≤ x.toBits.toNat
  · rw [if_pos hsign, if_neg]
    simp only [signBit, BitVec.toNat_ofNat] at *
    omega
  · rw [if_neg hsign, if_pos]
    simp only [signBit, BitVec.toNat_ofNat] at *
    omega

theorem unpackExponent_eq (x : Float) :
    (@unpackExponent Format.binary64 x.toBits.toBitVec).toNat = magnitude x / leadingBit := by
  rw [toNat_unpackExponent, magnitude]
  simp only [leadingBit, signBit]
  omega

theorem unpackMantissa_eq (x : Float) :
    (@unpackMantissa Format.binary64 x.toBits.toBitVec).toNat = magnitude x % leadingBit := by
  rw [toNat_unpackMantissa, magnitude]
  simp only [leadingBit, signBit]
  omega

/-- A finite double is a zero, or its parts are its sign and the significand and the shift
    of its magnitude. -/
theorem unpack_of_isFinite {x : Float} (h : x.isFinite = true) :
    (magnitude x = 0 ∧ x.toModel.unpack = .zero (sign x)) ∨
      ∃ hpos : 0 < significand (magnitude x), x.toModel.unpack =
        .finite (sign x) (significand (magnitude x)) (shift (magnitude x) - 1074) hpos := by
  have hunpack : x.toModel.unpack = UnpackedFloat.unpack Format.binary64 x.toBits.toBitVec := rfl
  -- The full exponent is kept for infinities and for what is not a number.
  have hnotfull : ¬@unpackExponent Format.binary64 x.toBits.toBitVec = -1#11 := by
    rw [unpackExponent_eq_iff, Nat.not_le]
    exact (isFinite_iff x).1 h
  have hexponent := unpackExponent_eq x
  have hmantissa := unpackMantissa_eq x
  have hleading : 0 < leadingBit := by decide
  rw [hunpack]
  unfold UnpackedFloat.unpack
  dsimp only
  rw [if_neg hnotfull, unpackSign_eq]
  -- Only the lowest magnitudes are without a leading bit, and zero is one of them.
  by_cases hlow : @unpackExponent Format.binary64 x.toBits.toBitVec = 0#11
  · have hzero : magnitude x / leadingBit = 0 := by
      rw [← hexponent, hlow]
      rfl
    have hlt : magnitude x < leadingBit := (Nat.div_eq_zero_iff_lt hleading).1 hzero
    rw [Nat.mod_eq_of_lt hlt] at hmantissa
    rw [if_pos hlow, significand, if_pos hlt]
    by_cases hnone : @unpackMantissa Format.binary64 x.toBits.toBitVec = 0#52
    · rw [dif_pos hnone]
      refine Or.inl ⟨?_, rfl⟩
      rw [← hmantissa, hnone]
      rfl
    · rw [dif_neg hnone]
      have hpos : 0 < magnitude x := by
        refine Nat.pos_of_ne_zero fun hz => hnone ?_
        rw [← BitVec.toNat_inj, hmantissa, hz]
        rfl
      refine Or.inr ⟨hpos, ?_⟩
      rw [UnpackedFloat.finite.injEq]
      refine ⟨rfl, hmantissa, ?_⟩
      rw [hexponent, shift, hzero]
      rfl
  · have hge : 0 < magnitude x / leadingBit := by
      refine Nat.pos_of_ne_zero fun hz => hlow ?_
      rw [← BitVec.toNat_inj, hexponent, hz]
      rfl
    have hlt : ¬magnitude x < leadingBit := fun hlt => by
      rw [Nat.div_eq_of_lt hlt] at hge
      exact Nat.lt_irrefl 0 hge
    rw [if_neg hlow, significand, if_neg hlt]
    refine Or.inr ⟨by omega, ?_⟩
    rw [UnpackedFloat.finite.injEq]
    refine ⟨rfl, ?_, ?_⟩
    · have happend : (1#1 ++ @unpackMantissa Format.binary64 x.toBits.toBitVec).toNat =
          leadingBit + (@unpackMantissa Format.binary64 x.toBits.toBitVec).toNat := by
        have hlt := (@unpackMantissa Format.binary64 x.toBits.toBitVec).isLt
        rw [BitVec.toNat_append, ← Nat.shiftLeft_add_eq_or_of_lt hlt]
        rfl
      rw [happend, hmantissa]
    · have hbias : ((Format.binary64.exponentBias : Nat) : Int) = 1023 := rfl
      have hwidth : ((Format.binary64.mantissaBitsWithoutImplicit : Nat) : Int) = 52 := rfl
      rw [hexponent, shift, hbias, hwidth]
      omega

end Parts

/-- Magnitudes are worth strictly more the greater they are. -/
theorem units_lt_iff {a b : Nat} (ha : a ≤ infinityBits) (hb : b ≤ infinityBits) :
    units a < units b ↔ a < b := by
  have hexact : ∀ {bits : Nat}, bits ≤ infinityBits → nearest (units bits) one = bits :=
    fun h => nearest_of_units one_pos h rfl
  constructor
  · intro h
    by_contra hle
    have hmono := units_mono (Nat.not_lt.1 hle)
    omega
  · intro h
    refine Nat.lt_of_le_of_ne (units_mono (Nat.le_of_lt h)) fun heq => ?_
    -- Each magnitude is the nearest one to what it is worth.
    have hsame : a = b := by rw [← hexact ha, heq, hexact hb]
    omega

/-- The greater magnitude has the greater shift, or the same shift and the greater
    significand. -/
theorem lt_iff_shift_significand (a b : Nat) :
    a < b ↔ shift a < shift b ∨ shift a = shift b ∧ significand a < significand b := by
  have ha := compose_shift_significand a
  have hb := compose_shift_significand b
  have hab := @shift_mono a b
  have hba := @shift_mono b a
  by_cases hshift : shift a = shift b
  · rw [hshift] at ha
    omega
  · omega

/-- What a finite double is worth, counted in `2 ^ -1074` and with its sign. -/
def scaled (x : Float) : Int :=
  if isNegative x then -(units (magnitude x) : Int) else units (magnitude x)

/-- Which of two magnitudes is the greater is decided by the shifts, and by the significands
    if these are equal. -/
theorem compare_units {a b : Nat} (ha : a ≤ infinityBits) (hb : b ≤ infinityBits) :
    (compare ((shift a : Int) - 1074) ((shift b : Int) - 1074)).then
      (compare (significand a) (significand b)) = compare (units a : Int) (units b : Int) := by
  have hlt := (units_lt_iff ha hb).trans (lt_iff_shift_significand a b)
  have hgt := (units_lt_iff hb ha).trans (lt_iff_shift_significand b a)
  rcases Nat.lt_trichotomy (shift a) (shift b) with h | h | h
  · have hleft : compare ((shift a : Int) - 1074) ((shift b : Int) - 1074) = .lt :=
      Int.compare_eq_lt.2 (by omega)
    have hright : compare (units a : Int) (units b : Int) = .lt :=
      Int.compare_eq_lt.2 (by omega)
    rw [hleft, hright]
    rfl
  · have hleft : compare ((shift a : Int) - 1074) ((shift b : Int) - 1074) = .eq :=
      Int.compare_eq_eq.2 (by omega)
    rw [hleft, Ordering.eq_then, Nat.compare_eq_ite_lt, Int.compare_eq_ite_lt]
    -- With equal shifts the significands decide.
    have hlt' : significand a < significand b ↔ (units a : Int) < units b := by omega
    have hgt' : significand b < significand a ↔ (units b : Int) < units a := by omega
    simp only [hlt', hgt']
  · have hleft : compare ((shift a : Int) - 1074) ((shift b : Int) - 1074) = .gt :=
      Int.compare_eq_gt.2 (by omega)
    have hright : compare (units a : Int) (units b : Int) = .gt :=
      Int.compare_eq_gt.2 (by omega)
    rw [hleft, hright]
    rfl

section Order

open Float.Model Float.Model.UnpackedFloat

theorem units_pos {a : Nat} (h : 0 < significand a) : 0 < units a := by
  rw [units, Nat.shiftLeft_eq]
  exact Nat.mul_pos h (Nat.two_pow_pos _)

/-- A finite double is zero, positive or negative, and is worth as much. -/
theorem unpack_cases {x : Float} (h : x.isFinite = true) :
    (∃ s, x.toModel.unpack = .zero s ∧ scaled x = 0) ∨
      (∃ hpos, x.toModel.unpack =
          .finite .positive (significand (magnitude x)) (shift (magnitude x) - 1074) hpos ∧
        scaled x = units (magnitude x) ∧ 0 < units (magnitude x)) ∨
      ∃ hpos, x.toModel.unpack =
          .finite .negative (significand (magnitude x)) (shift (magnitude x) - 1074) hpos ∧
        scaled x = -(units (magnitude x) : Int) ∧ 0 < units (magnitude x) := by
  rcases unpack_of_isFinite h with ⟨hzero, hunpack⟩ | ⟨hpos, hunpack⟩
  · refine Or.inl ⟨sign x, hunpack, ?_⟩
    have hnone : units 0 = 0 := by decide
    rw [scaled, hzero, hnone]
    split <;> rfl
  · have hunits := units_pos hpos
    by_cases hneg : isNegative x = true
    · have hsign : sign x = .negative := if_pos hneg
      rw [hsign] at hunpack
      exact Or.inr (Or.inr ⟨hpos, hunpack, if_pos hneg, hunits⟩)
    · have hsign : sign x = .positive := if_neg hneg
      rw [hsign] at hunpack
      exact Or.inr (Or.inl ⟨hpos, hunpack, if_neg hneg, hunits⟩)

/-- Finite doubles compare as what they are worth. -/
theorem compare_of_isFinite {x y : Float} (hx : x.isFinite = true) (hy : y.isFinite = true) :
    x.toModel.unpack.compare y.toModel.unpack = some (compare (scaled x) (scaled y)) := by
  have hlt : scaled x < scaled y → some Ordering.lt = some (compare (scaled x) (scaled y)) :=
    fun h => congrArg some (Int.compare_eq_lt.2 h).symm
  have hgt : scaled y < scaled x → some Ordering.gt = some (compare (scaled x) (scaled y)) :=
    fun h => congrArg some (Int.compare_eq_gt.2 h).symm
  have hunits := compare_units (Nat.le_of_lt ((isFinite_iff x).1 hx))
    (Nat.le_of_lt ((isFinite_iff y).1 hy))
  -- Unless both doubles are on one side of zero, their signs decide.
  rcases unpack_cases hx with ⟨s, hxu, hxs⟩ | ⟨_, hxu, hxs, hxp⟩ | ⟨_, hxu, hxs, hxp⟩
  · rcases unpack_cases hy with ⟨t, hyu, hys⟩ | ⟨_, hyu, hys, hyp⟩ | ⟨_, hyu, hys, hyp⟩
    · rw [hxu, hyu, hxs, hys]
      rfl
    · rw [hxu, hyu, ← hlt (by omega)]
      rfl
    · rw [hxu, hyu, ← hgt (by omega)]
      rfl
  · rcases unpack_cases hy with ⟨t, hyu, hys⟩ | ⟨_, hyu, hys, hyp⟩ | ⟨_, hyu, hys, hyp⟩
    · rw [hxu, hyu, ← hgt (by omega)]
      rfl
    · rw [hxu, hyu, hxs, hys, ← hunits]
      rfl
    · rw [hxu, hyu, ← hgt (by omega)]
      rfl
  · rcases unpack_cases hy with ⟨t, hyu, hys⟩ | ⟨_, hyu, hys, hyp⟩ | ⟨_, hyu, hys, hyp⟩
    · rw [hxu, hyu, ← hlt (by omega)]
      rfl
    · rw [hxu, hyu, ← hlt (by omega)]
      rfl
    · -- Below zero the greater magnitude belongs to the smaller double.
      have hneg : compare (-(units (magnitude x) : Int)) (-(units (magnitude y) : Int)) =
          (compare (units (magnitude x) : Int) (units (magnitude y) : Int)).swap := by
        rw [Int.compare_swap, Int.compare_eq_ite_lt, Int.compare_eq_ite_lt]
        simp only [Int.neg_lt_neg_iff]
      rw [hxu, hyu, hxs, hys, hneg, ← hunits]
      rfl

theorem lt_iff {x y : Float} (hx : x.isFinite = true) (hy : y.isFinite = true) :
    x < y ↔ scaled x < scaled y := by
  have hdef : x < y ↔ x.toModel.unpack.lt y.toModel.unpack = true := decide_eq_true_iff
  rw [hdef, UnpackedFloat.lt, compare_of_isFinite hx hy, ← Int.compare_eq_lt, beq_iff_eq,
    Option.some.injEq]

theorem le_iff {x y : Float} (hx : x.isFinite = true) (hy : y.isFinite = true) :
    x ≤ y ↔ scaled x ≤ scaled y := by
  have hdef : x ≤ y ↔ x.toModel.unpack.le y.toModel.unpack = true := decide_eq_true_iff
  rw [hdef, UnpackedFloat.le, compare_of_isFinite hx hy, ← Int.isLE_compare]
  rfl

theorem beq_iff {x y : Float} (hx : x.isFinite = true) (hy : y.isFinite = true) :
    (x == y) = true ↔ scaled x = scaled y := by
  have hdef : (x == y) = x.toModel.unpack.beq y.toModel.unpack := rfl
  rw [hdef, UnpackedFloat.beq, compare_of_isFinite hx hy, ← Int.compare_eq_eq, beq_iff_eq,
    Option.some.injEq]

/-- Two doubles the other way round compare the other way round. -/
theorem compare_swap (a b : UnpackedFloat) :
    (a.compare b).map Ordering.swap = b.compare a := by
  cases a with
  | notANumber => cases b <;> rfl
  | infinity s =>
      cases s <;> rcases b with ⟨_ | _⟩ | _ | _ | _ <;> rfl
  | zero s => rcases b with ⟨_ | _⟩ | _ | _ | ⟨_ | _, _, _, _⟩ <;> rfl
  | finite s m e hpos =>
      have hfinite : ∀ m' e', ((compare e e').then (compare m m')).swap =
          (compare e' e).then (compare m' m) := by
        intro m' e'
        rw [Ordering.swap_then, Int.compare_swap, Nat.compare_swap]
      cases b with
      | notANumber => cases s <;> rfl
      | infinity t => cases s <;> cases t <;> rfl
      | zero t => cases s <;> rfl
      | finite t m' e' hpos' =>
          cases s <;> cases t
          · simp only [UnpackedFloat.compare, Option.map_some, hfinite]
          · rfl
          · rfl
          · simp only [UnpackedFloat.compare, Option.map_some, hfinite]

end Order

end Binary64

end Criteria
