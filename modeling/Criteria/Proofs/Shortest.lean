import Criteria.Decimal.Layout
import Criteria.Proofs.Rounding
import Mathlib

/-!
# Shortest Decimals Read Back

The decimal that is written for a magnitude is read as that magnitude again.

A shortest decimal is found by trial, and every trial asks whether the decimal is
read back, so there is nothing to prove of it but that the trial was not in vain.
The exact value stands at the end of the search, and that it reads back is a fact
about rounding. Writing the digits then drops the zeros at the end of the
coefficient, which rounding does not notice either.

What is left is a row of digits with the place of the first. It is never empty,
and it starts with a zero only for zero itself; on this rest the grammars of
numerals.

## Main definitions

* `Scientific.decimal`: The decimal that digits and a power stand for.
* `Scientific.Normal`: Digits as they are written.

## Theorems

* `Decimal.nearest_exact`: The exact value of a magnitude reads back.
* `Decimal.nearest_shortest`: So does its shortest decimal.
* `Decimal.nearest_scientific`: Dropping zeros at the end does not matter.
* `Decimal.scientific_normal`: The digits of a decimal are in normal form.
-/

namespace Criteria

namespace Decimal

/-- The exact value of a magnitude is read as this magnitude. -/
theorem nearest_exact {bits : Nat} (h : bits ≤ Binary64.infinityBits) :
    (exact bits).nearest = bits := by
  rw [nearest_eq]
  refine Binary64.nearest_of_units (denominator_pos _) h ?_
  -- Above one there is nothing below it, so the powers of two come out even.
  have hpowers : 2 ^ (Binary64.shift bits - 1074) * Binary64.one =
      2 ^ Binary64.shift bits * 2 ^ (1074 - Binary64.shift bits) := by
    rw [Binary64.two_pow_mul_one, ← Nat.pow_add]
    exact congrArg _ (by omega)
  have hten : 10 ^ (1074 - Binary64.shift bits) =
      2 ^ (1074 - Binary64.shift bits) * 5 ^ (1074 - Binary64.shift bits) := by
    rw [← Nat.mul_pow]
  have hcoefficient : (exact bits).coefficient = Binary64.significand bits *
      2 ^ (Binary64.shift bits - 1074) * 5 ^ (1074 - Binary64.shift bits) := by
    simp only [exact, Nat.shiftLeft_eq, Nat.pow_eq]
  have hexponent : (exact bits).exponent = -((1074 - Binary64.shift bits : Nat) : Int) := rfl
  have hwhole : (exact bits).exponent.toNat = 0 := by omega
  have hplaces : (-(exact bits).exponent).toNat = 1074 - Binary64.shift bits := by omega
  calc (exact bits).numerator * Binary64.one
      = Binary64.significand bits * (2 ^ (Binary64.shift bits - 1074) * Binary64.one) *
          5 ^ (1074 - Binary64.shift bits) := by
        rw [numerator, hwhole, hcoefficient, Nat.pow_zero, Nat.mul_one, Nat.mul_right_comm,
          Nat.mul_assoc (Binary64.significand bits)]
    _ = Binary64.units bits * (exact bits).denominator := by
        rw [hpowers, Binary64.units, Nat.shiftLeft_eq, denominator, hplaces, hten, ← Nat.mul_assoc,
          ← Nat.mul_assoc]

theorem nearest_of_readsAs {d : Decimal} {bits : Nat} (h : d.readsAs bits = true) :
    d.nearest = bits :=
  beq_iff_eq.1 h

/-- Of two neighbours one is chosen. -/
theorem Tie.choose_cases (tie : Tie) (low rest grid : Nat) :
    tie.choose low rest grid = low ∨ tie.choose low rest grid = low + 1 := by
  unfold Tie.choose
  split
  · exact Or.inl rfl
  · split
    · exact Or.inr rfl
    · cases tie with
      | even =>
          dsimp only
          omega
      | up => exact Or.inr rfl

/-- What is found on a grid is read back, having been tried. -/
theorem nearest_onGrid {tie : Tie} {bits dropped : Nat} {value d : Decimal}
    (h : onGrid tie bits value dropped = some d) : d.nearest = bits := by
  simp only [onGrid] at h
  split at h
  · next hlow hhigh =>
      rw [← Option.some.inj h]
      rcases tie.choose_cases (value.coefficient / Nat.pow 10 dropped)
        (value.coefficient % Nat.pow 10 dropped) (Nat.pow 10 dropped) with hchoice | hchoice
      · rw [hchoice]
        exact nearest_of_readsAs hlow
      · rw [hchoice]
        exact nearest_of_readsAs hhigh
  · next hlow _ =>
      rw [← Option.some.inj h]
      exact nearest_of_readsAs hlow
  · next _ hhigh =>
      rw [← Option.some.inj h]
      exact nearest_of_readsAs hhigh
  · cases h

/-- The shortest decimal of a magnitude is read as this magnitude. -/
theorem nearest_shortest (tie : Tie) {bits : Nat} (h : bits ≤ Binary64.infinityBits) :
    (shortest tie bits).nearest = bits := by
  unfold shortest
  dsimp only
  cases hsearch : (List.range' 1 17).findSome? fun n =>
      onGrid tie bits (exact bits) ((Nat.toDigits 10 (exact bits).coefficient).length - n) with
  | none => exact nearest_exact h
  | some d =>
      obtain ⟨n, -, hfound⟩ := List.exists_of_findSome?_eq_some hsearch
      exact nearest_onGrid hfound

end Decimal

namespace Scientific

/-- The decimal that digits stand for when the first stands at a power of ten. -/
def decimal (s : Scientific) : Decimal :=
  ⟨Nat.ofDigitChars 10 s.digits 0, s.exponent - (s.digits.length - 1 : Nat)⟩

/-- Digits as they are written: at least one, and none of them a zero in front
    unless it is all there is. -/
structure Normal (s : Scientific) : Prop where
  nonempty : s.digits ≠ []
  digits : ∀ c ∈ s.digits, c.isDigit = true
  leading : s.digits.head? = some '0' → s = ⟨['0'], 0⟩

end Scientific

namespace Decimal

/-- A row of digits is what is left without the zeros at its end, and these. -/
theorem append_replicate_zeros (digits : List Char) :
    ∃ k, digits =
      (digits.reverse.dropWhile (· == '0')).reverse ++ List.replicate k '0' := by
  refine ⟨(digits.reverse.takeWhile (· == '0')).length, ?_⟩
  have hzeros : digits.reverse.takeWhile (· == '0') =
      List.replicate (digits.reverse.takeWhile (· == '0')).length '0' := by
    refine List.eq_replicate_of_mem fun c hc => ?_
    have hzero := List.mem_takeWhile_imp hc
    exact beq_iff_eq.1 hzero
  have hsplit := congrArg List.reverse (List.takeWhile_append_dropWhile (p := (· == '0'))
    (l := digits.reverse))
  rw [List.reverse_append, List.reverse_reverse, hzeros, List.reverse_replicate] at hsplit
  exact hsplit.symm

/-- The first digit of a number is a zero for zero only. -/
theorem head?_toDigits_ne_zero (n : Nat) (h : n ≠ 0) : (Nat.toDigits 10 n).head? ≠ some '0' := by
  induction n using Nat.strong_induction_on with
  | _ n ih =>
    by_cases hsmall : n < 10
    · rw [Nat.toDigits_of_lt_base hsmall]
      intro hzero
      exact h (Nat.digitChar_eq_zero.1 (Option.some.inj hzero))
    · rw [Nat.toDigits_of_base_le (by decide) (by omega),
        List.head?_append_of_ne_nil _ Nat.toDigits_ne_nil]
      exact ih (n / 10) (by omega) (by omega)

theorem scientific_zero {d : Decimal} (h : d.coefficient = 0) : d.scientific = ⟨['0'], 0⟩ := by
  rw [scientific, if_pos h]

theorem scientific_of_ne_zero {d : Decimal} (h : d.coefficient ≠ 0) :
    ∃ digits k, digits ≠ [] ∧
      d.scientific = ⟨digits, d.exponent + (digits.length + k - 1 : Nat)⟩ ∧
      Nat.toDigits 10 d.coefficient = digits ++ List.replicate k '0' ∧
      d.coefficient = Nat.ofDigitChars 10 digits 0 * 10 ^ k := by
  obtain ⟨k, hk⟩ := append_replicate_zeros (Nat.toDigits 10 d.coefficient)
  generalize hdigits :
    ((Nat.toDigits 10 d.coefficient).reverse.dropWhile (· == '0')).reverse = digits at hk
  have hvalue : d.coefficient = Nat.ofDigitChars 10 digits 0 * 10 ^ k := by
    rw [← Nat.ofDigitChars_ten_toDigits (n := d.coefficient), hk, Nat.ofDigitChars_append,
      Nat.ofDigitChars_replicate_zero, Nat.mul_comm]
  refine ⟨digits, k, ?_, ?_, hk, hvalue⟩
  · rintro rfl
    rw [Nat.ofDigitChars_nil, Nat.zero_mul] at hvalue
    exact h hvalue
  · have hlength := congrArg List.length hk
    rw [List.length_append, List.length_replicate] at hlength
    rw [scientific, if_neg h]
    dsimp only
    rw [hdigits, hlength]

/-- Without the zeros at its end a decimal is read as the same magnitude. -/
theorem nearest_scientific (d : Decimal) : d.scientific.decimal.nearest = d.nearest := by
  by_cases hzero : d.coefficient = 0
  · rw [scientific_zero hzero, nearest, nearest, if_pos hzero, if_pos (by decide)]
  · obtain ⟨digits, k, hnonempty, hscientific, -, hvalue⟩ := scientific_of_ne_zero hzero
    have hlength : 0 < digits.length := List.length_pos_iff.2 hnonempty
    have hshift := nearest_shift (Nat.ofDigitChars 10 digits 0) k d.exponent
    rw [← hvalue] at hshift
    rw [hscientific, hshift, Scientific.decimal]
    dsimp only
    rw [show d.exponent + (digits.length + k - 1 : Nat) - (digits.length - 1 : Nat) =
      d.exponent + k by omega]

/-- The digits of a decimal are in normal form. -/
theorem scientific_normal (d : Decimal) : d.scientific.Normal := by
  by_cases hzero : d.coefficient = 0
  · have hdigit : ∀ c ∈ ['0'], c.isDigit = true := fun c hc => List.mem_singleton.1 hc ▸ rfl
    rw [scientific_zero hzero]
    exact ⟨List.cons_ne_nil _ _, hdigit, fun _ => rfl⟩
  · obtain ⟨digits, k, hnonempty, hscientific, hdigits, -⟩ := scientific_of_ne_zero hzero
    have hfirst := head?_toDigits_ne_zero d.coefficient hzero
    rw [hdigits] at hfirst
    rw [hscientific]
    refine ⟨hnonempty, fun c hc => ?_, fun hhead => ?_⟩
    · refine Nat.isDigit_of_mem_toDigits (n := d.coefficient) (b := 10) (by decide) (by decide) ?_
      rw [hdigits]
      exact List.mem_append_left _ hc
    · rw [List.head?_append_of_ne_nil _ hnonempty] at hfirst
      exact absurd hhead hfirst

end Decimal

end Criteria
