/-!
# Whole Numbers of 64 Bits

Which whole numbers a signed integer of 64 bits can hold.

## Main definitions

* `Whole.toInt64?`: A whole number as such an integer, where it fits.

## Theorems

* `Whole.toInt64?_eq_some_iff`: The integer has the same value, so nothing is
  clamped or wrapped.
* `Whole.toInt64?_toInt`: Every integer fits.
-/

namespace Criteria

namespace Whole

/-- A whole number as an integer of 64 bits, if it is in range. -/
def toInt64? (n : Int) : Option Int64 :=
  if -0x8000000000000000 ≤ n ∧ n < 0x8000000000000000 then some (Int64.ofInt n) else none

theorem toInt64?_toInt (i : Int64) : toInt64? i.toInt = some i := by
  have hle := i.le_toInt
  have hlt := i.toInt_lt
  rw [toInt64?, if_pos ⟨by omega, by omega⟩, Int64.ofInt_toInt]

theorem toInt64?_eq_some_iff (n : Int) (i : Int64) : toInt64? n = some i ↔ i.toInt = n := by
  constructor
  · intro h
    simp only [toInt64?] at h
    split at h
    · next hn =>
        rw [← Option.some.inj h]
        exact Int64.toInt_ofInt_of_le (by omega) (by omega)
    · exact absurd h (by simp only [reduceCtorEq, not_false_eq_true])
  · rintro rfl
    exact toInt64?_toInt i

end Whole

end Criteria
