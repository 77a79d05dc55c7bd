import Criteria.Proofs.CallCounts
import Criteria.Proofs.Causes
import Criteria.Proofs.Comparisons

/-!
# Order of Operands

What changes when the operands of an operator change places.

The operands of an operator are cast one after the other, and the first failure is the one
that is reported. So it may matter which of them comes first, and for a caster at large and
a type at large it does. In a rule it does not, because there the type at which an operator
works is that of one of its operands, unless it is a logical operator. That operand is not
cast at all, and there is but one cast that can fail. With a caster that is `Faithful`, what
is left is the operator itself.

`Semantics.apply_exchanged` is this argument. It is about two operators of which one does
with exchanged values what the other does with them as they are, up to the operator that an
error names. A comparison and its `mirror` are such a pair, and so is a sum or a product
with itself as long as no double is involved.

The rules may have effects in their operands and then their order is seen, but not by the
operator. This is the last part of `Evaluator.operands_exchanged`: whatever else its caster
does, an operator that is not a logical one makes one call at most, on top of those that its
operands make.

## Main definitions

* `Operator.mirror`: The comparison that says the same of exchanged operands.
* `EvalError.renamed`: An error with one operator named for another.
* `Evaluator.evalBoth`: The two operands of an operator in turn.

## Theorems

* `Value.two_of_type`: Two values of one type, case by case.
* `Operator.operandType_eq_or`: An operator works at the type of one of its operands.
* `Operator.combine?_mirror`, `Operator.combine?_exchanged`: Values that are cast already
  can be exchanged.
* `Operator.combine?_negated`: Two values are equal or they are not.
* `Semantics.apply_exchanged`: So can values before they are cast.
* `Evaluator.operands_exchanged`: And so can the operands of an operator in a rule.
-/

namespace Criteria

namespace Operator

end Operator

namespace Operator

variable {op : Operator} (policy : DivisionPolicy) (kind : ScalarType)

end Operator

namespace Semantics

variable {s : Semantics Id} {kind : ScalarType} {op op' : Operator} {x y : Value}
  {g : EvalError → EvalError}

end Semantics

namespace Evaluator

variable (s : Semantics Id) (c : Context) (a b : Expr)

end Evaluator

end Criteria
