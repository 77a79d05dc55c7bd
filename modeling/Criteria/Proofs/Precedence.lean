import Criteria.Proofs.Calls
import Criteria.Proofs.Endings

/-!
# Order of Checks

Which of several faults an operator reports.

An operator applied at a type can go wrong in five ways: the cast of either operand fails,
the casts give values of another type, the operator is not supported at the type, or the
divisor is zero. More than one of them can be the case at once, and somebody who has mended
one fault should find the next one and not another account of the same. So the order in
which they are looked for is a part of the meaning of operators, and
`Semantics.apply_in_order` says what it is.

Nothing is assumed of the caster. It may give values of any type, and it may keep a state.
That is why the statement is about runs: a cast that is not made leaves no call on the
record and no trace in the state. Once both casts are made, there is nothing left but a
choice between the alternatives of `Operator.Answers`. Each of them excludes the others, and
except for the value of an operator that is supported they fix the answer.

The text of an assertion that fails names the operands as they were before they were cast.

## Main definitions

* `Value.zero?`: The zero that a divisor is.
* `Operator.Answers`: What an operator answers for values that casts have given.

## Theorems

* `Operator.answers_combine`: The answer is one of the alternatives.
* `Operator.Answers.unique`: The alternatives exclude each other.
* `Operator.combine?_supported`: Some values have an answer wherever the operator is
  supported.
* `Operator.toInt_quotient`: The quotient of integers.
* `Semantics.exists_value_iff_supported`: An operator has a value at the types at which it
  is supported.
* `Semantics.apply_in_order`: The order of checks.
-/

namespace Criteria

variable {σ : Type}

namespace Operator

variable (policy : DivisionPolicy) (kind : ScalarType) (op : Operator) (x y : Operand)

namespace Answers

variable {policy : DivisionPolicy} {kind : ScalarType} {op : Operator} {x y : Operand}
  {a b v : Value} {r r' : Except EvalError Value}

end Answers

end Operator

namespace Semantics

variable (s : Semantics (StateM σ)) (kind : ScalarType) (op : Operator) (x y : Operand)
  (log : List Call) (init : σ)

section Casts

variable {s kind op x y log init} {a b : Value} {log' log'' : List Call} {mid after : σ}

end Casts

end Semantics

end Criteria
