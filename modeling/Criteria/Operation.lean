import Criteria.Caster.Basic
import Criteria.DivisionPolicy

/-!
# Operations

Operators at work.

An operator is applied at one of the four types. Both operands are cast to that
type, the left one first, and the operator is looked up in the support matrix
of the type:

| type   | `==` `!=` | `>` `<` `>=` `<=` | `+` `-` `*` `/` | `&&` `\|\|` |
|--------|-----------|-------------------|-----------------|-------------|
| int64  | yes       | yes               | yes             | no          |
| float  | yes       | yes               | yes             | no          |
| string | yes       | no                | no              | no          |
| bool   | yes       | no                | no              | yes         |

Integers wrap around at 64 bits and are divided toward zero; doubles follow
IEEE 754 except that division by zero is a matter of policy.

## Main definitions

* `Operator.onInts`, `onFloats`, `onStrings`, `onBools`: An operator at each
  type.
* `Operator.combine?`: An operator on two values of the wanted type.
* `Operator.operandType`: The type at which values are combined in a rule.
* `Semantics`: A caster and a division policy.
* `Semantics.combine`: An operator on operands that are cast already.
* `Semantics.apply`: An operator applied to operands.
* `Semantics.coerce`: A value turned into a type.

## Theorems

* `Operator.operandType_comm`: The type does not depend on the order of the
  operands.
* `Semantics.combine_eq`: An operator on operands that are cast already has no
  effects.
* `Semantics.coerce_of_castValue`: A cast that gives the type it should is what
  the value is turned into.
-/

namespace Criteria

/-- The quotient when the divisor is zero, given the zero of the type. -/
def DivisionPolicy.quotient (policy : DivisionPolicy) (zero : Value) : Except EvalError Value :=
  match policy with
  | .zero => .ok zero
  | .error => .error .divisionByZero

namespace Operator

/-- An operator on integers. -/
def onInts (policy : DivisionPolicy) (a b : Int64) : Operator → Except EvalError Value
  | .equal => .ok (.bool (a == b))
  | .notEqual => .ok (.bool (a != b))
  | .greater => .ok (.bool (decide (a > b)))
  | .less => .ok (.bool (decide (a < b)))
  | .greaterEqual => .ok (.bool (decide (a ≥ b)))
  | .lessEqual => .ok (.bool (decide (a ≤ b)))
  | .add => .ok (.int (a + b))
  | .subtract => .ok (.int (a - b))
  | .multiply => .ok (.int (a * b))
  | .divide => if b = 0 then policy.quotient (.int 0) else .ok (.int (a / b))
  | .and => .error (.unsupportedOperator .and)
  | .or => .error (.unsupportedOperator .or)

/-- An operator on doubles. Either zero counts as zero in a divisor. -/
def onFloats (policy : DivisionPolicy) (a b : Float) : Operator → Except EvalError Value
  | .equal => .ok (.bool (a == b))
  | .notEqual => .ok (.bool (a != b))
  | .greater => .ok (.bool (decide (a > b)))
  | .less => .ok (.bool (decide (a < b)))
  | .greaterEqual => .ok (.bool (decide (a ≥ b)))
  | .lessEqual => .ok (.bool (decide (a ≤ b)))
  | .add => .ok (.float (a + b))
  | .subtract => .ok (.float (a - b))
  | .multiply => .ok (.float (a * b))
  | .divide =>
    if b == 0 then policy.quotient (.float 0)
    else .ok (.float (a / b))
  | .and => .error (.unsupportedOperator .and)
  | .or => .error (.unsupportedOperator .or)

/-- An operator on text. -/
def onStrings (a b : String) : Operator → Except EvalError Value
  | .equal => .ok (.bool (a == b))
  | .notEqual => .ok (.bool (a != b))
  | op => .error (.unsupportedOperator op)

/-- An operator on truth values. -/
def onBools (a b : Bool) : Operator → Except EvalError Value
  | .equal => .ok (.bool (a == b))
  | .notEqual => .ok (.bool (a != b))
  | .and => .ok (.bool (a && b))
  | .or => .ok (.bool (a || b))
  | op => .error (.unsupportedOperator op)

/-- An operator at a type, if both values are of that type. -/
def combine? (policy : DivisionPolicy) (op : Operator) :
    ScalarType → Value → Value → Option (Except EvalError Value)
  | .int64, .int a, .int b => some (op.onInts policy a b)
  | .float, .float a, .float b => some (op.onFloats policy a b)
  | .string, .string a, .string b => some (op.onStrings a b)
  | .bool, .bool a, .bool b => some (op.onBools a b)
  | _, _, _ => none

/-- The type at which two values are combined in a rule. Logical operators
    work on truth values; otherwise the wider operand decides, text before
    doubles before integers before truth values. -/
def operandType (op : Operator) (x y : Value) : ScalarType :=
  if op.isLogical then .bool
  else if x.type = .string ∨ y.type = .string then .string
  else if x.type = .float ∨ y.type = .float then .float
  else if x.type = .int64 ∨ y.type = .int64 then .int64
  else .bool

theorem operandType_comm (op : Operator) (x y : Value) :
    op.operandType x y = op.operandType y x := by
  simp only [operandType, or_comm]

end Operator

/-- What fixes the meaning of operators: how operands are cast, and what a
    quotient is when the divisor is zero. -/
structure Semantics (m : Type → Type) where
  caster : Caster m
  division : DivisionPolicy

namespace Semantics

variable {m : Type → Type} [Monad m]

/-- What comes of two operands, given what they were cast to. The operands
    themselves are only named, in the error of a caster that gave values of
    other types. -/
def combine (s : Semantics m) (kind : ScalarType) (op : Operator) (x y : Operand) (a b : Value) :
    Outcome m Value :=
  match op.combine? s.division kind a b with
  | some result => Outcome.ofExcept result
  | none => throw (.typeAssertion x.text op y.text)

theorem combine_eq (s : Semantics m) (kind : ScalarType) (op : Operator) (x y : Operand)
    (a b : Value) : s.combine kind op x y a b = Outcome.ofExcept
      ((op.combine? s.division kind a b).getD (.error (.typeAssertion x.text op y.text))) := by
  unfold combine
  cases op.combine? s.division kind a b with
  | none => rfl
  | some result => rfl

/-- An operator applied to operands at a type. The left operand is cast first,
    and if that fails the right one is not cast at all. Only then is the type
    of what the caster gave checked, and only then the operator. -/
def apply (s : Semantics m) (kind : ScalarType) (op : Operator) (x y : Operand) :
    Outcome m Value := do
  let a ← x.cast s.caster kind
  let b ← y.cast s.caster kind
  s.combine kind op x y a b

/-- A value turned into a type. The caster is asked only for values of another
    type, and what it gives is checked. -/
def coerce (s : Semantics m) (v : Value) (target : ScalarType) : Outcome m Value :=
  if v.type = target then pure v
  else do
    let w ← s.caster.castValue v target
    if w.type = target then pure w
    else throw (.coercion v.text target (Refusal.wrongType w.type).text)

theorem coerce_of_castValue [LawfulMonad m] (s : Semantics m) {v w : Value} {target : ScalarType}
    (hcast : s.caster.castValue v target = pure w) (hw : w.type = target) :
    s.coerce v target = pure w := by
  unfold coerce
  by_cases htype : v.type = target
  · rw [if_pos htype, ← hcast, ← htype, Caster.castValue_self]
  · rw [if_neg htype, hcast, pure_bind, if_pos hw]

end Semantics

end Criteria
