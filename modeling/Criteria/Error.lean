import Criteria.Operator
import Criteria.ScalarType

/-!
# Errors

Why the evaluation of a rule fails.

An error names its cause; `EvalError.message` holds all the wording. Casters
may be supplied from outside and explain a refusal in their own words, so the
reason of a failed cast is text. The reasons given by this library are the
values of `Refusal`.

## Main definitions

* `EvalError`: The causes.
* `EvalError.message`: An error in words.
* `Refusal`: Why the caster for JSON data refuses, with the wording in
  `Refusal.text`.
* `ArityFault`: What is wrong with the number of arguments of a call.
-/

namespace Criteria

/-- Why an evaluation fails. -/
inductive EvalError where
  /-- A value could not be turned into the type that is needed. -/
  | coercion (value : String) (target : ScalarType) (reason : String)
  /-- A caster gave operands of another type than it was asked for. -/
  | typeAssertion (left : String) (op : Operator) (right : String)
  /-- Null, an array or an object stands where a scalar is needed. -/
  | noScalarForm (json : String)
  /-- The operator is not defined at the type of its operands. -/
  | unsupportedOperator (op : Operator)
  /-- No function of this name is registered. -/
  | unknownFunction (name : String)
  /-- The name is not bound and leads nowhere as a path. -/
  | variableNotFound (name : String)
  /-- A function was called with arguments it does not take. -/
  | invalidArguments (function : String) (message : String)
  /-- A divisor is zero and the policy makes that an error. -/
  | divisionByZero
deriving DecidableEq

/-- An error in words. -/
def EvalError.message : EvalError → String
  | .coercion value target reason => "cannot cast " ++ value ++ " to " ++ target.token ++ ": " ++ reason
  | .typeAssertion left op right => left ++ " " ++ op.token ++ " " ++ right ++ " eval failed"
  | .noScalarForm json => "value has no scalar form: " ++ json
  | .unsupportedOperator op => "unsupported binary operator: " ++ op.token
  | .unknownFunction name => name ++ " func not support"
  | .variableNotFound name => "variable not found: " ++ name
  | .invalidArguments function message =>
    "invalid arguments for " ++ function ++ ": " ++ message
  | .divisionByZero => "division by zero"

/-- Why a cast is refused, where no numeral is at fault. -/
inductive Refusal where
  /-- The number lies outside the integers of 64 bits. -/
  | outOfRange
  /-- An infinity, or what is not a number, has no counterpart. -/
  | notFinite
  /-- Text that spells no truth value. -/
  | notBoolText
  /-- A number that stands for no truth value. -/
  | notBoolNumber
  /-- JSON data of this kind is never cast to the target. -/
  | unsupportedSource (kind : String)
  /-- A caster gave a value of this type instead of the target. -/
  | wrongType (given : ScalarType)
  /-- A value that should be a truth value is none. -/
  | notBool
  /-- A value that should be text is none. -/
  | notString

/-- A refusal in words. -/
def Refusal.text : Refusal → String
  | .outOfRange => "out of range"
  | .notFinite => "not a finite number"
  | .notBoolText => "expected true, false, 1 or 0"
  | .notBoolNumber => "expected 1 or 0"
  | .unsupportedSource kind => "unsupported source type " ++ kind
  | .wrongType given => "caster returned " ++ given.token
  | .notBool => "not a bool"
  | .notString => "not a string"

/-- What is wrong with the number of arguments of a call. -/
inductive ArityFault where
  /-- Exactly so many arguments are taken. -/
  | expected (count given : Nat)
  /-- At least one argument is taken. -/
  | noArguments

/-- A fault in the number of arguments in words. -/
def ArityFault.text : ArityFault → String
  | .expected count given =>
    "expected " ++ toString count ++ " argument(s), got " ++ toString given
  | .noArguments => "expected at least one argument"

end Criteria
