import Criteria.DivisionPolicy
import Criteria.Value
import Criteria.Wire.Basic

/-!
# Wire Forms of Scalars

Types, operators and policies are bare names; values are alternatives, named
after their type, with JSON scalars as contents.

## Main definitions

* `ScalarType.toDocument`, `ofDocument?`, and the same for `Operator`,
  `DivisionPolicy` and `Value`: Writing and reading a form.
* `Document.int64?`, `float?`, `string?`, `bool?`: The contents of a scalar.
* `Value.scalar`, `Value.ofScalar?`: The contents of a value.
-/

namespace Criteria

open Json (Document)

namespace Json.Document

/-- A document as an integer: a whole number in range, not one with a
    fraction or an exponent. -/
def int64? : Document → Option Int64
  | .number n => n.toInt64?
  | _ => none

/-- A document as a double: any number. -/
def float? : Document → Option Float
  | .number n => some n.toFloat
  | _ => none

/-- A document as text. -/
def string? : Document → Option String
  | .string s => some s
  | _ => none

/-- A document as a truth value. -/
def bool? : Document → Option Bool
  | .bool b => some b
  | _ => none

end Json.Document

namespace ScalarType

/-- The name of a type in wire form. -/
def wireName : ScalarType → String
  | .int64 => "Int64"
  | .float => "Float"
  | .string => "String"
  | .bool => "Bool"

/-- A type in wire form. -/
def toDocument (t : ScalarType) : Document :=
  .string t.wireName

/-- The type that a document names. -/
def ofDocument? (room : Nat) (d : Document) : Option ScalarType :=
  (Wire.bareName? room d).bind fun name => all.find? fun t => t.wireName == name

end ScalarType

namespace Operator

/-- The name of an operator in wire form. -/
def wireName : Operator → String
  | .equal => "Equal"
  | .notEqual => "NotEqual"
  | .greater => "GreaterThan"
  | .less => "LessThan"
  | .greaterEqual => "GreaterThanEqual"
  | .lessEqual => "LessThanEqual"
  | .add => "Add"
  | .subtract => "Subtract"
  | .multiply => "Multiply"
  | .divide => "Divide"
  | .and => "And"
  | .or => "Or"

/-- An operator in wire form. -/
def toDocument (op : Operator) : Document :=
  .string op.wireName

/-- The operator that a document names. -/
def ofDocument? (room : Nat) (d : Document) : Option Operator :=
  (Wire.bareName? room d).bind fun name => all.find? fun op => op.wireName == name

end Operator

namespace DivisionPolicy

/-- A policy in wire form: its word. -/
def toDocument (p : DivisionPolicy) : Document :=
  .string p.token

/-- The policy that a document names. -/
def ofDocument? (room : Nat) (d : Document) : Option DivisionPolicy :=
  (Wire.bareName? room d).bind ofToken?

end DivisionPolicy

namespace Value

/-- The contents of a value in wire form. A double that is not finite becomes
    null, from which it cannot be read back. -/
def scalar (v : Value) : Document :=
  v.toJson.toDocument

/-- The value of a type that a document holds. -/
def ofScalar? : ScalarType → Document → Option Value
  | .int64, d => d.int64?.map .int
  | .float, d => d.float?.map .float
  | .string, d => d.string?.map .string
  | .bool, d => d.bool?.map .bool

/-- The name of a value's type in the wire form of values. -/
def wireName : ScalarType → String
  | .int64 => "Int64"
  | .float => "Float64"
  | .string => "String"
  | .bool => "Bool"

/-- A value in wire form. -/
def toDocument (v : Value) : Document :=
  Wire.tagged (wireName v.type) v.scalar

/-- The value that a document spells. -/
def ofDocument? : (room : Nat) → Document → Option Value
  | 0, _ => none
  | _ + 1, d => do
    let (name, contents) ← Wire.alternative? d
    let type ← ScalarType.all.find? fun t => wireName t == name
    ofScalar? type contents

end Value

end Criteria
