import Criteria.Error
import Criteria.Json.Document

/-!
# Values

The results of rules: integers of 64 bits, doubles, text and truth values.

## Main definitions

* `Value`: A scalar.
* `Value.type`: Its type.
* `Value.text`: The value as it stands in messages.
* `Value.toJson`, `Value.ofJson`: The value as JSON data, and the value that
  data has without any conversion.
* `Value.equals`: Equality of values as rules see it.

## Theorems

* `Value.toJson_float`: A finite double is a number in JSON data.
* `Value.toJson_infinite`: Any other double is null.
-/

namespace Criteria

/-- A scalar value. -/
inductive Value where
  | int (n : Int64)
  | float (x : Float)
  | string (s : String)
  | bool (b : Bool)
deriving DecidableEq

namespace Value

instance : Inhabited Value := ⟨.bool false⟩

/-- The type of a value. -/
def type : Value → ScalarType
  | .int _ => .int64
  | .float _ => .float
  | .string _ => .string
  | .bool _ => .bool

/-- The truth value of a value that is one. -/
def toBool? : Value → Option Bool
  | .bool b => some b
  | _ => none

/-- A truth value as text. -/
def boolText (b : Bool) : String :=
  if b then "true" else "false"

/-- A value as it stands in messages: text bare, doubles in plain layout. -/
def text : Value → String
  | .int n => (Json.Number.ofInt64 n).text
  | .float x => Layout.plain.text x
  | .string s => s
  | .bool b => boolText b

/-- A value as JSON data. Doubles that are not finite have no such form and
    become null. -/
def toJson : Value → Json
  | .int n => .number (Json.Number.ofInt64 n)
  | .float x => ((Json.Number.ofFloat? x).map Json.number).getD .null
  | .string s => .string s
  | .bool b => .bool b

theorem toJson_float (x : Float) (h : x.isFinite = true) :
    (Value.float x).toJson = .number (.float x h) := by
  rw [toJson, Json.Number.ofFloat?, dif_pos h, Option.map_some, Option.getD_some]

theorem toJson_infinite (x : Float) (h : x.isFinite = false) : (Value.float x).toJson = .null := by
  rw [toJson, Json.Number.ofFloat?, dif_neg (by rw [h]; exact Bool.false_ne_true)]
  rfl

/-- The value that data has without any conversion. Whole numbers beyond the
    signed integers are doubles; null, arrays and objects have no value. -/
def ofJson : Json → Except EvalError Value
  | .bool b => .ok (.bool b)
  | .string s => .ok (.string s)
  | .number n =>
    match n.toInt64? with
    | some i => .ok (.int i)
    | none => .ok (.float n.toFloat)
  | j => .error (.noScalarForm j.text)

/-- Equality of values: doubles are compared as numbers, so what is not a
    number differs from itself and the two zeros are equal. -/
def equals : Value → Value → Bool
  | .int m, .int n => m == n
  | .float x, .float y => x == y
  | .string s, .string t => s == t
  | .bool a, .bool b => a == b
  | _, _ => false

end Value

end Criteria
