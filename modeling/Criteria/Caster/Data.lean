import Criteria.Caster.Basic
import Criteria.Text.Blank

/-!
# Casting JSON Data

The caster that is used unless another is supplied.

Numbers become integers by losing their fraction, text is read as a numeral or
as a truth value after blanks at its ends are removed, and text is the target
of everything scalar. Nothing is clamped and nothing is guessed: what has no
counterpart is refused, with the reason.

## Main definitions

* `Json.castInt64`, `Json.castFloat`, `Json.castString`, `Json.castBool`: The
  casts to each type.
* `Json.cast`: The cast to a given type.
* `Caster.json`: The caster that does this.
-/

namespace Criteria

namespace Json

/-- The word for a kind of data. -/
def kind : Json → String
  | .null => "null"
  | .bool _ => "bool"
  | .number _ => "number"
  | .string _ => "string"
  | .array _ => "array"
  | .object _ => "object"

/-- The refusal to cast data of this kind at all. -/
def unsupported (j : Json) (target : ScalarType) : EvalError :=
  .coercion j.text target (Refusal.unsupportedSource j.kind).text

/-- Data as an integer: numbers lose their fraction, text is read. A double is
    compared with the ends of the range as doubles. The upper end is rounded up
    to `2 ^ 63`, hence the strict bound. -/
def castInt64 : Json → Except EvalError Int64
  | .number n =>
    let outOfRange := .coercion n.text .int64 Refusal.outOfRange.text
    match n.toInt64? with
    | some i => .ok i
    | none =>
      let x := n.toFloat
      if n.isUInt64 then .error outOfRange
      else if x.isFinite ∧ Binary64.ofInt Int64.minValue.toInt ≤ x ∧
          x < Binary64.ofInt Int64.maxValue.toInt then
        .ok (Binary64.toInt64 x)
      else .error outOfRange
  | .string s =>
    match Text.readInt64 (Text.trim s.toList) with
    | .ok i => .ok i
    | .error fault => .error (.coercion (Json.string s).text .int64 fault.message)
  | j => .error (j.unsupported .int64)

/-- Data as a double: numbers go to the nearest one, text is read. -/
def castFloat : Json → Except EvalError Float
  | .number n => .ok n.toFloat
  | .string s =>
    match Text.readFloat (Text.trim s.toList) with
    | .ok x => .ok x
    | .error fault => .error (.coercion (Json.string s).text .float fault.message)
  | j => .error (j.unsupported .float)

/-- Data as text: text stays as it is, numbers and truth values are written. -/
def castString : Json → Except EvalError String
  | .string s => .ok s
  | .number n => .ok n.text
  | .bool b => .ok (Value.boolText b)
  | j => .error (j.unsupported .string)

/-- Data as a truth value: text spells one in either case or as a digit, and of
    the numbers the whole ones `1` and `0` stand for one. -/
def castBool : Json → Except EvalError Bool
  | .bool b => .ok b
  | .string s =>
    let word := (Text.trim s.toList).map Char.toLower
    if word = "true".toList ∨ word = "1".toList then .ok true
    else if word = "false".toList ∨ word = "0".toList then .ok false
    else .error (.coercion (Json.string s).text .bool Refusal.notBoolText.text)
  | .number n =>
    if n.toInt64? = some 1 then .ok true
    else if n.toInt64? = some 0 then .ok false
    else .error (.coercion n.text .bool Refusal.notBoolNumber.text)
  | j => .error (j.unsupported .bool)

/-- The cast of data to a type. -/
def cast (j : Json) : ScalarType → Except EvalError Value
  | .int64 => j.castInt64.map .int
  | .float => j.castFloat.map .float
  | .string => j.castString.map .string
  | .bool => j.castBool.map .bool

end Json

/-- The caster for JSON data. -/
def Caster.json {m : Type → Type} [Monad m] : Caster m :=
  Caster.ofFunction Json.cast

end Criteria
