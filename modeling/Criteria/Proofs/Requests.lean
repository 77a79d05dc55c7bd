import Criteria.Operation

/-!
# Requests

What evaluation asks of a caster.

The type at which an operator works is chosen from its operands, the widest of
them deciding, so an operand either is of that type or is narrower. That leaves
few casts that are ever asked for: truth values become integers, truth values
and integers become doubles, anything scalar is written as text, and anything
scalar is read as a truth value. A double is never cut down to an integer and
text is never read as a number.

`Requested` lists these casts with the data that a caster is given for them. A
value of the target type is not among them, nor is null: doubles without a form
as JSON data are dealt with before a caster is asked.

## Main definitions

* `ScalarType.WidensTo`: Which types evaluation casts to which others.
* `Requested`: The calls of a caster that evaluation makes.

## Theorems

* `Operator.widensTo_operandType_left`, `Operator.widensTo_operandType_right`:
  Operands are cast to the type of their operator by widening only.
* `Value.requested_toJson`: A widening of a value with a form as JSON data is
  such a call.
* `Requested.exists_value`: A call is the widening of a value.
* `Requested.type_ne`: Its target is not the type of that value.
* `Requested.ne_of_ofJson_error`: Data without a value is in no call.
* `Requested.int_lt`: Whole numbers in calls are signed integers.
* `Requested.ne_int64_of_double`: No double is cast to an integer.
* `Requested.eq_bool_of_text`: Text is cast to truth values only.
-/

namespace Criteria

/-- Whether evaluation casts values of one type to another. -/
def ScalarType.WidensTo (source : ScalarType) : ScalarType → Prop
  | .int64 => source = .bool
  | .float => source = .bool ∨ source = .int64
  | .string => source ≠ .string
  | .bool => source ≠ .bool

/-- The calls of a caster that evaluation makes, by target. -/
inductive Requested : Json → ScalarType → Prop where
  | boolAsInt (b : Bool) : Requested (.bool b) .int64
  | boolAsFloat (b : Bool) : Requested (.bool b) .float
  | intAsFloat (n : Int64) : Requested (.number (.ofInt64 n)) .float
  | boolAsText (b : Bool) : Requested (.bool b) .string
  | intAsText (n : Int64) : Requested (.number (.ofInt64 n)) .string
  | floatAsText (x : Float) (finite : x.isFinite = true) : Requested (.number (.float x finite)) .string
  | textAsBool (s : String) : Requested (.string s) .bool
  | intAsBool (n : Int64) : Requested (.number (.ofInt64 n)) .bool
  | floatAsBool (x : Float) (finite : x.isFinite = true) : Requested (.number (.float x finite)) .bool

/-- The left operand of an operator is at its type already or is narrower. -/
theorem Operator.widensTo_operandType_left (op : Operator) (x y : Value) :
    x.type = op.operandType x y ∨ x.type.WidensTo (op.operandType x y) := by
  unfold operandType
  cases op.isLogical with
  | true => cases x <;> simp [ScalarType.WidensTo, Value.type]
  | false => cases x <;> cases y <;> simp [ScalarType.WidensTo, Value.type]

/-- The right operand too, since the order of operands does not matter. -/
theorem Operator.widensTo_operandType_right (op : Operator) (x y : Value) :
    y.type = op.operandType x y ∨ y.type.WidensTo (op.operandType x y) := by
  rw [operandType_comm]
  exact widensTo_operandType_left op y x

theorem ScalarType.WidensTo.ne {source target : ScalarType} (h : source.WidensTo target) :
    source ≠ target := by
  cases target with
  | int64 => rintro rfl; cases h
  | float => rintro rfl; rcases h with h | h <;> cases h
  | string => exact h
  | bool => exact h

/-- The form of a value as JSON data is what a caster is called with when the
    value has to be widened. -/
theorem Value.requested_toJson (v : Value) (target : ScalarType) (h : v.type.WidensTo target)
    (hfin : ∀ x, v = .float x → x.isFinite = true) : Requested v.toJson target := by
  cases v with
  | int n =>
      cases target with
      | int64 => cases h
      | float => exact .intAsFloat n
      | string => exact .intAsText n
      | bool => exact .intAsBool n
  | float x =>
      rw [toJson_float x (hfin x rfl)]
      cases target with
      | int64 => cases h
      | float => exact absurd rfl h.ne
      | string => exact .floatAsText x _
      | bool => exact .floatAsBool x _
  | string s =>
      cases target with
      | int64 => cases h
      | float => rcases h with h | h <;> cases h
      | string => exact absurd rfl h
      | bool => exact .textAsBool s
  | bool b =>
      cases target with
      | int64 => exact .boolAsInt b
      | float => exact .boolAsFloat b
      | string => exact .boolAsText b
      | bool => exact absurd rfl h

namespace Requested

variable {j : Json} {target : ScalarType}

/-- What a caster is called with is the form of a value that has to be widened,
    and that value can be had back from it. -/
theorem exists_value (h : Requested j target) :
    ∃ v : Value, v.toJson = j ∧ Value.ofJson j = .ok v ∧ v.type.WidensTo target := by
  have hint : ∀ n : Int64, Value.ofJson (.number (.ofInt64 n)) = .ok (.int n) := fun n => by
    simp only [Value.ofJson, Json.Number.toInt64?, Json.Number.ofInt64, Whole.toInt64?_toInt]
  cases h with
  | boolAsInt b => exact ⟨.bool b, rfl, rfl, rfl⟩
  | boolAsFloat b => exact ⟨.bool b, rfl, rfl, Or.inl rfl⟩
  | intAsFloat n => exact ⟨.int n, rfl, hint n, Or.inr rfl⟩
  | boolAsText b => exact ⟨.bool b, rfl, rfl, ScalarType.noConfusion⟩
  | intAsText n => exact ⟨.int n, rfl, hint n, ScalarType.noConfusion⟩
  | floatAsText x hx => exact ⟨.float x, Value.toJson_float x hx, rfl, ScalarType.noConfusion⟩
  | textAsBool s => exact ⟨.string s, rfl, rfl, ScalarType.noConfusion⟩
  | intAsBool n => exact ⟨.int n, rfl, hint n, ScalarType.noConfusion⟩
  | floatAsBool x hx => exact ⟨.float x, Value.toJson_float x hx, rfl, ScalarType.noConfusion⟩

/-- The value of the data is of another type than the target. -/
theorem type_ne (h : Requested j target) (v : Value) (hv : Value.ofJson j = .ok v) :
    v.type ≠ target := by
  rcases h.exists_value with ⟨w, _, hw, hwide⟩
  rw [hv, Except.ok.injEq] at hw
  exact hw ▸ hwide.ne

/-- Only data that has a value is cast. -/
theorem ne_of_ofJson_error (h : Requested j target) (j' : Json) (err : EvalError)
    (hj' : Value.ofJson j' = .error err) : j ≠ j' := by
  rintro rfl
  rcases h.exists_value with ⟨w, _, hw, _⟩
  rw [hw] at hj'
  cases hj'

/-- Whole numbers beyond the signed integers are doubles to evaluation, so a
    caster never sees one. -/
theorem int_lt (h : Requested j target) (n : Int) (inRange : _) (hj : j = .number (.int n inRange)) :
    n < 0x8000000000000000 := by
  rcases h.exists_value with ⟨w, hw, _, _⟩
  cases w with
  | int i =>
      rw [hj, Value.toJson, Json.number.injEq, Json.Number.ofInt64, Json.Number.int.injEq] at hw
      exact hw ▸ i.toInt_lt
  | float x =>
      -- The form of a double is a double or null, neither of which is whole.
      rw [hj, Value.toJson, Json.Number.ofFloat?] at hw
      split at hw <;> cases hw
  | string s => cases hj ▸ hw
  | bool b => cases hj ▸ hw

/-- No double is cut down to an integer. -/
theorem ne_int64_of_double {x : Float} {finite : x.isFinite = true}
    (h : Requested (.number (.float x finite)) target) : target ≠ .int64 := by
  rintro rfl
  cases h

/-- No text is read as a number. -/
theorem eq_bool_of_text {s : String} (h : Requested (.string s) target) : target = .bool := by
  cases h
  rfl

end Requested

end Criteria
