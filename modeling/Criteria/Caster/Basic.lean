import Criteria.Value

/-!
# Casters

How operands are turned into the type an operator works at.

A caster is supplied by whoever evaluates rules. It may do anything that its
monad allows, such as count its calls, and it may give a value of another type
than it was asked for; those who call it check. Values that are at the wanted
type already never reach it.

## Main definitions

* `Outcome`: A computation that may fail with an `EvalError`.
* `Caster`: A way to cast JSON data.
* `Caster.castValue`: The cast of a value.
* `Caster.traced`: A caster that reports each call.
* `Operand`: What an operator is applied to, JSON data or a value.

## Theorems

* `Caster.castValue_self`: A value of the wanted type stays as it is.
* `Caster.castValue_toJson`: Any other value is cast as JSON data, if it has
  that form.
* `Caster.castValue_infinite`: A double that has not becomes text or is refused.
-/

namespace Criteria

/-- A computation in `m` that may fail with an `EvalError`. -/
abbrev Outcome (m : Type → Type) (α : Type) : Type :=
  ExceptT EvalError m α

/-- A result as a computation without effects. -/
def Outcome.ofExcept {m : Type → Type} [Monad m] {α : Type} (r : Except EvalError α) :
    Outcome m α :=
  ExceptT.mk (pure r)

theorem Outcome.ofExcept_ok {m : Type → Type} [Monad m] {α : Type} (a : α) :
    (ofExcept (.ok a) : Outcome m α) = pure a :=
  rfl

theorem Outcome.ofExcept_error {m : Type → Type} [Monad m] {α : Type} (err : EvalError) :
    (ofExcept (.error err) : Outcome m α) = throw err :=
  rfl

/-- A way to cast JSON data to a scalar type. -/
structure Caster (m : Type → Type) where
  cast : Json → ScalarType → Outcome m Value

namespace Caster

variable {m : Type → Type} [Monad m]

/-- A caster without effects. -/
def ofFunction (f : Json → ScalarType → Except EvalError Value) : Caster m where
  cast j target := Outcome.ofExcept (f j target)

/-- The cast of a value. A value of the target type is left alone. A double
    that is not finite has no form as JSON data; it has a text and nothing
    else. All other values are cast as JSON data. -/
def castValue (caster : Caster m) (v : Value) (target : ScalarType) : Outcome m Value :=
  if v.type = target then pure v
  else match v with
    | .float x =>
      if x.isFinite then caster.cast v.toJson target
      else match target with
        | .string => pure (.string v.text)
        | _ => throw (.coercion v.text target Refusal.notFinite.text)
    | _ => caster.cast v.toJson target

theorem castValue_self (caster : Caster m) (v : Value) : caster.castValue v v.type = pure v := by
  unfold castValue
  rw [if_pos rfl]

theorem castValue_toJson (caster : Caster m) (v : Value) (target : ScalarType)
    (hne : v.type ≠ target) (hfin : ∀ x, v = .float x → x.isFinite = true) :
    caster.castValue v target = caster.cast v.toJson target := by
  unfold castValue
  rw [if_neg hne]
  cases v with
  | float x => exact if_pos (hfin x rfl)
  | int n => rfl
  | string s => rfl
  | bool b => rfl

theorem castValue_infinite (caster : Caster m) (x : Float) (target : ScalarType)
    (hne : target ≠ .float) (hinf : x.isFinite = false) :
    caster.castValue (.float x) target =
      if target = .string then pure (.string (Value.float x).text)
      else throw (.coercion (Value.float x).text target Refusal.notFinite.text) := by
  unfold castValue
  rw [if_neg fun h => hne h.symm]
  simp only [hinf, Bool.false_eq_true, if_false]
  cases target with
  | string => rw [if_pos rfl]
  | int64 => rw [if_neg (by decide)]
  | float => exact absurd rfl hne
  | bool => rw [if_neg (by decide)]

/-- A caster that reports each call before it is made. -/
def traced (report : Json → ScalarType → m Unit) (caster : Caster m) : Caster m where
  cast j target := do
    report j target
    caster.cast j target

end Caster

/-- What an operator is applied to: JSON data as it came, or the value of a
    subexpression. -/
inductive Operand where
  | raw (j : Json)
  | value (v : Value)

namespace Operand

/-- An operand as it stands in messages. -/
def text : Operand → String
  | .raw j => j.text
  | .value v => v.text

/-- The cast of an operand. -/
def cast {m : Type → Type} [Monad m] (caster : Caster m) (target : ScalarType) :
    Operand → Outcome m Value
  | .raw j => caster.cast j target
  | .value v => caster.castValue v target

end Operand

end Criteria
