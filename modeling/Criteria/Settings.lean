import Criteria.DivisionPolicy

/-!
# Settings

What can be chosen about evaluation without supplying anything.

## Main definitions

* `Settings`: The division policy, and whether there are built-in functions.
-/

namespace Criteria

/-- The settings of an evaluator. -/
structure Settings where
  /-- What a quotient is when the divisor is zero. -/
  division : DivisionPolicy := .zero
  /-- Whether the built-in functions can be called. -/
  builtins : Bool := true
deriving DecidableEq

namespace Settings

instance : Inhabited Settings := ⟨{}⟩

end Settings

end Criteria
