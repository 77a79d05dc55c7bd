/-!
# Scalar Types

The four types a rule computes with.

## Main definitions

* `ScalarType`: The types.
* `token`, `ofToken?`: The words that name them in messages and settings.
-/

namespace Criteria

/-- The types of scalar values. -/
inductive ScalarType where
  | int64
  | float
  | string
  | bool
deriving DecidableEq, Repr

namespace ScalarType

/-- All types. -/
def all : List ScalarType := [.int64, .float, .string, .bool]

/-- The word for a type. -/
def token : ScalarType → String
  | .int64 => "int64"
  | .float => "float"
  | .string => "string"
  | .bool => "bool"

/-- The type a word names. -/
def ofToken? (s : String) : Option ScalarType :=
  all.find? fun t => t.token == s

end ScalarType

end Criteria
