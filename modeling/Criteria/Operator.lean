/-!
# Operators

The twelve binary operators, their tokens and families.

## Main definitions

* `Operator`: The operators.
* `token`, `ofToken?`: How they are written in a rule.
* `isEquality`, `isComparison`, `isArithmetic`, `isLogical`: The families.
-/

namespace Criteria

/-- The binary operators. -/
inductive Operator where
  | equal
  | notEqual
  | greater
  | less
  | greaterEqual
  | lessEqual
  | add
  | subtract
  | multiply
  | divide
  | and
  | or
deriving DecidableEq, Repr

namespace Operator

/-- All operators. -/
def all : List Operator :=
  [.equal, .notEqual, .greater, .less, .greaterEqual, .lessEqual, .add, .subtract, .multiply,
    .divide, .and, .or]

/-- An operator as it is written between its operands. -/
def token : Operator → String
  | .equal => "=="
  | .notEqual => "!="
  | .greater => ">"
  | .less => "<"
  | .greaterEqual => ">="
  | .lessEqual => "<="
  | .add => "+"
  | .subtract => "-"
  | .multiply => "*"
  | .divide => "/"
  | .and => "&&"
  | .or => "||"

/-- The operator that is written so. -/
def ofToken? (s : String) : Option Operator :=
  all.find? fun op => op.token == s

/-- Equality and its negation. -/
def isEquality : Operator → Bool
  | .equal | .notEqual => true
  | _ => false

/-- The operators that compare, equality among them. -/
def isComparison : Operator → Bool
  | .equal | .notEqual | .greater | .less | .greaterEqual | .lessEqual => true
  | _ => false

/-- The operators that compute a number. -/
def isArithmetic : Operator → Bool
  | .add | .subtract | .multiply | .divide => true
  | _ => false

/-- The operators on truth values alone. -/
def isLogical : Operator → Bool
  | .and | .or => true
  | _ => false

end Operator

end Criteria
