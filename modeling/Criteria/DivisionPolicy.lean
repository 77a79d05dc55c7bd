/-!
# Division by Zero

What a quotient is when the divisor is zero.

## Main definitions

* `DivisionPolicy`: The two policies.
* `token`, `ofToken?`: The words that name them.
-/

namespace Criteria

/-- What a quotient is when the divisor is zero: the zero of the operands'
    type, or an error. -/
inductive DivisionPolicy where
  | zero
  | error
deriving DecidableEq, Repr

namespace DivisionPolicy

instance : Inhabited DivisionPolicy := ⟨.zero⟩

/-- All policies. -/
def all : List DivisionPolicy := [.zero, .error]

/-- The word for a policy. -/
def token : DivisionPolicy → String
  | .zero => "zero"
  | .error => "error"

/-- The policy a word names. -/
def ofToken? (s : String) : Option DivisionPolicy :=
  all.find? fun p => p.token == s

end DivisionPolicy

end Criteria
