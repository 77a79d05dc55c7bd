import Criteria.Binary64

/-!
# Decimals

A whole coefficient and a power of ten, and the double nearest to it.

Text denotes decimals, arithmetic runs on doubles, and this is the one place
where the first become the second.

## Main definitions

* `Decimal`: A nonnegative number `coefficient * 10 ^ exponent`.
* `nearest`: The magnitude of the double nearest to a decimal.
* `toFloat`: That double, with a sign.
-/

namespace Criteria

/-- The nonnegative number `coefficient * 10 ^ exponent`. -/
structure Decimal where
  coefficient : Nat
  exponent : Int
deriving DecidableEq

namespace Decimal

/-- The magnitude nearest to a decimal, rounded once and exactly.

    The first tests keep the powers of ten small. Beyond `10 ^ 400` every
    coefficient but zero overflows. A coefficient of `k + 1` binary digits is
    less than `2 ^ (k + 1)`, so with an exponent below `-(400 + k)` the number
    is far less than half of the smallest double. -/
def nearest (d : Decimal) : Nat :=
  if d.coefficient = 0 then 0
  else if 400 < d.exponent then Binary64.infinityBits
  else if d.exponent < -(400 + (d.coefficient.log2 : Int)) then 0
  else Binary64.nearest (d.coefficient * Nat.pow 10 d.exponent.toNat) (Nat.pow 10 (-d.exponent).toNat)

/-- The double nearest to a decimal of the given sign. -/
def toFloat (negative : Bool) (d : Decimal) : Float :=
  Binary64.ofMagnitude negative d.nearest

end Decimal

end Criteria
