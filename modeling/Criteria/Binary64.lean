/-!
# Binary64 Magnitudes

Doubles as whole numbers.

Every finite double is a whole multiple of `2 ^ -1074`, the smallest positive
one. Counting in that unit turns questions about doubles into questions about
`Nat`: which double is nearest to a ratio, what is left of a double after its
fraction is cut off, which double a decimal text denotes. None of these is
answered by computing with doubles, so none of them rounds twice.

The bits of a double without its sign are its *magnitude*. Magnitudes are
ordered as the numbers they stand for, starting at zero and ending at
`infinityBits`; what lies above is not a number.

## Main definitions

* `magnitude`, `isNegative`, `ofMagnitude`: A double as sign and magnitude.
* `significand`, `shift`, `units`: What a magnitude is worth, counted in
  `2 ^ -1074`.
* `nearest`: The magnitude nearest to a ratio of whole numbers.
* `ofInt`: The double nearest to a whole number.
* `truncate`: The whole number left when the fraction is cut off.
* `toInt64`: The same as a signed integer, the nearer end of the range if it is
  beyond.
-/

namespace Criteria

namespace Binary64

/-- The sign bit of a double, `2 ^ 63`. -/
def signBit : Nat := 0x8000000000000000

/-- The leading digit of the significands that have 53 digits, `2 ^ 52`. -/
def leadingBit : Nat := 0x10000000000000

/-- The magnitude of infinity, one past the greatest finite one. -/
def infinityBits : Nat := 0x7FF0000000000000

/-- The bits of a double without the sign. -/
def magnitude (x : Float) : Nat :=
  x.toBits.toNat % signBit

/-- Whether the sign bit is set. It is for `-0.0` as well. -/
def isNegative (x : Float) : Bool :=
  decide (signBit ≤ x.toBits.toNat)

/-- The double of the given sign and magnitude. -/
def ofMagnitude (negative : Bool) (bits : Nat) : Float :=
  Float.ofBits (UInt64.ofNat (if negative then signBit + bits else bits))

/-- The whole number that a magnitude counts, of up to 53 binary digits. The
    lowest `2 ^ 52` magnitudes lack the leading digit that all others have. -/
def significand (bits : Nat) : Nat :=
  if bits < leadingBit then bits else leadingBit + bits % leadingBit

/-- The power of two by which the significand of a magnitude is scaled, on top
    of `2 ^ -1074`. It grows by one every `2 ^ 52` steps, from the second such
    stretch on. -/
def shift (bits : Nat) : Nat :=
  bits / leadingBit - 1

/-- What a magnitude is worth, counted in `2 ^ -1074`. The same rule gives
    infinity the value `2 ^ 1024`, the number at which rounding overflows. -/
def units (bits : Nat) : Nat :=
  significand bits <<< shift bits

/-- A quotient rounded to the nearest whole number, a half to the even
    neighbour. -/
def roundHalfEven (num den : Nat) : Nat :=
  if 2 * (num % den) < den then num / den
  else if den < 2 * (num % den) then num / den + 1
  else num / den + num / den % 2

/-- The magnitude nearest to `num / den`, of two equally near ones the even.

    The ratio is counted in units first. A value of at most 53 binary digits
    stands on the finest grid; any other is rounded on the grid on which 53
    digits are left. Steps of the grid are steps of the magnitude, and a
    rounding that carries into the next power of two lands on the right
    magnitude by itself. What would pass the greatest double becomes
    infinity. -/
def nearest (num den : Nat) : Nat :=
  let scaled := num <<< 1074
  let shift := (scaled / den).log2 - 52
  min infinityBits (shift * leadingBit + roundHalfEven scaled (den <<< shift))

/-- The double nearest to a whole number. -/
def ofInt (n : Int) : Float :=
  ofMagnitude (decide (n < 0)) (nearest n.natAbs 1)

/-- The whole number left when the fraction of a finite double is cut off. -/
def truncate (x : Float) : Int :=
  let whole : Int := (units (magnitude x) >>> 1074 : Nat)
  if isNegative x then -whole else whole

/-- A double converted to a signed integer of 64 bits. The fraction is cut off,
    what is beyond the range becomes the nearer end of it, and what is not a
    number becomes zero. -/
def toInt64 (x : Float) : Int64 :=
  if x.isNaN then 0
  else Int64.ofInt (max Int64.minValue.toInt (min (truncate x) Int64.maxValue.toInt))

end Binary64

end Criteria
