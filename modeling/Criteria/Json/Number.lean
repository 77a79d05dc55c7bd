import Criteria.Decimal.Layout
import Criteria.Text.Numeral
import Criteria.Whole

/-!
# JSON Numbers

A number in JSON data is a whole number of 64 bits, signed or not, or a finite
double. Which of them it is depends on how it was written, and is kept: a
whole number never equals a double.

The grammar of JSON says what a numeral looks like, and for whole numbers that
is all there is to say. For doubles it leaves a choice. Many numerals stand
near the same double, and a library may read a numeral with best effort only,
as a double close by, where rounding once and exactly is too slow for it. So
the text of doubles and the reading of numerals are a parameter, `NumberFormat`.
The format in use here writes the shortest decimal that reads back and rounds
to the nearest double.

## Main definitions

* `Number`: The numbers JSON data holds.
* `toInt64?`, `toFloat`: A whole number as a signed integer, where it fits; the
  nearest double of any number.
* `isUInt64`: Whether a number is an unsigned integer.
* `NumberFormat`: How doubles are written, and numerals read as doubles.
* `NumberFormat.number?`: The number a numeral stands for, if one does.
* `NumberFormat.chars`: A number as written in JSON text.
* `NumberFormat.nearest`: The format in use.
-/

namespace Criteria

namespace Json

/-- A whole number of 64 bits, signed or not, or a finite double. -/
inductive Number where
  | int (n : Int) (inRange : -0x8000000000000000 ≤ n ∧ n < 0x10000000000000000)
  | float (x : Float) (finite : x.isFinite = true)
deriving DecidableEq

namespace Number

/-- A signed integer as a number. -/
def ofInt64 (n : Int64) : Number :=
  .int n.toInt ⟨n.le_toInt, Int.lt_trans n.toInt_lt (by decide)⟩

/-- A double as a number, if it is finite. -/
def ofFloat? (x : Float) : Option Number :=
  if h : x.isFinite = true then some (.float x h) else none

/-- Whether digits may start a numeral: there are some, and no zero stands in
    front of another one. -/
def startsNumeral : List Char → Bool
  | [] => false
  | ['0'] => true
  | first :: _ => first ≠ '0'

/-- Whether a point has digits behind it, and what follows the digits. Without
    a point all is well and nothing is passed over. -/
def skipFraction : List Char → Bool × List Char
  | '.' :: rest => (!(Text.spanDigits rest).1.isEmpty, (Text.spanDigits rest).2)
  | rest => (true, rest)

/-- Whether text may end a numeral: it is a complete exponent, or nothing. -/
def endsNumeral : List Char → Bool
  | [] => true
  | mark :: rest => (mark = 'e' || mark = 'E') && (Text.readExponent? rest).isSome

/-- Whether a numeral without its sign follows the grammar. -/
def isNumeral (cs : List Char) : Bool :=
  let (whole, rest) := Text.spanDigits cs
  let (hasFraction, rest) := skipFraction rest
  startsNumeral whole && hasFraction && endsNumeral rest

/-- A whole number that a signed integer can hold. -/
def toInt64? : Number → Option Int64
  | .int n _ => Whole.toInt64? n
  | .float _ _ => none

/-- Whether a number is an unsigned integer. -/
def isUInt64 : Number → Bool
  | .int n _ => decide (0 ≤ n)
  | .float _ _ => false

/-- The double nearest to a number. -/
def toFloat : Number → Float
  | .int n _ => Binary64.ofInt n
  | .float x _ => x

/-- Whether a number is written with a sign. -/
def isSigned : Number → Bool
  | .int n _ => decide (n < 0)
  | .float x _ => Binary64.isNegative x

end Number

/-- How doubles are written, and how numerals are read as doubles. -/
structure NumberFormat where
  /-- The text of a finite double without its sign. -/
  digits : Float → List Char
  /-- The double that a numeral without its sign is read as. -/
  read? : (negative : Bool) → List Char → Option Float

namespace NumberFormat

/-- The format in use: the shortest decimal that reads back, and the double
    nearest to a numeral, rounded once. -/
def nearest : NumberFormat where
  digits x := Layout.json.magnitudeText (Binary64.magnitude x)
  read? negative cs := (Text.readDecimal? cs).map (Decimal.toFloat negative)

variable (N : NumberFormat)

/-- The double that a numeral is read as, if it is finite. -/
def double? (negative : Bool) (cs : List Char) : Option Number :=
  (N.read? negative cs).bind Number.ofFloat?

/-- The number a numeral without its sign stands for. Digits alone are a whole
    number as long as they fit 64 bits; minus zero, which no whole number is,
    and all else is a double. A numeral too great for every double stands for
    no number. -/
def number? (negative : Bool) (cs : List Char) : Option Number :=
  match Text.readNat? cs with
  | none => N.double? negative cs
  | some n =>
    if negative then
      if h : n ≠ 0 ∧ n ≤ 0x8000000000000000 then some (.int (-n) (by omega)) else N.double? negative cs
    else
      if h : n < 0x10000000000000000 then some (.int n (by omega)) else N.double? negative cs

/-- A number as written without its sign. -/
def unsigned : Number → List Char
  | .int n _ => Nat.toDigits 10 n.natAbs
  | .float x _ => N.digits x

/-- A number as written in JSON text. -/
def chars (n : Number) : List Char :=
  if n.isSigned then '-' :: N.unsigned n else N.unsigned n

end NumberFormat

namespace Number

/-- A number as written in the format in use. -/
def chars (n : Number) : List Char :=
  NumberFormat.nearest.chars n

/-- A number as text. -/
def text (n : Number) : String :=
  String.ofList n.chars

/-- Equality of data: whole numbers as such, doubles as numbers, so that the
    two zeros are equal. -/
def equals : Number → Number → Bool
  | .int m _, .int n _ => m == n
  | .float x _, .float y _ => x == y
  | _, _ => false

end Number

end Json

end Criteria
