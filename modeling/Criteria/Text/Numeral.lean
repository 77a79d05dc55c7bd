import Criteria.Decimal.Basic

/-!
# Numerals

Numbers as people write them: integers of a bounded range, decimals with an
optional point and exponent, and positions in an array.

## Main definitions

* `NumeralError`: What is wrong with a text that is no numeral.
* `readInt64`: A signed integer of 64 bits.
* `readFloat`: A decimal numeral, an infinity or the text for no number, as
  the nearest double.
* `readIndex?`: A position, written in digits.
-/

namespace Criteria

namespace Text

/-- What is wrong with a text that should be a numeral. -/
inductive NumeralError where
  | emptyInteger
  | invalidDigit
  | tooLarge
  | tooSmall
  | emptyFloat
  | invalidFloat
deriving DecidableEq

/-- The wording of a fault. -/
def NumeralError.message : NumeralError → String
  | .emptyInteger => "cannot parse integer from empty string"
  | .invalidDigit => "invalid digit found in string"
  | .tooLarge => "number too large to fit in target type"
  | .tooSmall => "number too small to fit in target type"
  | .emptyFloat => "cannot parse float from empty string"
  | .invalidFloat => "invalid float literal"

/-- The value of a decimal digit. -/
def digitValue (c : Char) : Nat :=
  c.toNat - '0'.toNat

/-- Digits read onto `acc`, as long as the number stays within `limit`. The
    first fault from the left is the one reported, be it a character that is
    no digit or a digit that takes the number past the limit. -/
def readDigits (limit : Nat) (past : NumeralError) : Nat → List Char → Except NumeralError Nat
  | acc, [] => .ok acc
  | acc, c :: cs =>
    if c.isDigit then
      if 10 * acc + digitValue c ≤ limit then readDigits limit past (10 * acc + digitValue c) cs
      else .error past
    else .error .invalidDigit

/-- An integer of 64 bits: an optional sign and at least one digit. Negative
    numbers reach one further than positive ones. -/
def readInt64 : List Char → Except NumeralError Int64
  | [] => .error .emptyInteger
  | ['+'] => .error .invalidDigit
  | ['-'] => .error .invalidDigit
  | '+' :: cs => (readDigits 0x7FFFFFFFFFFFFFFF .tooLarge 0 cs).map fun n => Int64.ofInt n
  | '-' :: cs => (readDigits 0x8000000000000000 .tooSmall 0 cs).map fun n => Int64.ofInt (-(n : Int))
  | cs => (readDigits 0x7FFFFFFFFFFFFFFF .tooLarge 0 cs).map fun n => Int64.ofInt n

/-- Text split after its leading digits. -/
def spanDigits (cs : List Char) : List Char × List Char :=
  (cs.takeWhile Char.isDigit, cs.dropWhile Char.isDigit)

/-- A number written in digits, at least one, and nothing else. -/
def readNat? (cs : List Char) : Option Nat :=
  if cs ≠ [] ∧ cs.all Char.isDigit then some (Nat.ofDigitChars 10 cs 0) else none

/-- An exponent with an optional sign, and nothing after it. -/
def readExponent? : List Char → Option Int
  | '-' :: cs => (readNat? cs).map fun n => -(n : Int)
  | '+' :: cs => (readNat? cs).map fun n => (n : Int)
  | cs => (readNat? cs).map fun n => (n : Int)

/-- A decimal without a sign: digits with at most one point among or beside
    them, and an optional exponent after `e` or `E`. One digit is needed, on
    either side of the point. -/
def readDecimal? (cs : List Char) : Option Decimal :=
  let (whole, rest) := spanDigits cs
  let (fraction, rest) := match rest with
    | '.' :: rest => spanDigits rest
    | rest => ([], rest)
  if whole = [] ∧ fraction = [] then none
  else
    let scaled (exponent : Int) : Decimal :=
      ⟨Nat.ofDigitChars 10 (whole ++ fraction) 0, exponent - fraction.length⟩
    match rest with
    | [] => some (scaled 0)
    | mark :: rest =>
      if mark = 'e' ∨ mark = 'E' then (readExponent? rest).map scaled else none

/-- Whether two texts are the same up to the case of ASCII letters, the first
    being in lower case. -/
def isLowerOf (lower cs : List Char) : Bool :=
  cs.map Char.toLower == lower

/-- A number without a sign, as a double of the given sign. -/
def readUnsignedFloat? (negative : Bool) (cs : List Char) : Option Float :=
  if isLowerOf "inf".toList cs || isLowerOf "infinity".toList cs then
    some (Binary64.ofMagnitude negative Binary64.infinityBits)
  else if isLowerOf "nan".toList cs then
    some (Float.ofBits 0x7FF8000000000000)
  else
    (readDecimal? cs).map (Decimal.toFloat negative)

/-- The double nearest to a numeral with an optional sign. A numeral too great
    for every double is infinite, not an error. -/
def readFloat (cs : List Char) : Except NumeralError Float :=
  let read? := match cs with
    | '-' :: rest => readUnsignedFloat? true rest
    | '+' :: rest => readUnsignedFloat? false rest
    | rest => readUnsignedFloat? false rest
  match cs, read? with
  | [], _ => .error .emptyFloat
  | _, some x => .ok x
  | _, none => .error .invalidFloat

/-- A position in an array: digits after an optional plus sign. -/
def readIndex? : List Char → Option Nat
  | '+' :: cs => readNat? cs
  | cs => readNat? cs

end Text

end Criteria
