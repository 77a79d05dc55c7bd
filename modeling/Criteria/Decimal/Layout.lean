import Criteria.Decimal.Shortest

/-!
# Layouts of Numbers

How the digits of a double are set out as text.

Two layouts are in use and differ in three decisions, which a `Layout` value
records: where positional notation ends, whether a whole number shows a
fraction, and which way a tie between two shortest decimals goes.

## Main definitions

* `Scientific`: Digits, the first of them standing at a power of ten.
* `Layout`: The decisions of a number format.
* `Layout.text`: A double as text.
* `Layout.json`: The layout of numbers in JSON text.
* `Layout.plain`: The layout of numbers in messages.
-/

namespace Criteria

/-- The number `d₀.d₁d₂… * 10 ^ exponent`, given by its digits. -/
structure Scientific where
  digits : List Char
  exponent : Int

/-- A decimal by its digits, without zeros at the end. Zero has the one digit
    `0`, at the power zero. -/
def Decimal.scientific (d : Decimal) : Scientific :=
  if d.coefficient = 0 then ⟨['0'], 0⟩
  else
    let digits := Nat.toDigits 10 d.coefficient
    ⟨(digits.reverse.dropWhile (· == '0')).reverse, d.exponent + (digits.length - 1 : Nat)⟩

namespace Scientific

/-- Digits around a point at its true place. A number below one starts with
    `0.`; a whole number is filled up with zeros and followed by `whole`. -/
def positional (whole : List Char) (s : Scientific) : List Char :=
  if s.exponent < 0 then
    '0' :: '.' :: (List.replicate (-s.exponent - 1).toNat '0' ++ s.digits)
  else
    let places := s.exponent.toNat + 1
    if s.digits.length ≤ places then
      s.digits ++ List.replicate (places - s.digits.length) '0' ++ whole
    else
      s.digits.take places ++ '.' :: s.digits.drop places

/-- One digit before the point, none after it if there are no more, and the
    power of ten with its sign. -/
def exponential (s : Scientific) : List Char :=
  let mantissa := match s.digits with
    | first :: second :: rest => first :: '.' :: second :: rest
    | digits => digits
  let sign := if s.exponent < 0 then '-' else '+'
  mantissa ++ 'e' :: sign :: Nat.toDigits 10 s.exponent.natAbs

end Scientific

/-- The decisions of a number format. -/
structure Layout where
  /-- Which way a tie between two shortest decimals goes. -/
  tie : Decimal.Tie
  /-- Whether a number whose first digit stands at this power of ten is
      written positionally. -/
  positionalAt : Int → Bool
  /-- What follows a whole number. -/
  whole : List Char

namespace Layout

/-- Numbers in JSON text are positional from `10 ^ -5` to below `10 ^ 16`, and
    then always show a fraction; of equally near decimals the even one is
    taken. -/
def json : Layout where
  tie := .even
  positionalAt e := decide (-5 ≤ e ∧ e ≤ 15)
  whole := ['.', '0']

/-- Numbers in messages are always positional, and whole ones show no
    fraction; of equally near decimals the greater one is taken. -/
def plain : Layout where
  tie := .up
  positionalAt _ := true
  whole := []

/-- The text of a finite magnitude. -/
def magnitudeText (l : Layout) (bits : Nat) : List Char :=
  let s := (Decimal.shortest l.tie bits).scientific
  if l.positionalAt s.exponent then s.positional l.whole else s.exponential

/-- A double as text. Zero keeps its sign, and what is not a number has
    none. -/
def text (l : Layout) (x : Float) : String :=
  if x.isNaN then "NaN"
  else
    let body := if x.isFinite then l.magnitudeText (Binary64.magnitude x) else "inf".toList
    String.ofList (if Binary64.isNegative x then '-' :: body else body)

end Layout

end Criteria
