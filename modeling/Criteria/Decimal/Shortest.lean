import Criteria.Decimal.Basic

/-!
# Shortest Decimals

The fewest digits that read back to a given double.

The exact decimal value of a double has up to some eight hundred digits. On
the grid of its first `n` digits the value has two neighbours; the shortest
decimal stands on the first grid where one of them is read as the same
double. Reading is `Decimal.nearest` itself, so a chosen decimal reads back
because it was tried.

## Main definitions

* `Tie`: Which neighbour is taken when both lie equally near.
* `exact`: The exact decimal value of a magnitude.
* `onGrid`: The neighbour on a coarser grid that reads back, if any.
* `shortest`: The shortest decimal of a magnitude.
-/

namespace Criteria

namespace Decimal

/-- Which of two equally near neighbours is taken: the one with the even last
    digit, or the greater one. -/
inductive Tie where
  | even
  | up
deriving DecidableEq

/-- The exact value of a magnitude. Below one, powers of two become powers of
    five: `2 ^ -k` is `5 ^ k * 10 ^ -k`. -/
def exact (bits : Nat) : Decimal :=
  let above := Binary64.shift bits - 1074
  let below := 1074 - Binary64.shift bits
  ⟨(Binary64.significand bits <<< above) * Nat.pow 5 below, -(below : Int)⟩

/-- Whether the decimal is read as the double of this magnitude. -/
def readsAs (d : Decimal) (bits : Nat) : Bool :=
  d.nearest == bits

/-- The lower neighbour `low` of a value, or the next one up, where `rest` out
    of `grid` is what the value has beyond the lower one. -/
def Tie.choose (tie : Tie) (low rest grid : Nat) : Nat :=
  if 2 * rest < grid then low
  else if grid < 2 * rest then low + 1
  else match tie with
    | .even => low + low % 2
    | .up => low + 1

/-- The neighbour of a value on the grid that leaves out its last `dropped`
    digits, if it is read as the magnitude, and the nearer one if both are. -/
def onGrid (tie : Tie) (bits : Nat) (value : Decimal) (dropped : Nat) : Option Decimal :=
  let grid := Nat.pow 10 dropped
  let low := value.coefficient / grid
  let point (coefficient : Nat) : Decimal := ⟨coefficient, value.exponent + dropped⟩
  match (point low).readsAs bits, (point (low + 1)).readsAs bits with
  | true, true => some (point (tie.choose low (value.coefficient % grid) grid))
  | true, false => some (point low)
  | false, true => some (point (low + 1))
  | false, false => none

/-- The shortest decimal that reads back. Seventeen digits are always enough;
    naming the exact value as the last resort makes this evident without
    counting digits. -/
def shortest (tie : Tie) (bits : Nat) : Decimal :=
  let value := exact bits
  let places := (Nat.toDigits 10 value.coefficient).length
  ((List.range' 1 17).findSome? fun n => onGrid tie bits value (places - n)).getD value

end Decimal

end Criteria
