import JvmClass.Decimal.Binary

/-!
# JvmClass.Decimal.Shortest — the fewest digits that read back.

Every binary number stands for the reals that round to it: an interval reaching half way to each
neighbour, with its ends included exactly when the significand is even.  Among the decimals in that
interval `shortest` picks one with the fewest digits, and among those the nearest to the number; of
two that are equally near it takes the larger.  All arithmetic is on natural numbers.

A decimal grid of `n` digits has a point in the interval only if one of the two neighbours of the
number on that grid lies in it, so these two are the only candidates to try.
-/

namespace JvmClass

/-- The decimal number `digits * 10 ^ exponent`. -/
structure Decimal where
  digits : Nat
  exponent : Int
  deriving DecidableEq

namespace Decimal

/-- How many decimal digits `n` has. -/
def digitCount (n : Nat) : Nat :=
  (Nat.toDigits 10 n).length

/-- The `e` with `10 ^ e ≤ num / den < 10 ^ (e + 1)`, for positive `num` and `den`. -/
def floorLog (num den : Nat) : Int :=
  if den ≤ num then digitCount (num / den) - 1 else -digitCount ((den - 1) / num)

/-- The reals that round to one binary number: `low / unit` to `high / unit` around `mid / unit`. -/
structure Interval where
  low : Nat
  mid : Nat
  high : Nat
  unit : Nat
  closed : Bool

namespace Interval

/-- The interval of `significand * 2 ^ exponent`.  Below a power of two the numbers lie twice as
dense, so there the lower end is half as far away. -/
def around (f : BinaryFormat) (significand : Nat) (exponent : Int) : Interval :=
  let dense := significand = f.leadingBit ∧ f.leastExponent < exponent
  let factor := Nat.pow 2 (exponent - 2).toNat
  { low := (4 * significand - if dense then 1 else 2) * factor
    mid := 4 * significand * factor
    high := (4 * significand + 2) * factor
    unit := Nat.pow 2 (2 - exponent).toNat
    closed := significand % 2 = 0 }

/-- The interval measured in steps of `10 ^ e`. -/
def scaled (i : Interval) (e : Int) : Interval :=
  let factor := Nat.pow 10 (-e).toNat
  { i with
    low := i.low * factor
    mid := i.mid * factor
    high := i.high * factor
    unit := i.unit * Nat.pow 10 e.toNat }

/-- The whole number `n` lies in the interval. -/
def contains (i : Interval) (n : Nat) : Bool :=
  if i.closed then i.low ≤ n * i.unit && n * i.unit ≤ i.high
  else i.low < n * i.unit && n * i.unit < i.high

/-- The whole number in the interval that is nearest to its middle, if the interval holds one of the
two next to it. -/
def nearest? (i : Interval) : Option Nat :=
  let below := i.mid / i.unit
  let nearerBelow := 2 * (i.mid % i.unit) < i.unit
  match i.contains below, i.contains (below + 1) with
  | true, true => some (if nearerBelow then below else below + 1)
  | true, false => some below
  | false, true => some (below + 1)
  | false, false => none

end Interval

/-- The same number without the zeros at the end of its digits. -/
def trim (digits : Nat) (exponent : Int) : Decimal :=
  if h : digits ≠ 0 ∧ digits % 10 = 0 then trim (digits / 10) (exponent + 1)
  else ⟨digits, exponent⟩
  termination_by digits
  decreasing_by omega

/-- The shortest decimal that rounds to the positive number `significand * 2 ^ exponent`, the
nearest one if there are several.  Seventeen digits suffice for both formats in use. -/
def shortest (f : BinaryFormat) (significand : Nat) (exponent : Int) : Decimal :=
  let i := Interval.around f significand exponent
  let lead := floorLog i.mid i.unit
  let found := (List.range 17).findSome? fun (n : Nat) =>
    (i.scaled (lead - n)).nearest?.map fun d => trim d (lead - n)
  found.getD ⟨0, 0⟩

end Decimal

end JvmClass
