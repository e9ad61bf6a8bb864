/-
**The shortest decimal** that reads back as a given number.

Among the decimals `digits * 10 ^ exponent` that round to the number, the one with the largest
exponent has the fewest digits; of two with the same exponent the nearer one is taken, and the upper
one of two equally near.

* `Single.shortest`: the digits and the exponent of that decimal.

A unit is `5 ^ 149 * 10 ^ -149`, so on the scale `10 ^ -149` numbers, decimals and the bounds of
the interval that rounds to a number are whole. Everything is multiplied by four, to halve a gap
between neighbours, and half of that below a power of two.
-/

import PocketBasic.Number.Single

namespace PocketBasic.Single

/-- The decimals that round to a number, on the scale `10 ^ -149 / 4`: the value and the width of
the interval to each side. -/
structure RoundingInterval where
  value : Nat
  below : Nat
  above : Nat
  /-- Whether the ends round to the number too. -/
  closed : Bool

namespace RoundingInterval

/-- The interval of a finite magnitude. The gap below a power of two is half the gap above it, and
the ends of an interval round to the even significand. -/
def ofMagnitude (magnitude : Nat) : RoundingInterval :=
  let scale := Nat.pow 2 (shiftOf magnitude) * Nat.pow 5 149
  let significand := significandOf magnitude
  { value := 4 * significand * scale
    below := if significand = exponentUnit then scale else 2 * scale
    above := 2 * scale
    closed := significand % 2 = 0 }

/-- Whether a point of the scale rounds to the number. -/
def contains (interval : RoundingInterval) (point : Nat) : Bool :=
  if interval.closed then
    interval.value ≤ point + interval.below && point ≤ interval.value + interval.above
  else interval.value < point + interval.below && point < interval.value + interval.above

/-- The digits of the decimal with the exponent `place - 149` that is in the interval, the nearer
one if there are two, and the upper one if they are equally near. -/
def digitsAt? (interval : RoundingInterval) (place : Nat) : Option Nat :=
  let step := 4 * Nat.pow 10 place
  let lower := interval.value / step
  let lowerIn := interval.contains (lower * step)
  let upperIn := interval.contains ((lower + 1) * step)
  if upperIn && (!lowerIn || step ≤ 2 * (interval.value - lower * step)) then some (lower + 1)
  else if lowerIn then some lower
  else none

/-- The digits and the exponent of the decimal with the highest place at most `place`. The value
itself is a decimal of place `0`. -/
def searchFrom (interval : RoundingInterval) : Nat → Nat × Int
  | 0 => (interval.value / 4, -149)
  | place + 1 =>
    match interval.digitsAt? (place + 1) with
    | some digits => (digits, (place + 1 : Int) - 149)
    | none => interval.searchFrom place

end RoundingInterval

/-- The digits and the exponent of the shortest decimal that rounds to a finite, nonzero number.
The search begins above the value: a number has less than a third as many decimal digits as
binary ones. -/
def shortest (x : Single) : Nat × Int :=
  let interval := RoundingInterval.ofMagnitude x.magnitude
  interval.searchFrom (interval.value.log2 / 3 + 1)

end PocketBasic.Single
