/-
**Single precision numbers**, the only numeric type of the language, with exact arithmetic.

A number is its 32 bits. Every finite one is a whole multiple of the unit `2 ^ -149`, so each
operation is computed exactly on whole numbers of units and rounded once:

* `Single.unitsOf`: the units of a magnitude (the bits without the sign), strictly increasing;
* `Single.nearestMagnitude`: the magnitude nearest to a quotient of units, ties to the even one;
* `add`, `subtract`, `multiply`, `divide`, `squareRoot`, `truncate`, `floor`: the exact result
  rounded once, with the rules of the standard for zeros, infinities and NaN;
* `clampToInt`, `clampToNat`: the whole part, held within a range, `0` for NaN.
-/

import PocketBasic.Text.Bytes

namespace PocketBasic

/-- A number in the 32 bit binary format: sign, eight exponent bits, 23 fraction bits. -/
structure Single where
  bits : UInt32
  deriving DecidableEq, Inhabited

namespace Single

/-! ### Parts of a number -/

/-- The sign bit, `2 ^ 31`. -/
def signUnit : Nat := 0x80000000

/-- The lowest exponent bit, `2 ^ 23`. -/
def exponentUnit : Nat := 0x800000

/-- The magnitude of an infinity; a larger magnitude is a NaN. -/
def infinityMagnitude : Nat := 255 * exponentUnit

/-- The bits without the sign. -/
def magnitude (x : Single) : Nat := x.bits.toNat % signUnit

/-- Whether the sign bit is set, also of a zero. -/
def isNegative (x : Single) : Bool := signUnit ≤ x.bits.toNat

/-- The number with a given sign and magnitude. -/
def ofMagnitude (negative : Bool) (magnitude : Nat) : Single :=
  ⟨UInt32.ofNat (magnitude % signUnit + if negative then signUnit else 0)⟩

def isNaN (x : Single) : Bool := infinityMagnitude < x.magnitude

def isInfinite (x : Single) : Bool := x.magnitude = infinityMagnitude

def isFinite (x : Single) : Bool := x.magnitude < infinityMagnitude

/-- How many binary places the significand of a magnitude is moved up: none for the magnitudes below
`2 ^ 24`, then one more for each step of the exponent. -/
def shiftOf (magnitude : Nat) : Nat := magnitude / exponentUnit - 1

/-- The significand of a magnitude. -/
def significandOf (magnitude : Nat) : Nat := magnitude - shiftOf magnitude * exponentUnit

/-- The absolute value of a finite magnitude in units of `2 ^ -149`. -/
def unitsOf (magnitude : Nat) : Nat := significandOf magnitude * Nat.pow 2 (shiftOf magnitude)

/-- The units in one. -/
def unitsPerOne : Nat := Nat.pow 2 149

/-- The absolute value of a finite number in units. -/
def absoluteUnits (x : Single) : Nat := unitsOf x.magnitude

/-- The value of a finite number in units. -/
def units (x : Single) : Int := if x.isNegative then -x.absoluteUnits else x.absoluteUnits

/-! ### Rounding -/

/-- The whole number nearest to a quotient, the even one of two equally near. -/
def nearestEven (numerator denominator : Nat) : Nat :=
  let whole := numerator / denominator
  let rest := numerator % denominator
  if denominator < 2 * rest || (denominator = 2 * rest && whole % 2 = 1) then whole + 1 else whole

/-- The magnitude nearest to `numerator / denominator` units. The quotient is cut to 24 binary
digits; a significand that rounds up to `2 ^ 24` carries into the exponent by itself, and what
reaches the magnitude of infinity is infinite. -/
def nearestMagnitude (numerator denominator : Nat) : Nat :=
  let shift := (numerator / denominator).log2 - 23
  min (shift * exponentUnit + nearestEven numerator (denominator * Nat.pow 2 shift))
    infinityMagnitude

/-- The number nearest to `numerator / denominator` units, with the given sign. -/
def ofQuotient (negative : Bool) (numerator denominator : Nat) : Single :=
  ofMagnitude negative (nearestMagnitude numerator denominator)

/-- The number nearest to a natural number. -/
def ofNat (value : Nat) : Single := ofQuotient false (value * unitsPerOne) 1

/-- The number nearest to a whole number. -/
def ofInt (value : Int) : Single := ofQuotient (value < 0) (value.natAbs * unitsPerOne) 1

/-! ### Constants -/

def zero : Single := ⟨0⟩

def one : Single := ⟨0x3F800000⟩

def minusOne : Single := ⟨0xBF800000⟩

/-- The largest finite number. -/
def largest : Single := ⟨0x7F7FFFFF⟩

def infinity (negative : Bool) : Single := ofMagnitude negative infinityMagnitude

/-- The NaN that text reads as. -/
def nan : Single := ⟨0x7FC00000⟩

/-- The NaN that an operation without a value gives, such as a difference of infinities. -/
def invalid : Single := ⟨0xFFC00000⟩

/-! ### Arithmetic -/

/-- A NaN with its quiet bit set. -/
def quiet (x : Single) : Single := ⟨x.bits ||| 0x00400000⟩

/-- What an operation with a NaN operand gives: the first NaN among its operands. -/
def firstNaN (x y : Single) : Single := if x.isNaN then x.quiet else y.quiet

def negate (x : Single) : Single := ofMagnitude (!x.isNegative) x.magnitude

/-- The absolute value. -/
def absolute (x : Single) : Single := ofMagnitude false x.magnitude

/-- The sum. A zero sum is negative only when both operands are. -/
def add (x y : Single) : Single :=
  if x.isNaN || y.isNaN then firstNaN x y
  else if x.isInfinite then
    if y.isInfinite && x.isNegative != y.isNegative then invalid else x
  else if y.isInfinite then y
  else
    let total := x.units + y.units
    if total = 0 then ofMagnitude (x.isNegative && y.isNegative) 0
    else ofQuotient (total < 0) total.natAbs 1

def subtract (x y : Single) : Single :=
  if x.isNaN || y.isNaN then firstNaN x y else add x y.negate

def multiply (x y : Single) : Single :=
  let negative := x.isNegative != y.isNegative
  if x.isNaN || y.isNaN then firstNaN x y
  else if x.isInfinite || y.isInfinite then
    if x.magnitude = 0 || y.magnitude = 0 then invalid else infinity negative
  else ofQuotient negative (x.absoluteUnits * y.absoluteUnits) unitsPerOne

def divide (x y : Single) : Single :=
  let negative := x.isNegative != y.isNegative
  if x.isNaN || y.isNaN then firstNaN x y
  else if x.isInfinite then
    if y.isInfinite then invalid else infinity negative
  else if y.isInfinite then ofMagnitude negative 0
  else if y.magnitude = 0 then
    if x.magnitude = 0 then invalid else infinity negative
  else ofQuotient negative (x.absoluteUnits * unitsPerOne) y.absoluteUnits

/-- The largest number below `2 ^ places` more than `root` whose square is at most `value`, found
one binary place at a time. -/
def rootWithin (value : Nat) : Nat → Nat → Nat
  | 0, root => root
  | places + 1, root =>
    let candidate := root + Nat.pow 2 places
    rootWithin value places (if candidate * candidate ≤ value then candidate else root)

/-- The whole part of the square root of a natural number. -/
def wholeRoot (value : Nat) : Nat := rootWithin value (value.log2 / 2 + 1) 0

/-- The square root of a positive finite number. The whole root of its units times `2 ^ 149` has far
more digits than a significand, so all that rounding needs of the rest is whether there is one. -/
def squareRoot (x : Single) : Single :=
  if x.isNaN then x.quiet
  else if x.magnitude = 0 then x
  else if x.isNegative then invalid
  else if x.isInfinite then x
  else
    let square := x.absoluteUnits * unitsPerOne
    let root := wholeRoot square
    ofQuotient false (2 * root + if root * root = square then 0 else 1) 2

/-! ### Whole numbers -/

/-- Whether a number is finite and has no fraction. -/
def isWhole (x : Single) : Bool := x.isFinite && x.absoluteUnits % unitsPerOne = 0

/-- The whole number of a finite number without its fraction. -/
def wholePart (x : Single) : Int :=
  let whole := x.absoluteUnits / unitsPerOne
  if x.isNegative then -whole else whole

/-- The number without its fraction. The sign stays, also on a zero. -/
def truncate (x : Single) : Single :=
  if x.isNaN then x.quiet
  else if x.isInfinite then x
  else ofQuotient x.isNegative (x.absoluteUnits / unitsPerOne * unitsPerOne) 1

/-- The largest whole number that is not above the number. -/
def floor (x : Single) : Single :=
  if x.isNaN then x.quiet
  else if x.isInfinite then x
  else
    let whole := x.absoluteUnits / unitsPerOne
    let down := if x.isNegative && !x.isWhole then whole + 1 else whole
    ofQuotient x.isNegative (down * unitsPerOne) 1

/-- The whole part held between two bounds; `0` for NaN. -/
def clampToInt (low high : Int) (x : Single) : Int :=
  if x.isNaN then 0
  else if x.isInfinite then if x.isNegative then low else high
  else max low (min high x.wholePart)

/-- The whole part held between `0` and a bound; `0` for NaN and for negative numbers. -/
def clampToNat (high : Nat) (x : Single) : Nat :=
  if x.isNaN || x.isNegative then 0
  else if x.isInfinite then high
  else min high (x.absoluteUnits / unitsPerOne)

/-- The largest size of anything: sizes have 64 bits. -/
def sizeLimit : Nat := 0xFFFFFFFFFFFFFFFF

/-- The whole part as a size. -/
def toSize (x : Single) : Nat := x.clampToNat sizeLimit

/-- The whole part as a byte. -/
def toByte (x : Single) : UInt8 := UInt8.ofNat (x.clampToNat 255)

/-- The whole part in 32 bits with a sign. -/
def toInt32 (x : Single) : Int := x.clampToInt (-0x80000000) 0x7FFFFFFF

/-! ### Comparison -/

/-- The place of a number in the order of the numbers; the two zeros have the same. -/
def rank (x : Single) : Int := if x.isNegative then -x.magnitude else x.magnitude

/-- Equality of values: the zeros are equal, and a NaN equals nothing. -/
def equals (x y : Single) : Bool := !x.isNaN && !y.isNaN && x.rank = y.rank

/-- The order of values; nothing is below or above a NaN. -/
def less (x y : Single) : Bool := !x.isNaN && !y.isNaN && x.rank < y.rank

/-- Below or equal; never of a NaN. -/
def atMost (x y : Single) : Bool := !x.isNaN && !y.isNaN && x.rank ≤ y.rank

/-! ### Bytes -/

/-- The four bytes of a number, lowest first. -/
def toBytes (x : Single) : Bytes :=
  let value := x.bits.toNat
  [value.toUInt8, (value / 0x100).toUInt8, (value / 0x10000).toUInt8, (value / 0x1000000).toUInt8]

/-- The number with the given bytes, lowest first. -/
def ofBytes (b0 b1 b2 b3 : UInt8) : Single :=
  ⟨UInt32.ofNat
    (b0.toNat + b1.toNat * 0x100 + b2.toNat * 0x10000 + b3.toNat * 0x1000000)⟩

end Single

end PocketBasic
