/-
**Elementary functions.** A value is computed in double precision and rounded once more to a
`Single`.

* `Single.toDouble`: the same number in double precision, exactly;
* `Single.ofDouble`: the nearest `Single` to a double;
* `sine`, `cosine`, `tangent`, `arcTangent`, `logarithm`, `exponential`, `power`.
-/

import PocketBasic.Number.Single

namespace PocketBasic.Single

/-! ### Between the two precisions -/

/-- The same number in double precision. A significand has 24 binary digits and the exponents fit,
so nothing is rounded. -/
def toDouble (x : Single) : Float :=
  if x.isNaN then 0.0 / 0.0
  else
    let size := if x.isInfinite then 1.0 / 0.0
      else (Float.ofNat (significandOf x.magnitude)).scaleB (shiftOf x.magnitude - 149)
    if x.isNegative then -size else size

/-- The lowest exponent bit of a double, `2 ^ 52`. -/
def doubleExponentUnit : Nat := 0x10000000000000

/-- The nearest number to a double. The bits of a double are a sign, eleven exponent bits and 52
fraction bits; its unit is `2 ^ -1074`. -/
def ofDouble (value : Float) : Single :=
  let bits := value.toBits.toNat
  let negative := 0x8000000000000000 ≤ bits
  let exponent := bits / doubleExponentUnit % 2048
  let fraction := bits % doubleExponentUnit
  if exponent = 2047 then if fraction = 0 then infinity negative else nan
  else
    let significand := if exponent = 0 then fraction else fraction + doubleExponentUnit
    ofQuotient negative (significand * Nat.pow 2 (exponent - 1)) (Nat.pow 2 925)

/-! ### Functions -/

def sine (x : Single) : Single := ofDouble x.toDouble.sin

def cosine (x : Single) : Single := ofDouble x.toDouble.cos

def tangent (x : Single) : Single := ofDouble x.toDouble.tan

def arcTangent (x : Single) : Single := ofDouble x.toDouble.atan

/-- The natural logarithm. -/
def logarithm (x : Single) : Single := ofDouble x.toDouble.log

def exponential (x : Single) : Single := ofDouble x.toDouble.exp

/-- A number raised to another; NaN when there is no real value. -/
def power (x y : Single) : Single := ofDouble (x.toDouble.pow y.toDouble)

end PocketBasic.Single
