/-
**Reading a number from decimal text.**

The text is an optional sign and then `inf`, `infinity` or `nan` in any case, or digits with an
optional point and an optional exponent; at least one digit stands before the exponent, and one in
it. The value is rounded once, straight to a `Single`.

* `Single.ofDecimal`: the number nearest to `digits * 10 ^ exponent`;
* `Single.ofText?`: the number that a text denotes.
-/

import PocketBasic.Number.Single

namespace PocketBasic.Single

/-! ### From digits and exponent -/

/-- The number nearest to `digits * 10 ^ exponent`. Powers that are beyond every finite number, or
below half the smallest one, are not computed. -/
def ofDecimal (negative : Bool) (digits : Nat) (exponent : Int) : Single :=
  if digits = 0 then ofMagnitude negative 0
  else if 60 < exponent then infinity negative
  else if exponent < -(digits.log2 + 60 : Int) then ofMagnitude negative 0
  else if 0 ≤ exponent then ofQuotient negative (digits * Nat.pow 10 exponent.toNat * unitsPerOne) 1
  else ofQuotient negative (digits * unitsPerOne) (Nat.pow 10 (-exponent).toNat)

/-! ### From text -/

/-- The value of a run of digits that follow `value`. -/
def digitsValue (value : Nat) (digits : Bytes) : Nat :=
  digits.foldl (fun total digit => total * 10 + (digit.toNat - 48)) value

/-- The sign in front of a text, and the rest. -/
def splitSign : Bytes → Bool × Bytes
  | 45 :: rest => (true, rest)
  | 43 :: rest => (false, rest)
  | text => (false, text)

/-- The exponent that ends a text: nothing, or `E` with a sign and digits up to the end. -/
def exponent? : Bytes → Option Int
  | [] => some 0
  | mark :: rest =>
    if upper mark = 69 then
      let (negative, digits) := splitSign rest
      if !digits.isEmpty && digits.all isDigit then
        let value := digitsValue 0 digits
        some (if negative then -value else value)
      else none
    else none

/-- The number that digits, point and exponent denote. -/
def ofDigits? (negative : Bool) (text : Bytes) : Option Single :=
  let whole := text.takeWhile isDigit
  let afterWhole := text.dropWhile isDigit
  let (fraction, ending) := match afterWhole with
    | 46 :: rest => (rest.takeWhile isDigit, rest.dropWhile isDigit)
    | rest => ([], rest)
  if whole.isEmpty && fraction.isEmpty then none
  else (exponent? ending).map fun exponent =>
    ofDecimal negative (digitsValue (digitsValue 0 whole) fraction) (exponent - fraction.length)

/-- The number that a text denotes. -/
def ofText? (text : Bytes) : Option Single :=
  let (negative, body) := splitSign text
  let name := body.map upper
  if name = ascii "INF" || name = ascii "INFINITY" then some (infinity negative)
  else if name = ascii "NAN" then some (if negative then nan.negate else nan)
  else ofDigits? negative body

end PocketBasic.Single
