/-
**The operators on numbers.** Every result is finite: an infinite one is an overflow. Comparisons
give minus one for true and zero for false, and the logical operators work on the bits of whole
numbers, so that they serve both as logic and as masks.

* `add`, `subtract`, `multiply`, `divide`, `modulus`, `power`: arithmetic with its errors;
* `bits`: the 32 bit view of a number that `not`, `and`, `or` and `modulus` share.
-/

import PocketBasic.Error
import PocketBasic.Number.Elementary
import PocketBasic.Token.Basic

namespace PocketBasic.Arithmetic

/-- An error without line and detail. -/
def failure (kind : ErrorKind) : Except Error Single := .error { kind }

/-- A result, which is an overflow unless it is finite. -/
def checked (result : Single) : Except Error Single :=
  if result.isFinite then .ok result else failure .overflow

/-- A result of a machine that may know whole numbers only. -/
def rounded (whole : Bool) (result : Single) : Except Error Single :=
  checked (if whole then result.truncate else result)

def truth (holds : Bool) : Single := if holds then Single.minusOne else Single.zero

/-- `2147483648`, the largest number with bits: it counts as the whole number below it. -/
def bitsLimit : Single := ⟨0x4F000000⟩

/-- The whole number whose bits the logical operators work on. -/
def bits (number : Single) : Except Error Int32 :=
  if number.isFinite && bitsLimit.negate.atMost number && number.atMost bitsLimit then
    .ok (Int32.ofInt number.toInt32)
  else .error { kind := .overflow }

/-! ### Arithmetic -/

def add (left right : Single) : Except Error Single := checked (left.add right)

def subtract (left right : Single) : Except Error Single := checked (left.subtract right)

def multiply (left right : Single) : Except Error Single := checked (left.multiply right)

/-- The quotient, without its fraction on a machine with whole numbers. -/
def divide (whole : Bool) (left right : Single) : Except Error Single :=
  if right.equals Single.zero then failure .divisionByZero
  else rounded whole (left.divide right)

/-- The remainder of the whole parts, with the sign of the dividend. -/
def modulus (left right : Single) : Except Error Single := do
  let divisor ← bits right.truncate
  if divisor = 0 then failure .divisionByZero
  else
    let dividend ← bits left.truncate
    if dividend = Int32.minValue && divisor = -1 then failure .overflow
    else return Single.ofInt (dividend.toInt.tmod divisor.toInt)

def power (whole : Bool) (left right : Single) : Except Error Single :=
  let result := left.power right
  if result.isNaN then failure .illegalFunctionCall else rounded whole result

/-! ### Comparisons -/

def equal (left right : Single) : Single := truth (left.equals right)

def notEqual (left right : Single) : Single := truth (!left.equals right)

def less (left right : Single) : Single := truth (left.less right)

def lessEqual (left right : Single) : Single := truth (left.atMost right)

def greater (left right : Single) : Single := truth (right.less left)

def greaterEqual (left right : Single) : Single := truth (right.atMost left)

/-! ### Logic on bits -/

def not (number : Single) : Except Error Single := do
  return Single.ofInt (~~~(← bits number)).toInt

def and (left right : Single) : Except Error Single := do
  let first ← bits left
  let second ← bits right
  return Single.ofInt (first &&& second).toInt

def or (left right : Single) : Except Error Single := do
  let first ← bits left
  let second ← bits right
  return Single.ofInt (first ||| second).toInt

/-- The operator between two operands; `not`, which takes one, ignores the left one. -/
def apply (operator : Operator) (whole : Bool) (left right : Single) : Except Error Single :=
  match operator with
  | .plus => add left right
  | .minus => subtract left right
  | .times => multiply left right
  | .over => divide whole left right
  | .modulo => modulus left right
  | .caret => power whole left right
  | .equal => .ok (equal left right)
  | .notEqual => .ok (notEqual left right)
  | .less => .ok (less left right)
  | .lessEqual => .ok (lessEqual left right)
  | .greater => .ok (greater left right)
  | .greaterEqual => .ok (greaterEqual left right)
  | .not => not right
  | .and => and left right
  | .or => or left right

end PocketBasic.Arithmetic
