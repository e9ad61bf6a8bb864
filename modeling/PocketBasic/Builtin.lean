/-
**The built-in numeric functions.**

* `Builtin.arity?`: how many numbers a function takes, `none` for words that are no such function;
* `Builtin.evaluate`: the value of a function that depends on its arguments alone.
-/

import PocketBasic.Arithmetic

namespace PocketBasic.Builtin

/-- How many numeric arguments a function takes. -/
def arity? : Keyword → Option Nat
  | .abs | .sgn | .int | .sqr | .sin | .cos | .tan | .atan | .log | .exp => some 1
  | .pow => some 2
  | .rnd | .peek | .millis | .avail => some 1
  | .malloc => some 2
  | .size | .himem => some 0
  | _ => none

/-- Minus one, zero or one. -/
def sign (number : Single) : Single :=
  if Single.zero.less number then Single.one
  else if number.less Single.zero then Single.minusOne
  else Single.zero

/-- The value of a function. On a machine with whole numbers every value loses its fraction. A
missing argument counts as zero. -/
def evaluate (word : Keyword) (arguments : List Single) (whole : Bool) : Except Error Single :=
  let x := arguments.headD Single.zero
  let value (result : Single) := Arithmetic.rounded whole result
  match word with
  | .abs => value x.absolute
  | .sgn => value (sign x)
  | .int => value x.floor
  | .sqr =>
    if x.less Single.zero then Arithmetic.failure .illegalFunctionCall else value x.squareRoot
  | .sin => value x.sine
  | .cos => value x.cosine
  | .tan => value x.tangent
  | .atan => value x.arcTangent
  | .log =>
    if x.atMost Single.zero then Arithmetic.failure .illegalFunctionCall else value x.logarithm
  | .exp => value x.exponential
  | .pow => Arithmetic.power whole x ((arguments[1]?).getD Single.zero)
  | _ => .error { kind := .internalError, detail := "NOT A MATH FUNCTION" }

end PocketBasic.Builtin
