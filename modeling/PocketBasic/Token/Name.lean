/-
**Names and line numbers.** A variable, array, string or function has a name of one or two bytes;
a line of the program has a number from 1 to 65535.

* `Name.spelling`: the name as it is listed;
* `LineNumber.ofSingle?`: the line that a computed number denotes.
-/

import PocketBasic.Number.Single
import PocketBasic.Text.Unicode

namespace PocketBasic

/-- The name of a variable or function; the second byte is zero when the name has one byte. -/
structure Name where
  first : UInt8
  second : UInt8
  deriving DecidableEq, Inhabited

namespace Name

/-- The name that stands for no name at all. -/
def none : Name := ⟨0, 0⟩

/-- Whether the name begins with `@`: such names are views of the machine and not variables. -/
def isSpecial (name : Name) : Bool := name.first = 64

/-- The name as it is listed, one character for each byte before the first zero. -/
def spelling (name : Name) : Bytes :=
  let bytes := [name.first, name.second].takeWhile (· ≠ 0)
  Unicode.encode (bytes.map fun byte => Char.ofNat byte.toNat)

end Name

/-- The number of a program line. -/
abbrev LineNumber := UInt16

/-- The line that a number denotes: a whole number from 1 to 65535. -/
def LineNumber.ofSingle? (number : Single) : Option LineNumber :=
  if number.isWhole && 1 ≤ number.wholePart && number.wholePart ≤ 65535 then
    some (UInt16.ofNat number.wholePart.toNat)
  else Option.none

end PocketBasic
