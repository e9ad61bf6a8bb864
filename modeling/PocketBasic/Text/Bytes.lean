/-
**Byte strings**, the text of the language: a program line, a string value and everything that is
printed is a list of bytes.

* `ascii`: the bytes of an ASCII literal.
* `decimal`, `signedDecimal`: the decimal digits of a whole number, without leading zeros.
* `Bytes.startsWith`, `Bytes.positionOf?`: search for one byte string in another.
-/

namespace PocketBasic

/-- A text of the language. -/
abbrev Bytes := List UInt8

/-- The bytes of a text that is known to be ASCII. -/
def ascii (text : String) : Bytes := text.toList.map Char.toUInt8

/-! ### Classes of bytes -/

/-- One of `0` to `9`. -/
def isDigit (byte : UInt8) : Bool := 48 ≤ byte && byte ≤ 57

/-- One of `A` to `Z` or `a` to `z`. -/
def isLetter (byte : UInt8) : Bool := (65 ≤ byte && byte ≤ 90) || (97 ≤ byte && byte ≤ 122)

/-- The upper case of a letter; every other byte is its own upper case. -/
def upper (byte : UInt8) : UInt8 := if 97 ≤ byte && byte ≤ 122 then byte - 32 else byte

/-! ### Decimal digits -/

/-- The decimal digits of a number that has at most `places` of them. -/
def digitsWithin : Nat → Nat → Bytes
  | 0, _ => []
  | places + 1, value =>
    if value < 10 then [48 + value.toUInt8]
    else digitsWithin places (value / 10) ++ [48 + (value % 10).toUInt8]

/-- The decimal digits of a number, most significant first, `0` for zero. A number has no more
decimal digits than binary ones, and one when it is zero. -/
def decimal (value : Nat) : Bytes := digitsWithin (value.log2 + 1) value

/-- The decimal text of a whole number, with `-` in front of a negative one. -/
def signedDecimal (value : Int) : Bytes :=
  if value < 0 then 45 :: decimal value.natAbs else decimal value.natAbs

/-- A whole number in at least two places, filled with zeros after the sign. -/
def twoPlaces (value : Int) : Bytes :=
  if 0 ≤ value && value < 10 then 48 :: decimal value.natAbs else signedDecimal value

/-! ### Searching -/

/-- Whether `text` begins with `start`. -/
def Bytes.startsWith (text start : Bytes) : Bool := start.isPrefixOf text

/-- The offset of the first occurrence of `part` in `text`. -/
def Bytes.positionOf? (part : Bytes) : Bytes → Option Nat
  | [] => if part.isEmpty then some 0 else none
  | first :: rest =>
    if Bytes.startsWith (first :: rest) part then some 0
    else (Bytes.positionOf? part rest).map (· + 1)

end PocketBasic
