/-
**How numbers are written.** Whole numbers below `1e9` are written as integers, other numbers with
the shortest digits that read back: positionally from `1e-4` up to `1e9`, with an exponent outside
that range.

* `Single.text`: the written form of a number.
-/

import PocketBasic.Number.Shortest

namespace PocketBasic.Single

/-- `1e9`: from here on numbers are written with an exponent. -/
def exponentFrom : Single := ⟨0x4E6E6B28⟩

/-- `1e-4`: below this numbers are written with an exponent. -/
def exponentBelow : Single := ⟨0x38D1B717⟩

/-- Digits with the point placed by the exponent, and no exponent written. -/
def positional (digits : Nat) (exponent : Int) : Bytes :=
  let text := decimal digits
  if 0 ≤ exponent then text ++ List.replicate exponent.toNat 48
  else
    let places := (-exponent).toNat
    if places < text.length then
      text.take (text.length - places) ++ 46 :: text.drop (text.length - places)
    else 48 :: 46 :: List.replicate (places - text.length) 48 ++ text

/-- One digit, the point and the other digits if there are any, and the exponent after `E`. -/
def scientific (digits : Nat) (exponent : Int) : Bytes :=
  let text := decimal digits
  let power := signedDecimal (exponent + (text.length - 1 : Nat))
  match text with
  | [] => []
  | [digit] => digit :: 69 :: power
  | digit :: rest => digit :: 46 :: rest ++ 69 :: power

/-- The written form of a number. -/
def text (x : Single) : Bytes :=
  let sign : Bytes := if x.isNegative then [45] else []
  if x.isNaN then ascii "NaN"
  else if x.isInfinite then sign ++ ascii "inf"
  else if x.isWhole && x.absolute.less exponentFrom then signedDecimal x.wholePart
  else
    let (digits, exponent) := x.shortest
    if exponentFrom.atMost x.absolute || x.absolute.less exponentBelow then
      sign ++ scientific digits exponent
    else sign ++ positional digits exponent

end PocketBasic.Single
