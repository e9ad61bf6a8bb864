/-
**The lines of a program text.** A line begins with the token of its number and reaches to the next
such token or to the end of the text.

* `ProgramText.lines`: number, start and end of every line;
* `ProgramText.findLine?`, `ProgramText.lineOf?`: the start of a line, and the line of an offset;
* `ProgramText.listing`: the lines of a range of numbers as text that can be typed again.
-/

import PocketBasic.Program.Encoding

namespace PocketBasic

/-- A line in a program text: its number, its first offset and the offset behind it. -/
structure LineSpan where
  number : LineNumber
  start : Nat
  stop : Nat
  deriving DecidableEq, Inhabited

namespace ProgramText

/-! ### Walking over lines -/

/-- The offset of the first line number from `offset` on, or one at or past the end, after at most
`fuel` tokens. -/
def lineStartWithin (text : ProgramText) (width : AddressWidth) : Nat → Nat → Nat
  | 0, offset => offset
  | fuel + 1, offset =>
    if text.length ≤ offset || text.byteAt offset = Tag.lineNumber then offset
    else lineStartWithin text width fuel (offset + text.extent width offset)

/-- The offset of the first line number from `offset` on, or one at or past the end. Every token
takes a byte, so there are no more tokens than bytes. -/
def lineStartFrom (text : ProgramText) (width : AddressWidth) (offset : Nat) : Nat :=
  text.lineStartWithin width (text.length - offset) offset

/-- The lines that begin at `offset` or later, at most `fuel` of them. -/
def linesWithin (text : ProgramText) (width : AddressWidth) : Nat → Nat → List LineSpan
  | 0, _ => []
  | fuel + 1, offset =>
    let start := text.lineStartFrom width offset
    if text.length ≤ start then []
    else
      let next := text.lineStartFrom width (start + text.extent width start)
      let number := UInt16.ofNat (text.addressAt width (start + 1))
      { number, start, stop := min next text.length } :: linesWithin text width fuel next

/-- The lines of a text in order. -/
def lines (text : ProgramText) (width : AddressWidth) : List LineSpan :=
  text.linesWithin width text.length 0

/-- The start of the first line with a number. -/
def findLine? (text : ProgramText) (width : AddressWidth) (line : LineNumber) : Option Nat :=
  ((text.lines width).find? fun span => span.number = line).map (·.start)

/-- The number of the line that holds an offset. -/
def lineOf? (text : ProgramText) (width : AddressWidth) (offset : Nat) : Option LineNumber :=
  ((text.lines width).find? fun span => span.start ≤ offset && offset < span.stop).map (·.number)

/-! ### Tokens of a line -/

/-- The tokens from `offset` on, at most `fuel` of them, up to the end of the text or the first one
that begins at `stop` or later. -/
def tokensWithin (text : ProgramText) (width : AddressWidth) (stop : Nat) : Nat → Nat → List Token
  | 0, _ => []
  | fuel + 1, offset =>
    if stop ≤ offset then []
    else
      match text.decode width offset with
      | (.endOfText, _) => []
      | (token, next) => token :: tokensWithin text width stop fuel next

/-- The tokens of a line without its number. -/
def lineTokens (text : ProgramText) (width : AddressWidth) (span : LineSpan) : List Token :=
  text.tokensWithin width span.stop text.length (text.decode width span.start).2

/-- The text cut off at an offset. -/
def truncate (text : ProgramText) (length : Nat) : ProgramText :=
  { length := min length text.length
    byteAt := fun offset => if offset < length then text.byteAt offset else 0 }

end ProgramText

/-! ### Listing -/

namespace Listing

/-- Whether a token is written with letters. -/
def isLettered : Token → Bool
  | .word _ | .operator .not | .operator .and | .operator .or => true
  | _ => false

/-- Whether a token can end an operand. -/
def endsOperand : Token → Bool
  | .number _ | .scalar _ | .string _ | .literal _ => true
  | .symbol byte => byte = 41
  | _ => false

/-- Whether a token stands right behind a word: an opening bracket, `$`, or a separator. -/
def clings : Token → Bool
  | .symbol byte => byte = 40 || byte = 36 || byte = 44 || byte = 59 || byte = 58
  | _ => false

/-- Whether a token begins with a name. -/
def isVariable : Token → Bool
  | .scalar _ | .string _ | .array _ => true
  | _ => false

/-- Whether a blank stands between two tokens. Without it letters, digits and names would run
together; behind a colon it is there to be read easily. -/
def isSpaced (first second : Token) : Bool :=
  if first.isSymbol ':' then true
  else if isLettered first then !clings second
  else if isLettered second then endsOperand first
  else
    match first with
    | .number _ => isVariable second
    | _ => false

/-- The text of tokens behind another one. After `REM` nothing is put between them. -/
def textAfter (previous : Option Token) (verbatim : Bool) : List Token → Bytes
  | [] => []
  | token :: rest =>
    if verbatim then token.spelling ++ textAfter previous true rest
    else
      let blank : Bytes := if previous.any (isSpaced · token) then [32] else []
      blank ++ token.spelling ++ textAfter (some token) (token.isWord .rem) rest

/-- The text of a line: its number, a blank and its tokens. -/
def lineText (number : LineNumber) (tokens : List Token) : Bytes :=
  decimal number.toNat ++ 32 :: textAfter none false tokens

end Listing

/-- The text of the lines with numbers from `first` to `last`. -/
def ProgramText.listing (text : ProgramText) (width : AddressWidth) (first last : LineNumber) :
    List Bytes :=
  ((text.lines width).filter fun span => first ≤ span.number && span.number ≤ last).map fun span =>
    Listing.lineText span.number (text.lineTokens width span)

end PocketBasic
