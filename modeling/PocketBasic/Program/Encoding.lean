/-
**Tokens as bytes.** A stored program is a sequence of tokens, each a tag byte with what it needs
after it, and a line is the token of its number followed by its statements.

* `Token.encode`: the bytes of a token;
* `ProgramText.extent`: how many bytes the token at an offset takes;
* `ProgramText.decode`: the token at an offset, and the offset behind it.
-/

import PocketBasic.Error
import PocketBasic.Program.Text
import PocketBasic.Token.Vocabulary

namespace PocketBasic

/-! ### Tags

Bytes below `0x80` are tokens of a single character. -/

namespace Tag

def number : UInt8 := 0x80

def lineNumber : UInt8 := 0x81

def literal : UInt8 := 0x82

def scalar : UInt8 := 0x83

def string : UInt8 := 0x84

def array : UInt8 := 0x85

/-- The tag of the first word of the vocabulary; the tags above it are the words after it. -/
def firstWord : UInt8 := 0x86

/-- In front of the place of a word in the second part of the vocabulary. -/
def escape : UInt8 := 0xFF

end Tag

/-! ### Encoding -/

/-- The bytes of a name. -/
def Name.bytes (name : Name) : Bytes := [name.first, name.second]

/-- The bytes of a word or an operator: a tag from the vocabulary, or the character of an operator
that has one. -/
def Token.encodeWord (token : Token) : Except Error Bytes :=
  match token.code? with
  | some code =>
    if code < shortVocabulary.length then .ok [Tag.firstWord + code.toUInt8]
    else .ok [Tag.escape, (code - shortVocabulary.length).toUInt8]
  | none =>
    match token.spelling with
    | [byte] => .ok [byte]
    | _ => .error { kind := .internalError, detail := "UNENCODABLE TOKEN" }

/-- The bytes of a token. A literal has at most 255 bytes, because its length takes one. -/
def Token.encode (width : AddressWidth) : Token → Except Error Bytes
  | .endOfText => .ok []
  | .number value => .ok (Tag.number :: value.toBytes)
  | .lineNumber line => .ok (Tag.lineNumber :: width.encode line.toNat)
  | .literal text =>
    if 255 < text.length then .error { kind := .stringTooLong }
    else .ok (Tag.literal :: text.length.toUInt8 :: text)
  | .scalar name => .ok (Tag.scalar :: name.bytes)
  | .string name => .ok (Tag.string :: name.bytes)
  | .array name => .ok (Tag.array :: name.bytes)
  | .word keyword => Token.encodeWord (.word keyword)
  | .operator op => Token.encodeWord (.operator op)
  | .symbol byte => .ok [if byte < 128 && byte ≠ 0 then byte else 63]

/-- The bytes of tokens in order. -/
def encodeAll (width : AddressWidth) : List Token → Except Error Bytes
  | [] => .ok []
  | token :: rest => do
    let bytes ← token.encode width
    let others ← encodeAll width rest
    return bytes ++ others

/-! ### Decoding -/

namespace ProgramText

/-- How many bytes the token at an offset takes. -/
def extent (text : ProgramText) (width : AddressWidth) (offset : Nat) : Nat :=
  let tag := text.byteAt offset
  if tag = Tag.number then 1 + numberSize
  else if tag = Tag.lineNumber then 1 + width.byteCount
  else if tag = Tag.literal then 2 + (text.byteAt (offset + 1)).toNat
  else if tag = Tag.scalar || tag = Tag.string || tag = Tag.array then 3
  else if tag = Tag.escape then 2
  else 1

/-- The word or operator at a place of the vocabulary; a place past its end reads as `?`. -/
def wordAt (place : Nat) : Token := (vocabulary[place]?).getD (.symbol 63)

/-- The token that begins with the byte at `offset` and ends before `next`. -/
def tokenBetween (text : ProgramText) (width : AddressWidth) (offset next : Nat) : Token :=
  let tag := text.byteAt offset
  if tag = Tag.number then .number (text.numberAt (offset + 1))
  else if tag = Tag.lineNumber then
    .lineNumber (UInt16.ofNat (text.addressAt width (offset + 1)))
  else if tag = Tag.literal then .literal (text.slice (offset + 2) (next - (offset + 2)))
  else if tag = Tag.scalar then .scalar (text.nameAt (offset + 1))
  else if tag = Tag.string then .string (text.nameAt (offset + 1))
  else if tag = Tag.array then .array (text.nameAt (offset + 1))
  else if tag = Tag.escape then
    wordAt (shortVocabulary.length + (text.byteAt (offset + 1)).toNat)
  else if Tag.firstWord ≤ tag then wordAt (tag - Tag.firstWord).toNat
  else Token.ofByte tag

/-- The token at an offset, and the offset behind it. A token that is cut off by the end of the text
is the end of it. -/
def decode (text : ProgramText) (width : AddressWidth) (offset : Nat) : Token × Nat :=
  if text.length ≤ offset then (.endOfText, offset)
  else
    let next := offset + text.extent width offset
    if text.length < next then (.endOfText, text.length)
    else (text.tokenBetween width offset next, next)

end ProgramText

end PocketBasic
