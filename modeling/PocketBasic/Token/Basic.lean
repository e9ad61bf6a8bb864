/-
**Tokens.** A typed line is split into them, and a stored program is a sequence of them.

* `Keyword`, `Operator`: the reserved words and the operators;
* `Token`: one token, with the rules that statements need of it (`isTerminator`, `isWord`).

A token that carries a line number is met in stored programs only; in a typed line the number in
front is a number like any other.
-/

import PocketBasic.Token.Name

namespace PocketBasic

/-- The reserved words. -/
inductive Keyword where
  | abs | after | asc | atan | avail | break | case | catalog | chr | close | clr | cls | cont
  | cos | data | define | delay | delete | dend | dim | do | else | end | error | event | every
  | exp | fdisk | find | fn | for | get | gosub | goto | himem | if | input | instr | int | left
  | len | let | list | load | log | malloc | mid | millis | new | next | on | open | peek | poke
  | pow | print | put | read | rem | repeat | restore | return | right | rnd | run | save | set
  | sgn | sin | size | sqr | step | stop | str | swend | switch | tab | tan | then | to | troff
  | tron | until | val | wend | while
  deriving DecidableEq, Inhabited

inductive Operator where
  | plus | minus | times | over | modulo | caret
  | equal | notEqual | less | lessEqual | greater | greaterEqual
  | not | and | or
  deriving DecidableEq, Inhabited

/-- Whether the operator compares its operands. -/
def Operator.isRelational : Operator → Bool
  | equal | notEqual | less | lessEqual | greater | greaterEqual => true
  | _ => false

/-- A token. `string` and `array` are the names of string variables and arrays, `symbol` is any
other single character. -/
inductive Token where
  | endOfText
  | number (value : Single)
  | lineNumber (line : LineNumber)
  | literal (text : Bytes)
  | scalar (name : Name)
  | string (name : Name)
  | array (name : Name)
  | word (keyword : Keyword)
  | operator (op : Operator)
  | symbol (byte : UInt8)
  deriving DecidableEq, Inhabited

namespace Token

/-- The token of a single byte that is in no number, literal or name. Bytes that are not ASCII
stand for nothing and read as `?`. -/
def ofByte (byte : UInt8) : Token :=
  if byte = 43 then .operator .plus
  else if byte = 45 then .operator .minus
  else if byte = 42 then .operator .times
  else if byte = 47 then .operator .over
  else if byte = 37 then .operator .modulo
  else if byte = 94 then .operator .caret
  else if byte = 61 then .operator .equal
  else if byte = 60 then .operator .less
  else if byte = 62 then .operator .greater
  else if byte < 128 && byte ≠ 0 then .symbol byte
  else .symbol 63

/-- Whether the token ends a statement: a colon, a new line, or the end of the text. -/
def isTerminator : Token → Bool
  | endOfText | lineNumber _ => true
  | symbol byte => byte = 58
  | _ => false

/-- Whether the token ends a line. -/
def endsLine : Token → Bool
  | endOfText | lineNumber _ => true
  | _ => false

def isWord (token : Token) (expected : Keyword) : Bool :=
  match token with
  | word found => found = expected
  | _ => false

def isOperator (token : Token) (expected : Operator) : Bool :=
  match token with
  | operator found => found = expected
  | _ => false

/-- Whether the token is the given character, which is not an operator. -/
def isSymbol (token : Token) (expected : Char) : Bool :=
  match token with
  | symbol byte => byte = expected.toUInt8
  | _ => false

/-- The comparison that the token denotes. -/
def relation? : Token → Option Operator
  | operator found => if found.isRelational then some found else none
  | _ => none

end Token

end PocketBasic
