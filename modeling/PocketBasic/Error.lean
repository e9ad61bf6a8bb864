/-
**Errors that a program or a typed line can cause.** An error has a cause, perhaps the line it
happened in, and perhaps a detail that narrows the cause.

* `ErrorKind.code`: the number that a program sees in `ERROR`;
* `ErrorKind.text`: the words for the cause;
* `Error.message`: the whole text, such as `STACK OVERFLOW IN 30; GOSUB`.
-/

import PocketBasic.Token.Name

namespace PocketBasic

/-- The cause of an error. -/
inductive ErrorKind where
  | interrupted
  | nextWithoutFor
  | syntaxError
  | returnWithoutGosub
  | outOfData
  | illegalFunctionCall
  | overflow
  | outOfMemory
  | undefinedLine
  | subscriptOutOfRange
  | duplicateVariable
  | divisionByZero
  | illegalDirect
  | typeMismatch
  | stringTooLong
  | stackOverflow
  | cannotContinue
  | undefinedFunction
  | unknownVariable
  | missingBlockEnd
  | wendWithoutWhile
  | untilWithoutRepeat
  | internalError
  | badFileNumber
  | fileNotFound
  | diskError
  | storeError
  deriving DecidableEq, Inhabited

namespace ErrorKind

/-- The number of a cause. -/
def code : ErrorKind → Nat
  | interrupted => 0
  | nextWithoutFor => 1
  | syntaxError => 2
  | returnWithoutGosub => 3
  | outOfData => 4
  | illegalFunctionCall => 5
  | overflow => 6
  | outOfMemory => 7
  | undefinedLine => 8
  | subscriptOutOfRange => 9
  | duplicateVariable => 10
  | divisionByZero => 11
  | illegalDirect => 12
  | typeMismatch => 13
  | stringTooLong => 15
  | stackOverflow => 16
  | cannotContinue => 17
  | undefinedFunction => 18
  | unknownVariable => 19
  | missingBlockEnd => 26
  | wendWithoutWhile => 30
  | untilWithoutRepeat => 31
  | internalError => 51
  | badFileNumber => 52
  | fileNotFound => 53
  | diskError => 57
  | storeError => 70

/-- The words for a cause. -/
def text : ErrorKind → String
  | interrupted => "BREAK"
  | nextWithoutFor => "NEXT WITHOUT FOR"
  | syntaxError => "SYNTAX ERROR"
  | returnWithoutGosub => "RETURN WITHOUT GOSUB"
  | outOfData => "OUT OF DATA"
  | illegalFunctionCall => "ILLEGAL FUNCTION CALL"
  | overflow => "OVERFLOW"
  | outOfMemory => "OUT OF MEMORY"
  | undefinedLine => "UNDEFINED LINE"
  | subscriptOutOfRange => "SUBSCRIPT OUT OF RANGE"
  | duplicateVariable => "DUPLICATE VARIABLE"
  | divisionByZero => "DIVISION BY ZERO"
  | illegalDirect => "ILLEGAL DIRECT"
  | typeMismatch => "TYPE MISMATCH"
  | stringTooLong => "STRING TOO LONG"
  | stackOverflow => "STACK OVERFLOW"
  | cannotContinue => "CAN'T CONTINUE"
  | undefinedFunction => "UNDEFINED USER FUNCTION"
  | unknownVariable => "UNKNOWN VARIABLE"
  | missingBlockEnd => "MISSING BLOCK END"
  | wendWithoutWhile => "WEND WITHOUT WHILE"
  | untilWithoutRepeat => "UNTIL WITHOUT REPEAT"
  | internalError => "INTERNAL ERROR"
  | badFileNumber => "BAD FILE NUMBER"
  | fileNotFound => "FILE NOT FOUND"
  | diskError => "DISK I/O ERROR"
  | storeError => "STORE ERROR"

end ErrorKind

/-- An error: its cause, the line it happened in if a program was running, and a detail, empty when
there is none. -/
structure Error where
  kind : ErrorKind
  line : Option LineNumber := none
  detail : String := ""
  deriving DecidableEq, Inhabited

namespace Error

/-- Whether the error belongs to no line of the program. -/
def isDirect (error : Error) : Bool := error.line.isNone

def inLine (error : Error) (line : LineNumber) : Error := { error with line := some line }

/-- The text of an error: the cause, the line and the detail. -/
def message (error : Error) : String :=
  let line := match error.line with
    | some line => " IN " ++ Nat.repr line.toNat
    | none => ""
  let detail := if error.detail.isEmpty then "" else "; " ++ error.detail
  error.kind.text ++ line ++ detail

/-- The text of an error as it is shown for inspection. -/
def description (error : Error) : String := "Error \x7b " ++ error.message ++ " \x7d"

end Error

end PocketBasic
