/-
**Expressions** are evaluated straight from the tokens. Each level of precedence leaves its value on
the operands and the cursor on the first token that it did not use:

    disjunction  conjunction (OR conjunction)*
    conjunction  negation (AND negation)*
    negation     NOT negation, or a comparison
    comparison   sum (relation sum)*
    sum          [sign] product (sign product)*
    product      power ((* / %) power)*
    power        factor (^ factor)*
    factor       a literal, a variable, a function, a sign and a power, or a disjunction in brackets

Evaluations that are open inside each other are counted, and at most `stackSize` of them may be
(`Machine.nested`). `Evaluator` is what may be evaluated one nesting deeper; `evaluator budget` is
the evaluator for `budget` more nestings, and `Machine.evaluate` the one a statement uses.
-/

import PocketBasic.Builtin
import PocketBasic.Machine.Reading
import PocketBasic.Machine.Variables

namespace PocketBasic

/-! ### Nesting -/

/-- The levels at which an evaluation can begin one nesting deeper: a whole expression, the operand
of `NOT`, and the operand of a sign. -/
inductive Level where
  | disjunction
  | negation
  | power
  deriving DecidableEq, Inhabited

/-- What may be evaluated one nesting deeper. -/
structure Evaluator where
  /-- Leaves the value of a level on the operands. -/
  numeric : Level → Action Unit
  /-- The text that a string function gives, behind its name. -/
  string : Keyword → Action Bytes

namespace Machine

def push (value : Single) : Action Unit := onOperands (BoundedStack.push value)

def pop : Action Single := onOperands BoundedStack.pop

/-- Checks that an evaluation can be opened. The detail tells what was nested too deeply. -/
def checkDepth (detail : String) : Action Unit := do
  let machine ← get
  if machine.config.stackSize ≤ machine.depth then Attempt.failWith .stackOverflow detail

/-- Does an evaluation one nesting deeper. -/
def nested {α : Type} (evaluation : Action α) : Action α := do
  checkDepth "EXPRESSION"
  modify fun machine => { machine with depth := machine.depth + 1 }
  evaluation.ensuring fun machine => { machine with depth := machine.depth - 1 }

/-! ### Binary operators -/

/-- Takes operators of a level and their right operands as they come, at most `fuel` of them. Each
operator works on the value so far, so the level associates to the left. -/
def operatorsWithin (operator? : Token → Option Operator) (operand : Action Unit) :
    Nat → Action Unit
  | 0 => throw .stalled
  | fuel + 1 => do
    match operator? (← token) with
    | none => return ()
    | some operator =>
      advance
      operand
      let (left, right) ← onOperands BoundedStack.popPair
      let whole := (← get).config.wholeNumbers
      push (← Attempt.lift (Arithmetic.apply operator whole left right))
      operatorsWithin operator? operand fuel

/-- Takes the operators of a level and their right operands. -/
def operators (operator? : Token → Option Operator) (operand : Action Unit) : Action Unit := do
  operatorsWithin operator? operand ((← get).textLength + 1)

/-- The operator that a token denotes, if it is among some. -/
def oneOf (choices : List Operator) : Token → Option Operator
  | .operator operator => if operator ∈ choices then some operator else none
  | _ => none

/-- The sign that a token denotes. -/
def sign? : Token → Option Operator := oneOf [.plus, .minus]

end Machine

/-- Whether a word begins a string. -/
def Keyword.isStringFunction : Keyword → Bool
  | .str | .chr | .left | .right | .mid => true
  | _ => false

/-- The number that a text denotes, with white space at its ends, without its fraction on a machine
with whole numbers. -/
def numberOfText? (text : Bytes) (whole : Bool) : Option Single := do
  let number ← Single.ofText? (Unicode.encode (Unicode.trim (← Unicode.strict? text)))
  return if whole then number.truncate else number

/-- The truth value of a comparison of texts: every comparison but the ones with equality asks for a
difference. -/
def compareTexts (operator : Operator) (left right : Bytes) : Single :=
  match operator with
  | .equal | .lessEqual | .greaterEqual => Arithmetic.truth (left = right)
  | _ => Arithmetic.truth (left ≠ right)

/-- The code of the first byte of a text, zero if it is empty. -/
def firstCode (text : Bytes) : Single := Single.ofNat (text.headD 0).toNat

namespace Evaluator

open Machine

variable (deeper : Evaluator)

/-! ### Expressions and what contains them -/

/-- Leaves the value of an expression on the operands. -/
def expression : Action Unit := nested (deeper.numeric .disjunction)

/-- The value of an expression. -/
def value : Action Single := do
  deeper.expression
  pop

/-- The value behind a comma, if there is one. -/
def valueAfterComma : Action (Option Single) := do
  if ← accept ',' then return some (← deeper.value) else return none

/-- Reads `(i)` or `(i,j)`. -/
def subscripts : Action (Single × Option Single) := do
  expect '('
  let row ← deeper.value
  let column ← deeper.valueAfterComma
  expect ')'
  return (row, column)

/-- Reads what follows the name of a string. -/
def selector : Action Selector := do
  if !(← accept '(') then return {}
  let mut bounds : Selector := {}
  if !(← token).isSymbol ')' then
    let lower ← deeper.value
    bounds := { lower := some lower, upper := ← deeper.valueAfterComma }
  expect ')'
  if !(← accept '(') then return bounds
  let index ← deeper.value
  expect ')'
  return { bounds with index := some index }

/-- Reads something that can be assigned to. -/
def target : Action Target := do
  match ← token with
  | .scalar name =>
    advance
    return .scalar name
  | .array name =>
    advance
    let (row, column) ← deeper.subscripts
    return .element name row column
  | .string name =>
    advance
    return .text name (← deeper.selector)
  | _ => Attempt.fail .syntaxError

/-! ### Strings -/

/-- The string that begins at the cursor, if one does. -/
def string? : Action (Option Bytes) := do
  match ← token with
  | .literal text =>
    advance
    return some text
  | .string name =>
    advance
    let selector ← deeper.selector
    return some (← readString name selector)
  | .word word =>
    if word.isStringFunction then
      advance
      let _ ← accept '$'
      return some (← nested (deeper.string word))
    else return none
  | _ => return none

/-- The string that begins at the cursor. -/
def text : Action Bytes := do Attempt.orFail .typeMismatch (← deeper.string?)

/-- The arguments and the value of a string function. -/
def stringFunction (word : Keyword) : Action Bytes := do
  expect '('
  let result ← match word with
    | .str => do pure (← deeper.value).text
    | .chr => do pure [← Range.byte (← deeper.value)]
    | .left => do
      let text ← deeper.text
      expect ','
      pure (text.take (← Range.count (← deeper.value)))
    | .right => do
      let text ← deeper.text
      expect ','
      pure (text.drop (text.length - (← Range.count (← deeper.value))))
    | .mid => do
      let text ← deeper.text
      expect ','
      let start ← deeper.value
      if !Single.one.atMost start then Attempt.fail .illegalFunctionCall
      else
        let count ← match ← deeper.valueAfterComma with
          | some count => Range.count count
          | none => pure text.length
        pure ((text.drop (start.toSize - 1)).take count)
    | _ => Attempt.failWith .internalError "NOT A STRING FUNCTION"
  expect ')'
  return result

/-! ### Functions -/

/-- Reads arguments up to the closing bracket, at most `fuel` of them, onto the operands, and counts
them. -/
def argumentsWithin : Nat → Nat → Action Nat
  | 0, _ => throw .stalled
  | fuel + 1, count => do
    deeper.expression
    if ← accept ',' then argumentsWithin fuel (count + 1) else return count + 1

/-- Reads bracketed arguments onto the operands, and counts them. -/
def arguments : Action Nat := do
  expect '('
  let count ←
    if (← token).isSymbol ')' then pure 0
    else deeper.argumentsWithin ((← get).textLength + 1) 0
  expect ')'
  return count

/-- The value of a numeric function for its arguments. -/
def functionValue (word : Keyword) (arguments : List Single) : Action Single := do
  let machine ← get
  let whole := machine.config.wholeNumbers
  let x := arguments.headD Single.zero
  match word with
  | .rnd =>
    let (fraction, random) := machine.random.next
    set { machine with random }
    let result := fraction.multiply x
    return if whole then result.truncate else result
  | .peek =>
    let address ← Range.count x
    let byte ← Attempt.orFail .illegalFunctionCall (machine.memory.peek? address)
    return Single.ofNat byte.toNat
  | .millis =>
    let divisor := if x.less Single.one then 1 else x.toSize
    if divisor = 0 then throw .zeroDivisor
    else return Single.ofNat (machine.host.millis.toNat / divisor)
  | .avail =>
    let channel ← Range.channel x
    return Single.ofNat (machine.host.available channel)
  | .malloc =>
    let name ← Range.bufferName x
    let size ← Range.count ((arguments[1]?).getD Single.zero)
    return Single.ofNat (← onMemory (Memory.allocate .buffer name size))
  | .size => return Single.ofNat machine.memory.free
  | .himem => return Single.ofNat machine.memory.himem
  | _ => Attempt.lift (Builtin.evaluate word arguments whole)

/-- A function with numeric arguments. -/
def numericFunction (word : Keyword) : Action Unit := do
  let arity ← Attempt.orFail .syntaxError (Builtin.arity? word)
  advance
  let count ← if (← token).isSymbol '(' then deeper.arguments else pure 0
  if count ≠ arity then Attempt.fail .illegalFunctionCall
  else
    let arguments ← onOperands (BoundedStack.popMany count)
    push (← functionValue word arguments)

/-- A numeric function of texts: `LEN`, `VAL`, `ASC` and `INSTR`. The length of a number is the size
of the buffer with that name. -/
def textFunction (word : Keyword) : Action Unit := do
  advance
  expect '('
  let result ← match word with
    | .len => do
      match ← deeper.string? with
      | some text => pure (Single.ofNat text.length)
      | none =>
        let name ← Range.bufferName (← deeper.value)
        let payload ← lookup .buffer name
        pure (Single.ofNat ((payload.map (·.length)).getD 0))
    | .val => do
      let text ← deeper.text
      pure ((numberOfText? text (← get).config.wholeNumbers).getD Single.zero)
    | .asc => do pure (firstCode (← deeper.text))
    | _ => do
      let text ← deeper.text
      expect ','
      let part ← deeper.text
      pure (if part.isEmpty then Single.zero
        else Single.ofNat (((Bytes.positionOf? part text).map (· + 1)).getD 0))
  expect ')'
  push result

/-- Reads the object that `FIND` asks for: a variable, an array with empty brackets, a function, or
the number of a buffer. -/
def objectName : Action (ObjectKind × Name) := do
  match ← token with
  | .scalar name =>
    advance
    return (.scalar, name)
  | .string name =>
    advance
    return (.string, name)
  | .array name =>
    advance
    expect '('
    expect ')'
    return (.array, name)
  | .word .fn =>
    advance
    match ← token with
    | .scalar name | .array name =>
      advance
      return (.function, name)
    | _ => Attempt.fail .syntaxError
  | _ => return (.buffer, ← Range.bufferName (← deeper.value))

/-- `FIND`: the address of the payload of an object, zero when there is none. -/
def find : Action Unit := do
  advance
  expect '('
  let (kind, name) ← deeper.objectName
  expect ')'
  let payload ← lookup kind name
  push (Single.ofNat ((payload.map (·.start)).getD 0))

/-! ### User functions -/

/-- The argument of a user function, if it has one. -/
def argument : Action (Option Single) := do
  if !(← accept '(') then return none
  let value ← if (← token).isSymbol ')' then pure none else some <$> deeper.value
  expect ')'
  return value

/-- Where the expression of a user function begins, and the name of its parameter. -/
def definition (name : Name) : Action (Nat × Name) := do
  let payload ← Attempt.orFail .undefinedFunction (← lookup .function name)
  let entry ← addressAt payload.start
  let width ← addressSize
  let first ← byteAt (payload.start + width)
  let second ← byteAt (payload.start + width + 1)
  return (entry, ⟨first, second⟩)

/-- Gives the parameter of a user function its value, and tells the value it had before; `none` when
the function has no parameter. -/
def bindParameter (parameter : Name) (argument : Option Single) :
    Action (Option (Name × Option Single)) := do
  match argument with
  | none =>
    if parameter = Name.none then return none else Attempt.fail .illegalFunctionCall
  | some value =>
    if parameter = Name.none then Attempt.fail .illegalFunctionCall
    else
      let old ← storedScalar? parameter
      setScalar parameter value
      return some (parameter, old)

/-- Gives the parameter of a user function the value it had before. -/
def unbindParameter : Option (Name × Option Single) → Action Unit
  | none => return ()
  | some (parameter, some old) => setScalar parameter old
  | some (parameter, none) => do
    let _ ← onMemory (Memory.delete .scalar parameter)

/-- The expression of a user function, behind its equals sign. -/
def functionBody : Action Unit := do
  if (← token).isOperator .equal then
    advance
    deeper.expression
  else Attempt.fail .syntaxError

/-- A user function. Its parameter hides a variable of the same name while the expression is
evaluated, also when that fails. -/
def userFunction : Action Unit := do
  advance
  let name ← match ← token with
    | .scalar name | .array name => pure name
    | _ => Attempt.fail .syntaxError
  advance
  let argument ← deeper.argument
  let (entry, parameter) ← definition name
  checkDepth "FN"
  let back ← location
  let bound ← bindParameter parameter argument
  let mode := if back.mode = .runStore then Mode.runStore else .run
  moveTo { mode, offset := entry }
  let result ← Attempt.caught deeper.functionBody
  let restored ← Attempt.caught (unbindParameter bound)
  Attempt.lift result
  Attempt.lift restored
  moveTo back

/-! ### Levels -/

/-- A function of any kind. -/
def function (word : Keyword) : Action Unit := do
  match word with
  | .fn => deeper.userFunction
  | .len | .val | .asc | .instr => deeper.textFunction word
  | .find => deeper.find
  | .error =>
    advance
    push (Single.ofNat (← get).lastError)
  | _ => deeper.numericFunction word

/-- A string where a number is wanted: compared with another one it is a truth value, and the code
of its first byte otherwise. -/
def stringFactor : Action Unit := do
  let left ← deeper.text
  match (← token).relation? with
  | none => push (firstCode left)
  | some operator =>
    advance
    let right ← deeper.text
    push (compareTexts operator left right)

def factor : Action Unit := do
  match ← token with
  | .operator .minus =>
    advance
    nested (deeper.numeric .power)
    push (← pop).negate
  | .operator .plus =>
    advance
    nested (deeper.numeric .power)
  | .number value =>
    advance
    push value
  | .scalar name =>
    advance
    push (← getScalar name)
  | .array name =>
    advance
    let (row, column) ← deeper.subscripts
    push (← getElement name row column)
  | .literal _ | .string _ => deeper.stringFactor
  | .word word => if word.isStringFunction then deeper.stringFactor else deeper.function word
  | .symbol 40 =>
    advance
    deeper.expression
    expect ')'
  | _ => Attempt.fail .syntaxError

def power : Action Unit := do
  deeper.factor
  operators (oneOf [.caret]) deeper.factor

def product : Action Unit := do
  deeper.power
  operators (oneOf [.times, .over, .modulo]) deeper.power

/-- A sign in front of a sum is an operator behind a zero. -/
def sum : Action Unit := do
  if (sign? (← token)).isSome then push Single.zero else deeper.product
  operators sign? deeper.product

def comparison : Action Unit := do
  deeper.sum
  operators Token.relation? deeper.sum

def negation : Action Unit := do
  if (← token).isOperator .not then
    advance
    nested (deeper.numeric .negation)
    push (← Attempt.lift (Arithmetic.not (← pop)))
  else deeper.comparison

def conjunction : Action Unit := do
  deeper.negation
  operators (oneOf [.and]) deeper.negation

def disjunction : Action Unit := do
  deeper.conjunction
  operators (oneOf [.or]) deeper.conjunction

/-- The value of a level. -/
def level : Level → Action Unit
  | .disjunction => deeper.disjunction
  | .negation => deeper.negation
  | .power => deeper.power

/-- Strings joined by `+`, at most `fuel` of them. A number is joined as the byte with that code. -/
def concatenationWithin : Nat → Bytes → Action Bytes
  | 0, _ => throw .stalled
  | fuel + 1, before => do
    let piece ← match ← deeper.string? with
      | some text => pure text
      | none => do
        deeper.product
        pure [← Range.byte (← pop)]
    if (← token).isOperator .plus then
      advance
      concatenationWithin fuel (before ++ piece)
    else return before ++ piece

/-- Strings joined by `+`; together they have at most 255 bytes. -/
def concatenation : Action Bytes := do
  let text ← deeper.concatenationWithin ((← get).textLength + 1) []
  if 255 < text.length then Attempt.fail .stringTooLong else return text

end Evaluator

/-- The evaluator for `budget` more nestings. -/
def evaluator : Nat → Evaluator
  | 0 => { numeric := fun _ => throw .stalled, string := fun _ => throw .stalled }
  | budget + 1 =>
    { numeric := fun level => (evaluator budget).level level
      string := fun word => (evaluator budget).stringFunction word }

namespace Machine

/-- The evaluator of statements: no evaluation is open yet, so nesting ends at the limit of depth
before the budget does. -/
def evaluate {α : Type} (evaluation : Evaluator → Action α) : Action α := do
  evaluation (evaluator (← get).config.stackSize)

/-- The value of an expression. -/
def value : Action Single := evaluate Evaluator.value

/-- The string that begins at the cursor, if one does. -/
def string? : Action (Option Bytes) := evaluate Evaluator.string?

/-- The string that begins at the cursor. -/
def text : Action Bytes := evaluate Evaluator.text

/-- Reads something that can be assigned to. -/
def target : Action Target := evaluate Evaluator.target

end Machine

end PocketBasic
