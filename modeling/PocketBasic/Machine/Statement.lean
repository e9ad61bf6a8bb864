/-
**Statements.** A statement begins with a word, or with the variable that it assigns to, and leaves
the cursor on the token that ends it, or wherever it jumped.

* `Machine.statementWith`: the statement at the cursor;
* `Machine.statement`: the same, with the statements behind `THEN` and `ELSE`.
-/

import PocketBasic.Machine.Blocks
import PocketBasic.Machine.Data
import PocketBasic.Machine.Storage
import PocketBasic.Machine.Timing

namespace PocketBasic.Machine

/-! ### Assignment and definitions -/

/-- `target = value`. -/
def assignment : Action Unit := do
  let target ← target
  if !(← token).isOperator .equal then Attempt.fail .syntaxError
  else
    advance
    match target with
    | .text _ _ => assignText target (← evaluate Evaluator.concatenation)
    | _ => assignNumber target (← value)

/-- `LET`. -/
def letStatement : Action Unit := do
  advance
  assignment

/-- The parameter of a definition, in brackets that may be empty or missing. -/
def parameter : Action Name := do
  if !(← accept '(') then return Name.none
  let name ← match ← token with
    | .scalar name => do
      advance
      pure name
    | _ => pure Name.none
  expect ')'
  return name

/-- `DEF FN name(parameter) = expression`: remembers where the expression begins, at its equals
sign. -/
def defStatement : Action Unit := do
  if ← isInteractive then Attempt.fail .illegalDirect
  else
    advance
    if !(← token).isWord .fn then Attempt.fail .syntaxError
    advance
    let name ← match ← token with
      | .scalar name | .array name => pure name
      | _ => Attempt.fail .syntaxError
    advance
    let parameter ← parameter
    if !(← token).isOperator .equal then Attempt.fail .syntaxError
    let entry := (← location).offset
    let start ← match ← lookup .function name with
      | some payload => pure payload.start
      | none => onMemory (Memory.allocate .function name 0)
    let width ← addressSize
    onMemory (Memory.writeAddress start entry)
    onMemory (Memory.write (start + width) parameter.bytes)
    modify (skipTo Token.isTerminator)

/-- Dimensions the variable at the cursor. -/
def dimension : Action Unit := do
  match ← token with
  | .array name =>
    advance
    let (rows, columns) ← evaluate Evaluator.subscripts
    let rows ← elementCount rows
    let columns ← match columns with
      | some columns => elementCount columns
      | none => pure 1
    createArray name rows columns
  | .string name =>
    advance
    expect '('
    let capacity ← value
    if !Single.one.atMost capacity || (Single.ofNat 255).less capacity then
      Attempt.fail .stringTooLong
    let count ← match ← evaluate Evaluator.valueAfterComma with
      | some count => elementCount count
      | none => pure 1
    expect ')'
    createString name capacity.toSize count
  | _ => Attempt.fail .syntaxError

/-- Dimensions variables, at most `fuel` of them. -/
def dimensionsWithin : Nat → Action Unit
  | 0 => throw .stalled
  | fuel + 1 => do
    dimension
    if ← accept ',' then dimensionsWithin fuel

/-- `DIM`. -/
def dimStatement : Action Unit := do
  advance
  dimensionsWithin ((← get).textLength + 1)

/-- `CLR`: clears everything, or one stack, one timer, or one object with all newer ones. -/
def clrStatement : Action Unit := do
  advance
  if ← atEnd then clear
  else
    match ← token with
    | .word .gosub =>
      advance
      modify fun machine => { machine with returns := machine.returns.clear }
    | .word .for =>
      advance
      modify fun machine => { machine with loops := machine.loops.clear }
    | .word .after =>
      advance
      clearTimer false
    | .word .every =>
      advance
      clearTimer true
    | _ =>
      let (kind, name) ← evaluate Evaluator.objectName
      let _ ← onMemory (Memory.delete kind name)

/-! ### Machine and program -/

/-- `POKE`. -/
def pokeStatement : Action Unit := do
  advance
  let address ← value
  expect ','
  let byte ← value
  if address.less Single.zero || byte.less Single.zero || (Single.ofNat 255).less byte then
    Attempt.fail .illegalFunctionCall
  else
    let poked ← onMemory (Attempt.always fun memory => memory.poke address.toSize byte.toByte)
    if !poked then Attempt.fail .illegalFunctionCall

/-- Prints lines, and stops at a break. -/
def printLines : List Bytes → Action Unit
  | [] => return ()
  | line :: rest => do
    write line
    writeByte 10
    if ← breakRequested then Attempt.fail .interrupted else printLines rest

/-- The end of a range of lines whose start was read. -/
def rangeEnd (missing : LineNumber) : Action LineNumber := do
  if ← accept ',' then
    if ← atEnd then return 65535 else Range.line (← value)
  else return missing

/-- The lines that `LIST` names: all, one, or a range that may be open at both ends. -/
def lineRange : Action (LineNumber × LineNumber) := do
  if ← atEnd then return (0, 65535)
  else if (← token).isSymbol ',' then return (0, ← rangeEnd 65535)
  else
    let first ← Range.line (← value)
    return (first, ← rangeEnd first)

/-- `LIST`. -/
def listStatement : Action Unit := do
  advance
  let (first, last) ← lineRange
  let machine ← get
  printLines
    ((machine.programText machine.cursor.mode).listing machine.memory.width first last)

/-- `TAB`: writes blanks. -/
def tabStatement : Action Unit := do
  advance
  tab (← value)

/-- `CLS`: writes a form feed. -/
def clsStatement : Action Unit := do
  advance
  writeByte 12

/-- `TRON` and `TROFF`: whether line numbers are printed as the program runs. -/
def traceStatement (isTracing : Bool) : Action Unit := do
  advance
  modify fun machine => { machine with isTracing }

/-! ### Statements -/

/-- The statement that begins with a word. -/
def wordStatement (statement : Action Unit) : Keyword → Action Unit
  | .print => printStatement
  | .let => letStatement
  | .input => inputStatement
  | .get => getStatement
  | .put => putStatement
  | .goto => gotoStatement
  | .gosub => gosubStatement
  | .return => returnStatement
  | .if => ifStatement statement
  | .else => elseStatement
  | .on => onStatement
  | .for => forStatement
  | .next => nextStatement
  | .break => breakStatement
  | .cont => contStatement
  | .while => whileStatement
  | .wend => wendStatement
  | .repeat => repeatStatement
  | .until => untilStatement
  | .switch => switchStatement
  | .case => caseStatement
  | .swend | .do | .dend => advance
  | .data => modify (skipTo Token.isTerminator)
  | .read => readStatement
  | .restore => restoreStatement
  | .define => defStatement
  | .dim => dimStatement
  | .clr => clrStatement
  | .new => newStatement
  | .run => runStatement
  | .end | .stop => endStatement
  | .rem => modify (skipTo Token.endsLine)
  | .list => listStatement
  | .poke => pokeStatement
  | .tab => tabStatement
  | .cls => clsStatement
  | .delay => delayStatement
  | .tron => traceStatement true
  | .troff => traceStatement false
  | .set => setStatement
  | .error => errorStatement
  | .after => timerStatement false
  | .every => timerStatement true
  | .event => eventStatement
  | .save => saveStatement
  | .load => loadStatement
  | .catalog => catalogStatement
  | .delete => deleteStatement
  | .open => openStatement
  | .close => closeStatement
  | .fdisk => formatStatement
  | _ => Attempt.fail .syntaxError

/-- The statement at the cursor, with `statement` for the ones behind `THEN` and `ELSE`. -/
def statementWith (statement : Action Unit) : Action Unit := do
  match ← token with
  | .word word => wordStatement statement word
  | .scalar _ | .array _ | .string _ => assignment
  | .symbol 63 => printStatement
  | _ => Attempt.fail .syntaxError

/-- The statement at the cursor, in which at most `fuel` others begin behind `THEN` and `ELSE`. -/
def statementWithin : Nat → Action Unit
  | 0 => throw .stalled
  | fuel + 1 => statementWith fun machine => statementWithin fuel machine

/-- The statement at the cursor. -/
def statement : Action Unit := do statementWithin ((← get).textLength + 1)

end PocketBasic.Machine
