/-
**Conditions and loops.** Blocks are found by scanning tokens forward and counting words; nothing is
prepared before the program runs. A loop is remembered with the place where its body, or its
condition, begins.

* `Machine.ifStatement`, `Machine.elseStatement`, `Machine.switchStatement`: one of several parts;
* `Machine.forStatement` with `nextStatement`, `whileStatement` with `wendStatement`,
  `repeatStatement` with `untilStatement`: loops;
* `Machine.breakStatement`, `Machine.contStatement`: leave the innermost loop, or begin its next
  round.
-/

import PocketBasic.Machine.Jumps

namespace PocketBasic.Machine

/-! ### IF -/

/-- The part behind `THEN` or `ELSE`: a line number is jumped to, anything else is a statement. -/
def branch (statement : Action Unit) : Action Unit := do
  match ← token with
  | .number line =>
    advance
    gotoNumber line
  | token => if token.isTerminator then return () else statement

/-- Goes over a block whose `DO` is the current token. -/
def skipBlock : Action Unit := do
  advance
  findBracket .do .dend
  advance

/-- The alternative of a condition that does not hold, if the current token begins one. -/
def alternative (statement : Action Unit) : Action Unit := do
  if (← token).isWord .else then
    advance
    branch statement

/-- `IF`. Of a condition that does not hold a block is skipped, or else everything up to the first
`ELSE` of the line. -/
def ifStatement (statement : Action Unit) : Action Unit := do
  advance
  let condition ← value
  if (← token).isWord .then then advance
  if !condition.equals Single.zero then branch statement
  else
    if (← token).isWord .do then skipBlock
    else modify (skipTo fun token => token.endsLine || token.isWord .else)
    alternative statement

/-- `ELSE`, which is reached behind a part that ran: its own part is skipped. -/
def elseStatement : Action Unit := do
  advance
  if (← token).isWord .do then skipBlock else modify (skipTo Token.endsLine)

/-! ### SWITCH -/

/-- Whether one of the values behind `CASE` is the wanted one, at most `fuel` of them. -/
def caseMatchesWithin (wanted : Single) : Nat → Action Bool
  | 0 => throw .stalled
  | fuel + 1 => do
    if (← value).equals wanted then return true
    else if ← accept ',' then caseMatchesWithin wanted fuel
    else return false

/-- Reads on to the part of the first `CASE` with the wanted value, at most `fuel` tokens far, and
tells whether there is one. Inner blocks, `depth` of them open, are passed over. -/
def findCaseWithin (wanted : Single) : Nat → Nat → Action Bool
  | 0, _ => throw .stalled
  | fuel + 1, depth => do
    match ← token, depth with
    | .endOfText, _ => return false
    | .word .switch, depth =>
      advance
      findCaseWithin wanted fuel (depth + 1)
    | .word .swend, 0 => return false
    | .word .swend, depth + 1 =>
      advance
      findCaseWithin wanted fuel depth
    | .word .case, 0 =>
      advance
      if ← caseMatchesWithin wanted (fuel + 1) then
        modify (skipTo Token.isTerminator)
        return true
      else findCaseWithin wanted fuel 0
    | _, depth =>
      advance
      findCaseWithin wanted fuel depth

/-- Comes back to the place that was marked. -/
def takeBookmark (detail : String) : Action Unit := do
  match (← get).bookmark with
  | some location =>
    modify fun machine => { machine with bookmark := none }
    moveTo location
  | none => Attempt.failWith .internalError detail

/-- `SWITCH`: goes to the first `CASE` with the value, and goes on behind the value if none has
it. -/
def switchStatement : Action Unit := do
  advance
  let wanted ← value
  modify fun machine => { machine with bookmark := some machine.cursor.location }
  if ← findCaseWithin wanted ((← get).textLength + 1) 0 then
    modify fun machine => { machine with bookmark := none }
  else takeBookmark "SWITCH"

/-- `CASE`, which is reached behind the part of another one: goes behind the block. -/
def caseStatement : Action Unit := do
  advance
  findBracket .switch .swend
  advance

/-! ### FOR -/

/-- Whether a value is past the limit, in the direction of the step. -/
def isPast (value limit step : Single) : Bool :=
  (Single.zero.less step && limit.less value) || (step.less Single.zero && value.less limit)

/-- Reads over the name behind `NEXT`, if there is one. -/
def skipCounter : Action Unit := do
  match ← token with
  | .scalar _ => advance
  | _ => return ()

/-- Goes behind the `NEXT` of a loop whose `FOR` was read. -/
def leaveFor : Action Unit := do
  findBracket .for .next
  advance
  skipCounter

/-- The value behind a word, if the word is there. -/
def valueAfter (word : Keyword) (missing : Single) : Action Single := do
  if (← token).isWord word then
    advance
    value
  else return missing

/-- `FOR`. A loop with the same counter that is under way ends, with all loops inside it. -/
def forStatement : Action Unit := do
  advance
  let counter ← match ← token with
    | .scalar name => pure name
    | _ => Attempt.fail .syntaxError
  advance
  if (← token).isOperator .equal then
    advance
    setScalar counter (← value)
  let limit ← valueAfter .to Single.largest
  let step ← valueAfter .step Single.one
  if !(← token).isTerminator then Attempt.fail .syntaxError
  else
    modify fun machine =>
      { machine with loops := (machine.loops.unwindTo (·.countsWith counter)).2 }
    if isPast (← getScalar counter) limit step then leaveFor
    else
      let resume ← location
      onLoops (BoundedStack.push { kind := .for counter limit step, resume })

/-- The counter, limit, step and start of the innermost loop if it is a `FOR` with the given
counter. Other `FOR` loops inside that one, at most `fuel` of them, end. -/
def counterWithin (wanted : Option Name) : Nat → Action (Name × Single × Single × Location)
  | 0 => throw .stalled
  | fuel + 1 => do
    match (← get).loops.top? with
    | some { kind := .for counter limit step, resume } =>
      if wanted.all (· = counter) then return (counter, limit, step, resume)
      else
        let _ ← onLoops BoundedStack.pop
        counterWithin wanted fuel
    | _ => Attempt.fail .nextWithoutFor

/-- `NEXT`: counts, and begins the next round unless the value is past the limit. -/
def nextStatement : Action Unit := do
  advance
  let wanted ← match ← token with
    | .scalar name => do
      advance
      pure (some name)
    | _ => pure none
  let (counter, limit, step, resume) ← counterWithin wanted ((← get).loops.size + 1)
  let value := (← getScalar counter).add step
  setScalar counter value
  if isPast value limit step then
    let _ ← onLoops BoundedStack.pop
  else moveTo resume

/-! ### WHILE -/

/-- `WHILE`. The same loop, if it is under way, ends with all loops inside it. -/
def whileStatement : Action Unit := do
  advance
  let resume ← location
  let condition ← value
  let loop : Loop := { kind := .while, resume }
  modify fun machine => { machine with loops := (machine.loops.unwindTo (· = loop)).2 }
  if !condition.equals Single.zero then onLoops (BoundedStack.push loop)
  else
    findBracket .while .wend
    advance

/-- `WEND`: goes back to the condition, and behind the `WEND` again if it does not hold. -/
def wendStatement : Action Unit := do
  match (← get).loops.top? with
  | some { kind := .while, resume } =>
    advance
    modify fun machine => { machine with bookmark := some machine.cursor.location }
    moveTo resume
    let condition ← value
    if !condition.equals Single.zero then
      modify fun machine => { machine with bookmark := none }
    else
      let _ ← onLoops BoundedStack.pop
      takeBookmark "WEND"
  | _ => Attempt.fail .wendWithoutWhile

/-! ### REPEAT -/

/-- `REPEAT`. The same loop, if it is under way, ends with all loops inside it. -/
def repeatStatement : Action Unit := do
  advance
  let loop : Loop := { kind := .repeat, resume := ← location }
  modify fun machine => { machine with loops := (machine.loops.unwindTo (· = loop)).2 }
  onLoops (BoundedStack.push loop)

/-- `UNTIL`: begins the next round unless the condition holds. -/
def untilStatement : Action Unit := do
  match (← get).loops.top? with
  | some { kind := .repeat, resume } =>
    advance
    if !(← value).equals Single.zero then
      let _ ← onLoops BoundedStack.pop
    else moveTo resume
  | _ => Attempt.fail .untilWithoutRepeat

/-! ### BREAK and CONT -/

/-- `BREAK`: leaves the innermost loop. -/
def breakStatement : Action Unit := do
  let loop ← onLoops BoundedStack.pop
  advance
  match loop.kind with
  | .for _ _ _ => leaveFor
  | .while =>
    findBracket .while .wend
    advance
  | .repeat =>
    findBracket .repeat .until
    advance
    let _ ← value

/-- `CONT` in a typed line: the program goes on where it stopped. -/
def continueProgram : Action Unit := do
  let location ← Attempt.orFail .cannotContinue (← get).continuation
  modify fun machine => { machine with continuation := none }
  moveTo location

/-- `CONT` in a program: goes to the word that ends the innermost loop. -/
def continueLoop : Action Unit := do
  match (← get).loops.top? with
  | none => Attempt.fail .nextWithoutFor
  | some loop =>
    advance
    match loop.kind with
    | .for _ _ _ =>
      findBracket .for .next
      nextStatement
    | .while =>
      findBracket .while .wend
      wendStatement
    | .repeat =>
      findBracket .repeat .until
      untilStatement

/-- `CONT`. -/
def contStatement : Action Unit := do
  if ← isInteractive then continueProgram else continueLoop

end PocketBasic.Machine
