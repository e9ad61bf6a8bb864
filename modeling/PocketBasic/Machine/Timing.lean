/-
**Timers and pins of a running program.** Between two statements at most one timer or pin fires: the
timer that fires once before the one that repeats, and timers before pins.

* `Machine.dispatch`: fires what is due;
* `Machine.timerStatement`, `Machine.eventStatement`: set timers and watch pins;
* `Machine.delayStatement`: waits.
-/

import PocketBasic.Machine.Printing

namespace PocketBasic.Machine

/-! ### Firing -/

/-- Does what a timer or pin is set to do. -/
def respond (response : Response) (fromPin : Bool) : Action Unit := do
  match response with
  | .goto line => gotoLine line
  | .gosub line =>
    let resume ← location
    onReturns (BoundedStack.push { resume, fromPin })
    gotoLine line

/-- Takes the raised pins over and serves the next one. While the subroutine of a pin runs no other
pin is served. -/
def servePins : Action Unit := do
  let machine ← get
  if machine.pins.isEnabled && !machine.pins.slots.isEmpty then
    let (pins, signals) := machine.pins.poll machine.host.signals
    let (response, pins) := pins.take
    set { machine with pins, host := { machine.host with signals } }
    match response with
    | some response =>
      if response.isCall then
        modify fun machine => { machine with pins := { machine.pins with isEnabled := false } }
      respond response true
    | none => return ()

/-- Fires the first timer that is due, or else serves a pin. -/
def dispatch : Action Unit := do
  let machine ← get
  let now := machine.host.millis
  let timers := machine.timers
  if timers.after.isDue now then
    set { machine with timers := { timers with after := timers.after.disabled } }
    match timers.after.response with
    | some response => respond response false
    | none => return ()
  else if timers.every.isDue now then
    set { machine with timers := { timers with every := { timers.every with last := now } } }
    match timers.every.response with
    | some response => respond response false
    | none => return ()
  else servePins

/-! ### Setting -/

/-- `GOTO line` or `GOSUB line`, if the current token begins one. -/
def response? : Action (Option Response) := do
  match ← token with
  | .word .goto =>
    advance
    return some (.goto (← Range.line (← value)))
  | .word .gosub =>
    advance
    return some (.gosub (← Range.line (← value)))
  | _ => return none

/-- `AFTER` and `EVERY`: set a timer. An interval of zero turns it off, and without a response it
keeps the one it had. -/
def timerStatement (repeats : Bool) : Action Unit := do
  advance
  let interval ← value
  if interval.less Single.zero then Attempt.fail .illegalFunctionCall
  else
    let response ← response?
    modify fun machine =>
      let timers := machine.timers
      let now := machine.host.millis
      let timers :=
        if repeats then { timers with every := timers.every.set interval response now }
        else { timers with after := timers.after.set interval response now }
      { machine with timers }

/-- Forgets a timer altogether. -/
def clearTimer (repeats : Bool) : Action Unit :=
  modify fun machine =>
    let timers := machine.timers
    { machine with
      timers := if repeats then { timers with every := {} } else { timers with after := {} } }

/-- Holds or releases all pins. -/
def enablePins (enabled : Bool) : Action Unit :=
  modify fun machine => { machine with pins := { machine.pins with isEnabled := enabled } }

/-- A pin: `0` to `63`. -/
def pinNumber (number : Single) : Action UInt8 :=
  if number.less Single.zero || (Single.ofNat 63).less number then
    Attempt.fail .illegalFunctionCall
  else return number.toByte

/-- `EVENT pin`, which forgets the pin, and `EVENT pin, mode GOTO|GOSUB line`, which watches it. The
mode is between the host and its pins, and only its range is checked. -/
def watchPin : Action Unit := do
  let pin ← pinNumber (← value)
  if ← atEnd then
    modify fun machine => { machine with pins := machine.pins.remove pin }
  else
    expect ','
    let mode ← value
    if mode.less Single.zero || (Single.ofNat 3).less mode then
      Attempt.fail .illegalFunctionCall
    else
      let response ← Attempt.orFail .syntaxError (← response?)
      match (← get).pins.add? pin response with
      | some pins => modify fun machine => { machine with pins }
      | none =>
        modify fun machine => { machine with pins := machine.pins.remove pin }
        Attempt.failWith .outOfMemory "EVENT"

/-- `EVENT`. -/
def eventStatement : Action Unit := do
  advance
  match ← token with
  | .word .stop =>
    advance
    enablePins false
  | .word .cont =>
    advance
    enablePins true
  | _ => watchPin

/-! ### Waiting -/

/-- Yields to the host until `milliseconds` have passed since `start`, at most `fuel` times. -/
def delayWithin (start milliseconds : UInt64) : Nat → Action Unit
  | 0 => throw .stalled
  | fuel + 1 => do
    if (← get).host.millis - start < milliseconds then
      yield
      if ← breakRequested then Attempt.fail .interrupted
      else delayWithin start milliseconds fuel

/-- `DELAY`: waits for milliseconds, and stops at a break. When every yield takes time there are no
more yields than milliseconds; when none does, nothing happens after the last trigger. -/
def delayStatement : Action Unit := do
  advance
  let interval ← value
  if interval.less Single.zero then Attempt.fail .illegalFunctionCall
  else
    let host := (← get).host
    delayWithin host.millis (UInt64.ofNat interval.toSize)
      (interval.toSize + host.pendingYields + 2)

end PocketBasic.Machine
