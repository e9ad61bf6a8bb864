/-
**Input and output of the machine**, byte by byte. The host gets to run after every byte that is
written and whenever input is waited for.

* `Machine.writeByte`, `Machine.write`: output on the selected channel;
* `Machine.readByte`, `Machine.readLine`: input from the selected channel, waiting for it;
* `Machine.breakRequested`: whether the program must stop.
-/

import PocketBasic.Machine.State

namespace PocketBasic.Machine

/-- Lets the host run. -/
def yield : Action Unit := onHost fun host => ((), host.yield)

/-! ### Output -/

/-- Writes a byte. A byte that cannot be delivered sets the status flag. -/
def writeByte (byte : UInt8) : Action Unit := do
  let channel := (← get).output
  let written ← onHost fun host => host.write channel byte
  if !written then modify fun machine => { machine with deviceFailed := true }
  yield

def write : Bytes → Action Unit
  | [] => return ()
  | byte :: rest => do
    writeByte byte
    write rest

/-- Writes a byte several times. -/
def writeTimes (byte : UInt8) : Nat → Action Unit
  | 0 => return ()
  | count + 1 => do
    writeByte byte
    writeTimes byte count

/-! ### Interrupts -/

/-- Takes the interrupt, if there is one. -/
def takeInterrupt : Action Bool := onHost fun host =>
  let (taken, signals) := host.signals.takeInterrupt
  (taken, { host with signals })

/-- Whether the program must stop: the host interrupts it, or the break byte is next on the console,
which is taken off then. -/
def breakRequested : Action Bool := do
  if ← takeInterrupt then return true
  let machine ← get
  let waiting := machine.host.peek? Channel.console
  if waiting.isSome && waiting = machine.config.breakByte then
    let _ ← onHost fun host => host.read Channel.console
    return true
  else return false

/-! ### Input -/

/-- Waits for a byte through at most `fuel` yields. -/
def readByteWithin (channel : UInt8) : Nat → Action (Option UInt8)
  | 0 => throw .stalled
  | fuel + 1 => do
    match ← onHost fun host => host.read channel with
    | some byte => return some byte
    | none =>
      if (← get).host.isOpen channel then
        yield
        if ← takeInterrupt then Attempt.fail .interrupted else readByteWithin channel fuel
      else return none

/-- Waits for a byte; `none` when the channel can bring none. A byte that is not there after the
last trigger of the host never comes. -/
def readByte (channel : UInt8) : Action (Option UInt8) := do
  readByteWithin channel ((← get).host.pendingYields + 1)

/-- Reads a line of at most `fuel` bytes behind the bytes that were read, last first. -/
def readLineWithin (channel : UInt8) : Nat → Bytes → Action Bytes
  | 0, _ => throw .stalled
  | fuel + 1, read => do
    match ← readByte channel with
    | some 10 => return read.reverse
    | some 13 => readLineWithin channel fuel read
    | some byte => readLineWithin channel fuel (byte :: read)
    | none =>
      if read.isEmpty then modify fun machine => { machine with deviceFailed := true }
      return read.reverse

/-- Reads a line up to a newline, without carriage returns. Input that ends before the first byte
sets the status flag. -/
def readLine : Action Bytes := do
  let machine ← get
  readLineWithin machine.input (machine.host.deliverable machine.input + 1) []

end PocketBasic.Machine
