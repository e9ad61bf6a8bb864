/-
**The command line.** With the name of a file the program in that file is run, and standard input is
its input. Without one, every line of standard input is done as if it were typed.
-/

import PocketBasic.Machine.Run

namespace PocketBasic.CommandLine

/-- The bytes of the byte store of a session. -/
def storeSize : Nat := 4096

/-- How many statements are done between two looks at the output. -/
def slice : Nat := 5000

/-- A machine with an empty console, an erased byte store and the given files. Files that were there
before the session cannot be erased together. -/
def power (files : Files) : Machine :=
  let host : Host :=
    { store := some (ByteStore.erased storeSize)
      files := some { files with deniesFormat := true } }
  Machine.start {} (host.bind Channel.console {})

/-- What an answer of the machine makes the session print, and whether the machine has more to
do. -/
def answer : Except Failure Outcome → String × Bool
  | .ok .running => ("", true)
  | .ok .stopped => ("", false)
  | .ok (.failed error) | .error (.reported error) => ("?" ++ error.message ++ "\n", false)
  | .error .fault | .error .zeroDivisor => ("?MACHINE FAULT\n", false)
  | .error .stalled => ("?MACHINE STALLED\n", false)

/-- Prints a text at once. -/
def print (text : String) : IO Unit := do
  let output ← IO.getStdout
  output.putStr text
  output.flush

/-- Prints what was written to the console since the last time. -/
def printConsole (machine : Machine) : IO Machine := do
  let (written, host) := machine.host.takeOutput
  print (String.ofList (Unicode.lossy ((written.lookup Channel.console).getD [])))
  return { machine with host }

/-- Lets the machine do statements until it waits for a line. -/
partial def finish (machine : Machine) : IO Machine := do
  let (outcome, machine) := (Machine.execute slice).runOn machine
  let machine ← printConsole machine
  let (text, hasMore) := answer outcome
  print text
  if hasMore then finish machine else return machine

/-- Enters a line and does it. -/
def type (line : Bytes) (machine : Machine) : IO Machine := do
  let (_, machine) := (Machine.enter line).runOn machine
  finish machine

/-- Takes lines of standard input until it ends. -/
partial def prompt (machine : Machine) : IO Unit := do
  let line ← (← IO.getStdin).getLine
  if line.isEmpty then return ()
  else prompt (← type line.toUTF8.toList machine)

/-- The bytes of a file, if it can be read. -/
def contents (name : String) : IO (Option (Array UInt8)) := do
  try return some (← IO.FS.readBinFile name).data
  catch _ => return none

/-- Runs the program in a file. -/
def runFile (name : String) : IO Unit := do
  let bytes := name.toUTF8.toList
  let files : Files := match ← contents name with
    | some content => Files.put {} bytes content
    | none => {}
  let input ← (← IO.getStdin).readToEnd
  let machine := power files
  let machine := { machine with host := machine.host.feed Channel.console input.toUTF8.toList }
  let _ ← type (ascii "RUN \"" ++ bytes ++ [34]) machine

end PocketBasic.CommandLine

/-- Runs the program that is named, or takes lines from standard input. -/
def main (arguments : List String) : IO Unit :=
  match arguments with
  | name :: _ => PocketBasic.CommandLine.runFile name
  | [] => do
    PocketBasic.CommandLine.print "READY.\n"
    PocketBasic.CommandLine.prompt (PocketBasic.CommandLine.power {})
