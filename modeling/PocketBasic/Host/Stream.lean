/-
**Streams**: channels that bytes are read from and written to, held in memory.
-/

import PocketBasic.Text.Bytes

namespace PocketBasic

structure Stream where
  /-- What was fed in and not read yet. -/
  input : Bytes := []
  /-- What was written and not collected yet. -/
  output : Array UInt8 := #[]
  /-- How many more bytes can be written, when that is limited. -/
  room : Option Nat := none
  /-- Whether more input may come even when there is none. -/
  staysOpen : Bool := false
  deriving DecidableEq, Inhabited

namespace Stream

def feed (stream : Stream) (bytes : Bytes) : Stream :=
  { stream with input := stream.input ++ bytes }

/-- What was written since the last time, and the stream without it. -/
def takeOutput (stream : Stream) : Bytes × Stream :=
  (stream.output.toList, { stream with output := #[] })

/-- The next byte, if there is one. -/
def read (stream : Stream) : Option UInt8 × Stream :=
  match stream.input with
  | [] => (none, stream)
  | byte :: rest => (some byte, { stream with input := rest })

def peek? (stream : Stream) : Option UInt8 := stream.input.head?

def available (stream : Stream) : Nat := stream.input.length

/-- Whether waiting can bring more input. -/
def isOpen (stream : Stream) : Bool := stream.staysOpen || !stream.input.isEmpty

/-- Writes a byte; false when there is no room for it. -/
def write (stream : Stream) (byte : UInt8) : Bool × Stream :=
  match stream.room with
  | none => (true, { stream with output := stream.output.push byte })
  | some 0 => (false, stream)
  | some (room + 1) => (true, { stream with output := stream.output.push byte, room := some room })

end Stream

end PocketBasic
