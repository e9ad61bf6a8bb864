/-
**The host**: everything that the machine can reach outside its memory.

* Channels carry bytes: streams by number, and the open files as channel 16.
* The byte store, the files and the clock may each be missing.
* The host runs whenever the machine yields to it (`Host.yield`): time goes on, and what was planned
  for that yield happens.
-/

import PocketBasic.Host.Files
import PocketBasic.Host.Signals
import PocketBasic.Host.Store
import PocketBasic.Host.Stream

namespace PocketBasic

/-! ### Channels -/

namespace Channel

/-- Where input is asked for and output goes unless a statement names another channel. -/
def console : UInt8 := 1

/-- The files that are open for reading and writing. -/
def file : UInt8 := 16

end Channel

/-! ### The clock -/

/-- The fields of a clock: seconds, minutes, hours, weekday, day, month and year. -/
abbrev Clock := Vector Int 7

namespace Clock

def seconds (clock : Clock) : Int := clock[0]

def minutes (clock : Clock) : Int := clock[1]

def hours (clock : Clock) : Int := clock[2]

/-- The time of day as `hh:mm:ss`. -/
def timeOfDay (clock : Clock) : Bytes :=
  twoPlaces clock.hours ++ 58 :: twoPlaces clock.minutes ++ 58 :: twoPlaces clock.seconds

end Clock

/-! ### The host -/

/-- What happens at a yield: an interrupt, a pin, or input on a channel. -/
structure Trigger where
  /-- The count of yields at which it happens. -/
  yield : Nat
  interrupts : Bool := false
  pin : Option UInt8 := none
  input : Option (UInt8 × Bytes) := none
  deriving DecidableEq, Inhabited

structure Host where
  streams : List (UInt8 × Stream) := []
  store : Option ByteStore := none
  files : Option Files := none
  clock : Option Clock := none
  signals : Signals := {}
  /-- How often the machine has yielded. -/
  yields : Nat := 0
  /-- Milliseconds since power on. -/
  millis : UInt64 := 0
  /-- The milliseconds that a yield takes. -/
  tick : UInt64 := 1
  triggers : List Trigger := []
  deriving DecidableEq, Inhabited

namespace Host

/-! ### Streams by number -/

/-- Binds a stream to a channel, instead of the one that was bound there. -/
def bind (host : Host) (channel : UInt8) (stream : Stream) : Host :=
  { host with
    streams := (host.streams.filter fun bound => bound.1 ≠ channel) ++ [(channel, stream)] }

def stream? (host : Host) (channel : UInt8) : Option Stream := host.streams.lookup channel

/-- Does a step on the stream of a channel; `missing` is the result when there is none. -/
def stepOn {α : Type} (channel : UInt8) (missing : α) (step : Stream → α × Stream) :
    List (UInt8 × Stream) → α × List (UInt8 × Stream)
  | [] => (missing, [])
  | (other, stream) :: rest =>
    if other = channel then
      let (result, stream) := step stream
      (result, (other, stream) :: rest)
    else
      let (result, rest) := stepOn channel missing step rest
      (result, (other, stream) :: rest)

/-- Does a step on the stream of a channel; `missing` is the result when there is none. -/
def onStream {α : Type} (host : Host) (channel : UInt8) (missing : α)
    (step : Stream → α × Stream) : α × Host :=
  let (result, streams) := stepOn channel missing step host.streams
  (result, { host with streams })

/-- Does a step on the files; `missing` is the result when there are none. -/
def onFiles {α : Type} (host : Host) (missing : α) (step : Files → α × Files) : α × Host :=
  match host.files with
  | some files =>
    let (result, files) := step files
    (result, { host with files := some files })
  | none => (missing, host)

/-- Feeds the stream of a channel, if there is one. -/
def feed (host : Host) (channel : UInt8) (bytes : Bytes) : Host :=
  (host.onStream channel () fun stream => ((), stream.feed bytes)).2

/-- What was written to each stream since the last time, and the host without it. -/
def takeOutput (host : Host) : List (UInt8 × Bytes) × Host :=
  (host.streams.map fun (channel, stream) => (channel, stream.takeOutput.1),
    { host with
      streams := host.streams.map fun (channel, stream) => (channel, stream.takeOutput.2) })

/-! ### Channels -/

/-- Whether there is anything behind a channel. -/
def hasChannel (host : Host) (channel : UInt8) : Bool :=
  if channel = Channel.file then host.files.isSome else (host.stream? channel).isSome

/-- Writes a byte; false when it could not be delivered. -/
def write (host : Host) (channel : UInt8) (byte : UInt8) : Bool × Host :=
  if channel = Channel.file then host.onFiles false fun files => files.writeByte byte
  else host.onStream channel false fun stream => stream.write byte

/-- The next byte of a channel, if one is there. -/
def read (host : Host) (channel : UInt8) : Option UInt8 × Host :=
  if channel = Channel.file then host.onFiles none Files.readByte
  else host.onStream channel none Stream.read

/-- How many bytes of a channel are there to read. -/
def available (host : Host) (channel : UInt8) : Nat :=
  if channel = Channel.file then
    match host.files with
    | some files => files.available
    | none => 0
  else
    match host.stream? channel with
    | some stream => stream.available
    | none => 0

/-- The next byte of a stream, which stays there. -/
def peek? (host : Host) (channel : UInt8) : Option UInt8 :=
  if channel = Channel.file then none else (host.stream? channel).bind Stream.peek?

/-- Whether waiting on a channel can bring input. -/
def isOpen (host : Host) (channel : UInt8) : Bool :=
  if channel = Channel.file then false
  else
    match host.stream? channel with
    | some stream => stream.isOpen
    | none => false

/-! ### Time -/

/-- What a trigger does. -/
def fire (host : Host) (trigger : Trigger) : Host :=
  let host := if trigger.interrupts then { host with signals := host.signals.interrupt } else host
  let host := match trigger.pin with
    | some pin => { host with signals := host.signals.raise pin }
    | none => host
  match trigger.input with
  | some (channel, bytes) => host.feed channel bytes
  | none => host

/-- Lets the host run once: a tick passes, and the triggers of this yield fire in order. -/
def yield (host : Host) : Host :=
  let yields := host.yields + 1
  let host := { host with yields, millis := host.millis + host.tick }
  (host.triggers.filter fun trigger => trigger.yield = yields).foldl fire host

/-- The number of yields until the last trigger has fired. -/
def pendingYields (host : Host) : Nat :=
  host.triggers.foldl (fun most trigger => max most (trigger.yield - host.yields)) 0

/-- How many bytes a channel has and can still be fed by triggers. -/
def deliverable (host : Host) (channel : UInt8) : Nat :=
  host.triggers.foldl (fun total trigger =>
    match trigger.input with
    | some (_, bytes) => total + bytes.length
    | none => total) (host.available channel)

end Host

end PocketBasic
