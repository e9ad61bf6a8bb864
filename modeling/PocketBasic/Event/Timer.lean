/-
**Timers** make a running program jump or call a subroutine when time has passed: one fires once,
the other again and again.

* `Response`: what a timer or a pin does to the program;
* `Timer.isDue`: whether the interval has passed since the timer was set;
* `Timers`: the two timers of the machine.
-/

import PocketBasic.Token.Name

namespace PocketBasic

/-- What happens to the program when a timer or a pin fires. -/
inductive Response where
  | goto (line : LineNumber)
  | gosub (line : LineNumber)
  deriving DecidableEq, Inhabited

/-- Whether the program comes back from a response. -/
def Response.isCall : Response → Bool
  | goto _ => false
  | gosub _ => true

structure Timer where
  /-- Milliseconds from one setting to the firing. -/
  interval : UInt64 := 0
  /-- When the timer was set or fired last. -/
  last : UInt64 := 0
  /-- The response; it stays when the timer is turned off. -/
  response : Option Response := none
  isEnabled : Bool := false
  deriving DecidableEq, Inhabited

namespace Timer

/-- Whether the timer must fire. -/
def isDue (timer : Timer) (now : UInt64) : Bool :=
  timer.isEnabled && timer.response.isSome && timer.interval ≤ now - timer.last

def disabled (timer : Timer) : Timer := { timer with isEnabled := false }

/-- The timer set again: with a new response, or the one it had, and off if there is none or the
interval is not positive. -/
def set (timer : Timer) (interval : Single) (response : Option Response) (now : UInt64) : Timer :=
  let response := response.or timer.response
  { interval := UInt64.ofNat interval.toSize
    last := now
    response
    isEnabled := Single.zero.less interval && response.isSome }

end Timer

/-- The timer that fires once and the timer that repeats. -/
structure Timers where
  after : Timer := {}
  every : Timer := {}
  deriving DecidableEq, Inhabited

/-- Both timers turned off. -/
def Timers.disabled (timers : Timers) : Timers :=
  { after := timers.after.disabled, every := timers.every.disabled }

end PocketBasic
