/-
**Signals** that the host raises at any time and the machine takes when it looks: one interrupt and
64 pins. A signal that is raised twice before it is taken is taken once.
-/

import PocketBasic.Text.Bytes

namespace PocketBasic

structure Signals where
  interrupted : Bool := false
  pins : Vector Bool 64 := Vector.replicate 64 false
  deriving DecidableEq, Inhabited

namespace Signals

def interrupt (signals : Signals) : Signals := { signals with interrupted := true }

/-- Whether the interrupt was raised, and the signals without it. -/
def takeInterrupt (signals : Signals) : Bool × Signals :=
  (signals.interrupted, { signals with interrupted := false })

/-- Raises a pin. Pins from 64 on do not exist and are ignored. -/
def raise (signals : Signals) (pin : UInt8) : Signals :=
  { signals with pins := signals.pins.setIfInBounds pin.toNat true }

/-- Whether a pin was raised, and the signals without it. -/
def take (signals : Signals) (pin : UInt8) : Bool × Signals :=
  ((signals.pins[pin.toNat]?).getD false,
    { signals with pins := signals.pins.setIfInBounds pin.toNat false })

end Signals

end PocketBasic
