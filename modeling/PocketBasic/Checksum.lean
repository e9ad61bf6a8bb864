/-
**The checksum of a stored program**: the 16 bit cyclic redundancy check X.25, over the reflected
polynomial `0x8408`, that starts with all bits set and is complemented at the end.
-/

import PocketBasic.Text.Bytes

namespace PocketBasic.Checksum

/-- Moves the register one bit down, with the polynomial added when a one falls out. -/
def shift (register : UInt16) : UInt16 :=
  if register &&& 1 = 1 then (register >>> 1) ^^^ 0x8408 else register >>> 1

/-- `count` shifts. -/
def shifts : Nat → UInt16 → UInt16
  | 0, register => register
  | count + 1, register => shifts count (shift register)

/-- The register after one more byte. -/
def update (register : UInt16) (byte : UInt8) : UInt16 :=
  shifts 8 (register ^^^ byte.toUInt16)

/-- The checksum of a byte string. -/
def ofBytes (bytes : Bytes) : UInt16 := bytes.foldl update 0xFFFF ^^^ 0xFFFF

end PocketBasic.Checksum
