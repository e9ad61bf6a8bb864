/-
**The byte store**: bytes that stay when the machine starts again. An erased byte is `0xFF`, and so
reads every offset past the end; writing there does nothing. Offsets are words: behind the last one
comes the first.
-/

import PocketBasic.Memory.Address
import PocketBasic.Text.Bytes

namespace PocketBasic

structure ByteStore where
  bytes : Array UInt8
  deriving DecidableEq, Inhabited

namespace ByteStore

def erased (size : Nat) : ByteStore := { bytes := Array.replicate size 0xFF }

def size (store : ByteStore) : Nat := store.bytes.size

def read (store : ByteStore) (offset : Nat) : UInt8 := store.bytes.getD offset 0xFF

def write (store : ByteStore) (offset : Nat) (byte : UInt8) : ByteStore :=
  { bytes := store.bytes.setIfInBounds offset byte }

/-- Writes bytes from an offset on. -/
def writeAll (store : ByteStore) (offset : Nat) : Bytes → ByteStore
  | [] => store
  | byte :: rest => (store.write offset byte).writeAll (Address.wrap (offset + 1)) rest

/-- The bytes of a range. -/
def readAll (store : ByteStore) (offset count : Nat) : Bytes :=
  (List.range count).map fun place => store.read (Address.wrap (offset + place))

end ByteStore

end PocketBasic
