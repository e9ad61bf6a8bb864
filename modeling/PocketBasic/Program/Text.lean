/-
**Program text**: bytes with random access, wherever they are kept, and the numbers in them.

* `AddressWidth`: two bytes for an address when memory has at most `0x10000` bytes, else four;
* `littleEndian`, `fromLittleEndian`: whole numbers as bytes, lowest byte first;
* `ProgramText`: a length and a byte at every offset, zero past the end.
-/

import PocketBasic.Token.Name

namespace PocketBasic

/-- The bytes of a number, in memory and in a program. -/
def numberSize : Nat := 4

/-- The lowest `count` bytes of a whole number, lowest first. -/
def littleEndian : Nat → Nat → Bytes
  | 0, _ => []
  | count + 1, value => (value % 256).toUInt8 :: littleEndian count (value / 256)

/-- The whole number with the given bytes, lowest first. -/
def fromLittleEndian : Bytes → Nat
  | [] => 0
  | byte :: rest => byte.toNat + 256 * fromLittleEndian rest

/-! ### Addresses -/

/-- How many bytes an address takes; line numbers, lengths and dimensions are stored as
addresses. -/
inductive AddressWidth where
  | two
  | four
  deriving DecidableEq, Inhabited

namespace AddressWidth

/-- The width that suits a memory size. -/
def forSize (size : Nat) : AddressWidth := if size ≤ 0x10000 then two else four

def byteCount : AddressWidth → Nat
  | two => 2
  | four => 4

/-- The largest address. -/
def largest : AddressWidth → Nat
  | two => 0xFFFF
  | four => 0xFFFFFFFF

/-- The bytes of an address; what does not fit is cut off. -/
def encode (width : AddressWidth) (address : Nat) : Bytes := littleEndian width.byteCount address

end AddressWidth

/-! ### Random access -/

/-- Encoded program bytes, wherever they are. -/
structure ProgramText where
  length : Nat
  /-- The byte at an offset, zero from `length` on. -/
  byteAt : Nat → UInt8

namespace ProgramText

def ofBytes (bytes : Bytes) : ProgramText := { length := bytes.length, byteAt := (bytes.getD · 0) }

/-- The bytes of a range. -/
def slice (text : ProgramText) (start count : Nat) : Bytes :=
  (List.range count).map fun offset => text.byteAt (start + offset)

/-- The address at an offset. -/
def addressAt (text : ProgramText) (width : AddressWidth) (offset : Nat) : Nat :=
  fromLittleEndian (text.slice offset width.byteCount)

/-- The number at an offset. -/
def numberAt (text : ProgramText) (offset : Nat) : Single :=
  Single.ofBytes (text.byteAt offset) (text.byteAt (offset + 1)) (text.byteAt (offset + 2))
    (text.byteAt (offset + 3))

/-- The name at an offset. -/
def nameAt (text : ProgramText) (offset : Nat) : Name :=
  ⟨text.byteAt offset, text.byteAt (offset + 1)⟩

end ProgramText

end PocketBasic
