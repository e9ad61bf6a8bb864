/-
**The program image in the byte store.** The store begins with a header: a flag byte, the length of
the program as an address, and the checksum of its bytes; the bytes follow, encoded as in memory.

* `ProgramImage.ofStore?`: the image in a store, if it holds one;
* `ProgramImage.isSound`: whether the checksum fits the bytes;
* `ProgramImage.write?`: a store with a new image, if there is room.
-/

import PocketBasic.Checksum
import PocketBasic.Host.Store
import PocketBasic.Program.Encoding

namespace PocketBasic

/-- A program image: its flag, its program bytes and its checksum. -/
structure ProgramImage where
  flag : UInt8
  text : ProgramText
  checksum : Nat

namespace ProgramImage

/-- The flag of a program. -/
def plainFlag : UInt8 := 0

/-- The flag of a program that starts at power on. -/
def autorunFlag : UInt8 := 1

/-- The flag of a store without a program, as after erasing. -/
def emptyFlag : UInt8 := 0xFF

/-- The flag, the length and the two bytes of the checksum. -/
def headerLength (width : AddressWidth) : Nat := 1 + width.byteCount + 2

/-- Whether a store is large enough for a header and is not marked empty. -/
def isPresent (store : ByteStore) (width : AddressWidth) : Bool :=
  headerLength width ≤ store.size && store.read 0 ≠ emptyFlag

/-- The image in a store. -/
def ofStore? (store : ByteStore) (width : AddressWidth) : Option ProgramImage :=
  if isPresent store width then
    let base := headerLength width
    let length := fromLittleEndian (store.readAll 1 width.byteCount)
    if base + length ≤ store.size then
      some
        { flag := store.read 0
          text :=
            { length
              byteAt := fun offset => if offset < length then store.read (base + offset) else 0 }
          checksum := fromLittleEndian (store.readAll (base - 2) 2) }
    else none
  else none

/-- The program bytes of an image. -/
def bytes (image : ProgramImage) : Bytes := image.text.slice 0 image.text.length

/-- Whether the checksum fits the program bytes. -/
def isSound (image : ProgramImage) : Bool :=
  (Checksum.ofBytes image.bytes).toNat = image.checksum

/-- Whether a store holds a sound program that starts at power on. -/
def startsAtPowerOn (store : ByteStore) (width : AddressWidth) : Bool :=
  match ofStore? store width with
  | some image => image.flag = autorunFlag && image.isSound
  | none => false

/-- A store with the image of a program, if there is room for it. -/
def write? (store : ByteStore) (width : AddressWidth) (flag : UInt8) (program : Bytes) :
    Option ByteStore :=
  if headerLength width + program.length ≤ store.size then
    let header := flag :: width.encode program.length ++
      littleEndian 2 (Checksum.ofBytes program).toNat
    some (store.writeAll 0 (header ++ program))
  else none

end ProgramImage

end PocketBasic
