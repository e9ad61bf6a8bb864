/-
**Files** by name, in the order of the bytes of their names. At most one is open for reading and one
for writing; a reader has its own copy of what the file held when it was opened.
-/

import PocketBasic.Text.Bytes

namespace PocketBasic

/-- An entry of a catalog. -/
structure CatalogEntry where
  name : Bytes
  size : Nat
  isRegular : Bool
  deriving DecidableEq, Inhabited

structure Files where
  contents : List (Bytes × Array UInt8) := []
  directories : List Bytes := []
  /-- Whether no file can be opened for writing. -/
  deniesWriting : Bool := false
  /-- Whether the files cannot be erased together. -/
  deniesFormat : Bool := false
  /-- How many more bytes can be written to all files, when that is limited. -/
  room : Option Nat := none
  /-- What is left to read. -/
  reader : Option Bytes := none
  /-- The name that is written to. -/
  writer : Option Bytes := none
  deriving DecidableEq, Inhabited

namespace Files

def content? (files : Files) (name : Bytes) : Option (Array UInt8) := files.contents.lookup name

/-- Whether a name comes before another. -/
def precedes : Bytes → Bytes → Bool
  | _, [] => false
  | [], _ :: _ => true
  | first :: rest, other :: others => first < other || (first = other && precedes rest others)

/-- Puts a file in its place, instead of one with the same name. -/
def insert (name : Bytes) (content : Array UInt8) :
    List (Bytes × Array UInt8) → List (Bytes × Array UInt8)
  | [] => [(name, content)]
  | (other, old) :: rest =>
    if other = name then (name, content) :: rest
    else if precedes name other then (name, content) :: (other, old) :: rest
    else (other, old) :: insert name content rest

/-- Creates or replaces a file. -/
def put (files : Files) (name : Bytes) (content : Array UInt8) : Files :=
  { files with contents := insert name content files.contents }

/-! ### Reading -/

/-- Opens a file for reading, if it exists. -/
def openRead (files : Files) (name : Bytes) : Bool × Files :=
  match files.content? name with
  | some content => (true, { files with reader := some content.toList })
  | none => (false, files)

def closeRead (files : Files) : Files := { files with reader := none }

/-- The next byte of the file that is read. -/
def readByte (files : Files) : Option UInt8 × Files :=
  match files.reader with
  | some (byte :: rest) => (some byte, { files with reader := some rest })
  | _ => (none, files)

def available (files : Files) : Nat :=
  match files.reader with
  | some rest => rest.length
  | none => 0

/-! ### Writing -/

/-- Opens a file for writing, at its end or from the start. It is made if it does not exist. -/
def openWrite (files : Files) (name : Bytes) (append : Bool) : Bool × Files :=
  if files.deniesWriting then (false, files)
  else
    let content := if append then (files.content? name).getD #[] else #[]
    (true, { files.put name content with writer := some name })

def closeWrite (files : Files) : Files := { files with writer := none }

/-- Appends a byte to the file with a name, if there is one. -/
def append (name : Bytes) (byte : UInt8) (contents : List (Bytes × Array UInt8)) :
    List (Bytes × Array UInt8) :=
  contents.map fun (other, content) =>
    if other = name then (other, content.push byte) else (other, content)

/-- Writes a byte to the file that is written; false when none is, or when there is no room. A file
that was deleted in the meantime swallows it. -/
def writeByte (files : Files) (byte : UInt8) : Bool × Files :=
  match files.writer with
  | none => (false, files)
  | some name =>
    match files.room with
    | some 0 => (false, files)
    | some (room + 1) =>
      (true, { files with contents := append name byte files.contents, room := some room })
    | none => (true, { files with contents := append name byte files.contents })

/-- Writes bytes one by one; false when one of them could not be written. -/
def writeAll (files : Files) : Bytes → Bool × Files
  | [] => (true, files)
  | byte :: rest =>
    let (written, files) := files.writeByte byte
    let (allWritten, files) := files.writeAll rest
    (written && allWritten, files)

/-! ### Directory -/

/-- The directories, then the files. -/
def catalog (files : Files) : List CatalogEntry :=
  (files.directories.map fun name => { name, size := 0, isRegular := false }) ++
    files.contents.map fun (name, content) => { name, size := content.size, isRegular := true }

/-- Deletes a file; false when there is none. -/
def delete (files : Files) (name : Bytes) : Bool × Files :=
  ((files.content? name).isSome,
    { files with contents := files.contents.filter fun (other, _) => other ≠ name })

/-- Erases all files, unless that is denied. -/
def format (files : Files) : Bool × Files :=
  if files.deniesFormat then (false, files) else (true, { files with contents := [] })

end Files

end PocketBasic
