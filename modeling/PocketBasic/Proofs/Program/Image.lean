/-
**A program image reads back.** The byte store is a list of bytes, and an image is written as one
piece at its beginning: the flag, the length, the checksum and the program, of which each is found
again where it is looked for.

* `ByteStore.contents_writeAll`, `ByteStore.readAll_eq`: pieces of a store;
* `ProgramImage.header`: what stands in front of the program;
* `ProgramImage.write?_eq_some`: what a store holds once an image was written;
* `ProgramImage.exists_ofStore?_of_header`: what is found behind a header;
* **`ProgramImage.exists_ofStore?`**: such a store has the image, which is sound;
* `ProgramImage.exists_damaged`, **`ProgramImage.exists_ofStore?_damaged`**: after a small damage it
  has an image that is not;
* `ProgramImage.length_ofStore?`: or an image that is cut off, if its length is too large.
-/

import Mathlib.Data.List.Basic
import Mathlib.Tactic.Common
import PocketBasic.Program.Image
import PocketBasic.Proofs.Checksum
import PocketBasic.Proofs.Program.Decoding

namespace PocketBasic

/-! ### Pieces of a store -/

namespace ByteStore

/-- The bytes of a store in order. -/
def contents (store : ByteStore) : Bytes := store.bytes.toList

variable {store : ByteStore} {before data after : Bytes}

theorem length_contents (store : ByteStore) : store.contents.length = store.size := rfl

/-- A byte of a piece. -/
theorem read_piece (cut : store.contents = before ++ data ++ after) {place : Nat}
    (inside : place < data.length) : store.read (before.length + place) = data[place] := by
  have found : store.read (before.length + place) =
      store.contents.getD (before.length + place) 0xFF := by
    simp [contents, read, Array.getD_eq_getD_getElem?, List.getD_eq_getElem?_getD]
  have behind : ¬ before.length + place < before.length := by omega
  rw [found, cut]
  simp [List.getD_eq_getElem?_getD, List.getElem?_append, inside, behind]

theorem map_read (cut : store.contents = before ++ data ++ after) :
    ((List.range data.length).map fun place => store.read (before.length + place)) = data := by
  refine List.ext_getElem (by simp) fun place placeLt _ => ?_
  rw [List.getElem_map, List.getElem_range, read_piece cut (by simpa using placeLt)]

theorem readAll_eq (cut : store.contents = before ++ data ++ after)
    (words : store.size < Address.modulus) : store.readAll before.length data.length = data := by
  have size := congrArg List.length cut
  simp only [length_contents, List.length_append] at size
  refine Eq.trans (List.map_congr_left fun place among => ?_) (map_read cut)
  rw [List.mem_range] at among
  rw [Address.wrap_of_lt (by omega)]

/-- **Writing replaces a piece of a store** by one of the same length. -/
theorem contents_writeAll (data : Bytes) :
    ∀ {store : ByteStore} {before gone after : Bytes}, store.contents = before ++ gone ++ after →
      gone.length = data.length → store.size < Address.modulus →
        (store.writeAll before.length data).contents = before ++ data ++ after := by
  induction data with
  | nil =>
    intro store before gone after cut same _
    rw [List.length_eq_zero_iff.mp same] at cut
    exact cut
  | cons byte rest ih =>
    intro store before gone after cut same words
    obtain ⟨old, older, rfl⟩ := List.exists_cons_of_length_eq_add_one same
    have size := congrArg List.length cut
    simp only [length_contents, List.length_append, List.length_cons] at size
    have stepped : (store.write before.length byte).contents =
        (before ++ [byte]) ++ older ++ after := by
      rw [write, contents, Array.toList_setIfInBounds, ← contents, cut]
      simp
    have later := ih stepped (by simpa using same) (by simpa [ByteStore.size, write] using words)
    rw [List.length_append, List.length_singleton] at later
    rw [writeAll, Address.wrap_of_lt (by omega), later]
    simp

end ByteStore

/-! ### Images -/

namespace ProgramImage

variable {store stored : ByteStore} {width : AddressWidth} {flag : UInt8} {program : Bytes}

/-- What stands in front of a program in a store. -/
def header (width : AddressWidth) (flag : UInt8) (program : Bytes) : Bytes :=
  flag :: width.encode program.length ++ littleEndian 2 (Checksum.ofBytes program).toNat

theorem length_header : (header width flag program).length = headerLength width := by
  rw [header, List.length_append, List.length_cons, AddressWidth.length_encode,
    length_littleEndian, headerLength, Nat.add_comm 1]

/-- **An image is written at the beginning of a store**, and the rest of the store stays. -/
theorem write?_eq_some (words : store.size < Address.modulus)
    (saved : write? store width flag program = some stored) :
    stored.contents = header width flag program ++ (program ++
      store.contents.drop (headerLength width + program.length)) ∧ stored.size = store.size := by
  rw [write?] at saved
  split at saved
  swap
  · cases saved
  rename_i room
  cases saved
  have front : (store.contents.take (headerLength width + program.length)).length =
      (header width flag program ++ program).length := by
    rw [List.length_take, List.length_append, length_header, ByteStore.length_contents,
      Nat.min_eq_left room]
  have written := @ByteStore.contents_writeAll (header width flag program ++ program) store [] _ _
    (List.take_append_drop (headerLength width + program.length) store.contents).symm front words
  have size := congrArg List.length written
  rw [List.nil_append, List.append_assoc] at written
  refine ⟨written, ?_⟩
  simp only [List.nil_append, List.length_append, List.length_drop, length_header,
    ByteStore.length_contents, List.length_nil] at size
  exact size.trans (by omega)

/-- The mark of an image is the first byte of the store. -/
theorem read_mark {rest : Bytes} (held : stored.contents = header width flag program ++ rest) :
    stored.read 0 = flag :=
  @ByteStore.read_piece stored [] [flag] _ held 0 Nat.one_pos

/-- The length of an image is the number behind the mark, as far as an address holds it. -/
theorem length_stored {rest : Bytes} (held : stored.contents = header width flag program ++ rest)
    (words : stored.size < Address.modulus) :
    fromLittleEndian (stored.readAll 1 width.byteCount) =
      program.length % 256 ^ width.byteCount := by
  rw [header] at held
  have length := @ByteStore.readAll_eq stored [flag] (width.encode program.length)
    (littleEndian 2 (Checksum.ofBytes program).toNat ++ rest) (by simp [held]) words
  rw [List.length_singleton, AddressWidth.length_encode] at length
  rw [length, AddressWidth.encode, fromLittleEndian_littleEndian]

theorem checksum_stored {rest : Bytes} (held : stored.contents = header width flag program ++ rest)
    (words : stored.size < Address.modulus) :
    fromLittleEndian (stored.readAll (headerLength width - 2) 2) =
      (Checksum.ofBytes program).toNat := by
  rw [header] at held
  have checksum := @ByteStore.readAll_eq stored (flag :: width.encode program.length)
    (littleEndian 2 (Checksum.ofBytes program).toNat) rest (by simp [held]) words
  have place : headerLength width - 2 = width.byteCount + 1 := by
    rw [headerLength]
    omega
  rw [List.length_cons, AddressWidth.length_encode, length_littleEndian] at checksum
  rw [place, checksum, fromLittleEndian_littleEndian]
  exact Nat.mod_eq_of_lt (Checksum.ofBytes program).toNat_lt

/-- **Behind a header any bytes are an image**, as many as the header tells, and it is the header
that gives its checksum. -/
theorem exists_ofStore?_of_header {content rest : Bytes}
    (held : stored.contents = header width flag program ++ (content ++ rest))
    (same : content.length = program.length) (words : stored.size < Address.modulus)
    (fits : program.length ≤ width.largest) (some : flag ≠ emptyFlag) :
    ∃ image, ofStore? stored width = Option.some image ∧ image.flag = flag ∧
      image.bytes = content ∧ image.checksum = (Checksum.ofBytes program).toNat := by
  have size := congrArg List.length held
  rw [ByteStore.length_contents, List.length_append, List.length_append, length_header] at size
  have read := ByteStore.map_read (held.trans (List.append_assoc _ _ _).symm)
  rw [length_header] at read
  have first := read_mark held
  have length := length_stored held words
  rw [Nat.mod_eq_of_lt (Nat.lt_of_le_of_lt fits width.largest_lt)] at length
  have present : isPresent stored width = true := by
    rw [isPresent, first]
    simp [some, show headerLength width ≤ stored.size by omega]
  refine ⟨⟨flag, ⟨program.length, fun offset =>
      if offset < program.length then stored.read (headerLength width + offset) else 0⟩,
      (Checksum.ofBytes program).toNat⟩, ?_, rfl, ?_, rfl⟩
  · rw [ofStore?, if_pos present]
    dsimp only
    rw [length, checksum_stored held words, first, if_pos (by omega)]
  · rw [bytes]
    dsimp only
    rw [← same]
    refine Eq.trans (List.map_congr_left fun place among => ?_) read
    rw [Nat.zero_add]
    exact if_pos (List.mem_range.mp among)

/-- **A store with an image has that image**, whose checksum fits its bytes, as long as its length
fits into an address. -/
theorem exists_ofStore? {rest : Bytes}
    (held : stored.contents = header width flag program ++ (program ++ rest))
    (words : stored.size < Address.modulus) (fits : program.length ≤ width.largest)
    (some : flag ≠ emptyFlag) :
    ∃ image, ofStore? stored width = Option.some image ∧ image.bytes = program ∧
      image.isSound = true := by
  obtain ⟨image, found, -, same, checksum⟩ := exists_ofStore?_of_header held rfl words fits some
  exact ⟨image, found, same, decide_eq_true (by rw [same, checksum])⟩

/-- **A small damage shows.** When one byte of a program in a store or two neighbouring ones have
changed, the store has other program bytes behind the header that it had, and their checksum is
another one. -/
theorem exists_damaged {rest data : Bytes} {place : Nat}
    (held : stored.contents = header width flag program ++ (program ++ rest))
    (words : stored.size < Address.modulus) (short : data.length ≤ 2)
    (inside : place + data.length ≤ program.length)
    (changed : stored.writeAll (headerLength width + place) data ≠ stored) :
    ∃ content : Bytes, (stored.writeAll (headerLength width + place) data).contents =
        header width flag program ++ (content ++ rest) ∧
      content.length = program.length ∧ Checksum.ofBytes content ≠ Checksum.ofBytes program := by
  obtain ⟨front, gone, back, cut, placeEq, same⟩ : ∃ front gone back : Bytes,
      program = front ++ gone ++ back ∧ place = front.length ∧ data.length = gone.length := by
    refine ⟨program.take place, (program.drop place).take data.length,
      (program.drop place).drop data.length, ?_, ?_, ?_⟩
    · rw [List.append_assoc, List.take_append_drop, List.take_append_drop]
    · rw [List.length_take, Nat.min_eq_left (by omega)]
    · rw [List.length_take, List.length_drop, Nat.min_eq_left (by omega)]
  have written := @ByteStore.contents_writeAll data stored (header width flag program ++ front)
    gone (back ++ rest) (by rw [held, cut]; simp) same.symm words
  rw [List.length_append, length_header, ← placeEq] at written
  generalize stored.writeAll (headerLength width + place) data = damaged at changed written ⊢
  have apart : data ≠ gone := by
    rintro rfl
    have back : damaged.contents = stored.contents := by
      rw [written, held, cut]
      simp
    exact changed (congrArg ByteStore.mk (Array.toList_inj.mp back))
  refine ⟨front ++ data ++ back, ?_, ?_, ?_⟩
  · rw [written]
    simp
  · rw [cut]
    simp [same]
  · rw [cut]
    exact Checksum.ofBytes_ne same short apart

/-- **An image that was damaged is not sound.** -/
theorem exists_ofStore?_damaged {rest data : Bytes} {place : Nat}
    (held : stored.contents = header width flag program ++ (program ++ rest))
    (words : stored.size < Address.modulus) (fits : program.length ≤ width.largest)
    (some : flag ≠ emptyFlag) (short : data.length ≤ 2)
    (inside : place + data.length ≤ program.length)
    (changed : stored.writeAll (headerLength width + place) data ≠ stored) :
    ∃ image, ofStore? (stored.writeAll (headerLength width + place) data) width =
      Option.some image ∧ image.isSound = false := by
  obtain ⟨content, behind, same, apart⟩ := exists_damaged held words short inside changed
  have size : (stored.writeAll (headerLength width + place) data).size = stored.size := by
    rw [← ByteStore.length_contents, ← ByteStore.length_contents, behind, held]
    simp [same]
  obtain ⟨image, found, -, bytes, checksum⟩ :=
    exists_ofStore?_of_header behind same (size ▸ words) fits some
  refine ⟨image, found, decide_eq_false fun met => apart (UInt16.toNat_inj.mp ?_)⟩
  rw [← bytes, ← checksum, met]

/-- The length of whatever image is found. -/
theorem length_ofStore? {rest : Bytes} {image : ProgramImage}
    (held : stored.contents = header width flag program ++ rest)
    (words : stored.size < Address.modulus) (found : ofStore? stored width = some image) :
    image.bytes.length = program.length % 256 ^ width.byteCount := by
  rw [ofStore?] at found
  dsimp only at found
  split at found
  · split at found
    · cases found
      rw [bytes, ProgramText.slice, List.length_map, List.length_range, length_stored held words]
    · cases found
  · cases found

end ProgramImage

end PocketBasic
