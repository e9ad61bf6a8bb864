/-
**An element of a string** is a byte for its length and the room for its text. Whatever else memory
holds, reading a part gives that part of the text, and assigning to a part writes that part of the
room and the length, if both stay in the room.

* `Memory.exists_cut_of_read?`, `Memory.read?_piece`, `Memory.read?_holding_apart`: pieces of memory
  by their addresses;
* `Machine.ShowsSlot`: whether an element is at a place;
* **`Machine.runOn_readSlot`**: what is read;
* **`Machine.runOn_writeSlot`**, `Machine.runOn_writeSlot_long`: what is written.
-/

import PocketBasic.Proofs.Machine.Evaluating
import PocketBasic.Proofs.Memory.Bytes

namespace PocketBasic

/-! ### Pieces of memory -/

namespace Memory

variable {memory : Memory} {start count : Nat} {data : Bytes}

/-- What is read is a piece of memory. -/
theorem exists_cut_of_read? (read : memory.read? start count = some data) :
    ∃ before after, memory.contents = before ++ data ++ after ∧ before.length = start ∧
      data.length = count := by
  have known := read
  rw [read?] at known
  split at known
  swap
  · cases known
  rename_i inside
  have total := length_contents memory
  have front : (memory.contents.take start).length = start := by
    rw [List.length_take]
    omega
  have middle : ((memory.contents.drop start).take count).length = count := by
    rw [List.length_take, List.length_drop]
    omega
  have cut : memory.contents = memory.contents.take start ++
      (memory.contents.drop start).take count ++ (memory.contents.drop start).drop count := by
    rw [List.append_assoc, List.take_append_drop, List.take_append_drop]
  have same := read?_eq cut
  rw [front, middle, read] at same
  cases same
  exact ⟨_, _, cut, front, middle⟩

/-- A part of what is read. -/
theorem read?_piece (read : memory.read? start count = some data) {offset size : Nat}
    (within : offset + size ≤ count) :
    memory.read? (start + offset) size = some ((data.drop offset).take size) := by
  obtain ⟨before, after, cut, rfl, rfl⟩ := exists_cut_of_read? read
  have pieces : memory.contents = (before ++ data.take offset) ++ (data.drop offset).take size ++
      ((data.drop offset).drop size ++ after) := by
    rw [cut]
    conv_lhs => rw [← List.take_append_drop offset data, ← List.take_append_drop size
      (data.drop offset)]
    simp only [List.append_assoc]
  have there := read?_eq pieces
  rwa [List.length_append, List.length_take, List.length_take, List.length_drop,
    Nat.min_eq_left (by omega), Nat.min_eq_left (by omega)] at there

/-- A range beside a piece reads as before when the piece was replaced by one of its length. -/
theorem read?_holding_apart {before gone after : Bytes}
    (cut : memory.contents = before ++ gone ++ after) (same : gone.length = data.length)
    (apart : start + count ≤ before.length ∨ before.length + data.length ≤ start) :
    (memory.holding (before ++ data ++ after)).read? start count = memory.read? start count := by
  have size : (before ++ data ++ after).length = memory.size := by
    rw [← length_contents, cut]
    simp [same]
  rw [read?, read?, size_holding, size]
  refine if_congr Iff.rfl (congrArg some (List.map_congr_left fun offset among => ?_)) rfl
  have inside := List.mem_range.mp among
  rw [getD_bytes, getD_bytes, contents_holding, cut]
  simp only [List.getD_eq_getElem?_getD, List.append_assoc]
  rcases apart with front | back
  · rw [List.getElem?_append_left (by omega), List.getElem?_append_left (by omega)]
  · rw [List.getElem?_append_right (by omega), List.getElem?_append_right (by omega),
      List.getElem?_append_right (by omega), List.getElem?_append_right (by omega), same]

end Memory

/-! ### Parts of a text -/

/-- The part of a text that a selector names. -/
def Selector.part (selector : Selector) (text : Bytes) : Except Failure Bytes := do
  let lower ← match selector.lower with
    | some bound =>
      if Single.one.atMost bound then pure (min (bound.toSize - 1) text.length)
      else throw (.reported { kind := .subscriptOutOfRange })
    | none => pure 0
  let upper := match selector.upper with
    | some bound => max (min bound.toSize text.length) lower
    | none => text.length
  return (text.drop lower).take (upper - lower)

namespace Machine

/-- The room of an element once a part of it was assigned. -/
def Splice.filled (part : Splice) (room source : Bytes) : Bytes :=
  room.take part.start ++ source.take part.count ++ room.drop (part.start + part.count)

theorem Splice.length_filled {part : Splice} {room source : Bytes}
    (taken : part.count ≤ source.length) (fits : part.start + part.count ≤ room.length) :
    (part.filled room source).length = room.length := by
  simp only [filled, List.length_append, List.length_take, List.length_drop]
  omega

/-- Whether an element is at a place: its length, and as much room as it has. -/
def ShowsSlot (machine : Machine) (slot : StringSlot) (length : UInt8) (room : Bytes) : Prop :=
  machine.memory.read? slot.address (slot.capacity + 1) = some (length :: room)

variable {machine : Machine} {slot : StringSlot} {length : UInt8} {room source : Bytes}
  {selector : Selector} {part : Splice}

theorem runOn_byteAt {address : Nat} {byte : UInt8}
    (there : machine.memory.read? address 1 = some [byte]) :
    (byteAt address).runOn machine = (.ok byte, machine) := by
  rw [Memory.read?] at there
  split at there
  · rename_i inside
    have bound : address < machine.memory.bytes.size := inside
    rw [byteAt, Attempt.runOn_get_bind, Memory.peek?, Array.getElem?_eq_getElem bound,
      Attempt.runOn_orFault_some]
    simpa [bound] using there
  · cases there

theorem ShowsSlot.length_room (shows : machine.ShowsSlot slot length room) :
    room.length = slot.capacity := by
  obtain ⟨-, -, -, -, long⟩ := Memory.exists_cut_of_read? shows
  exact Nat.succ.inj long

/-- The text of an element is as much of its room as its length says. -/
theorem runOn_slotLength (shows : machine.ShowsSlot slot length room) :
    (slotLength slot).runOn machine = (.ok (room.take length.toNat).length, machine) := by
  have first : machine.memory.read? slot.address 1 = some [length] :=
    @Memory.read?_piece _ _ _ _ shows 0 1 (by omega)
  rw [slotLength, Attempt.runOn_bind_ok (runOn_byteAt first), List.length_take, shows.length_room]
  rfl

/-- **An element reads as the part of its text.** -/
theorem runOn_readSlot (shows : machine.ShowsSlot slot length room) (selector : Selector) :
    (readSlot slot selector).runOn machine =
      (selector.part (room.take length.toNat), machine) := by
  have read {offset size : Nat} (within : offset + size ≤ (room.take length.toNat).length) :
      machine.memory.read? (slot.address + 1 + offset) size =
        some (((room.take length.toNat).drop offset).take size) := by
    have long := shows.length_room
    rw [List.length_take] at within
    rw [Nat.add_assoc, Memory.read?_piece shows (by omega), Nat.add_comm 1, List.drop_succ_cons,
      List.drop_take, List.take_take, Nat.min_eq_left (by omega)]
  rw [readSlot, Attempt.runOn_bind_ok (runOn_slotLength shows), Selector.part]
  generalize room.take length.toNat = text at read ⊢
  have finish (lower upper : Nat) (lowerIn : lower ≤ text.length) (upperIn : upper ≤ text.length) :
      (do Attempt.orFault ((← get).memory.read? (slot.address + 1 + lower) (upper - lower)) :
          Action Bytes).runOn machine =
        (.ok ((text.drop lower).take (upper - lower)), machine) := by
    rw [Attempt.runOn_get_bind, read (by omega), Attempt.runOn_orFault_some]
  have ends (lower : Nat) (lowerIn : lower ≤ text.length) : (match selector.upper with
      | some bound => max (min bound.toSize text.length) lower
      | none => text.length) ≤ text.length := by
    split <;> omega
  rcases selector.lower with _ | bound
  · exact finish 0 _ (Nat.zero_le _) (ends 0 (Nat.zero_le _))
  · dsimp only
    split
    · have lowerIn : min (bound.toSize - 1) text.length ≤ text.length := Nat.min_le_right _ _
      exact finish _ _ lowerIn (ends _ lowerIn)
    · rfl

/-- What does not stay in the room is refused before anything is written. -/
theorem runOn_writeSlot_long (shows : machine.ShowsSlot slot length room)
    (ran : (splice selector (room.take length.toNat).length source.length).runOn machine =
      (.ok part, machine)) (long : slot.capacity < part.start + part.count) :
    (writeSlot slot selector source).runOn machine =
      (.error (.reported { kind := .stringTooLong }), machine) := by
  rw [writeSlot, Attempt.runOn_bind_ok (runOn_slotLength shows), Attempt.runOn_bind_ok ran,
    if_pos long, Attempt.runOn_fail]

/-- **Assigning to a part of an element** writes into its room, and its length. -/
theorem runOn_writeSlot {before after : Bytes}
    (cut : machine.memory.contents = before ++ (length :: room) ++ after)
    (start : before.length = slot.address) (long : room.length = slot.capacity)
    (ran : (splice selector (room.take length.toNat).length source.length).runOn machine =
      (.ok part, machine)) (taken : part.count ≤ source.length)
    (fits : part.start + part.count ≤ slot.capacity) :
    (writeSlot slot selector source).runOn machine =
      (.ok (), { machine with
        memory := machine.memory.holding
          (before ++ (part.length.toUInt8 :: part.filled room source) ++ after) }) := by
  have shows : machine.ShowsSlot slot length room := by
    have there := Memory.read?_eq cut
    rwa [start, List.length_cons, long] at there
  have size : (source.take part.count).length = part.count := by
    rw [List.length_take, Nat.min_eq_left taken]
  have front : (before ++ length :: room.take part.start).length =
      slot.address + 1 + part.start := by
    rw [List.length_append, List.length_cons, List.length_take]
    omega
  have inner : machine.memory.contents = (before ++ length :: room.take part.start) ++
      (room.drop part.start).take part.count ++ (room.drop (part.start + part.count) ++ after) := by
    rw [cut]
    conv_lhs => rw [← List.take_append_drop part.start room, ← List.take_append_drop part.count
      (room.drop part.start)]
    simp only [List.append_assoc, List.cons_append, List.drop_drop]
  have wrote := Memory.runOn_write inner (show _ = (source.take part.count).length by
    rw [size, List.length_take, List.length_drop]
    omega)
  rw [front] at wrote
  have outer : (machine.memory.holding ((before ++ length :: room.take part.start) ++
      source.take part.count ++ (room.drop (part.start + part.count) ++ after))).contents =
        before ++ [length] ++ (part.filled room source ++ after) := by
    rw [Memory.contents_holding, Splice.filled]
    simp
  have measured := Memory.runOn_write outer (show _ = [part.length.toUInt8].length from rfl)
  rw [start, Memory.holding_holding] at measured
  rw [writeSlot, Attempt.runOn_bind_ok (runOn_slotLength shows), Attempt.runOn_bind_ok ran,
    if_neg (Nat.not_lt.mpr fits), Attempt.runOn_bind_eq_goOn, runOn_onMemory, wrote,
    Attempt.goOn_ok, runOn_onMemory, measured]
  simp

end Machine

end PocketBasic
