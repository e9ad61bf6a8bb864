/-
**Parts of texts are exact.** Bounds count bytes from one. An assignment from a bound on puts the
source in the place of all that follows; one between two bounds overwrites as many bytes as the
source has between them, and what is behind stays. Whether either fits is a matter of the bounds,
the text and the room of its element, and one that does not fit leaves the text as it was.

* `Single.toSize_eq`: bounds as whole parts;
* `Machine.runOn_splice_from`, `Machine.runOn_splice_between`: what two bounds select;
* `Machine.Splice.take_filled`: the text that is left in the room;
* `Machine.HasElement`: whether an element is in memory, as it is in an intact heap;
* **`Machine.substring_assignment_is_exact`**: assigning and reading, by variable.
-/

import PocketBasic.Proofs.Machine.Variables
import PocketBasic.Proofs.Memory.AnyBytes

namespace PocketBasic

/-! ### Bounds -/

namespace Single

/-- A finite number as a size is its whole part, as far as sizes go. -/
theorem toSize_eq {x : Single} (finite : x.isFinite = true) :
    x.toSize = min sizeLimit x.wholePart.toNat := by
  have small : x.magnitude < infinityMagnitude := of_decide_eq_true finite
  have cases (limit whole : Nat) (negative : Bool) :
      (if negative = true then 0 else min limit whole) =
        min limit (if negative = true then -(whole : Int) else whole).toNat := by
    cases negative
    · rfl
    · simp
  rw [toSize, clampToNat, isNaN_of_finite small, isInfinite_of_finite small, Bool.false_or,
    if_neg Bool.false_ne_true, cases, wholePart]

theorem isNaN_of_isFinite {x : Single} (finite : x.isFinite = true) : x.isNaN = false :=
  isNaN_of_finite (of_decide_eq_true finite)

/-- Numbers other than NaN are ordered one way or the other. -/
theorem less_eq_not_atMost {x y : Single} (number : x.isNaN = false) (number' : y.isNaN = false) :
    x.less y = !y.atMost x := by
  simp only [less, atMost, number, number', Bool.not_false, Bool.true_and]
  by_cases ordered : x.rank < y.rank
  · simp [ordered]
  · simp [ordered, Int.not_lt.mp ordered]

end Single

namespace Machine

variable {machine : Machine} {lower upper : Single} {index : Option Single} {length size : Nat}

/-- Whether a first bound is in a text or just behind it. -/
def StartsIn (lower : Single) (length : Nat) : Prop :=
  Single.one.atMost lower = true ∧ lower.wholePart ≤ length + 1

instance (lower : Single) (length : Nat) : Decidable (StartsIn lower length) :=
  inferInstanceAs (Decidable (_ ∧ _))

/-- A first bound is refused unless it is in the text or just behind it. -/
theorem lower_refused (finite : lower.isFinite = true) (short : length ≤ 255) :
    (!Single.one.atMost lower || decide (length + 1 < lower.toSize)) = true ↔
      ¬ StartsIn lower length := by
  have whole := Single.toSize_eq finite
  unfold Single.sizeLimit at whole
  unfold StartsIn
  cases counts : Single.one.atMost lower with
  | false => simp
  | true =>
    simp only [Bool.not_true, Bool.false_or, decide_eq_true_eq, true_and]
    omega

/-- The place of a first bound that is not refused. -/
theorem StartsIn.start (starts : StartsIn lower length) (finite : lower.isFinite = true)
    (short : length ≤ 255) :
    ∃ start : Nat, lower.wholePart = start + 1 ∧ lower.toSize = start + 1 ∧ start ≤ length := by
  obtain ⟨counts, inside⟩ := starts
  have whole := Single.toSize_eq finite
  have one := Single.one_le_toSize counts
  unfold Single.sizeLimit at whole
  exact ⟨lower.toSize - 1, by omega, by omega, by omega⟩

theorem runOn_splice_refused (finite : lower.isFinite = true) (short : length ≤ 255)
    (refused : ¬ StartsIn lower length) (upper : Option Single) :
    (splice { lower := some lower, upper, index } length size).runOn machine =
      (.error (.reported { kind := .subscriptOutOfRange }), machine) := by
  rw [splice]
  dsimp only
  rw [if_pos ((lower_refused finite short).mpr refused), Attempt.runOn_fail]

/-- What a first bound alone selects. -/
theorem runOn_splice_from (finite : lower.isFinite = true) (short : length ≤ 255)
    (starts : StartsIn lower length) :
    let start := (lower.wholePart - 1).toNat
    (splice { lower := some lower, index } length size).runOn machine =
      (.ok { start, count := size, length := start + size }, machine) := by
  obtain ⟨start, whole, sized, -⟩ := starts.start finite short
  have place : (lower.wholePart - 1).toNat = start := by omega
  intro start
  rw [splice]
  dsimp only
  rw [if_neg (mt (lower_refused finite short).mp (not_not_intro starts)), Attempt.runOn_pure, sized,
    Nat.add_sub_cancel, ← place]

/-- Bounds that are out of order are refused. -/
theorem runOn_splice_disordered (finite : lower.isFinite = true) (finite' : upper.isFinite = true)
    (short : length ≤ 255) (starts : StartsIn lower length)
    (disordered : ¬ lower.atMost upper = true) :
    (splice { lower := some lower, upper := some upper, index } length size).runOn machine =
      (.error (.reported { kind := .subscriptOutOfRange }), machine) := by
  have less : upper.less lower = true := by
    rw [Single.less_eq_not_atMost (Single.isNaN_of_isFinite finite')
      (Single.isNaN_of_isFinite finite)]
    simpa using disordered
  rw [splice]
  dsimp only
  rw [if_neg (mt (lower_refused finite short).mp (not_not_intro starts)), if_pos less,
    Attempt.runOn_fail]

/-- What two bounds select. As many bytes are taken as there are between them, or more than any
element has room for. -/
theorem runOn_splice_between (finite : lower.isFinite = true) (finite' : upper.isFinite = true)
    (short : length ≤ 255) (starts : StartsIn lower length)
    (ordered : lower.atMost upper = true) :
    let start := (lower.wholePart - 1).toNat
    let count := min size (upper.wholePart - lower.wholePart + 1).toNat
    ∃ taken ≤ size, (taken = count ∨ 255 < taken ∧ 255 < count) ∧
      (splice { lower := some lower, upper := some upper, index } length size).runOn machine =
        (.ok { start, count := taken, length := max length (start + taken) }, machine) := by
  obtain ⟨start, whole, sized, inside⟩ := starts.start finite short
  have place : (lower.wholePart - 1).toNat = start := by omega
  have mono := Single.toSize_mono ordered
  have upperSized := Single.toSize_eq finite'
  have words : upper.toSize < Address.modulus :=
    Nat.lt_of_le_of_lt upper.toSize_le_sizeLimit (by decide)
  unfold Single.sizeLimit at upperSized
  have notLess : ¬ upper.less lower = true := by
    rw [Single.less_eq_not_atMost (Single.isNaN_of_isFinite finite')
      (Single.isNaN_of_isFinite finite), ordered]
    decide
  intro start count
  refine ⟨min size (upper.toSize - start), Nat.min_le_left _ _, by omega, ?_⟩
  rw [splice]
  dsimp only
  rw [if_neg (mt (lower_refused finite short).mp (not_not_intro starts)), if_neg notLess,
    Attempt.runOn_pure, sized, Nat.add_sub_cancel, ← place,
    Address.minus_of_le (by omega) words]

/-! ### Texts in a room -/

namespace Splice

variable {room source : Bytes} {start count : Nat}

/-- The text ends behind a source that takes the place of all that follows. -/
theorem take_filled_from (inside : start ≤ room.length) :
    (Splice.filled ⟨start, source.length, start + source.length⟩ room source).take
      (start + source.length) = room.take start ++ source := by
  rw [filled, List.take_length]
  refine List.take_left' ?_
  rw [List.length_append, List.length_take, Nat.min_eq_left inside]

/-- The text behind a part that is overwritten stays. -/
theorem take_filled_between (inside : start ≤ length) (within : length ≤ room.length)
    (taken : count ≤ source.length) :
    (Splice.filled ⟨start, count, max length (start + count)⟩ room source).take
        (max length (start + count)) =
      (room.take length).take start ++ source.take count ++
        (room.take length).drop (start + count) := by
  have front : (room.take start ++ source.take count).length = start + count := by
    simp only [List.length_append, List.length_take]
    omega
  have ends : max length (start + count) = start + count + (length - (start + count)) := by omega
  change (room.take start ++ source.take count ++ room.drop (start + count)).take _ = _
  rw [ends, List.take_append, front, List.take_of_length_le (by omega),
    Nat.add_sub_cancel_left, List.take_take, Nat.min_eq_left inside, List.drop_take]

end Splice

/-! ### Elements -/

variable {name : Name} {payload : Extent} {slot : StringSlot} {count : Nat}

theorem runOn_existingSlot (recent : machine.memory.recent = some (.string, name, payload))
    (slotted : (slotOf payload index).runOn machine = (.ok slot, machine)) :
    (existingSlot name index).runOn machine = (.ok (some slot), machine) := by
  have looked : (lookup .string name).runOn machine = (.ok (some payload), machine) := by
    rw [runOn_lookup, foundIn, Memory.find_of_recent recent]
  rw [existingSlot, Attempt.runOn_bind_ok looked]
  exact Attempt.runOn_bind_ok slotted _

/-- An element that is found is found among elements. -/
theorem exists_count_of_slotOf (slotted : ((slotOf payload index).runOn machine).1 = .ok slot) :
    ∃ count, machine.memory.addressAt?
      (payload.start + payload.length - machine.memory.width.byteCount) = some count ∧
        count ≠ 0 := by
  rw [slotOf, Attempt.runOn_bind_ok (runOn_addressSize machine), Attempt.runOn_bind_eq_goOn,
    addressAt, Attempt.runOn_get_bind] at slotted
  cases counted : machine.memory.addressAt?
      (payload.start + payload.length - machine.memory.width.byteCount) with
  | none =>
    rw [counted] at slotted
    cases slotted
  | some count =>
    refine ⟨count, rfl, ?_⟩
    rintro rfl
    rw [counted] at slotted
    cases slotted

/-- An element is in front of the number of elements. -/
theorem slot_bounds (long : machine.memory.width.byteCount ≤ payload.length)
    (words : payload.start + payload.length < Address.modulus) (short : slot.capacity ≤ 255)
    (slotted : ((slotOf payload index).runOn machine).1 = .ok slot) :
    slot.address + slot.capacity + 1 ≤
      payload.start + payload.length - machine.memory.width.byteCount := by
  obtain ⟨count, counted, some⟩ := exists_count_of_slotOf slotted
  rw [runOn_slotOf_eq counted some, Address.minus_of_le long (by omega)] at slotted
  rcases placed : placeOrFirst machine.config count index with failure | place <;>
    rw [placed] at slotted
  · cases slotted
  have inside := placeOrFirst_lt (Nat.pos_of_ne_zero some) placed
  generalize rooms : (payload.length - machine.memory.width.byteCount) / count = room at slotted
  have last : place * room + room ≤ count * room := by
    rw [← Nat.succ_mul]
    exact Nat.mul_le_mul_right room inside
  have all : count * room ≤ payload.length - machine.memory.width.byteCount := by
    rw [← rooms]
    exact Nat.mul_div_le _ _
  have positive : room ≠ 0 := by
    rintro rfl
    have large : ¬ Address.minus 0 1 ≤ 255 := by decide
    cases slotted
    exact large short
  have one : 1 ≤ room := Nat.pos_of_ne_zero positive
  cases slotted
  dsimp only
  rw [Address.wrap_of_lt (by omega), Address.minus_of_le one (by omega)]
  omega

/-- Where an element is does not depend on what is in front of the number of elements. -/
theorem slotOf_holding {before gone data after : Bytes}
    (slotted : (slotOf payload index).runOn machine = (.ok slot, machine))
    (cut : machine.memory.contents = before ++ gone ++ after) (same : gone.length = data.length)
    (front : before.length + data.length ≤
      payload.start + payload.length - machine.memory.width.byteCount) :
    let changed := { machine with memory := machine.memory.holding (before ++ data ++ after) }
    (slotOf payload index).runOn changed = (.ok slot, changed) := by
  intro changed
  obtain ⟨count, counted, some⟩ := exists_count_of_slotOf (congrArg Prod.fst slotted)
  have width : changed.memory.width = machine.memory.width := by
    refine Memory.width_holding ?_
    rw [← Memory.length_contents, cut]
    simp [same]
  have counted' : changed.memory.addressAt?
      (payload.start + payload.length - changed.memory.width.byteCount) = Option.some count := by
    rw [Memory.addressAt?, width, Memory.read?_holding_apart cut same (.inr front)]
    exact counted
  have known := runOn_slotOf_eq counted some index
  rw [slotted] at known
  rw [runOn_slotOf_eq counted' some index, width]
  exact Prod.ext (congrArg Prod.fst known).symm rfl

/-- A machine that has just found an element, with its length and its room. -/
def ShowsElement (machine : Machine) (name : Name) (index : Option Single) (slot : StringSlot)
    (length : UInt8) (room : Bytes) : Prop :=
  ∃ payload before after, machine.memory.recent = some (.string, name, payload) ∧
    (slotOf payload index).runOn machine = (.ok slot, machine) ∧
    machine.memory.contents = before ++ (length :: room) ++ after ∧
    before.length = slot.address ∧ room.length = slot.capacity ∧
    slot.address + slot.capacity + 1 ≤
      payload.start + payload.length - machine.memory.width.byteCount

namespace ShowsElement

variable {first : UInt8} {room source : Bytes} {part : Splice}

theorem shows (shown : machine.ShowsElement name index slot first room) :
    machine.ShowsSlot slot first room := by
  obtain ⟨payload, before, after, -, -, cut, start, long, -⟩ := shown
  have there := Memory.read?_eq cut
  rwa [start, List.length_cons, long] at there

theorem runOn_readString (shown : machine.ShowsElement name index slot first room)
    (ordinary : name.isSpecial = false) (selector : Selector) (same : selector.index = index) :
    (readString name selector).runOn machine =
      (selector.part (room.take first.toNat), machine) := by
  have shows := shown.shows
  obtain ⟨payload, before, after, recent, slotted, -⟩ := shown
  rw [readString, ordinary, if_neg Bool.false_ne_true, same,
    Attempt.runOn_bind_ok (runOn_existingSlot recent slotted)]
  exact runOn_readSlot shows selector

theorem runOn_writeString (shown : machine.ShowsElement name index slot first room)
    (ordinary : name.isSpecial = false) {selector : Selector} (same : selector.index = index) :
    (writeString name selector source).runOn machine =
      (writeSlot slot selector source).runOn machine := by
  obtain ⟨payload, before, after, recent, slotted, -⟩ := shown
  have looked : (lookup .string name).runOn machine = (.ok (some payload), machine) := by
    rw [runOn_lookup, foundIn, Memory.find_of_recent recent]
  have slot : (assignableSlot name index).runOn machine = (.ok slot, machine) := by
    rw [assignableSlot, Attempt.runOn_bind_ok looked]
    exact slotted
  rw [writeString, ordinary, if_neg Bool.false_ne_true, same, Attempt.runOn_bind_ok slot]

/-- What was assigned to a part is in the room of the same element. -/
theorem written (shown : machine.ShowsElement name index slot first room) {selector : Selector}
    (ran : (splice selector (room.take first.toNat).length source.length).runOn machine =
      (.ok part, machine)) (taken : part.count ≤ source.length)
    (fits : part.start + part.count ≤ slot.capacity) :
    ∃ after, (writeSlot slot selector source).runOn machine = (.ok (), after) ∧
      after.ShowsElement name index slot part.length.toUInt8 (part.filled room source) := by
  obtain ⟨payload, before, after, recent, slotted, cut, start, long, front⟩ := shown
  have filled : (part.filled room source).length = room.length :=
    part.length_filled taken (by omega)
  have same : (first :: room).length = (part.length.toUInt8 :: part.filled room source).length := by
    rw [List.length_cons, List.length_cons, filled]
  refine ⟨_, runOn_writeSlot cut start long ran taken fits, payload, before, after, recent, ?_,
    Memory.contents_holding _ _, start, filled.trans long, ?_⟩
  · exact slotOf_holding slotted cut same (by rw [← same, List.length_cons]; omega)
  · dsimp only
    rw [Memory.width_holding]
    · exact front
    · rw [← Memory.length_contents, cut, List.length_append, List.length_append, ← same,
        List.length_append, List.length_append]

end ShowsElement

/-- Whether the element of a string that an index names is in memory: the payload of the string is,
which ends with the number of its elements, and there is room for a text that a byte can measure. -/
structure HasElement (machine : Machine) (name : Name) (index : Option Single)
    (slot : StringSlot) : Prop where
  ordinary : name.isSpecial = false
  found : ((existingSlot name index).runOn machine).1 = .ok (some slot)
  inside : ∀ payload, (machine.memory.find .string name).1 = some payload →
    machine.memory.width.byteCount ≤ payload.length ∧
      payload.start + payload.length ≤ machine.memory.size
  words : machine.memory.size < Address.modulus
  short : slot.capacity ≤ 255

/-- A string that was found once is found again. -/
theorem lookup_again (found : (machine.memory.find .string name).1 = some payload) :
    (lookup .string name).runOn machine =
      (lookup .string name).runOn (machine.foundIn .string name) := by
  rw [runOn_lookup, runOn_lookup, foundIn, foundIn,
    Memory.find_of_recent (Memory.recent_of_find found), found]

namespace HasElement

variable (element : machine.HasElement name index slot)
include element

/-- Looking the string up shows the element, and changes no byte of memory. -/
theorem exists_shown :
    ∃ length room, (machine.foundIn .string name).ShowsElement name index slot length room ∧
      (machine.foundIn .string name).memory.bytes = machine.memory.bytes ∧
      (∀ selector, (readString name selector).runOn machine =
        (readString name selector).runOn (machine.foundIn .string name)) ∧
      ∀ selector source, (writeString name selector source).runOn machine =
        (writeString name selector source).runOn (machine.foundIn .string name) := by
  have found := element.found
  rw [existingSlot, Attempt.runOn_bind_ok (runOn_lookup _ _ _)] at found
  cases known : (machine.memory.find .string name).1 with
  | none =>
    rw [known] at found
    cases found
  | some payload =>
    obtain ⟨long, inside⟩ := element.inside payload known
    have words := element.words
    have recent : (machine.foundIn .string name).memory.recent = some (.string, name, payload) :=
      Memory.recent_of_find known
    obtain ⟨others, same⟩ := Memory.HoldsObjects.find_snd machine.memory .string name
    have bytes : (machine.foundIn .string name).memory.bytes = machine.memory.bytes := by
      rw [foundIn, same]
    have again := lookup_again known
    rw [known] at found
    generalize machine.foundIn .string name = looked at found recent bytes again
    have size : looked.memory.size = machine.memory.size := congrArg Array.size bytes
    have width : looked.memory.width = machine.memory.width := congrArg AddressWidth.forSize size
    have slotted : (slotOf payload index).runOn looked = (.ok slot, looked) := by
      rcases ran : (slotOf payload index).runOn looked with ⟨failure | other, after⟩
      · rw [Attempt.runOn_bind_error ran] at found
        cases found
      · rw [Attempt.runOn_bind_ok ran] at found
        cases found
        obtain ⟨count, counted, some⟩ := exists_count_of_slotOf (congrArg Prod.fst ran)
        rw [runOn_slotOf_eq counted some] at ran
        exact Prod.ext rfl (congrArg Prod.snd ran).symm
    have front := slot_bounds (width ▸ long) (by omega) element.short (congrArg Prod.fst slotted)
    obtain ⟨data, four, read⟩ := Memory.exists_read?
      (show slot.address + (slot.capacity + 1) ≤ looked.memory.size by omega)
    obtain ⟨first, room, rfl⟩ := List.exists_cons_of_length_eq_add_one four
    obtain ⟨before, after, cut, start, -⟩ := Memory.exists_cut_of_read? read
    refine ⟨first, room, ⟨payload, before, after, recent, slotted, cut, start, Nat.succ.inj four,
      front⟩, bytes, fun selector => ?_, fun selector source => ?_⟩
    · rw [readString, element.ordinary, if_neg Bool.false_ne_true, existingSlot, bind_assoc,
        Attempt.runOn_bind_eq_goOn, again, Attempt.runOn_bind_eq_goOn]
    · rw [writeString, element.ordinary, if_neg Bool.false_ne_true, assignableSlot, bind_assoc,
        Attempt.runOn_bind_eq_goOn, again, Attempt.runOn_bind_eq_goOn]

end HasElement

/-- Whether an assignment to a part of a text succeeds just under a condition, and makes another
text. Otherwise it reports a bound or a length, and neither the text nor any byte of memory
changes. -/
structure AssignsPart (machine : Machine) (name : Name) (selector : Selector) (source : Bytes)
    (allowed : Prop) (old new : Bytes) : Prop where
  succeeds : allowed → ∃ after, (writeString name selector source).runOn machine = (.ok (), after) ∧
    ((readString name { index := selector.index }).runOn after).1 = .ok new
  refuses : ¬ allowed → ∃ kind after, (kind = .subscriptOutOfRange ∨ kind = .stringTooLong) ∧
    (writeString name selector source).runOn machine = (.error (.reported { kind }), after) ∧
    after.memory.bytes = machine.memory.bytes ∧
    ((readString name { index := selector.index }).runOn after).1 = .ok old

namespace ShowsElement

variable {first : UInt8} {room source : Bytes} {part : Splice} {selector : Selector}
  (shown : machine.ShowsElement name index slot first room) (ordinary : name.isSpecial = false)
  (same : selector.index = index)
include shown ordinary same

/-- The text of an element that has just been found. -/
theorem readString_whole :
    ((readString name { index := selector.index }).runOn machine).1 =
      .ok (room.take first.toNat) := by
  rw [shown.runOn_readString ordinary { index := selector.index } same,
    Selector.part_whole ⟨rfl, rfl⟩]

/-- Bounds that are refused leave everything as it was. -/
theorem refuses_bound (ran : (splice selector (room.take first.toNat).length source.length).runOn
      machine = (.error (.reported { kind := .subscriptOutOfRange }), machine)) :
    ∃ kind after, (kind = .subscriptOutOfRange ∨ kind = .stringTooLong) ∧
      (writeString name selector source).runOn machine = (.error (.reported { kind }), after) ∧
      after.memory.bytes = machine.memory.bytes ∧
      ((readString name { index := selector.index }).runOn after).1 =
        .ok (room.take first.toNat) := by
  refine ⟨_, machine, .inl rfl, (shown.runOn_writeString ordinary same).trans ?_, rfl,
    shown.readString_whole ordinary same⟩
  rw [writeSlot, Attempt.runOn_bind_ok (runOn_slotLength shown.shows),
    Attempt.runOn_bind_error ran]

/-- So does a part that does not stay in the room. -/
theorem refuses_long (ran : (splice selector (room.take first.toNat).length source.length).runOn
      machine = (.ok part, machine)) (long : ¬ part.start + part.count ≤ slot.capacity) :
    ∃ kind after, (kind = .subscriptOutOfRange ∨ kind = .stringTooLong) ∧
      (writeString name selector source).runOn machine = (.error (.reported { kind }), after) ∧
      after.memory.bytes = machine.memory.bytes ∧
      ((readString name { index := selector.index }).runOn after).1 =
        .ok (room.take first.toNat) :=
  ⟨_, machine, .inr rfl, (shown.runOn_writeString ordinary same).trans
    (runOn_writeSlot_long shown.shows ran (Nat.not_le.mp long)), rfl,
    shown.readString_whole ordinary same⟩

/-- A part that stays in the room is written there. -/
theorem succeeds (ran : (splice selector (room.take first.toNat).length source.length).runOn
      machine = (.ok part, machine)) (taken : part.count ≤ source.length)
    (fits : part.start + part.count ≤ slot.capacity) (short : part.length ≤ 255) :
    ∃ after, (writeString name selector source).runOn machine = (.ok (), after) ∧
      ((readString name { index := selector.index }).runOn after).1 =
        .ok ((part.filled room source).take part.length) := by
  obtain ⟨after, wrote, again⟩ := shown.written ran taken fits
  have length : part.length.toUInt8.toNat = part.length := by
    rw [Nat.toUInt8, UInt8.toNat_ofNat']
    omega
  refine ⟨after, (shown.runOn_writeString ordinary same).trans wrote, ?_⟩
  rw [again.readString_whole ordinary same, length]

end ShowsElement

section Parts

variable {first : UInt8} {room source : Bytes}
  (shown : machine.ShowsElement name index slot first room) (ordinary : name.isSpecial = false)
  (short : slot.capacity ≤ 255) (finite : lower.isFinite = true)
include shown ordinary short finite

/-- **An assignment from a bound on.** -/
theorem ShowsElement.assigns_from (source : Bytes) :
    let text := room.take first.toNat
    let start := (lower.wholePart - 1).toNat
    machine.AssignsPart name { lower := some lower, index } source
      (StartsIn lower text.length ∧ start + source.length ≤ slot.capacity) text
      (text.take start ++ source) := by
  intro text start
  have long := shown.shows.length_room
  have within : text.length ≤ 255 := by
    rw [List.length_take]
    omega
  refine ⟨fun allowed => ?_, fun refused => ?_⟩
  · obtain ⟨place, whole, -, inside⟩ := allowed.1.start finite within
    have startIn : start ≤ text.length := by omega
    have lengths : text.length ≤ room.length := List.length_take_le' _ _
    obtain ⟨after, wrote, read⟩ := shown.succeeds ordinary rfl
      (runOn_splice_from finite within allowed.1) (Nat.le_refl _) allowed.2 (by
        have := allowed.2
        dsimp only
        omega)
    refine ⟨after, wrote, read.trans ?_⟩
    rw [Splice.take_filled_from (by omega)]
    have front : text.take start = room.take start := by
      rw [List.length_take] at startIn
      rw [List.take_take, Nat.min_eq_left (by omega)]
    rw [front]
  · by_cases starts : StartsIn lower text.length
    · exact shown.refuses_long ordinary rfl (runOn_splice_from finite within starts)
        fun fits => refused ⟨starts, fits⟩
    · exact shown.refuses_bound ordinary rfl (runOn_splice_refused finite within starts none)

/-- **An assignment between two bounds.** -/
theorem ShowsElement.assigns_between (finite' : upper.isFinite = true) (source : Bytes) :
    let text := room.take first.toNat
    let start := (lower.wholePart - 1).toNat
    let count := min source.length (upper.wholePart - lower.wholePart + 1).toNat
    machine.AssignsPart name { lower := some lower, upper := some upper, index } source
      (StartsIn lower text.length ∧ lower.atMost upper = true ∧ start + count ≤ slot.capacity) text
      (text.take start ++ source.take count ++ text.drop (start + count)) := by
  intro text start count
  have long := shown.shows.length_room
  have measured : text.length = min first.toNat room.length := List.length_take
  have within : text.length ≤ 255 := by omega
  refine ⟨fun allowed => ?_, fun refused => ?_⟩
  · obtain ⟨starts, ordered, fits⟩ := allowed
    obtain ⟨place, whole, -, inside⟩ := starts.start finite within
    obtain ⟨taken, few, same, ran⟩ :=
      @runOn_splice_between machine _ _ index _ source.length finite finite' within starts ordered
    obtain rfl : taken = count := by
      rcases same with same | ⟨-, many⟩
      · exact same
      · change 255 < count at many
        omega
    obtain ⟨after, wrote, read⟩ := shown.succeeds ordinary rfl ran few fits (by
      dsimp only
      omega)
    have room_take : room.take text.length = text := by
      rw [measured, ← List.take_eq_take_min]
    refine ⟨after, wrote, read.trans ?_⟩
    dsimp only
    rw [Splice.take_filled_between (by omega) (by omega) few, room_take]
  · by_cases starts : StartsIn lower text.length
    · by_cases ordered : lower.atMost upper = true
      · obtain ⟨taken, -, same, ran⟩ :=
          @runOn_splice_between machine _ _ index _ source.length finite finite' within starts
            ordered
        refine shown.refuses_long ordinary rfl ran fun fits => refused ⟨starts, ordered, ?_⟩
        rcases same with rfl | ⟨many, -⟩
        · exact fits
        · dsimp only at fits
          omega
      · exact shown.refuses_bound ordinary rfl
          (runOn_splice_disordered finite finite' within starts ordered)
    · exact shown.refuses_bound ordinary rfl
        (runOn_splice_refused finite within starts (some upper))

end Parts

/-- The part of a text between two bounds. -/
theorem part_between (finite : lower.isFinite = true) (finite' : upper.isFinite = true)
    (counts : Single.one.atMost lower = true) {text : Bytes} (short : text.length ≤ 255)
    (index : Option Single) :
    Selector.part { lower := some lower, upper := some upper, index } text =
      .ok ((text.take upper.wholePart.toNat).drop (lower.wholePart - 1).toNat) := by
  have first := Single.toSize_eq finite
  have last := Single.toSize_eq finite'
  have one := Single.one_le_toSize counts
  unfold Single.sizeLimit at first last
  rw [Selector.part]
  dsimp only
  rw [if_pos counts]
  change Except.ok ((text.drop (min (lower.toSize - 1) text.length)).take
    (max (min upper.toSize text.length) (min (lower.toSize - 1) text.length) -
      min (lower.toSize - 1) text.length)) = _
  rw [List.drop_take]
  refine congrArg Except.ok ?_
  rcases Nat.lt_or_ge (lower.wholePart - 1).toNat text.length with inside | behind
  · have start : min (lower.toSize - 1) text.length = (lower.wholePart - 1).toNat := by omega
    rw [start, List.take_eq_take_iff, List.length_drop]
    omega
  · -- Behind the text both parts are empty.
    rw [List.drop_of_length_le behind, List.drop_of_length_le (by omega), List.take_nil,
      List.take_nil]

/-! ### Variables -/

/-- **In an intact heap every element of a string is in memory.** -/
theorem IsIntact.hasElement {config : Config} [sound : config.IsSound]
    (intact : machine.IsIntact config) (ordinary : name.isSpecial = false)
    (found : ((existingSlot name index).runOn machine).1 = .ok (some slot)) :
    machine.HasElement name index slot := by
  obtain ⟨records, keeps⟩ := intact.exists_keeps
  have half := sound.memorySize_lt
  have size := keeps.size_eq
  have known {payload : Extent} (known : (machine.memory.find .string name).1 = some payload) :
      ∃ record ∈ records, record.Is .string name ∧ payload.length = record.payload.length ∧
        payload.start + record.payload.length ≤ machine.memory.size := by
    obtain ⟨record, among, is, -⟩ :=
      keeps.exists_found
        ((keeps.held.scan?_eq _ _).trans ((keeps.held.find_eq _ _).symm.trans known))
    obtain ⟨there, front, back, same, cut, start, long⟩ := keeps.held.exists_cut among
    rw [is.1, is.2, known] at same
    cases same
    have total := congrArg List.length cut
    rw [Memory.length_contents, List.length_append, List.length_append] at total
    exact ⟨record, among, is, long, by omega⟩
  have string {record : HeapRecord (AddressWidth.forSize config.memorySize)}
      (among : record ∈ records) (is : record.Is .string name) :=
    (keeps.wellFormed record among).string is.1
  refine ⟨ordinary, found, fun payload there => ?_, by omega, ?_⟩
  · obtain ⟨record, among, is, long, inside⟩ := known there
    obtain ⟨capacity, count, string⟩ := string among is
    have width : machine.memory.width = AddressWidth.forSize config.memorySize :=
      congrArg AddressWidth.forSize size
    rw [width, long, string.length] at *
    exact ⟨Nat.le_add_left _ _, inside⟩
  · rw [existingSlot, Attempt.runOn_bind_ok (runOn_lookup _ _ _)] at found
    cases there : (machine.memory.find .string name).1 with
    | none =>
      rw [there] at found
      cases found
    | some payload =>
      obtain ⟨record, among, is, -⟩ := known there
      obtain ⟨capacity, count, string⟩ := string among is
      have shows := (keeps.foundIn .string name).shows among is
        ((find_foundIn keeps.held _ _ _ _).trans there)
      rw [there, Attempt.runOn_bind_eq_goOn, runOn_slotOf shows string] at found
      rcases placed : placeOrFirst (machine.foundIn .string name).config count index
        with _ | place <;>
        rw [placed] at found <;> cases found
      exact string.capacity_le

theorem HasElement.assigns (element : machine.HasElement name index slot) {selector : Selector}
    {source old new : Bytes} {allowed : Prop}
    (assigns : (machine.foundIn .string name).AssignsPart name selector source allowed old new) :
    machine.AssignsPart name selector source allowed old new := by
  obtain ⟨_, _, -, bytes, -, same⟩ := element.exists_shown
  refine ⟨fun met => ?_, fun missed => ?_⟩
  · rw [same]
    exact assigns.succeeds met
  · rw [same, ← bytes]
    exact assigns.refuses missed

/-- **Parts of texts are exact.** For an element of a string that is in memory, and bounds that are
finite: an assignment from a bound on, an assignment between two bounds, and a part that is read. -/
theorem substring_assignment_is_exact (element : machine.HasElement name index slot) {old : Bytes}
    (content : ((readString name { index }).runOn machine).1 = .ok old)
    (finite : lower.isFinite = true) (finite' : upper.isFinite = true) (source : Bytes) :
    let start := (lower.wholePart - 1).toNat
    let count := min source.length (upper.wholePart - lower.wholePart + 1).toNat
    machine.AssignsPart name { lower := some lower, index } source
      (StartsIn lower old.length ∧ start + source.length ≤ slot.capacity) old
      (old.take start ++ source) ∧
    machine.AssignsPart name { lower := some lower, upper := some upper, index } source
      (StartsIn lower old.length ∧ lower.atMost upper = true ∧ start + count ≤ slot.capacity) old
      (old.take start ++ source.take count ++ old.drop (start + count)) ∧
    (Single.one.atMost lower = true →
      ((readString name { lower := some lower, upper := some upper, index }).runOn machine).1 =
        .ok ((old.take upper.wholePart.toNat).drop start)) := by
  intro start count
  obtain ⟨first, room, shown, -, reads, -⟩ := element.exists_shown
  have ordinary := element.ordinary
  rw [reads, shown.readString_whole ordinary (show ({ index } : Selector).index = index from rfl)]
    at content
  cases content
  refine ⟨element.assigns (shown.assigns_from ordinary element.short finite source),
    element.assigns (shown.assigns_between ordinary element.short finite finite' source),
    fun counts => ?_⟩
  rw [reads, shown.runOn_readString ordinary _ rfl]
  refine part_between finite finite' counts ?_ index
  have long := shown.shows.length_room
  have short := element.short
  rw [List.length_take]
  omega

/-- Two characters in the middle of a text that are overwritten, and one behind it that is not
there. -/
theorem substring_assignment_is_exact_hello :
    let config : Config := { memorySize := 64, stringSize := 8 }
    let machine := ((execute 2).runOn ((enter (ascii "A$=\"HELLO\"")).runOn (start config {})).2).2
    let middle : Selector := { lower := some (Single.ofNat 2), upper := some (Single.ofNat 3) }
    let behind : Selector := { lower := some (Single.ofNat 7) }
    (∃ after, (writeString ⟨65, 0⟩ middle (ascii "XYZ")).runOn machine = (.ok (), after) ∧
      ((readString ⟨65, 0⟩ {}).runOn after).1 = .ok (ascii "HXYLO")) ∧
    (∃ kind after, (kind = .subscriptOutOfRange ∨ kind = .stringTooLong) ∧
      (writeString ⟨65, 0⟩ behind (ascii "!")).runOn machine =
        (.error (.reported { kind }), after) ∧ after.memory.bytes = machine.memory.bytes ∧
      ((readString ⟨65, 0⟩ {}).runOn after).1 = .ok (ascii "HELLO")) ∧
    ((readString ⟨65, 0⟩ middle).runOn machine).1 = .ok (ascii "EL") := by
  intro config machine middle behind
  have sound : config.IsSound := ⟨by decide, by decide⟩
  have seen : ((executeWithout [.poke] 2).runOn
        ((enter (ascii "A$=\"HELLO\"")).runOn (start config {})).2).1.toOption.isSome = true ∧
      ((existingSlot ⟨65, 0⟩ none).runOn machine).1 = .ok (some ⟨53, 8⟩) ∧
      ((readString ⟨65, 0⟩ {}).runOn machine).1 = .ok (ascii "HELLO") := by
    decide +kernel
  obtain ⟨goesOn, found, content⟩ := seen
  have reaches : Reaches [.poke] (start config {}) machine :=
    .execute_of_isSome (.enter _ .refl) goesOn
  have element := (Underway.reached reaches).isIntact.hasElement rfl found
  obtain ⟨-, between, reads⟩ := substring_assignment_is_exact element content
    (show (Single.ofNat 2).isFinite = true by decide +kernel)
    (show (Single.ofNat 3).isFinite = true by decide +kernel) (ascii "XYZ")
  obtain ⟨onward, -, -⟩ := substring_assignment_is_exact element content
    (show (Single.ofNat 7).isFinite = true by decide +kernel)
    (show (Single.ofNat 3).isFinite = true by decide +kernel) (ascii "!")
  obtain ⟨after, wrote, read⟩ := between.succeeds (by decide +kernel)
  exact ⟨⟨after, wrote, read.trans (by decide +kernel)⟩, onward.refuses (by decide +kernel),
    (reads (by decide +kernel)).trans (by decide +kernel)⟩

end Machine

end PocketBasic
